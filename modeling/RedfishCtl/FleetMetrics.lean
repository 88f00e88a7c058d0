import RedfishCtl.FleetStatus
import RedfishCtl.PrometheusText

/-! The Prometheus text of the fleet consumer: all HELP and TYPE lines first, then the number of
drifting components, then the readings of each node. -/
namespace RedfishCtl.FleetMetrics
open Exposition
open FleetStatus
open PrometheusText (replace replaceChars labelChars labelCharsRead labelCharsLine)
open Actions (noAttribute)
open PrometheusText (exposed exposedName renderPrometheusText textRoundTrips)

def escapeLabel (value : String) : String :=
  replace '\r' ['\\','r'] (replace '\n' ['\\','n'] (replace '"' ['\\','"']
    (replace '\\' ['\\','\\'] value)))

inductive Number (φ : Type) where
  | int (n : Int)
  | float (x : φ)

structure Reading (φ : Type) where
  name : String
  labels : List (String × String)
  value : Number φ

def headers : List (String × String) :=
  [("redfish_endpoint_info","Static endpoint metadata (value always 1)."),
   ("redfish_endpoint_power_on","1 when the BMC reports a powered-on state."),
   ("redfish_endpoint_health","Health rank: 0 OK, 1 Warning, 2 Critical, -1 unknown."),
   ("redfish_endpoint_temperature_max_celsius","Hottest reported sensor in Celsius."),
   ("redfish_endpoint_temperature_sensor_count","Number of temperature sensors read."),
   ("redfish_endpoint_last_polled_timestamp_seconds","Unix time of the last controller poll."),
   ("redfish_nic_firmware_info","One NIC/DPU firmware component (value always 1)."),
   ("redfish_node_nic_count","Number of NIC/DPU adapters on the node."),
   ("redfish_node_nic_firmware_distinct_versions",
     "Distinct firmware versions on the node (a NIC + its DPU differ normally; this is not drift)."),
   ("redfish_fleet_nic_firmware_drift_components",
     "Firmware components whose version differs ACROSS nodes (real fleet drift; 0 is healthy).")]

def headerLines : List String := headers.flatMap fun h => [helpLine h.1 h.2,kindLine h.1 "gauge"]

def healthRank (health : Json) : Int :=
  ([("OK",0),("Warning",1),("Critical",2)].lookup (PyText.str health)).getD (-1)

section
variable {φ : Type} (numerals : Numerals φ) (fromisoformat : String → Option Int)

def Number.text : Number φ → String
  | .int n => toString n
  | .float x => numerals.repr x

def Number.value : Number φ → φ
  | .int n => numerals.ofInt n
  | .float x => x

def metricLine (r : Reading φ) : String :=
  seriesLine escapeLabel r.name r.labels (r.value.text numerals)

def epochFromRfc3339 (value : Json) : Except PyError (Option Int) :=
  if value.truthy then
    match value with
    | .str s =>
        let text := (PyText.strip s).toList
        .ok (fromisoformat (String.ofList
          (if text.getLast? = some 'Z' then text.dropLast ++ "+00:00".toList else text)))
    | value => .error (noAttribute value "strip")
  else .ok none

def infoLabels (node : Node φ) : List (String × String) :=
  [("node",node.name),("address",node.address),("backend",node.backend.text),
   ("power_state",textOr node.powerState "unknown"),("health",textOr node.health "unknown"),
   ("state",node.state.text)]

def firmwareLabels (node : Node φ) (c : Component) : List (String × String) :=
  [("node",node.name),("nic_id",textOr c.id ""),("device_class",textOr c.deviceClass ""),
   ("version",textOr c.version "unknown")]

def nodeRows (node : Node φ) (on : Bool) (polled : Option Int) : List (Reading φ) :=
  let labels := [("node",node.name)]
  [⟨"redfish_endpoint_info",infoLabels node,.int 1⟩] ++
    [⟨"redfish_endpoint_power_on",labels,.int (if on then 1 else 0)⟩] ++
    [⟨"redfish_endpoint_health",labels,.int (healthRank node.health)⟩] ++
    node.temperatureMaxCelsius.toList.map
      (fun x => ⟨"redfish_endpoint_temperature_max_celsius",labels,.float x⟩) ++
    node.temperatureCount.toList.map
      (fun n => ⟨"redfish_endpoint_temperature_sensor_count",labels,.int n⟩) ++
    polled.toList.map (fun n => ⟨"redfish_endpoint_last_polled_timestamp_seconds",labels,.int n⟩) ++
    node.nicAdapterCount.toList.map (fun n => ⟨"redfish_node_nic_count",labels,.int n⟩) ++
    [⟨"redfish_node_nic_firmware_distinct_versions",labels,.int node.nicFirmwareVersions.length⟩] ++
    node.nicFirmware.map (fun c => ⟨"redfish_nic_firmware_info",firmwareLabels node c,.int 1⟩)

def nodeReadings (node : Node φ) : Except PyError (List (Reading φ)) := do
  let on ← isPoweredOn node.powerState
  let polled ← epochFromRfc3339 fromisoformat node.lastPolled
  .ok (nodeRows node on polled)

def eachReadings : List (Node φ) → Except PyError (List (Reading φ))
  | [] => .ok []
  | node::rest => do
      let here ← nodeReadings fromisoformat node
      let others ← eachReadings rest
      .ok (here ++ others)

def driftReading (nodes : List (Node φ)) : Reading φ :=
  ⟨"redfish_fleet_nic_firmware_drift_components",[],.int (fleetFirmwareDrift nodes).length⟩

def fleetReadings (nodes : List (Node φ)) : Except PyError (List (Reading φ)) :=
  (eachReadings fromisoformat nodes).map (driftReading nodes :: ·)

def renderMetrics (nodes : List (Node φ)) : Except PyError String :=
  (fleetReadings fromisoformat nodes).map fun readings =>
    document (headerLines ++ readings.map (metricLine numerals))

def Reading.series (r : Reading φ) : Series φ := ⟨r.name,r.labels,r.value.value numerals⟩

end

/-! Escaping. -/

def fleetChars (c : Char) : Text := if c = '\r' then ['\\','r'] else labelChars c

theorem escapeLabelChars (value : String) :
    (escapeLabel value).toList = value.toList.flatMap fleetChars := by
  unfold escapeLabel
  rw [replaceChars,replaceChars,replaceChars,replaceChars,List.flatMap_assoc,List.flatMap_assoc,
    List.flatMap_assoc]
  apply List.flatMap_congr
  intro c _
  unfold fleetChars labelChars
  by_cases back : c = '\r'
  · subst back
    decide
  by_cases slash : c = '\\'
  · subst slash
    decide
  by_cases feed : c = '\n'
  · subst feed
    decide
  · by_cases quote : c = '"'
    · subst quote
      decide
    · simp [slash,feed,quote]

def fleetEscaping : Escaping where
  escape := escapeLabel
  char := fleetChars
  good := fun c => c ≠ '\r'
  chars := escapeLabelChars
  reads := fun good rest => by
    rw [fleetChars,if_neg (by simpa using good)]
    exact labelCharsRead _ rest
  fails := fun bad rest => by
    rw [fleetChars,if_pos (by simpa using bad)]
    simp [readQuoted,unescape]
  oneLine := fun c => by
    unfold fleetChars
    split
    · decide
    · exact labelCharsLine c

/-! Lines. -/

section
variable {φ : Type} (numerals : Numerals φ)

theorem numberRead (value : Number φ) :
    numerals.read (value.text numerals) = some (value.value numerals) := by
  cases value with
  | int n => exact numerals.readInt n
  | float x => exact numerals.readRepr x

theorem numberPlain (value : Number φ) : Plain (value.text numerals) := by
  cases value with
  | int n => exact intPlain n
  | float x => exact numerals.reprPlain x

structure Known (r : Reading φ) : Prop where
  header : r.name ∈ headers.map Prod.fst
  labels : ∀ l ∈ r.labels, isLabelName l.1 = true

theorem headerTexts : ∀ h ∈ headers, isMetricName h.1 = true ∧
    readHelp false (skip h.2.toList) = some h.2.toList ∧ '\n' ∉ h.2.toList := by
  intro h mem
  simp only [headers,List.mem_cons,List.not_mem_nil,or_false] at mem
  unfold isMetricName
  rcases mem with rfl | rfl | rfl | rfl | rfl | rfl | rfl | rfl | rfl | rfl <;>
    exact ⟨by rw [String.toList_ofList]; decide +kernel,by rw [String.toList_ofList]; decide +kernel,
      by rw [String.toList_ofList]; decide +kernel⟩

theorem headersDistinct : (headers.map Prod.fst).Nodup := by decide +kernel

theorem headerNames (name : String) (known : name ∈ headers.map Prod.fst) : isMetricName name = true := by
  obtain ⟨h,mem,rfl⟩ := List.mem_map.mp known
  exact (headerTexts h mem).1

def Reading.takes (r : Reading φ) : Bool := r.labels.all fun l => fleetEscaping.takes l.2

theorem metricLineRead {r} (known : Known r) :
    readLine numerals.read (metricLine numerals r).toList =
      if r.takes then some [.sample (r.series numerals)] else none := by
  have line := seriesRead fleetEscaping numerals.read (headerNames _ known.header) known.labels
    (numberPlain numerals r.value)
  rw [numberRead] at line
  exact line

variable {readings : List (Reading φ)}

theorem readingsRead (known : ∀ r ∈ readings, Known r) :
    readLines numerals.read ((readings.map (metricLine numerals)).map String.toList) =
      if readings.all Reading.takes then some (readings.map fun r => .sample (r.series numerals))
      else none := by
  induction readings with
  | nil => rfl
  | cons r rest ih =>
    have later := ih fun s mem => known s (List.mem_cons_of_mem r mem)
    rw [List.map_cons,List.map_cons,readLines,metricLineRead numerals (known r List.mem_cons_self),later,
      List.all_cons]
    cases r.takes with
    | false => rfl
    | true => cases rest.all Reading.takes with
      | false => rfl
      | true => rfl

def headerEntries : List (Entry φ) := headers.flatMap fun h => [.help h.1 h.2,.kind h.1 "gauge"]

theorem headersRead : readLines numerals.read (headerLines.map String.toList) = some headerEntries := by
  have texts := headerTexts
  unfold headerLines headerEntries
  generalize headers = hs at texts
  induction hs with
  | nil => rfl
  | cons h rest ih =>
    obtain ⟨legal,text,_⟩ := texts h List.mem_cons_self
    have later := ih fun g mem => texts g (List.mem_cons_of_mem h mem)
    have help := helpRead numerals.read legal text
    have kind := kindRead numerals.read legal (show kinds.contains "gauge" = true by decide)
    rw [List.flatMap_cons,List.map_append,readLinesAppend,later]
    simp [readLines,help,kind]

theorem linesOne (known : ∀ r ∈ readings, Known r) :
    ∀ line ∈ headerLines ++ readings.map (metricLine numerals), '\n' ∉ line.toList := by
  intro line mem
  rcases List.mem_append.mp mem with mem | mem
  · obtain ⟨h,inside,two⟩ := List.mem_flatMap.mp mem
    obtain ⟨legal,_,plain⟩ := headerTexts h inside
    rcases List.mem_cons.mp two with rfl | two
    · exact helpLineOne legal plain
    · rw [List.mem_singleton.mp two]
      exact kindLineOne legal (by decide)
  · obtain ⟨r,inside,rfl⟩ := List.mem_map.mp mem
    exact seriesLineOne fleetEscaping (headerNames _ (known r inside).header) (known r inside).labels
      (numberPlain numerals r.value)

def readingEntries (readings : List (Reading φ)) : List (Entry φ) :=
  headerEntries ++ readings.map fun r => .sample (r.series numerals)

theorem readingsDocument (known : ∀ r ∈ readings, Known r) :
    readDocument numerals.read (document (headerLines ++ readings.map (metricLine numerals))) =
      if readings.all Reading.takes then some (readingEntries numerals readings) else none := by
  rw [documentRead numerals.read (linesOne numerals known),List.map_append,readLinesAppend,headersRead,
    readingsRead numerals known]
  cases readings.all Reading.takes with
  | false => rfl
  | true => rfl

theorem headerSeries : seriesOf (headerEntries : List (Entry φ)) = [] := rfl

theorem readingSeries (readings : List (Reading φ)) :
    seriesOf (readingEntries numerals readings) = readings.map (Reading.series numerals) := by
  unfold readingEntries
  rw [seriesAppend,headerSeries,List.nil_append]
  induction readings with
  | nil => rfl
  | cons r rest ih =>
    rw [List.map_cons,seriesCons,ih]
    rfl

theorem samplesTyped {typed} (known : ∀ r ∈ readings, r.name ∈ typed) :
    Typed typed (readings.map fun r => .sample (r.series numerals)) := by
  induction readings with
  | nil => exact .nil
  | cons r rest ih =>
    exact .sample (known r List.mem_cons_self) (ih fun s mem => known s (List.mem_cons_of_mem r mem))

theorem headersTyped {hs : List (String × String)} {typed} {rest : List (Entry φ)}
    (distinct : (hs.map Prod.fst).Nodup) (fresh : ∀ h ∈ hs, h.1 ∉ typed)
    (later : Typed ((hs.map Prod.fst).reverse ++ typed) rest) :
    Typed typed ((hs.flatMap fun h => [.help h.1 h.2,.kind h.1 "gauge"]) ++ rest) := by
  induction hs generalizing typed with
  | nil => exact later
  | cons h hs ih =>
    obtain ⟨new,others⟩ := List.nodup_cons.mp distinct
    refine .help (.kind (fresh h List.mem_cons_self) (ih others ?_ ?_))
    · intro g mem again
      rcases List.mem_cons.mp again with same | again
      · exact new (same ▸ List.mem_map_of_mem mem)
      · exact fresh g (List.mem_cons_of_mem h mem) again
    · rw [List.map_cons,List.reverse_cons,List.append_assoc] at later
      exact later

theorem readingsGrouped (known : ∀ r ∈ readings, Known r)
    (together : Contiguous (readings.map Reading.name)) : Grouped (readingEntries numerals readings) where
  typed := fun split => by
    have once : Typed [] (readingEntries numerals readings) := by
      refine headersTyped headersDistinct (fun h _ => List.not_mem_nil) (samplesTyped numerals ?_)
      intro r mem
      rw [List.append_nil,List.mem_reverse]
      exact (known r mem).header
    have place := typedSplit once split
    exact ⟨place.1 List.not_mem_nil,place.2⟩
  together := fun split same => by
    refine togetherBehind headerSeries ?_ split same
    rw [List.map_map]
    exact together

theorem readingsRoundTrip (known : ∀ r ∈ readings, Known r) :
    RoundTrips numerals.read (document (headerLines ++ readings.map (metricLine numerals)))
        (readings.map (Reading.series numerals)) ↔
      readings.all Reading.takes = true ∧ Contiguous (readings.map Reading.name) := by
  constructor
  · rintro ⟨entries,found,same,grouped⟩
    rw [readingsDocument numerals known] at found
    split at found
    · rename_i taken
      have together := groupedContiguous grouped
      rw [sameNames same,List.map_map] at together
      exact ⟨taken,together⟩
    · cases found
  · rintro ⟨taken,together⟩
    refine ⟨readingEntries numerals readings,?_,?_,readingsGrouped numerals known together⟩
    · rw [readingsDocument numerals known,if_pos taken]
    · rw [readingSeries,List.forall₂_same]
      exact fun s _ => ⟨rfl,List.Perm.refl _,rfl⟩

end

/-! Nodes. -/

section
variable {φ : Type}

def rowRuns (node : Node φ) (polled : Option Int) : List (String × ℕ) :=
  [("redfish_endpoint_info",1),("redfish_endpoint_power_on",1),("redfish_endpoint_health",1),
   ("redfish_endpoint_temperature_max_celsius",node.temperatureMaxCelsius.toList.length),
   ("redfish_endpoint_temperature_sensor_count",node.temperatureCount.toList.length),
   ("redfish_endpoint_last_polled_timestamp_seconds",polled.toList.length),
   ("redfish_node_nic_count",node.nicAdapterCount.toList.length),
   ("redfish_node_nic_firmware_distinct_versions",1),
   ("redfish_nic_firmware_info",node.nicFirmware.length)]

theorem rowsRuns (node : Node φ) (on : Bool) (polled : Option Int) :
    (nodeRows node on polled).map Reading.name =
      (rowRuns node polled).flatMap fun r => List.replicate r.2 r.1 := by
  simp [nodeRows,rowRuns,Function.comp_def]

theorem runsDistinct (node : Node φ) (polled : Option Int) :
    ("redfish_fleet_nic_firmware_drift_components"::(rowRuns node polled).map Prod.fst).Perm
      (headers.map Prod.fst) :=
  show List.Perm ["redfish_fleet_nic_firmware_drift_components","redfish_endpoint_info",
    "redfish_endpoint_power_on","redfish_endpoint_health","redfish_endpoint_temperature_max_celsius",
    "redfish_endpoint_temperature_sensor_count","redfish_endpoint_last_polled_timestamp_seconds",
    "redfish_node_nic_count","redfish_node_nic_firmware_distinct_versions","redfish_nic_firmware_info"]
    (headers.map Prod.fst) by decide +kernel

theorem rowsKnown (node : Node φ) (on : Bool) (polled : Option Int) :
    ∀ r ∈ nodeRows node on polled, Known r := by
  have node' : isLabelName "node" = true := by decide
  have lone : ∀ l ∈ [("node",node.name)], isLabelName l.1 = true := by
    intro l mem
    rw [List.mem_singleton.mp mem]
    exact node'
  have info : ∀ n ∈ (infoLabels node).map Prod.fst, isLabelName n = true :=
    show ∀ n ∈ ["node","address","backend","power_state","health","state"], isLabelName n = true by
      decide +kernel
  have firmware : ∀ c, ∀ n ∈ (firmwareLabels node c).map Prod.fst, isLabelName n = true := fun c =>
    show ∀ n ∈ ["node","nic_id","device_class","version"], isLabelName n = true by decide +kernel
  intro r mem
  constructor
  · have name : r.name ∈ (nodeRows node on polled).map Reading.name := List.mem_map_of_mem mem
    rw [rowsRuns] at name
    obtain ⟨run,inside,copy⟩ := List.mem_flatMap.mp name
    rw [(List.mem_replicate.mp copy).2]
    exact (runsDistinct node polled).mem_iff.mp (List.mem_cons_of_mem _ (List.mem_map_of_mem inside))
  · simp only [nodeRows,List.mem_append,List.mem_singleton,List.mem_map] at mem
    rcases mem with (((((((rfl | rfl) | rfl) | ⟨_,_,rfl⟩) | ⟨_,_,rfl⟩) | ⟨_,_,rfl⟩) | ⟨_,_,rfl⟩) | rfl) |
      ⟨c,_,rfl⟩
    · exact fun l mem => info l.1 (List.mem_map_of_mem mem)
    · exact lone
    · exact lone
    · exact lone
    · exact lone
    · exact lone
    · exact lone
    · exact lone
    · exact fun l mem => firmware c l.1 (List.mem_map_of_mem mem)

def labelTexts (node : Node φ) : List String :=
  [node.name,node.address,textOr node.powerState "unknown",textOr node.health "unknown"] ++
    node.nicFirmware.flatMap fun c =>
      [textOr c.id "",textOr c.deviceClass "",textOr c.version "unknown"]

structure Printable (node : Node φ) : Prop where
  listed : ∀ items, node.powerState ≠ .arr items
  mapped : ∀ members, node.powerState ≠ .obj members
  polled : node.lastPolled.truthy = true → ∃ s, node.lastPolled = .str s

def Unreturned (text : String) : Prop := '\r' ∉ text.toList

theorem takesIff (text : String) : fleetEscaping.takes text = true ↔ Unreturned text := by
  unfold Escaping.takes Unreturned
  rw [List.all_eq_true]
  constructor
  · intro all mem
    exact absurd (all _ mem) (by simp [fleetEscaping])
  · intro free c mem
    simp only [fleetEscaping,decide_eq_true_eq]
    rintro rfl
    exact free mem

theorem takesLabels (r : Reading φ) : r.takes = true ↔ ∀ l ∈ r.labels, Unreturned l.2 := by
  simp [Reading.takes,takesIff]

theorem rowsTaken (node : Node φ) (on : Bool) (polled : Option Int) :
    (nodeRows node on polled).all Reading.takes = true ↔ ∀ text ∈ labelTexts node, Unreturned text := by
  have backend : Unreturned node.backend.text := by
    unfold Unreturned
    cases node.backend <;> decide
  have state : Unreturned node.state.text := by
    unfold Unreturned
    cases node.state <;> decide
  have info : (∀ l ∈ infoLabels node, Unreturned l.2) ↔
      ∀ text ∈ [node.name,node.address,textOr node.powerState "unknown",textOr node.health "unknown"],
        Unreturned text := by simp [infoLabels,backend,state]
  have firmware : ∀ c, (∀ l ∈ firmwareLabels node c, Unreturned l.2) ↔ Unreturned node.name ∧
      ∀ text ∈ [textOr c.id "",textOr c.deviceClass "",textOr c.version "unknown"],
        Unreturned text := fun c => by simp [firmwareLabels]
  rw [List.all_eq_true]
  simp only [takesLabels]
  constructor
  · intro all text mem
    rcases List.mem_append.mp mem with mem | mem
    · exact info.mp (all ⟨"redfish_endpoint_info",infoLabels node,.int 1⟩ (by simp [nodeRows])) text mem
    · obtain ⟨c,inside,mem⟩ := List.mem_flatMap.mp mem
      have row := all ⟨"redfish_nic_firmware_info",firmwareLabels node c,.int 1⟩
        (List.mem_append_right _ (List.mem_map_of_mem inside))
      exact ((firmware c).mp row).2 text mem
  · intro clean r mem
    have name := clean node.name (by simp [labelTexts])
    have lone : ∀ l ∈ [("node",node.name)], Unreturned l.2 := by
      intro l mem
      rw [List.mem_singleton.mp mem]
      exact name
    simp only [nodeRows,List.mem_append,List.mem_singleton,List.mem_map] at mem
    rcases mem with (((((((rfl | rfl) | rfl) | ⟨_,_,rfl⟩) | ⟨_,_,rfl⟩) | ⟨_,_,rfl⟩) | ⟨_,_,rfl⟩) | rfl) |
      ⟨c,inside,rfl⟩
    · exact info.mpr fun text mem => clean text (List.mem_append_left _ mem)
    · exact lone
    · exact lone
    · exact lone
    · exact lone
    · exact lone
    · exact lone
    · exact lone
    · exact (firmware c).mpr ⟨name,fun text mem => clean text
        (List.mem_append_right _ (List.mem_flatMap.mpr ⟨c,inside,mem⟩))⟩

variable (fromisoformat : String → Option Int)

theorem epochOk (value : Json) : (∃ polled, epochFromRfc3339 fromisoformat value = .ok polled) ↔
    (value.truthy = true → ∃ s, value = .str s) := by
  unfold epochFromRfc3339
  split
  · rename_i full
    split
    · exact ⟨fun _ _ => ⟨_,rfl⟩,fun _ => ⟨_,rfl⟩⟩
    rename_i other
    constructor
    · rintro ⟨_,failed⟩
      cases failed
    · intro text
      obtain ⟨s,same⟩ := text full
      exact absurd same (other s)
  · rename_i empty
    exact ⟨fun _ full => absurd full empty,fun _ => ⟨none,rfl⟩⟩

theorem poweredOnOk (value : Json) : (∃ on, isPoweredOn value = .ok on) ↔
    (∀ items, value ≠ .arr items) ∧ ∀ members, value ≠ .obj members := by
  cases value <;> simp [isPoweredOn]

variable {readings : List (Reading φ)}

theorem nodeReadingsRows {node} (ok : nodeReadings fromisoformat node = .ok readings) :
    ∃ on polled, readings = nodeRows node on polled := by
  unfold nodeReadings at ok
  cases power : isPoweredOn node.powerState with
  | error e =>
    rw [power] at ok
    cases ok
  | ok on => cases time : epochFromRfc3339 fromisoformat node.lastPolled with
    | error e =>
      rw [power,time] at ok
      cases ok
    | ok polled =>
      rw [power,time] at ok
      cases ok
      exact ⟨on,polled,rfl⟩

theorem printableIff (node : Node φ) :
    (∃ readings, nodeReadings fromisoformat node = .ok readings) ↔ Printable node := by
  have power := poweredOnOk node.powerState
  have time := epochOk fromisoformat node.lastPolled
  constructor
  · rintro ⟨readings,ok⟩
    unfold nodeReadings at ok
    cases on : isPoweredOn node.powerState with
    | error e =>
      rw [on] at ok
      cases ok
    | ok b => cases polled : epochFromRfc3339 fromisoformat node.lastPolled with
      | error e =>
        rw [on,polled] at ok
        cases ok
      | ok t => exact ⟨(power.mp ⟨b,on⟩).1,(power.mp ⟨b,on⟩).2,time.mp ⟨t,polled⟩⟩
  · intro printable
    obtain ⟨b,on⟩ := power.mpr ⟨printable.listed,printable.mapped⟩
    obtain ⟨t,polled⟩ := time.mpr printable.polled
    refine ⟨nodeRows node b t,?_⟩
    unfold nodeReadings
    rw [on,polled]
    rfl

theorem eachCons {node rest} (ok : eachReadings fromisoformat (node::rest) = .ok readings) :
    ∃ here others, nodeReadings fromisoformat node = .ok here ∧
      eachReadings fromisoformat rest = .ok others ∧ readings = here ++ others := by
  unfold eachReadings at ok
  cases first : nodeReadings fromisoformat node with
  | error e =>
    rw [first] at ok
    cases ok
  | ok here => cases later : eachReadings fromisoformat rest with
    | error e =>
      rw [first,later] at ok
      cases ok
    | ok others =>
      rw [first,later] at ok
      cases ok
      exact ⟨here,others,rfl,rfl,rfl⟩

theorem eachKnown {nodes} (ok : eachReadings fromisoformat nodes = .ok readings) :
    ∀ r ∈ readings, Known r := by
  induction nodes generalizing readings with
  | nil =>
    cases ok
    exact fun r mem => absurd mem List.not_mem_nil
  | cons node rest ih =>
    obtain ⟨here,others,first,later,rfl⟩ := eachCons fromisoformat ok
    obtain ⟨on,polled,rfl⟩ := nodeReadingsRows fromisoformat first
    intro r mem
    rcases List.mem_append.mp mem with mem | mem
    · exact rowsKnown node on polled r mem
    · exact ih later r mem

theorem driftKnown (nodes : List (Node φ)) : Known (driftReading nodes) where
  header := show "redfish_fleet_nic_firmware_drift_components" ∈ headers.map Prod.fst by decide +kernel
  labels := fun _ mem => absurd mem List.not_mem_nil

theorem twoApart {a b rest name} (ok : eachReadings fromisoformat (a::b::rest) = .ok readings) :
    ¬ Contiguous (name::readings.map Reading.name) := by
  obtain ⟨here,others,first,later,rfl⟩ := eachCons fromisoformat ok
  obtain ⟨there,more,second,_,rfl⟩ := eachCons fromisoformat later
  obtain ⟨on,polled,rfl⟩ := nodeReadingsRows fromisoformat first
  obtain ⟨on',polled',rfl⟩ := nodeReadingsRows fromisoformat second
  intro together
  -- The second reading is of another family, and the first family comes back with the next node.
  simp only [nodeRows,List.map_append,List.map_cons,List.map_nil,List.cons_append,
    List.nil_append] at together
  have same := together.2.1 (by simp)
  simp at same

theorem oneTogether (node : Node φ) (on : Bool) (polled : Option Int) :
    Contiguous ("redfish_fleet_nic_firmware_drift_components"::
      (nodeRows node on polled).map Reading.name) := by
  have distinct := (runsDistinct node polled).nodup_iff.mpr headersDistinct
  have runs : Contiguous ((("redfish_fleet_nic_firmware_drift_components",1)::rowRuns node polled).flatMap
      fun r => List.replicate r.2 r.1) := contiguousRuns distinct
  rw [List.flatMap_cons,← rowsRuns node on polled] at runs
  exact runs

variable (numerals : Numerals φ)

def Faithful (nodes : List (Node φ)) : Prop :=
  ∃ readings text, fleetReadings fromisoformat nodes = .ok readings ∧
    renderMetrics numerals fromisoformat nodes = .ok text ∧
    RoundTrips numerals.read text (readings.map (Reading.series numerals))

theorem faithfulIff (nodes : List (Node φ)) : Faithful fromisoformat numerals nodes ↔
    ∃ readings, eachReadings fromisoformat nodes = .ok readings ∧ readings.all Reading.takes = true ∧
      Contiguous ("redfish_fleet_nic_firmware_drift_components"::readings.map Reading.name) := by
  unfold Faithful renderMetrics fleetReadings
  cases all : eachReadings fromisoformat nodes with
  | error e => simp [Except.map]
  | ok readings =>
    have known : ∀ r ∈ driftReading nodes::readings, Known r := by
      intro r mem
      rcases List.mem_cons.mp mem with rfl | mem
      · exact driftKnown nodes
      · exact eachKnown fromisoformat all r mem
    have trip := readingsRoundTrip numerals known
    constructor
    · rintro ⟨_,_,first,second,round⟩
      cases first
      cases second
      exact ⟨readings,rfl,trip.mp round⟩
    · rintro ⟨_,same,both⟩
      cases same
      exact ⟨_,_,rfl,rfl,trip.mpr both⟩

/- The text is faithful iff there is at most one node, printable and without carriage returns. -/
theorem fleetRoundTrips (nodes : List (Node φ)) : Faithful fromisoformat numerals nodes ↔
    nodes.length ≤ 1 ∧ ∀ node ∈ nodes, Printable node ∧ ∀ text ∈ labelTexts node, Unreturned text := by
  rw [faithfulIff]
  cases nodes with
  | nil => exact ⟨fun _ => ⟨by simp,by simp⟩,fun _ => ⟨[],rfl,rfl,by simp [Contiguous]⟩⟩
  | cons node rest => cases rest with
    | nil =>
      constructor
      · rintro ⟨readings,ok,taken,_⟩
        obtain ⟨here,_,first,last,rfl⟩ := eachCons fromisoformat ok
        cases last
        obtain ⟨on,polled,rfl⟩ := nodeReadingsRows fromisoformat first
        rw [List.append_nil] at taken
        refine ⟨Nat.le_refl 1,fun other mem => ?_⟩
        rw [List.mem_singleton.mp mem]
        exact ⟨(printableIff fromisoformat node).mp ⟨_,first⟩,(rowsTaken node on polled).mp taken⟩
      · rintro ⟨_,each⟩
        obtain ⟨printable,clean⟩ := each node List.mem_cons_self
        obtain ⟨readings,first⟩ := (printableIff fromisoformat node).mpr printable
        obtain ⟨on,polled,rfl⟩ := nodeReadingsRows fromisoformat first
        refine ⟨nodeRows node on polled,?_,(rowsTaken node on polled).mpr clean,oneTogether node on polled⟩
        unfold eachReadings
        rw [first]
        simp [eachReadings,bind,Except.bind]
    | cons other rest =>
      constructor
      · rintro ⟨readings,ok,_,together⟩
        exact absurd together (twoApart fromisoformat ok)
      · rintro ⟨short,_⟩
        simp at short

end

/-! Both writers. -/

def collectorSamples : List (MetricModel.MetricSample {text : String // Plain text}) :=
  ["sensors","thermal"].flatMap fun collector =>
    ["redfish_exporter_collector_success","redfish_exporter_collector_supported"].map fun metric =>
      ⟨metric,literals.ofInt 1,[("collector",collector)],.gauge,none,.null⟩

def pendingNode (φ : Type) (name : String) : Node φ where
  name := name
  namespaceName := ""
  address := ""
  port := .null
  insecure := true
  backend := .live
  state := .pending
  powerState := .null
  health := .null
  temperatureCount := none
  temperatureMaxCelsius := none
  nicAdapterCount := none
  nicCount := none
  dpuCount := none
  nicFirmwareCount := none
  nicFirmwareUpdateableCount := none
  nicFirmwareVersions := []
  nicFirmware := []
  lastPolled := .null

example : normalizeEndpoint (fun _ => none) (.obj [("metadata",.obj [("name",.str "bmc-1")])]) =
    .ok (pendingNode _ "bmc-1") := rfl

end RedfishCtl.FleetMetrics
