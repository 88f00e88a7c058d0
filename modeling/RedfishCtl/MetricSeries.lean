import RedfishCtl.MetricReports

/-! Which readings of a report share a series. A reading is what a naming scheme takes from a row:
the texts it puts into the metric name and its fixed labels, and the fields it keeps as dimensions. -/
namespace RedfishCtl.MetricReports
open AssocList
open Labels (writeAll shown)
open MetricModel
open Binary64 (Datum)
open PyText (isDigit str)

def SameSeries (a b : MetricSample Datum) : Prop :=
  a.metric = b.metric ∧ ∀ key, a.dimensions.lookup key = b.dimensions.lookup key

inductive Scheme where
  | temperature
  | clock
  | compute
  | throttle
  | memory
  | fabric
  | generic
  | state
  deriving DecidableEq, Repr

abbrev Place := Field → Option String

inductive Reading where
  | temperature (place : Place) (prop : String)
  | clock (place : Place)
  | compute (place : Place) (prop label : String)
      (known : gpuComputeProperties.lookup prop = some label)
  | throttle (place : Place) (prop label : String)
      (known : gpuThrottleProperties.lookup prop = some label)
  | memory (place : Place) (prop metric label : String)
      (known : gpuMemoryMetric prop = some (metric,label))
  | fabric (place : Place) (prop metric kind : String)
      (known : fabricPropertyMetrics.lookup prop = some metric) (named : kind ≠ "")
  | generic (place : Place) (prop : String)
  | state (place : Place) (prop kind label metric : String) (labels : List (String × String))
      (known : stateMetric prop kind label = some (metric,labels))

namespace Reading

def scheme : Reading → Scheme
  | temperature .. => .temperature
  | clock .. => .clock
  | compute .. => .compute
  | throttle .. => .throttle
  | memory .. => .memory
  | fabric .. => .fabric
  | generic .. => .generic
  | state .. => .state

def place : Reading → Place
  | temperature place _ => place
  | clock place => place
  | compute place .. => place
  | throttle place .. => place
  | memory place .. => place
  | fabric place .. => place
  | generic place _ => place
  | state place .. => place

def name : Reading → List String
  | temperature _ prop => [dimValue prop]
  | clock _ => []
  | compute _ prop _ _ => [prop]
  | throttle _ prop _ _ => [prop]
  | memory _ prop _ _ _ => [prop]
  | fabric _ prop _ kind _ _ => [prop,kind]
  | generic _ prop => [genericMetricName prop,dimValue prop]
  | state _ prop _ _ _ labels _ => prop::labels.map Prod.snd

end Reading

def Scheme.kept : Scheme → List Field
  | .temperature | .clock | .throttle | .memory => [.gpu,.system,.chassis,.memory]
  | .compute => [.gpu,.system,.chassis,.memory,.index]
  | .fabric => [.system,.gpu,.port]
  | .generic => [.system,.gpu,.port,.chassis,.index]
  | .state => [.system,.gpu,.port,.chassis,.memory,.index]

def Reading.dimension (identity : Dims) (r : Reading) (f : Field) : Option String :=
  shown (baseDims identity) (f.key,(r.place f).bind present)

def Collide (identity : Dims) (r s : Reading) : Prop :=
  r.scheme = s.scheme ∧ r.name = s.name ∧
    ∀ f ∈ r.scheme.kept, r.dimension identity f = s.dimension identity f

def resolved (info : PropInfo) (gpu : String) : Place
  | .gpu => some gpu
  | f => info.field f

def computeReading (place : Place) (prop : String) : Option Reading :=
  match known : gpuComputeProperties.lookup prop with
  | some label => some (.compute place prop label known)
  | none => none

def throttleReading (place : Place) (prop : String) : Option Reading :=
  match known : gpuThrottleProperties.lookup prop with
  | some label => some (.throttle place prop label known)
  | none => none

def memoryReading (place : Place) (prop : String) : Option Reading :=
  match known : gpuMemoryMetric prop with
  | some (metric,label) => some (.memory place prop metric label known)
  | none => none

def gpuReading (builtins : Builtins) (info : PropInfo) (row : Row) : Option Reading :=
  match (gpuFromMetricInfo builtins info).bind present with
  | none => none
  | some gpu =>
      let prop := info.property
      let place := resolved info gpu
      let numeric := (asFloat builtins (get row "MetricValue")).isSome
      let throttle := if (durationSeconds builtins (get row "MetricValue")).isSome then
        throttleReading place prop else none
      match info.metricSource with
      | some .sensor =>
          if isGpuTemperature prop ∧ numeric then some (.temperature place prop) else none
      | some .processor =>
          if numeric then
            if prop = "OperatingSpeedMHz" then some (.clock place)
            else (computeReading place prop).or throttle
          else throttle
      | some .memory => if numeric then memoryReading place prop else none
      | none => none

def stateReading (info : PropInfo) (row : Row) : Option Reading :=
  match present (stateText row) with
  | none => none
  | some text =>
      match known : stateMetric info.property (fabricOf info) (stateLabel text) with
      | some (metric,labels) =>
          some (.state info.field info.property (fabricOf info) (stateLabel text) metric labels known)
      | none => none

theorem fabricNamed (info : PropInfo) : fabricOf info ≠ "" := by
  unfold fabricOf
  split
  · decide
  · decide

def numberReading (info : PropInfo) : Reading :=
  match known : fabricPropertyMetrics.lookup info.property with
  | some metric => .fabric info.field info.property metric (fabricOf info) known (fabricNamed info)
  | none => .generic info.field info.property

def reading (builtins : Builtins) (row : Row) : Option Reading :=
  if (get row "MetricProperty").truthy then
    let info := parseMetricProperty builtins (str (get row "MetricProperty"))
    match gpuReading builtins info row with
    | some r => some r
    | none => match asFloat builtins (get row "MetricValue") with
        | none => stateReading info row
        | some _ => some (numberReading info)
  else none

/-! The metric and the dimensions of a reading. -/

def placeDims (place : Place) (fields : List Field) : List (String × Option String) :=
  fields.map fun f => (f.key,(place f).bind present)

def gpuLabels (report : Json) (place : Place) : List (String × Option String) :=
  ("source",some "metric-report")::placeDims place [.gpu,.system,.chassis,.memory] ++
    [("report",if report.truthy then some (str report) else none)]

def reportText (report : Json) : String := if report.truthy then str report else "unknown"

namespace Reading

def metric : Reading → String
  | temperature .. => "hw.gpu.temperature"
  | clock .. => "hw.gpu.clock_mhz"
  | compute .. => "hw.gpu.compute.utilization"
  | throttle .. => "hw.gpu.throttle.duration_seconds"
  | memory _ _ metric _ _ => metric
  | fabric _ _ metric _ _ _ => metric
  | generic _ prop => genericMetricName prop
  | state _ _ _ _ metric _ _ => metric

def labels (report : Json) : Reading → List (String × Option String)
  | temperature place prop => gpuLabels report place ++
      [("property",some "temperature"),("sensor",some (dimValue prop))]
  | clock place => gpuLabels report place ++ [("property",some "operating_speed")]
  | compute place _ label _ => gpuLabels report place ++
      ("property",some label)::placeDims place [.index]
  | throttle place _ label _ => gpuLabels report place ++ [("property",some label)]
  | memory place _ _ label _ => gpuLabels report place ++ [("property",some label)]
  | fabric place _ _ kind _ _ => [("source",some "fabric"),("fabric",present kind)] ++
      placeDims place [.system,.gpu,.port] ++ [("report",some (reportText report))]
  | generic place prop => [("source",some "metric-report"),("property",present (dimValue prop))] ++
      placeDims place [.system,.gpu,.port,.chassis,.index] ++ [("report",some (reportText report))]
  | state place prop _ _ _ labels _ =>
      [("source",some "metric-report"),("property",present (dimValue prop))] ++
      placeDims place [.system,.gpu,.port,.chassis,.memory,.index] ++
      [("report",some (reportText report))] ++ labels.map fun p => (p.1,some p.2)

def fixed : Reading → List String
  | temperature _ prop => [dimValue prop]
  | clock _ => []
  | compute _ _ label _ => [label]
  | throttle _ _ label _ => [label]
  | memory _ _ _ label _ => [label]
  | fabric _ _ _ kind _ _ => [kind]
  | generic _ prop => [dimValue prop]
  | state _ prop _ _ _ labels _ => dimValue prop::labels.map Prod.snd

end Reading

def Scheme.names : Scheme → List String
  | .temperature => ["source","gpu","system","chassis","memory","report","property","sensor"]
  | .clock | .throttle | .memory =>
      ["source","gpu","system","chassis","memory","report","property"]
  | .compute => ["source","gpu","system","chassis","memory","report","property","index"]
  | .fabric => ["source","fabric","system","gpu","port","report"]
  | .generic => ["source","property","system","gpu","port","chassis","index","report"]
  | .state => ["source","property","system","gpu","port","chassis","memory","index","report"]

def Reading.stateNames : Reading → List String
  | state _ _ _ _ _ labels _ => keys labels
  | _ => []

theorem labelKeys (report : Json) (r : Reading) :
    keys (r.labels report) = r.scheme.names ++ r.stateNames := by
  cases r with
  | _ => simp [Reading.labels,gpuLabels,placeDims,keys,Field.key,Reading.scheme,Scheme.names,
      Reading.stateNames]

/-! The tables name each property once. -/

def gpuMemoryTable : List (String × String × String) :=
  gpuMemoryProperties ++ gpuMemoryEccProperties.map (fun p => (p.1,"hw.gpu.memory.ecc_errors",p.2)) ++
  gpuMemoryRowRemapProperties.map (fun p => (p.1,"hw.gpu.memory.row_remap_count",p.2)) ++
  [("RowRemappingFailed","hw.gpu.memory.row_remapping_failed","row_remapping_failed")]

variable {prop : String}

theorem gpuMemoryKnown {found} (known : gpuMemoryMetric prop = some found) :
    (prop,found) ∈ gpuMemoryTable := by
  unfold gpuMemoryMetric at known
  unfold gpuMemoryTable
  split at known
  · rename_i inside
    cases known
    simp [lookupMem inside]
  split at known
  · rename_i inside
    cases known
    have mem := List.mem_map_of_mem (f := fun p : String × String =>
      (p.1,"hw.gpu.memory.ecc_errors",p.2)) (lookupMem inside)
    simp only [List.mem_append]
    exact .inl (.inl (.inr mem))
  · split at known
    · rename_i inside
      cases known
      have mem := List.mem_map_of_mem (f := fun p : String × String =>
        (p.1,"hw.gpu.memory.row_remap_count",p.2)) (lookupMem inside)
      simp only [List.mem_append]
      exact .inl (.inr mem)
    · split at known
      · rename_i same
        cases known
        subst same
        simp
      · cases known

theorem gpuMemoryInjective {prop' found} (first : gpuMemoryMetric prop = some found)
    (second : gpuMemoryMetric prop' = some found) : prop = prop' := by
  have values : (gpuMemoryTable.map Prod.snd).Nodup := by decide
  have same := List.inj_on_of_nodup_map values (gpuMemoryKnown first) (gpuMemoryKnown second) rfl
  exact congrArg Prod.fst same

def stateTable : List (String × String × List String) :=
  [("Health","hw.component.health",["health"]),
   ("HealthRollup","hw.component.health_rollup",["health"]),
   ("State","hw.component.state",["state"]),
   ("LinkDownReasonCode","hw.fabric.link_down_reason",["reason","fabric"]),
   ("EDPViolationState","hw.power.edp_violation_state",["state"]),
   ("PowerBreakPerformanceState","hw.power.break_performance_state",["state"]),
   ("LastResetType","hw.component.last_reset_type",["reset_type"])]

variable {metric : String}

theorem stateKnown {kind label labels} (known : stateMetric prop kind label = some (metric,labels)) :
    (prop,metric,keys labels) ∈ stateTable := by
  unfold stateMetric at known
  split at known
  all_goals
    cases known
    try simp [stateTable,keys]

theorem stateInjective {prop' names names'} (first : (prop,metric,names) ∈ stateTable)
    (second : (prop',metric,names') ∈ stateTable) : prop = prop' ∧ names = names' := by
  have metrics : (stateTable.map fun e => e.2.1).Nodup := by decide
  have same := List.inj_on_of_nodup_map metrics first second rfl
  exact ⟨congrArg Prod.fst same,congrArg (fun e => e.2.2) same⟩

theorem stateSame {metric' names names'} (first : (prop,metric,names) ∈ stateTable)
    (second : (prop,metric',names') ∈ stateTable) : metric = metric' := by
  have props : (stateTable.map Prod.fst).Nodup := by decide
  have same := List.inj_on_of_nodup_map props first second rfl
  exact congrArg (fun e => e.2.1) same

/-! A metric belongs to one scheme. -/

def schemeOf (metric : String) : Option Scheme :=
  if isGb300 metric then some .generic
  else if metric = "hw.gpu.temperature" then some .temperature
  else if metric = "hw.gpu.clock_mhz" then some .clock
  else if metric = "hw.gpu.compute.utilization" then some .compute
  else if metric = "hw.gpu.throttle.duration_seconds" then some .throttle
  else if (gpuMemoryTable.map fun e => e.2.1).contains metric then some .memory
  else if (fabricPropertyMetrics.map Prod.snd).contains metric then some .fabric
  else if (stateTable.map fun e => e.2.1).contains metric then some .state
  else none

theorem genericIsGb300 (prop : String) : isGb300 (genericMetricName prop) = true := by
  unfold isGb300 genericMetricName
  rw [String.toList_append,List.isPrefixOf_iff_prefix]
  exact List.prefix_append _ _

theorem schemeOfMetric (r : Reading) : schemeOf r.metric = some r.scheme := by
  cases r with
  | temperature =>
    have found : schemeOf "hw.gpu.temperature" = some .temperature := by decide +kernel
    exact found
  | clock =>
    have found : schemeOf "hw.gpu.clock_mhz" = some .clock := by decide +kernel
    exact found
  | compute =>
    have found : schemeOf "hw.gpu.compute.utilization" = some .compute := by decide +kernel
    exact found
  | throttle =>
    have found : schemeOf "hw.gpu.throttle.duration_seconds" = some .throttle := by decide +kernel
    exact found
  | memory place prop metric label known =>
    have all : ∀ e ∈ gpuMemoryTable, schemeOf e.2.1 = some .memory := by decide +kernel
    exact all _ (gpuMemoryKnown known)
  | fabric place prop metric kind known named =>
    have all : ∀ e ∈ fabricPropertyMetrics, schemeOf e.2 = some .fabric := by decide +kernel
    exact all _ (lookupMem known)
  | generic place prop =>
    unfold schemeOf Reading.metric
    rw [if_pos (genericIsGb300 prop)]
    rfl
  | state place prop kind label metric labels known =>
    have all : ∀ e ∈ stateTable, schemeOf e.2.1 = some .state := by decide +kernel
    exact all _ (stateKnown known)

/-! Two readings share their dimensions exactly if they agree in what their scheme keeps. -/

section
variable (identity : Dims) (report : Json)

theorem labelsDistinct (r : Reading) : Distinct (r.labels report) := by
  have fixed : ∀ scheme : Scheme, scheme.names.Nodup := by
    intro scheme
    cases scheme with
    | _ => decide
  unfold Distinct
  rw [labelKeys]
  cases r with
  | state place prop kind label metric labels known =>
    have all : ∀ e ∈ stateTable, (Scheme.state.names ++ e.2.2).Nodup := by decide
    exact all _ (stateKnown known)
  | _ =>
    rw [Reading.stateNames,List.append_nil]
    · exact fixed _
    · simp

def SameDims (r s : Reading) : Prop :=
  ∀ key, (writeAll (baseDims identity) (r.labels report)).lookup key =
    (writeAll (baseDims identity) (s.labels report)).lookup key

variable {r s : Reading}

theorem sameDimsIff (same : keys (r.labels report) = keys (s.labels report)) :
    SameDims identity report r s ↔ (r.labels report).map (shown (baseDims identity)) =
      (s.labels report).map (shown (baseDims identity)) :=
  Labels.sameLabels (labelsDistinct report r) same (baseDims identity)

theorem metricScheme (same : r.metric = s.metric) : r.scheme = s.scheme := by
  have found := schemeOfMetric r
  rw [same,schemeOfMetric s] at found
  exact (Option.some.inj found).symm

theorem labelNames (same : r.metric = s.metric) :
    keys (r.labels report) = keys (s.labels report) := by
  have schemes := metricScheme same
  rw [labelKeys,labelKeys,schemes]
  cases r with
  | state place prop kind label metric labels known => cases s with
    | state place' prop' kind' label' metric' labels' known' =>
      cases same
      rw [Reading.stateNames,Reading.stateNames,
        (stateInjective (stateKnown known) (stateKnown known')).2]
    | _ => cases schemes
  | _ => cases s with
    | state => cases schemes
    | _ => rfl

theorem entryIff {table : List (String × String)} (values : (table.map Prod.snd).Nodup)
    {prop prop' label label'} (known : table.lookup prop = some label)
    (known' : table.lookup prop' = some label') : label = label' ↔ prop = prop' := by
  constructor
  · intro same
    subst same
    exact lookupInjective values known known'
  · intro same
    subst same
    exact Option.some.inj (known.symm.trans known')

def SameShown (r s : Reading) : Prop :=
  (r.labels report).map (shown (baseDims identity)) = (s.labels report).map (shown (baseDims identity))

theorem presentDimValue (value : String) : present (dimValue value) = some (dimValue value) := by
  have full : dimValue value ≠ "" := by
    unfold dimValue
    dsimp only
    split
    · decide
    rename_i some
    intro empty
    have none : (PyText.stripChars (· = '_') (String.ofList (value.toList.map dimChar))).toList.take 256 =
        [] := by simpa using congrArg String.toList empty
    apply some
    simpa using none
  exact if_neg full

theorem presentKind {kind} (named : kind ≠ "") : present kind = some kind := if_neg named

theorem stateTextsIff (labels labels' : List (String × String)) :
    labels.map (fun p => some p.2) = labels'.map (fun p => some p.2) ↔
      labels.map Prod.snd = labels'.map Prod.snd := by
  have texts : ∀ l : List (String × String), l.map (fun p => some p.2) = (l.map Prod.snd).map some := by
    intro l
    rw [List.map_map]
    rfl
  rw [texts,texts]
  exact (List.map_injective_iff.mpr (Option.some_injective String)).eq_iff

theorem shownIff (schemes : r.scheme = s.scheme) :
    SameShown identity report r s ↔ r.fixed = s.fixed ∧
      ∀ f ∈ r.scheme.kept, r.dimension identity f = s.dimension identity f := by
  unfold SameShown
  cases r with
  | fabric place prop metric kind known named => cases s with
    | fabric place' prop' metric' kind' known' named' =>
      simp [Reading.labels,Reading.fixed,Reading.scheme,Scheme.kept,Reading.dimension,Reading.place,
        placeDims,shown,presentKind named,presentKind named',and_comm,and_assoc]
    | _ => cases schemes
  | generic place prop => cases s with
    | generic place' prop' =>
      simp [Reading.labels,Reading.fixed,Reading.scheme,Scheme.kept,Reading.dimension,Reading.place,
        placeDims,shown,presentDimValue,and_comm,and_assoc,and_left_comm]
    | _ => cases schemes
  | state place prop kind label metric labels known => cases s with
    | state place' prop' kind' label' metric' labels' known' =>
      simp [Reading.labels,Reading.fixed,Reading.scheme,Scheme.kept,Reading.dimension,Reading.place,
        placeDims,shown,presentDimValue,Function.comp_def,stateTextsIff,
        and_comm,and_assoc,and_left_comm]
    | _ => cases schemes
  -- the schemes of a GPU keep the same labels but for one or two of their own
  | _ => cases s with
    | _ => first
      | (cases schemes; done)
      | simp [Reading.labels,Reading.fixed,Reading.scheme,Scheme.kept,Reading.dimension,Reading.place,
          gpuLabels,placeDims,shown,and_comm,and_assoc,and_left_comm]

theorem nameIff (schemes : r.scheme = s.scheme) :
    r.metric = s.metric ∧ r.fixed = s.fixed ↔ r.name = s.name := by
  cases r with
  | temperature place prop => cases s with
    | temperature place' prop' => simp [Reading.metric,Reading.fixed,Reading.name]
    | _ => cases schemes
  | clock place => cases s with
    | clock place' => simp [Reading.metric,Reading.fixed,Reading.name]
    | _ => cases schemes
  | compute place prop label known => cases s with
    | compute place' prop' label' known' =>
      have values : (gpuComputeProperties.map Prod.snd).Nodup := by decide
      simp [Reading.metric,Reading.fixed,Reading.name,entryIff values known known']
    | _ => cases schemes
  | throttle place prop label known => cases s with
    | throttle place' prop' label' known' =>
      have values : (gpuThrottleProperties.map Prod.snd).Nodup := by decide
      simp [Reading.metric,Reading.fixed,Reading.name,entryIff values known known']
    | _ => cases schemes
  | memory place prop metric label known => cases s with
    | memory place' prop' metric' label' known' =>
      simp only [Reading.metric,Reading.fixed,Reading.name,List.cons.injEq,and_true]
      constructor
      · rintro ⟨rfl,rfl⟩
        exact gpuMemoryInjective known known'
      · rintro rfl
        simpa using known.symm.trans known'
    | _ => cases schemes
  | fabric place prop metric kind known named => cases s with
    | fabric place' prop' metric' kind' known' named' =>
      have values : (fabricPropertyMetrics.map Prod.snd).Nodup := by decide +kernel
      simp [Reading.metric,Reading.fixed,Reading.name,entryIff values known known']
    | _ => cases schemes
  | generic place prop => cases s with
    | generic place' prop' => simp [Reading.metric,Reading.fixed,Reading.name]
    | _ => cases schemes
  | state place prop kind label metric labels known => cases s with
    | state place' prop' kind' label' metric' labels' known' =>
      simp only [Reading.metric,Reading.fixed,Reading.name,List.cons.injEq]
      constructor
      · rintro ⟨rfl,_,same⟩
        exact ⟨(stateInjective (stateKnown known) (stateKnown known')).1,same⟩
      · rintro ⟨rfl,same⟩
        exact ⟨stateSame (stateKnown known) (stateKnown known'),rfl,same⟩
    | _ => cases schemes

theorem collideIff (r s : Reading) :
    r.metric = s.metric ∧ SameDims identity report r s ↔ Collide identity r s := by
  constructor
  · rintro ⟨metric,dims⟩
    have schemes := metricScheme metric
    have names := labelNames report metric
    obtain ⟨fixed,fields⟩ :=
      (shownIff identity report schemes).mp ((sameDimsIff identity report names).mp dims)
    exact ⟨schemes,(nameIff schemes).mp ⟨metric,fixed⟩,fields⟩
  · rintro ⟨schemes,name,fields⟩
    obtain ⟨metric,fixed⟩ := (nameIff schemes).mpr name
    have names := labelNames report metric
    exact ⟨metric,(sameDimsIff identity report names).mpr
      ((shownIff identity report schemes).mpr ⟨fixed,fields⟩)⟩

end

/-! The code makes the sample of the reading. -/

theorem catalogued (r : Reading) : ∃ d, supermicroMetricDefinition r.metric = some d ∧
    (r.scheme = .throttle → d.kind = .counter) := by
  have known : ∀ metric : String, (supermicroMetricDefinition metric).isSome = true →
      ∃ d, supermicroMetricDefinition metric = some d := fun _ => Option.isSome_iff_exists.mp
  cases r with
  | throttle =>
    have found : (supermicroMetricDefinition "hw.gpu.throttle.duration_seconds").map
        MetricDefinition.kind = some .counter := by decide +kernel
    obtain ⟨d,entry,counter⟩ := Option.map_eq_some_iff.mp found
    exact ⟨d,entry,fun _ => counter⟩
  | temperature =>
    obtain ⟨d,entry⟩ := known "hw.gpu.temperature" (by decide +kernel)
    exact ⟨d,entry,fun other => by cases other⟩
  | clock =>
    obtain ⟨d,entry⟩ := known "hw.gpu.clock_mhz" (by decide +kernel)
    exact ⟨d,entry,fun other => by cases other⟩
  | compute =>
    obtain ⟨d,entry⟩ := known "hw.gpu.compute.utilization" (by decide +kernel)
    exact ⟨d,entry,fun other => by cases other⟩
  | memory place prop metric label inside =>
    have all : ∀ e ∈ gpuMemoryTable, (supermicroMetricDefinition e.2.1).isSome = true := by
      decide +kernel
    obtain ⟨d,entry⟩ := known _ (all _ (gpuMemoryKnown inside))
    exact ⟨d,entry,fun other => by cases other⟩
  | fabric place prop metric kind inside named =>
    have all : ∀ e ∈ fabricPropertyMetrics, (supermicroMetricDefinition e.2).isSome = true := by
      decide +kernel
    obtain ⟨d,entry⟩ := known _ (all _ (lookupMem inside))
    exact ⟨d,entry,fun other => by cases other⟩
  | generic place prop =>
    have some : (supermicroMetricDefinition (genericMetricName prop)).isSome = true := by
      unfold supermicroMetricDefinition
      split
      · rfl
      · rw [if_pos (genericIsGb300 prop)]
        rfl
    obtain ⟨d,entry⟩ := known _ some
    exact ⟨d,entry,fun other => by cases other⟩
  | state place prop kind label metric labels inside =>
    have all : ∀ e ∈ stateTable, (supermicroMetricDefinition e.2.1).isSome = true := by
      decide +kernel
    obtain ⟨d,entry⟩ := known _ (all _ (stateKnown inside))
    exact ⟨d,entry,fun other => by cases other⟩

def Draws (identity : Dims) (report : Json) :
    Option Reading → Except PyError (Option (MetricSample Datum)) → Prop
  | none,made => made = .ok none
  | some r,made => ∃ s, made = .ok (some s) ∧ s.metric = r.metric ∧
      s.dimensions = writeAll (baseDims identity) (r.labels report)

section
variable (identity : Dims) (report : Json)

theorem sampleDraws (r : Reading) (value : Datum) (timestamp : Json) {kind}
    (typed : kind = none ∨ (r.scheme = .throttle ∧ kind = some .counter)) {dims}
    (same : dims = writeAll (baseDims identity) (r.labels report)) :
    Draws identity report (some r) (some <$> sample r.metric value dims timestamp kind) := by
  obtain ⟨d,entry,counter⟩ := catalogued r
  have agrees : kind.getD d.kind = d.kind := by
    rcases typed with rfl | ⟨throttle,rfl⟩
    · rfl
    · exact (counter throttle).symm
  refine ⟨⟨r.metric,value,dims,d.kind,d.unit,timestamp⟩,?_,rfl,same⟩
  simp [sample,entry,agrees]

theorem numberDraws (info : PropInfo) (row : Row) (value : Datum) :
    Draws identity (get row "Report") (some (numberReading info))
      (some <$> sample (numberSeries info row identity).1 value (numberSeries info row identity).2
        (get row "Timestamp") none) := by
  unfold numberReading numberSeries
  split
  · rename_i metric known
    simp only [known]
    refine sampleDraws identity (get row "Report") (.fabric info.field info.property metric
      (fabricOf info) known (fabricNamed info)) value (get row "Timestamp") (.inl rfl) ?_
    simp only [fabricDims,Labels.writeAllAppend,Reading.labels,fieldDims,placeDims]
    rfl
  · rename_i unknown
    simp only [unknown]
    refine sampleDraws identity (get row "Report") (.generic info.field info.property) value
      (get row "Timestamp") (.inl rfl) ?_
    simp only [Labels.writeAllAppend,Reading.labels,fieldDims,placeDims]
    rfl

theorem stateDraws (info : PropInfo) (row : Row) :
    Draws identity (get row "Report") (stateReading info row) (stateEnumSample info row identity) := by
  unfold stateReading stateEnumSample
  cases present (stateText row) with
  | none => rfl
  | some text =>
    dsimp only
    split
    · rename_i metric labels known
      simp only [known]
      refine sampleDraws identity (get row "Report") (.state info.field info.property (fabricOf info)
        (stateLabel text) metric labels known) one (get row "Timestamp") (.inl rfl) ?_
      simp only [Labels.writeAllAppend,Reading.labels,fieldDims,placeDims]
      rfl
    · rename_i unknown
      simp only [unknown]
      rfl

theorem throttleDraws (builtins : Builtins) (info : PropInfo) (row : Row) (gpu : String) {dims}
    (same : ∀ extra, writeAll dims extra =
      writeAll (baseDims identity) (gpuLabels (get row "Report") (resolved info gpu) ++ extra)) :
    Draws identity (get row "Report")
      (if (durationSeconds builtins (get row "MetricValue")).isSome then
        throttleReading (resolved info gpu) info.property else none)
      (gpuThrottleSample builtins info.property row dims) := by
  unfold gpuThrottleSample
  cases durationSeconds builtins (get row "MetricValue") with
  | none => cases gpuThrottleProperties.lookup info.property with
    | none => rfl
    | some label => rfl
  | some seconds =>
    simp only [Option.isSome_some,if_true]
    unfold throttleReading
    split
    · rename_i label known
      simp only [known]
      exact sampleDraws identity (get row "Report")
        (.throttle (resolved info gpu) info.property label known) seconds (get row "Timestamp")
        (.inr ⟨rfl,rfl⟩) (same _)
    · rename_i unknown
      simp only [unknown]
      rfl

theorem gpuDraws (builtins : Builtins) (info : PropInfo) (row : Row) :
    Draws identity (get row "Report") (gpuReading builtins info row)
      (gpuMetricReportSample builtins info row identity) := by
  unfold gpuReading gpuMetricReportSample
  cases found : (gpuFromMetricInfo builtins info).bind present with
  | none => rfl
  | some gpu =>
    have dims : ∀ extra, writeAll (gpuMetricDims identity info row gpu) extra =
        writeAll (baseDims identity) (gpuLabels (get row "Report") (resolved info gpu) ++ extra) := by
      intro extra
      rfl
    cases info.metricSource with
    | none => rfl
    | some source => cases source with
      | sensor =>
        by_cases warm : isGpuTemperature info.property = true
        · cases asFloat builtins (get row "MetricValue") with
          | none => simp [Draws]
          | some value =>
            simp only [warm]
            exact sampleDraws identity (get row "Report")
              (.temperature (resolved info gpu) info.property) value (get row "Timestamp") (.inl rfl)
              (dims _)
        · simp [warm,Draws]
      | processor =>
        have throttle := throttleDraws identity builtins info row gpu dims
        cases asFloat builtins (get row "MetricValue") with
        | none => exact throttle
        | some value =>
          simp only [Option.isSome_some,if_true]
          split
          · exact sampleDraws identity (get row "Report") (.clock (resolved info gpu)) value
              (get row "Timestamp") (.inl rfl) (dims _)
          unfold computeReading
          split
          · rename_i label known
            simp only [known]
            exact sampleDraws identity (get row "Report")
              (.compute (resolved info gpu) info.property label known) value (get row "Timestamp")
              (.inl rfl) (dims _)
          · rename_i unknown
            simp only [unknown]
            exact throttle
      | memory =>
        cases asFloat builtins (get row "MetricValue") with
        | none => rfl
        | some value =>
          simp only [Option.isSome_some,if_true]
          unfold memoryReading
          split
          · rename_i metric label known
            simp only [known]
            exact sampleDraws identity (get row "Report")
              (.memory (resolved info gpu) info.property metric label known) value
              (get row "Timestamp") (.inl rfl) (dims _)
          · rename_i unknown
            simp only [unknown]
            rfl

theorem rowDraws (builtins : Builtins) (row : Row) :
    Draws identity (get row "Report") (reading builtins row) (rowSample builtins identity row) := by
  unfold reading rowSample
  split
  · dsimp only
    generalize parseMetricProperty builtins (str (get row "MetricProperty")) = info
    have gpu := gpuDraws identity builtins info row
    cases found : gpuReading builtins info row with
    | some r =>
      rw [found] at gpu
      obtain ⟨made,result,series⟩ := gpu
      rw [result]
      exact ⟨made,rfl,series⟩
    | none =>
      rw [found] at gpu
      rw [gpu]
      cases asFloat builtins (get row "MetricValue") with
      | none => exact stateDraws identity _ row
      | some value => exact numberDraws identity _ row value
  · rfl

end

def Draws.Of (identity : Dims) (report : Json) (r : Reading) (s : MetricSample Datum) : Prop :=
  s.metric = r.metric ∧ s.dimensions = writeAll (baseDims identity) (r.labels report)

section
variable (builtins : Builtins) (identity : Dims) (report : Json)

theorem samplesDraw {rows} (same : ∀ row ∈ rows, get row "Report" = report) :
    ∃ samples, samplesFromMetricReportRows builtins identity rows = .ok samples ∧
      List.Forall₂ (Draws.Of identity report) (rows.filterMap (reading builtins)) samples := by
  induction rows with
  | nil => exact ⟨[],rfl,.nil⟩
  | cons row rest ih =>
    obtain ⟨others,result,drawn⟩ := ih fun other mem => same other (List.mem_cons_of_mem row mem)
    have first := rowDraws identity builtins row
    rw [same row List.mem_cons_self] at first
    unfold samplesFromMetricReportRows
    cases found : reading builtins row with
    | none =>
      rw [found] at first
      refine ⟨others,?_,?_⟩
      · rw [first,result]
        rfl
      · rw [List.filterMap_cons_none found]
        exact drawn
    | some r =>
      rw [found] at first
      obtain ⟨made,done,series⟩ := first
      refine ⟨made::others,?_,?_⟩
      · rw [done,result]
        rfl
      · rw [List.filterMap_cons_some found]
        exact .cons series drawn

theorem seriesIff {r r' s s'} (first : Draws.Of identity report r s)
    (second : Draws.Of identity report r' s') : SameSeries s s' ↔ Collide identity r r' := by
  rw [← collideIff identity report]
  unfold SameSeries SameDims
  rw [first.1,first.2,second.1,second.2]

theorem pairwiseIff {readings samples}
    (drawn : List.Forall₂ (Draws.Of identity report) readings samples) :
    samples.Pairwise (fun s s' => ¬ SameSeries s s') ↔
      readings.Pairwise fun r r' => ¬ Collide identity r r' := by
  -- Of a list of samples and the list of its readings, one element against all the others.
  have all : ∀ {r s rs ss}, Draws.Of identity report r s →
      List.Forall₂ (Draws.Of identity report) rs ss →
      ((∀ s' ∈ ss, ¬ SameSeries s s') ↔ ∀ r' ∈ rs, ¬ Collide identity r r') := by
    intro r s rs ss one others
    induction others with
    | nil => simp
    | cons first rest ih => simp only [List.forall_mem_cons,seriesIff identity report one first,ih]
  induction drawn with
  | nil => simp
  | cons first rest ih =>
    rw [List.pairwise_cons,List.pairwise_cons]
    exact and_congr (all first rest) ih

/- The readings of a report have a series each exactly if no two of them collide. -/
theorem seriesDistinct {rows : List Row} (same : ∀ row ∈ rows, get row "Report" = report) :
    ∃ samples, samplesFromMetricReportRows builtins identity rows = .ok samples ∧
      (samples.Pairwise (fun s s' => ¬ SameSeries s s') ↔
        (rows.filterMap (reading builtins)).Pairwise fun r r' => ¬ Collide identity r r') := by
  obtain ⟨samples,result,drawn⟩ := samplesDraw builtins identity report same
  exact ⟨samples,result,pairwiseIff identity report drawn⟩

end

def plainBuiltins : Builtins := ⟨fun _ => none,isDigit,isDigit⟩

def reportRow (prop value : String) : Row :=
  [("Report",.str "HGX_ProcessorMetrics_0"),("MetricProperty",.str prop),("MetricValue",.str value)]

def permissionUri (permission : String) : String :=
  "/redfish/v1/Systems/HGX_Baseboard_0/Processors/GPU_0#/Oem/Nvidia/" ++ permission ++
    "/AllowOneShotConfig"

theorem seriesOfProcessor :
    let rows := [reportRow "/redfish/v1/Systems/S/Processors/GPU_0/ProcessorMetrics#/SMUtilizationPercent"
        "true",
      reportRow "/redfish/v1/Systems/S/Processors/GPU_0/ProcessorMetrics#/PowerLimitThrottleDuration"
        "PT0S"]
    ∃ samples, samplesFromMetricReportRows plainBuiltins [] rows = .ok samples ∧
      (samples.Pairwise (fun s s' => ¬ SameSeries s s') ↔
        (rows.filterMap (reading plainBuiltins)).Pairwise fun r r' => ¬ Collide [] r r') :=
  seriesDistinct plainBuiltins [] (.str "HGX_ProcessorMetrics_0") (by decide)

theorem permissionsShareSeries :
    permissionUri "DOEReconfigPermissions/CCMode" ≠ permissionUri "DOEReconfigPermissions/ECCEnable" ∧
    (samplesFromMetricReportRows plainBuiltins []
      [reportRow (permissionUri "DOEReconfigPermissions/CCMode") "false",
       reportRow (permissionUri "DOEReconfigPermissions/ECCEnable") "false"]).toOption.map
        (fun samples => samples.map fun s => (s.metric,s.dimensions)) =
      some (List.replicate 2 ("hw.gb300.allow_one_shot_config",
        [("host.name","unknown"),("node","unknown"),("server.address","unknown"),
         ("bmc.ip","unknown"),("vendor","unknown"),
         ("source","metric-report"),("property","AllowOneShotConfig"),
         ("system","HGX_Baseboard_0"),("gpu","GPU_0"),("report","HGX_ProcessorMetrics_0")])) := by
  decide +kernel

end RedfishCtl.MetricReports
