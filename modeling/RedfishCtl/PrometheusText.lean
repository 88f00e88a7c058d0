import RedfishCtl.Exposition
import RedfishCtl.MetricModel

/-! The Prometheus writer of the exporter: samples in their order, with the HELP and TYPE lines
of a metric before its first sample. -/
namespace RedfishCtl.PrometheusText
open Exposition
open MetricModel

def resourceOnlyDimensions : List String :=
  ["service.namespace","service.instance.id","service.version","service.criticality"]

def prometheusType : Kind → String
  | .counter | .cumulativeCounter => "counter"
  | .gauge => "gauge"

def replace (old : Char) (new : Text) (text : String) : String :=
  String.ofList (text.toList.flatMap fun c => if c = old then new else [c])

def escapeLabelValue (value : String) : String :=
  replace '"' ['\\','"'] (replace '\n' ['\\','n'] (replace '\\' ['\\','\\'] value))

def escapeHelpText (value : String) : String :=
  replace '\n' ['\\','n'] (replace '\\' ['\\','\\'] value)

section
variable {φ : Type} (numerals : Numerals φ) (lookup : String → Option MetricDefinition)

def formatValue (value : φ) : String :=
  match numerals.whole value with
  | some n => toString n
  | none => numerals.repr value

def sampleDefinition (sample : MetricSample φ) : MetricDefinition :=
  (lookup sample.metric).getD ⟨sample.metric,sample.metricType,sample.unit,"",sample.metric⟩

def exposedName (sample : MetricSample φ) : String :=
  let name := (sampleDefinition lookup sample).prometheusName
  if name = "" then sample.metric else name

def textLe : Text → Text → Bool
  | [],_ => true
  | _::_,[] => false
  | a::as,b::bs => a.toNat < b.toNat || (a.toNat = b.toNat && textLe as bs)

def sortItems (items : List (String × String)) : List (String × String) :=
  items.insertionSort fun a b => textLe a.1.toList b.1.toList = true

def isVisible (item : String × String) : Bool := !resourceOnlyDimensions.contains item.1

def visibleItems (sample : MetricSample φ) : List (String × String) :=
  (sortItems sample.dimensions).filter isVisible

def headerLines (d : MetricDefinition) (name : String) : List String :=
  (if d.description = "" then [] else [helpLine name (escapeHelpText d.description)]) ++
    [kindLine name (prometheusType d.kind)]

def renderLines : List String → List (MetricSample φ) → List String
  | _,[] => []
  | seen,sample::rest =>
      let name := exposedName lookup sample
      let line := seriesLine escapeLabelValue name (visibleItems sample)
        (formatValue numerals sample.value)
      if seen.contains name then line::renderLines seen rest
      else headerLines (sampleDefinition lookup sample) name ++ line::renderLines (name::seen) rest

def renderPrometheusText (samples : List (MetricSample φ)) : String :=
  document (renderLines numerals lookup [] samples)

def exposed (sample : MetricSample φ) : Series φ :=
  ⟨exposedName lookup sample,sample.dimensions.filter isVisible,sample.value⟩

end

/-! Escaping. -/

def labelChars (c : Char) : Text :=
  if c = '\\' then ['\\','\\'] else if c = '\n' then ['\\','n'] else if c = '"' then ['\\','"'] else [c]

theorem replaceChars (old : Char) (new : Text) (text : String) :
    (replace old new text).toList = text.toList.flatMap fun c => if c = old then new else [c] := by
  simp [replace]

theorem labelValueChars (value : String) :
    (escapeLabelValue value).toList = value.toList.flatMap labelChars := by
  unfold escapeLabelValue
  rw [replaceChars,replaceChars,replaceChars,List.flatMap_assoc,List.flatMap_assoc]
  apply List.flatMap_congr
  intro c _
  unfold labelChars
  by_cases slash : c = '\\'
  · subst slash
    decide
  by_cases feed : c = '\n'
  · subst feed
    decide
  · by_cases quote : c = '"'
    · subst quote
      decide
    · simp [slash,feed]

theorem labelCharsRead (c : Char) (rest : Text) :
    readQuoted false (labelChars c ++ rest) =
      (readQuoted false rest).map fun found => (c::found.1,found.2) := by
  unfold labelChars
  by_cases slash : c = '\\'
  · subst slash
    simp [readQuoted,unescape]
  by_cases feed : c = '\n'
  · subst feed
    simp [readQuoted,unescape]
  · by_cases quote : c = '"'
    · subst quote
      simp [readQuoted,unescape]
    · simp [slash,feed,quote,readQuoted]

theorem labelCharsLine (c : Char) : '\n' ∉ labelChars c := by
  unfold labelChars
  split
  · decide
  split
  · decide
  · split
    · decide
    · rename_i _ feed _
      simpa using fun same : '\n' = c => feed same.symm

def escaping : Escaping where
  escape := escapeLabelValue
  char := labelChars
  good := fun _ => true
  chars := labelValueChars
  reads := fun _ rest => labelCharsRead _ rest
  fails := fun bad => by cases bad
  oneLine := labelCharsLine

def helpChars (c : Char) : Text :=
  if c = '\\' then ['\\','\\'] else if c = '\n' then ['\\','n'] else [c]

theorem helpTextChars (value : String) :
    (escapeHelpText value).toList = value.toList.flatMap helpChars := by
  unfold escapeHelpText
  rw [replaceChars,replaceChars,List.flatMap_assoc]
  apply List.flatMap_congr
  intro c _
  unfold helpChars
  by_cases slash : c = '\\'
  · subst slash
    decide
  · by_cases feed : c = '\n'
    · subst feed
      decide
    · simp [slash]

theorem helpCharRead (c : Char) (rest : Text) :
    readHelp false (helpChars c ++ rest) = (readHelp false rest).map (c :: ·) := by
  unfold helpChars
  by_cases slash : c = '\\'
  · subst slash
    simp [readHelp]
  · by_cases feed : c = '\n'
    · subst feed
      simp [readHelp]
    · simp [slash,feed,readHelp]

theorem helpCharsRead (text : Text) : readHelp false (text.flatMap helpChars) = some text := by
  induction text with
  | nil => rfl
  | cons c rest ih =>
    rw [List.flatMap_cons,helpCharRead,ih]
    rfl

theorem helpCharsSkip (text : Text) : skip (text.flatMap helpChars) = (skip text).flatMap helpChars := by
  induction text with
  | nil => rfl
  | cons c rest ih =>
    rw [List.flatMap_cons]
    cases blank : isBlank c with
    | true =>
      have plain : helpChars c = [c] := by
        have feed := apart blank (show isBlank '\n' = false by decide)
        have slash := apart blank (show isBlank '\\' = false by decide)
        simp [helpChars,slash,feed]
      rw [plain,List.singleton_append,skip,List.dropWhile_cons_of_pos blank,skip,
        List.dropWhile_cons_of_pos blank]
      exact ih
    | false =>
      have full : ∃ d more, helpChars c = d::more ∧ isBlank d = false := by
        unfold helpChars
        split
        · exact ⟨_,_,rfl,by decide⟩
        · split
          · exact ⟨_,_,rfl,by decide⟩
          · exact ⟨c,[],rfl,blank⟩
      obtain ⟨d,more,chars,solid⟩ := full
      rw [skipSame blank,List.flatMap_cons,chars]
      exact skipSame solid

theorem helpTextRead (value : String) :
    readHelp false (skip (escapeHelpText value).toList) = some (skip value.toList) := by
  rw [helpTextChars,helpCharsSkip,helpCharsRead]

theorem helpTextLine (value : String) : '\n' ∉ (escapeHelpText value).toList := by
  rw [helpTextChars]
  intro mem
  obtain ⟨c,_,inside⟩ := List.mem_flatMap.mp mem
  unfold helpChars at inside
  split at inside
  · revert inside
    decide
  split at inside
  · revert inside
    decide
  · rename_i feed
    exact feed (List.mem_singleton.mp inside).symm

/-! The document of a list of samples. -/

section
variable {φ : Type} (numerals : Numerals φ) (lookup : String → Option MetricDefinition)

def headerEntries (d : MetricDefinition) (name : String) : List (Entry φ) :=
  (if d.description = "" then [] else [.help name (String.ofList (skip d.description.toList))]) ++
    [.kind name (prometheusType d.kind)]

def sampleSeries (sample : MetricSample φ) : Series φ :=
  ⟨exposedName lookup sample,visibleItems sample,sample.value⟩

def renderEntries : List String → List (MetricSample φ) → List (Entry φ)
  | _,[] => []
  | seen,sample::rest =>
      let name := exposedName lookup sample
      if seen.contains name then .sample (sampleSeries lookup sample)::renderEntries seen rest
      else headerEntries (sampleDefinition lookup sample) name ++
        .sample (sampleSeries lookup sample)::renderEntries (name::seen) rest

variable (seen : List String)

theorem seriesEntries (samples : List (MetricSample φ)) :
    seriesOf (renderEntries lookup seen samples) = samples.map (sampleSeries lookup) := by
  have header : ∀ d name, seriesOf (headerEntries d name : List (Entry φ)) = [] := by
    intro d name
    unfold headerEntries
    split <;> rfl
  induction samples generalizing seen with
  | nil => rfl
  | cons sample rest ih =>
    unfold renderEntries
    dsimp only
    split
    · rw [seriesCons,ih]
      rfl
    · rw [seriesAppend,header,seriesCons,ih]
      rfl

theorem sameExposed (sample : MetricSample φ) : Same (sampleSeries lookup sample) (exposed lookup sample) where
  name := rfl
  labels := (List.perm_insertionSort _ _).filter isVisible
  value := rfl

theorem formatRead (value : φ) : numerals.read (formatValue numerals value) = some value := by
  unfold formatValue
  split
  · rename_i n whole
    rw [numerals.readInt,numerals.wholeIs whole]
  · exact numerals.readRepr value

theorem formatPlain (value : φ) : Plain (formatValue numerals value) := by
  unfold formatValue
  split
  · exact intPlain _
  · exact numerals.reprPlain value

theorem legalSeries {sample : MetricSample φ} (legal : Legal (exposed lookup sample)) :
    Legal (sampleSeries lookup sample) :=
  ⟨legal.1,fun l mem => legal.2 l ((sameExposed lookup sample).labels.mem_iff.mp mem)⟩

theorem sampleLineRead {sample : MetricSample φ} (legal : Legal (exposed lookup sample)) :
    readLine numerals.read (seriesLine escapeLabelValue (exposedName lookup sample)
      (visibleItems sample) (formatValue numerals sample.value)).toList =
      some [.sample (sampleSeries lookup sample)] := by
  have names := legalSeries lookup legal
  have all : (visibleItems sample).all (fun l => escaping.takes l.2) = true := by
    simp [Escaping.takes,escaping]
  have line := seriesRead escaping numerals.read names.1 names.2 (formatPlain numerals sample.value)
  rw [formatRead] at line
  exact line.trans (if_pos all)

theorem headerRead (d : MetricDefinition) {name} (legal : isMetricName name = true) :
    readLines numerals.read ((headerLines d name).map String.toList) = some (headerEntries d name) := by
  have kind : readLine numerals.read (kindLine name (prometheusType d.kind)).toList =
      some [.kind name (prometheusType d.kind)] := by
    apply kindRead numerals.read legal
    cases d.kind <;> decide
  unfold headerLines headerEntries
  split
  · simp [readLines,kind]
  · simp [readLines,kind,helpRead numerals.read legal (helpTextRead d.description)]

variable {samples : List (MetricSample φ)}

theorem linesRead (legal : ∀ s ∈ samples, Legal (exposed lookup s))
    (seen : List String) :
    readLines numerals.read ((renderLines numerals lookup seen samples).map String.toList) =
      some (renderEntries lookup seen samples) := by
  induction samples generalizing seen with
  | nil => rfl
  | cons sample rest ih =>
    have here := legal sample List.mem_cons_self
    have later := ih fun s mem => legal s (List.mem_cons_of_mem sample mem)
    have line := sampleLineRead numerals lookup here
    have header := headerRead numerals (sampleDefinition lookup sample) here.1
    rw [show (exposed lookup sample).name = exposedName lookup sample from rfl] at header
    unfold renderLines renderEntries
    dsimp only
    split
    · rw [List.map_cons,readLines,line,later]
      rfl
    · rw [List.map_append,readLinesAppend,header,List.map_cons,readLines,line,later]
      rfl

theorem linesOne (legal : ∀ s ∈ samples, Legal (exposed lookup s))
    (seen : List String) :
    ∀ line ∈ renderLines numerals lookup seen samples, '\n' ∉ line.toList := by
  induction samples generalizing seen with
  | nil => exact fun line mem => absurd mem List.not_mem_nil
  | cons sample rest ih =>
    have here := legal sample List.mem_cons_self
    have later := ih fun s mem => legal s (List.mem_cons_of_mem sample mem)
    have names := legalSeries lookup here
    have line := seriesLineOne escaping names.1 names.2 (formatPlain numerals sample.value)
    have header : ∀ line ∈ headerLines (sampleDefinition lookup sample) (exposedName lookup sample),
        '\n' ∉ line.toList := by
      have kind : '\n' ∉ (prometheusType (sampleDefinition lookup sample).kind).toList := by
        cases (sampleDefinition lookup sample).kind <;> decide
      intro line mem
      rcases List.mem_append.mp mem with mem | mem
      · split at mem
        · exact absurd mem List.not_mem_nil
        · rw [List.mem_singleton.mp mem]
          exact helpLineOne here.1 (helpTextLine _)
      · rw [List.mem_singleton.mp mem]
        exact kindLineOne here.1 kind
    unfold renderLines
    dsimp only
    split
    · intro l mem
      rcases List.mem_cons.mp mem with rfl | mem
      · exact line
      · exact later seen l mem
    intro l mem
    rcases List.mem_append.mp mem with mem | mem
    · exact header l mem
    · rcases List.mem_cons.mp mem with rfl | mem
      · exact line
      · exact later _ l mem

theorem textRead (legal : ∀ s ∈ samples, Legal (exposed lookup s)) :
    readDocument numerals.read (renderPrometheusText numerals lookup samples) =
      some (renderEntries lookup [] samples) := by
  unfold renderPrometheusText
  rw [documentRead numerals.read (linesOne numerals lookup legal []),linesRead numerals lookup legal]

theorem entriesTyped (samples : List (MetricSample φ)) :
    Typed seen (renderEntries lookup seen samples) := by
  induction samples generalizing seen with
  | nil => exact .nil
  | cons sample rest ih =>
    unfold renderEntries headerEntries
    dsimp only
    split
    · rename_i known
      exact .sample (List.contains_iff_mem.mp known) (ih seen)
    rename_i fresh
    have new : exposedName lookup sample ∉ seen := fun mem => fresh (List.contains_iff_mem.mpr mem)
    have known : (sampleSeries lookup sample).name ∈ exposedName lookup sample::seen :=
      List.mem_cons_self
    split
    · exact .kind new (.sample known (ih _))
    · exact .help (.kind new (.sample known (ih _)))

theorem familiesCons (sample : MetricSample φ) (rest : List (MetricSample φ)) :
    ∃ n later, (renderEntries lookup seen (sample::rest)).map Entry.family =
      List.replicate (n + 1) (exposedName lookup sample) ++
        (renderEntries lookup later rest).map Entry.family := by
  rw [renderEntries]
  unfold headerEntries
  split
  · exact ⟨0,seen,rfl⟩
  · split
    · exact ⟨1,_,rfl⟩
    · exact ⟨2,_,rfl⟩

theorem familiesSame (samples : List (MetricSample φ)) :
    ((renderEntries lookup seen samples).map Entry.family).head? =
      (samples.map (exposedName lookup)).head? ∧
    ∀ name, name ∈ (renderEntries lookup seen samples).map Entry.family ↔
      name ∈ samples.map (exposedName lookup) := by
  induction samples generalizing seen with
  | nil => exact ⟨rfl,fun name => Iff.rfl⟩
  | cons sample rest ih =>
    obtain ⟨n,later,families⟩ := familiesCons lookup seen sample rest
    rw [families]
    refine ⟨rfl,fun name => ?_⟩
    rw [List.mem_append,(ih later).2,List.map_cons]
    simp

theorem familiesContiguous (together : Contiguous (samples.map (exposedName lookup))) :
    Contiguous ((renderEntries lookup seen samples).map Entry.family) := by
  induction samples generalizing seen with
  | nil => trivial
  | cons sample rest ih =>
    obtain ⟨n,later,families⟩ := familiesCons lookup seen sample rest
    obtain ⟨head,members⟩ := familiesSame lookup later rest
    rw [families]
    refine contiguousReplicate ?_ (ih later together.2) (n + 1)
    intro again
    rw [head]
    exact together.1 ((members _).mp again)

theorem entriesGrouped (together : Contiguous (samples.map (exposedName lookup))) :
    Grouped (renderEntries lookup [] samples) where
  typed := fun split => by
    have once := typedSplit (entriesTyped lookup [] samples) split
    exact ⟨once.1 List.not_mem_nil,once.2⟩
  together := fun split same => by
    have lines := familiesContiguous lookup [] together
    exact togetherBehind (show seriesOf ([] : List (Entry φ)) = [] from rfl) lines split same

theorem textRoundTrips (samples : List (MetricSample φ)) :
    RoundTrips numerals.read (renderPrometheusText numerals lookup samples)
        (samples.map (exposed lookup)) ↔
      (∀ s ∈ samples, Legal (exposed lookup s)) ∧ Contiguous (samples.map (exposedName lookup)) := by
  constructor
  · rintro ⟨entries,found,same,grouped⟩
    have legal := readDocumentLegal found
    have names := sameNames same
    rw [List.map_map] at names
    constructor
    · intro s mem
      exact sameLegal same legal _ (List.mem_map_of_mem mem)
    · have together := groupedContiguous grouped
      rw [names] at together
      exact together
  · rintro ⟨legal,together⟩
    refine ⟨renderEntries lookup [] samples,textRead numerals lookup legal,?_,
      entriesGrouped lookup together⟩
    rw [seriesEntries,List.forall₂_map_left_iff,List.forall₂_map_right_iff,List.forall₂_same]
    exact fun sample _ => sameExposed lookup sample

end

end RedfishCtl.PrometheusText
