import RedfishCtl.Buckets
import RedfishCtl.PrometheusText

/-! The three writers of the exporter: OTLP groups samples by metric, SignalFx puts them into
envelopes by type, Prometheus writes one line after the other. -/
namespace RedfishCtl.TelemetryWriters
open AssocList (keys)
open MetricModel
open PrometheusText (resourceOnlyDimensions isVisible exposedName sampleDefinition prometheusType)
open Buckets (add bucket)
open AssocList (lookupCons)
open PrometheusText (formatRead formatValue headerLines renderLines visibleItems)

abbrev Dims := List (String × String)

def identityDimensions : List String := ["host.name","node","server.address","bmc.ip","vendor"]

def resourceDimensions : List String :=
  identityDimensions ++ ["service.name"] ++ ["deployment.environment","deployment.environment.name"] ++
    resourceOnlyDimensions

/-! OTLP. -/

section
variable {φ : Type}

structure Point (φ : Type) where
  attributes : Dims
  value : φ

structure Grouped (φ : Type) where
  unit : Option String
  metricType : Kind
  points : List (Point φ)

inductive Data where
  | sum
  | gauge
  deriving DecidableEq, Repr

structure Metric (φ : Type) where
  name : String
  unit : String
  data : Data
  points : List (Point φ)

structure MetricsData (φ : Type) where
  resource : Dims
  metrics : List (Metric φ)

def keepAttr (dims : Dims) (attrs : Dims) (key : String) : Dims :=
  match dims.lookup key with
  | some value => if (attrs.lookup key).isSome then attrs else AssocList.insert key value attrs
  | none => attrs

def keepAttrs (attrs : Dims) (s : MetricSample φ) : Dims :=
  resourceDimensions.foldl (keepAttr s.dimensions) attrs

def resourceAttrs (samples : List (MetricSample φ)) (serviceName : String) : Dims :=
  let attrs := samples.foldl keepAttrs []
  if (attrs.lookup "service.name").isSome then attrs
  else AssocList.insert "service.name" serviceName attrs

def pointAttrs (s : MetricSample φ) : Dims :=
  s.dimensions.filter fun d => !resourceDimensions.contains d.1

def point (s : MetricSample φ) : Point φ := ⟨pointAttrs s,s.value⟩

def extended (entry : Option (Grouped φ)) (s : MetricSample φ) : Grouped φ :=
  let entry := entry.getD ⟨s.unit,s.metricType,[]⟩
  { entry with points := entry.points ++ [point s] }

def addPoint (grouped : List (String × Grouped φ)) (s : MetricSample φ) : List (String × Grouped φ) :=
  AssocList.insert s.metric (extended (grouped.lookup s.metric) s) grouped

def grouped (samples : List (MetricSample φ)) : List (String × Grouped φ) := samples.foldl addPoint []

def metric (entry : String × Grouped φ) : Metric φ :=
  ⟨entry.1,entry.2.unit.getD "",if entry.2.metricType = .counter then .sum else .gauge,entry.2.points⟩

def metricsDataFromSamples (samples : List (MetricSample φ)) (serviceName : String) : MetricsData φ :=
  ⟨resourceAttrs samples serviceName,(grouped samples).map metric⟩

/-! SignalFx. -/

structure Datapoint (φ : Type) where
  metric : String
  value : φ
  dimensions : Dims

def envelope (kind : Kind) : Kind := if kind = .counter then .cumulativeCounter else kind

def datapoint (s : MetricSample φ) : Datapoint φ := ⟨s.metric,s.value,s.dimensions.filter isVisible⟩

def toSignalfxBody (samples : List (MetricSample φ)) : List (Kind × List (Datapoint φ)) :=
  (samples.foldl (fun body s => add (envelope s.metricType) (datapoint s) body)
    [(.gauge,[]),(.counter,[]),(.cumulativeCounter,[])]).filter fun row => !row.2.isEmpty

/-! Prometheus: the lines before they are printed. -/

inductive Line (φ : Type) where
  | help (name text : String)
  | kind (name text : String)
  | sample (name : String) (labels : Dims) (value : φ)

def Line.print (numerals : Exposition.Numerals φ) : Line φ → String
  | help name text => Exposition.helpLine name (PrometheusText.escapeHelpText text)
  | kind name text => Exposition.kindLine name text
  | sample name labels value => Exposition.seriesLine PrometheusText.escapeLabelValue name labels
      (formatValue numerals value)

def Line.series : Line φ → Option (String × Dims × φ)
  | sample name labels value => some (name,labels,value)
  | _ => none

def Line.kindOf (wanted : String) : Line φ → Option String
  | kind name text => if name = wanted then some text else none
  | _ => none

variable (lookup : String → Option MetricDefinition)

def headers (d : MetricDefinition) (name : String) : List (Line φ) :=
  (if d.description = "" then [] else [.help name d.description]) ++ [.kind name (prometheusType d.kind)]

def sampleLine (s : MetricSample φ) : Line φ :=
  .sample (exposedName lookup s) (visibleItems s) s.value

def lines : List String → List (MetricSample φ) → List (Line φ)
  | _,[] => []
  | seen,s::rest =>
      if seen.contains (exposedName lookup s) then sampleLine lookup s::lines seen rest
      else headers (sampleDefinition lookup s) (exposedName lookup s) ++
        sampleLine lookup s::lines (exposedName lookup s::seen) rest

theorem renderLinesPrinted (numerals : Exposition.Numerals φ) (seen : List String)
    (samples : List (MetricSample φ)) :
    renderLines numerals lookup seen samples =
      (lines lookup seen samples).map (Line.print numerals) := by
  induction samples generalizing seen with
  | nil => rfl
  | cons s rest ih =>
    unfold renderLines lines
    dsimp only
    split
    · rw [ih]
      rfl
    · rw [ih,List.map_append]
      unfold headerLines headers
      split <;> rfl

end

/-! Resource attributes. -/

section
variable {φ : Type}

theorem keepAttrLookup (dims attrs : Dims) (kept key : String) :
    (keepAttr dims attrs kept).lookup key =
      (attrs.lookup key).or (if key = kept then dims.lookup key else none) := by
  unfold keepAttr
  cases found : dims.lookup kept with
  | none =>
    by_cases same : key = kept
    · subst same
      simp [found]
    · simp [same]
  | some value =>
    dsimp only
    by_cases same : key = kept
    · subst same
      cases known : attrs.lookup key <;> simp [known,found]
    · split <;> simp [same]

theorem keepAttrsFold (dims : Dims) (names : List String) (attrs : Dims) (key : String) :
    (names.foldl (keepAttr dims) attrs).lookup key =
      (attrs.lookup key).or (if key ∈ names then dims.lookup key else none) := by
  induction names generalizing attrs with
  | nil => simp
  | cons name rest ih =>
    rw [List.foldl_cons,ih,keepAttrLookup]
    by_cases same : key = name
    · subst same
      cases dims.lookup key <;> simp
    · simp [same]

variable (samples : List (MetricSample φ))

theorem resourceFold (attrs : Dims) (key : String) :
    (samples.foldl keepAttrs attrs).lookup key = (attrs.lookup key).or
      (if key ∈ resourceDimensions then samples.findSome? fun s => s.dimensions.lookup key else none) := by
  induction samples generalizing attrs with
  | nil => simp
  | cons s rest ih =>
    rw [List.foldl_cons,ih,keepAttrs,keepAttrsFold]
    by_cases mem : key ∈ resourceDimensions
    · rw [if_pos mem,if_pos mem,if_pos mem,List.findSome?_cons]
      cases s.dimensions.lookup key <;> simp
    · simp [mem]

structure OneIdentity (samples : List (MetricSample φ)) : Prop where
  same : ∀ s ∈ samples, ∀ t ∈ samples, ∀ key ∈ resourceDimensions,
    s.dimensions.lookup key = t.dimensions.lookup key
  named : ∀ s ∈ samples, (s.dimensions.lookup "service.name").isSome = true

variable {s : MetricSample φ}

theorem identityFirst {samples} (identity : OneIdentity samples) (mem : s ∈ samples) {key}
    (resource : key ∈ resourceDimensions) :
    (samples.findSome? fun t => t.dimensions.lookup key) = s.dimensions.lookup key := by
  cases found : samples.findSome? fun t => t.dimensions.lookup key with
  | none => exact (List.findSome?_eq_none_iff.mp found s mem).symm
  | some value =>
    obtain ⟨t,inside,has⟩ := List.exists_of_findSome?_eq_some found
    rw [identity.same s mem t inside key resource,has]

theorem resourceLookup {samples} (identity : OneIdentity samples) (serviceName : String)
    (mem : s ∈ samples) (key : String) :
    (resourceAttrs samples serviceName).lookup key =
      if key ∈ resourceDimensions then s.dimensions.lookup key else none := by
  have attrs : ∀ key, (samples.foldl keepAttrs []).lookup key =
      if key ∈ resourceDimensions then s.dimensions.lookup key else none := by
    intro key
    rw [resourceFold,List.lookup_nil]
    split
    · rename_i resource
      exact identityFirst identity mem resource
    · rfl
  have named : ((samples.foldl keepAttrs []).lookup "service.name").isSome = true := by
    rw [attrs]
    exact identity.named s mem
  unfold resourceAttrs
  rw [if_pos named]
  exact attrs key

theorem pointLookup (s : MetricSample φ) (key : String) : (pointAttrs s).lookup key =
    if key ∈ resourceDimensions then none else s.dimensions.lookup key := by
  unfold pointAttrs
  induction s.dimensions with
  | nil => simp
  | cons d rest ih =>
    obtain ⟨k,v⟩ := d
    rw [List.filter_cons]
    by_cases resource : k ∈ resourceDimensions
    · rw [if_neg (by simp [resource]),ih]
      by_cases same : key = k
      · subst same
        simp [resource]
      · simp [same]
    · rw [if_pos (by simp [resource]),lookupCons,ih]
      by_cases same : key = k
      · subst same
        simp [resource]
      · simp [same]

theorem attributesTogether {samples} (identity : OneIdentity samples) (serviceName : String)
    (mem : s ∈ samples) (key : String) :
    ((resourceAttrs samples serviceName).lookup key).or ((pointAttrs s).lookup key) =
      s.dimensions.lookup key := by
  rw [resourceLookup identity serviceName mem,pointLookup]
  split <;> simp

/-! Groups. -/

def joined (entry : Option (Grouped φ)) (samples : List (MetricSample φ)) : Option (Grouped φ) :=
  samples.foldl (fun entry s => some (extended entry s)) entry

theorem groupedLookup (start : List (String × Grouped φ)) (name : String) :
    (samples.foldl addPoint start).lookup name =
      joined (start.lookup name) (samples.filter fun s => s.metric = name) := by
  induction samples generalizing start with
  | nil => rfl
  | cons s rest ih =>
    rw [List.foldl_cons,ih,addPoint]
    by_cases same : s.metric = name
    · subst same
      simp [joined]
    · simp [same,Ne.symm same]

theorem joinedSome (entry : Grouped φ) (samples : List (MetricSample φ)) :
    joined (some entry) samples = some { entry with points := entry.points ++ samples.map point } := by
  induction samples generalizing entry with
  | nil => simp [joined]
  | cons s rest ih =>
    have step : joined (some entry) (s::rest) = joined (some (extended (some entry) s)) rest := rfl
    rw [step,ih]
    simp [extended]

theorem groupedFirst (name : String) :
    ((grouped samples).lookup name).map Grouped.metricType =
      (samples.find? fun s => s.metric = name).map MetricSample.metricType := by
  unfold grouped
  rw [groupedLookup,← List.head?_filter]
  cases samples.filter fun s => s.metric = name with
  | nil => rfl
  | cons s rest =>
    have step : joined none (s::rest) = joined (some (extended none s)) rest := rfl
    rw [List.lookup_nil,step,joinedSome]
    rfl

def allPoints (rows : List (String × Grouped φ)) : List (String × Point φ) :=
  rows.flatMap fun row => row.2.points.map fun p => (row.1,p)

theorem addPointPerm (rows : List (String × Grouped φ)) (s : MetricSample φ) :
    (allPoints (addPoint rows s)).Perm ((s.metric,point s)::allPoints rows) := by
  unfold addPoint
  induction rows with
  | nil => exact .refl _
  | cons row rest ih =>
    obtain ⟨name,entry⟩ := row
    rw [lookupCons]
    unfold AssocList.insert
    by_cases same : s.metric = name
    · subst same
      rw [if_pos rfl]
      simp only [allPoints,extended,List.flatMap_cons,Option.getD_some,List.map_append,List.map_cons,
        List.map_nil,List.append_assoc,List.singleton_append]
      exact List.perm_middle
    · rw [if_neg same,if_neg (Ne.symm same)]
      have tail := ih.append_left (entry.points.map fun p => (name,p))
      exact tail.trans List.perm_middle

theorem groupedPerm :
    (allPoints (grouped samples)).Perm (samples.map fun s => (s.metric,point s)) := by
  have run : ∀ rows, (allPoints (samples.foldl addPoint rows)).Perm
      ((samples.map fun s => (s.metric,point s)) ++ allPoints rows) := by
    induction samples with
    | nil => exact fun rows => .refl _
    | cons s rest ih =>
      intro rows
      refine (ih (addPoint rows s)).trans ?_
      exact ((addPointPerm rows s).append_left _).trans List.perm_middle
  simpa [grouped,allPoints] using run []

theorem groupedDistinct : AssocList.Distinct (grouped samples) := by
  exact List.foldlRecOn samples _ List.nodup_nil fun rows distinct s _ =>
    AssocList.distinctInsert distinct _ _

/-! Envelopes. -/

def enveloped (samples : List (MetricSample φ)) (kind : Kind) : List (Datapoint φ) :=
  (samples.filter fun s => envelope s.metricType = kind).map datapoint

def bodyOf (a b c : List (Datapoint φ)) : List (Kind × List (Datapoint φ)) :=
  [(.gauge,a),(.counter,b),(.cumulativeCounter,c)]

theorem bodyRows (a b c : List (Datapoint φ)) :
    samples.foldl (fun body s => add (envelope s.metricType) (datapoint s) body) (bodyOf a b c) =
      bodyOf (a ++ enveloped samples .gauge) (b ++ enveloped samples .counter)
        (c ++ enveloped samples .cumulativeCounter) := by
  induction samples generalizing a b c with
  | nil => simp [enveloped]
  | cons s rest ih =>
    rw [List.foldl_cons]
    cases kind : envelope s.metricType with
    | gauge =>
      have row : add .gauge (datapoint s) (bodyOf a b c) = bodyOf (a ++ [datapoint s]) b c := rfl
      rw [row,ih]
      simp [enveloped,kind]
    | counter =>
      have row : add .counter (datapoint s) (bodyOf a b c) = bodyOf a (b ++ [datapoint s]) c := rfl
      rw [row,ih]
      simp [enveloped,kind]
    | cumulativeCounter =>
      have row : add .cumulativeCounter (datapoint s) (bodyOf a b c) =
          bodyOf a b (c ++ [datapoint s]) := rfl
      rw [row,ih]
      simp [enveloped,kind]

theorem bodyIs : toSignalfxBody samples =
    (bodyOf (enveloped samples .gauge) (enveloped samples .counter)
      (enveloped samples .cumulativeCounter)).filter fun row => !row.2.isEmpty := by
  have rows := bodyRows samples [] [] []
  simp only [List.nil_append] at rows
  rw [← rows]
  rfl

theorem bodyPerm : ((toSignalfxBody samples).flatMap Prod.snd).Perm (samples.map datapoint) := by
  have whole : ∀ a b c : List (Datapoint φ),
      ((bodyOf a b c).filter fun row => !row.2.isEmpty).flatMap Prod.snd = a ++ (b ++ c) := by
    intro a b c
    cases a <;> cases b <;> cases c <;> simp [bodyOf]
  rw [bodyIs,whole]
  unfold enveloped
  rw [← List.map_append,← List.map_append]
  refine List.Perm.map datapoint ?_
  induction samples with
  | nil => exact .refl _
  | cons s rest ih =>
    simp only [List.filter_cons]
    cases envelope s.metricType with
    | gauge => exact ih.cons s
    | counter => exact List.perm_middle.trans (ih.cons s)
    | cumulativeCounter => exact (List.perm_middle.append_left _).trans (List.perm_middle.trans (ih.cons s))

theorem bodyEnvelope (kind : Kind) :
    bucket (toSignalfxBody samples) kind = enveloped samples kind := by
  have row : ∀ a b c : List (Datapoint φ),
      let body := (bodyOf a b c).filter fun row => !row.2.isEmpty
      bucket body .gauge = a ∧ bucket body .counter = b ∧ bucket body .cumulativeCounter = c := by
    intro a b c
    cases a <;> cases b <;> cases c <;> exact ⟨rfl,rfl,rfl⟩
  rw [bodyIs]
  cases kind with
  | gauge => exact (row _ _ _).1
  | counter => exact (row _ _ _).2.1
  | cumulativeCounter => exact (row _ _ _).2.2

/-! Lines. -/

variable (lookup : String → Option MetricDefinition)

theorem linesSeries (seen : List String) (samples : List (MetricSample φ)) :
    (lines lookup seen samples).filterMap Line.series =
      samples.map fun s => (exposedName lookup s,visibleItems s,s.value) := by
  have bare : ∀ d name, (headers d name : List (Line φ)).filterMap Line.series = [] := by
    intro d name
    unfold headers
    split <;> rfl
  induction samples generalizing seen with
  | nil => rfl
  | cons s rest ih =>
    unfold lines
    split
    · rw [List.filterMap_cons_some (show (sampleLine lookup s).series = some _ from rfl),ih]
      rfl
    · rw [List.filterMap_append,bare,
        List.filterMap_cons_some (show (sampleLine lookup s).series = some _ from rfl),ih]
      rfl

theorem headersKind (d : MetricDefinition) (name wanted : String) :
    (headers d name : List (Line φ)).filterMap (Line.kindOf wanted) =
      if name = wanted then [prometheusType d.kind] else [] := by
  unfold headers
  split
  · by_cases same : name = wanted <;> simp [Line.kindOf,same]
  · by_cases same : name = wanted <;> simp [List.filterMap_cons,Line.kindOf,same]

theorem linesTyped (seen : List String) (samples : List (MetricSample φ)) {name}
    (known : name ∈ seen) : (lines lookup seen samples).filterMap (Line.kindOf name) = [] := by
  induction samples generalizing seen with
  | nil => rfl
  | cons s rest ih =>
    have line : (sampleLine lookup s).kindOf name = none := rfl
    unfold lines
    split
    · rw [List.filterMap_cons_none line]
      exact ih seen known
    rename_i fresh
    have differs : exposedName lookup s ≠ name := by
      rintro rfl
      exact fresh (List.contains_iff_mem.mpr known)
    rw [List.filterMap_append,headersKind,if_neg differs]
    exact ih _ (List.mem_cons_of_mem _ known)

theorem linesKind (seen : List String) (samples : List (MetricSample φ)) {name}
    (fresh : name ∉ seen) : (lines lookup seen samples).filterMap (Line.kindOf name) =
      ((samples.find? fun s => exposedName lookup s = name).map fun s =>
        prometheusType (sampleDefinition lookup s).kind).toList := by
  induction samples generalizing seen with
  | nil => rfl
  | cons s rest ih =>
    have line : (sampleLine lookup s).kindOf name = none := rfl
    unfold lines
    by_cases same : exposedName lookup s = name
    · have new : ¬ seen.contains (exposedName lookup s) = true := by
        rw [same,List.contains_iff_mem]
        exact fresh
      rw [if_neg new,List.filterMap_append,headersKind,if_pos same,List.filterMap_cons_none line,
        linesTyped lookup _ rest (same ▸ List.mem_cons_self),List.find?_cons_of_pos (by simp [same])]
      rfl
    · rw [List.find?_cons_of_neg (by simp [same])]
      split
      · rw [List.filterMap_cons_none line]
        exact ih seen fresh
      · rw [List.filterMap_append,headersKind,if_neg same]
        exact ih _ (by simp [fresh,Ne.symm same])

end

/-! Agreement. -/

section
variable {φ : Type} (numerals : Exposition.Numerals φ) (lookup : String → Option MetricDefinition)
  (serviceName : String) (samples : List (MetricSample φ))

def OtlpCounter (s : MetricSample φ) : Prop :=
  ∃ m ∈ (metricsDataFromSamples samples serviceName).metrics, m.name = s.metric ∧ m.data = .sum

def SignalfxCounter (s : MetricSample φ) : Prop := envelope s.metricType = .cumulativeCounter

def PrometheusCounter (s : MetricSample φ) : Prop :=
  "counter" ∈ (lines lookup [] samples).filterMap (Line.kindOf (exposedName lookup s))

structure Agree : Prop where
  otlp : ((metricsDataFromSamples samples serviceName).metrics.flatMap fun m =>
    m.points.map fun p => (m.name,p)).Perm (samples.map fun s => (s.metric,point s))
  attributes : ∀ s ∈ samples, ∀ key,
    ((metricsDataFromSamples samples serviceName).resource.lookup key).or ((pointAttrs s).lookup key) =
      s.dimensions.lookup key
  signalfx : ((toSignalfxBody samples).flatMap Prod.snd).Perm (samples.map datapoint)
  envelopes : ∀ kind, bucket (toSignalfxBody samples) kind =
    (samples.filter fun s => envelope s.metricType = kind).map datapoint
  prometheus : List.Forall₂ (fun found s => found.1 = exposedName lookup s ∧
      found.2.1.Perm (s.dimensions.filter isVisible) ∧
      numerals.read (formatValue numerals found.2.2) = some s.value)
    ((lines lookup [] samples).filterMap Line.series) samples
  counters : ∀ s ∈ samples, (OtlpCounter serviceName samples s ↔ SignalfxCounter s) ∧
    (SignalfxCounter s ↔ PrometheusCounter lookup samples s)

/- The first sample of a metric is no cumulative counter, the samples of a metric are all gauges or
none is, and so are those of a Prometheus name with its first catalog entry. -/
structure Declared : Prop where
  first : ∀ s, samples.find? (fun t => t.metric = s.metric) = some s → s.metricType ≠ .cumulativeCounter
  alike : ∀ s ∈ samples, ∀ t ∈ samples, s.metric = t.metric →
    (s.metricType = .gauge ↔ t.metricType = .gauge)
  catalogued : ∀ s ∈ samples, ∀ t, samples.find? (fun t => exposedName lookup t = exposedName lookup s) = some t →
    ((sampleDefinition lookup t).kind = .gauge ↔ s.metricType = .gauge)

variable {serviceName samples} {s : MetricSample φ}

theorem otlpCounterIff : OtlpCounter serviceName samples s ↔
    ∃ t, samples.find? (fun t => t.metric = s.metric) = some t ∧ t.metricType = .counter := by
  have first := groupedFirst samples s.metric
  have data : ∀ {entry : String × Grouped φ}, (metric entry).data = .sum ↔ entry.2.metricType = .counter := by
    intro entry
    unfold metric
    split
    · rename_i counter
      simp [counter]
    · rename_i other
      simp [other]
  constructor
  · rintro ⟨m,mem,name,sum⟩
    obtain ⟨⟨key,entry⟩,inside,rfl⟩ := List.mem_map.mp mem
    cases show key = s.metric from name
    rw [AssocList.lookupOfMem (groupedDistinct samples) inside] at first
    obtain ⟨t,found,kind⟩ := Option.map_eq_some_iff.mp first.symm
    exact ⟨t,found,kind.trans (data.mp sum)⟩
  · rintro ⟨t,found,counter⟩
    rw [found] at first
    obtain ⟨entry,row,kind⟩ := Option.map_eq_some_iff.mp first
    exact ⟨metric (s.metric,entry),List.mem_map_of_mem (AssocList.lookupMem row),rfl,
      data.mpr (kind.trans counter)⟩

theorem signalfxCounterIff : SignalfxCounter s ↔ s.metricType ≠ .gauge := by
  unfold SignalfxCounter
  cases s.metricType <;> decide

theorem prometheusCounterIff : PrometheusCounter lookup samples s ↔
    ∃ t, samples.find? (fun t => exposedName lookup t = exposedName lookup s) = some t ∧
      (sampleDefinition lookup t).kind ≠ .gauge := by
  have counter : ∀ kind, prometheusType kind = "counter" ↔ kind ≠ .gauge := by
    intro kind
    cases kind <;> decide
  unfold PrometheusCounter
  rw [linesKind lookup [] samples List.not_mem_nil,Option.mem_toList,Option.map_eq_some_iff]
  simp [counter]

theorem agreeIff (identity : OneIdentity samples) : Agree numerals lookup serviceName samples ↔
    ∀ s ∈ samples, (OtlpCounter serviceName samples s ↔ SignalfxCounter s) ∧
      (SignalfxCounter s ↔ PrometheusCounter lookup samples s) := by
  refine ⟨Agree.counters,fun counters => ⟨?_,?_,bodyPerm samples,bodyEnvelope samples,?_,counters⟩⟩
  · have points := groupedPerm samples
    rw [allPoints] at points
    simpa [metricsDataFromSamples,List.flatMap_map,metric] using points
  · exact fun s mem key => attributesTogether identity serviceName mem key
  · rw [linesSeries,List.forall₂_map_left_iff,List.forall₂_same]
    exact fun s _ => ⟨rfl,(List.perm_insertionSort _ _).filter isVisible,
      formatRead numerals s.value⟩

theorem findFirst (p : MetricSample φ → Bool) (mem : s ∈ samples) (here : p s = true) :
    ∃ t, samples.find? p = some t ∧ t ∈ samples ∧ p t = true := by
  cases found : samples.find? p with
  | none => exact absurd here (List.find?_eq_none.mp found s mem)
  | some t => exact ⟨t,rfl,List.mem_of_find?_eq_some found,List.find?_some found⟩

theorem firstOf (mem : s ∈ samples) :
    ∃ t, samples.find? (fun t => t.metric = s.metric) = some t ∧ t ∈ samples ∧ t.metric = s.metric := by
  obtain ⟨t,found,inside,same⟩ := findFirst (fun t => t.metric = s.metric) mem (by simp)
  exact ⟨t,found,inside,of_decide_eq_true same⟩

theorem declaredIff : Declared lookup samples ↔ ∀ s ∈ samples,
    ((∃ t, samples.find? (fun t => t.metric = s.metric) = some t ∧ t.metricType = .counter) ↔
      s.metricType ≠ .gauge) ∧
    (s.metricType ≠ .gauge ↔ ∃ t, samples.find? (fun t => exposedName lookup t = exposedName lookup s) =
      some t ∧ (sampleDefinition lookup t).kind ≠ .gauge) := by
  constructor
  · intro declared s mem
    obtain ⟨t,found,inside,same⟩ := firstOf mem
    obtain ⟨u,named,_⟩ := findFirst (fun t => exposedName lookup t = exposedName lookup s) mem (by simp)
    have first := declared.first t (by rw [same]; exact found)
    have alike := declared.alike t inside s mem same
    have catalogued := declared.catalogued s mem u named
    rw [found,named]
    simp only [Option.some.injEq,exists_eq_left']
    refine ⟨?_,not_congr catalogued.symm⟩
    rw [Ne,← alike]
    cases kind : t.metricType with
    | gauge => simp
    | counter => simp
    | cumulativeCounter => exact absurd kind first
  · intro counters
    have otlp : ∀ {s t}, s ∈ samples → samples.find? (fun t => t.metric = s.metric) = some t →
        (t.metricType = .counter ↔ s.metricType ≠ .gauge) := by
      intro s t mem found
      have both := (counters s mem).1
      rw [found] at both
      simpa using both
    refine ⟨?_,?_,?_⟩
    · intro s found cumulative
      have own := otlp (List.mem_of_find?_eq_some found) found
      rw [cumulative] at own
      exact absurd (own.mpr (by simp)) (by simp)
    · intro s first t second same
      obtain ⟨u,found,_⟩ := firstOf first
      have left := otlp first found
      have right := otlp second (by rw [← same]; exact found)
      exact not_iff_not.mp (left.symm.trans right)
    · intro s mem t found
      have both := (counters s mem).2
      rw [found] at both
      simp only [Option.some.injEq,exists_eq_left'] at both
      exact not_iff_not.mp both.symm

/- The writers agree on the samples of one exporter exactly if these are declared so. -/
theorem writersAgree (identity : OneIdentity samples) :
    Agree numerals lookup serviceName samples ↔ Declared lookup samples := by
  rw [agreeIff numerals lookup identity,declaredIff]
  simp only [otlpCounterIff,signalfxCounterIff,prometheusCounterIff]

end

def energy (kind : Kind) : MetricSample {text : String // Exposition.Plain text} :=
  ⟨"hw.energy_kwh",Exposition.literals.ofInt 7,[("host.name","gb300"),("service.name","redfish_ctl"),
    ("chassis","Chassis_0")],kind,some "kWh",.null⟩

theorem energyIdentity (kind : Kind) : OneIdentity [energy kind] where
  same := by
    intro s first t second key _
    rw [List.mem_singleton.mp first,List.mem_singleton.mp second]
  named := by
    intro s mem
    rw [List.mem_singleton.mp mem]
    rfl

theorem writersAgreeEnergy : OneIdentity [energy .counter] ∧
    (Agree Exposition.literals supermicroMetricDefinition "redfish_ctl" [energy .counter] ↔
      Declared supermicroMetricDefinition [energy .counter]) :=
  ⟨energyIdentity .counter,writersAgree _ _ (energyIdentity .counter)⟩

theorem cumulativeCounterDiffers : OneIdentity [energy .cumulativeCounter] ∧
    ¬ Agree Exposition.literals supermicroMetricDefinition "redfish_ctl" [energy .cumulativeCounter] := by
  refine ⟨energyIdentity .cumulativeCounter,fun agree => ?_⟩
  have same := (agree.counters _ List.mem_cons_self).1
  rw [otlpCounterIff,signalfxCounterIff] at same
  obtain ⟨t,found,counter⟩ := same.mpr (by simp [energy])
  simp at found
  rw [← found] at counter
  cases counter

end RedfishCtl.TelemetryWriters
