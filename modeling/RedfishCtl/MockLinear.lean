import RedfishCtl.MockAliases
import RedfishCtl.MockConfined
import RedfishCtl.TwoPhase

/-! Concurrent writes to the rule engine. A write reads its rules and the fixtures of their
conditions before it takes the lock; they are immutable unless a set transition stores a dictionary
of them. -/
namespace RedfishCtl.MockEngine
open MockOverlay
open Heap (Reach)
open Stateful (Keeps)
open Rules (candidates conditionPath conditionPaths conditions engine isCandidate prepare)
open PyVal (list refs)

inductive UnderLock where
  | overlayFor (path : String)
  | reset (scenario : Option String)
  | status

def Engine.underLock {ω : Type} (e : Engine ω) : UnderLock → Stateful (Store × ω) PyError (Option Json)
  | .overlayFor path => e.perform (.overlayFor path)
  | .reset scenario => fun s => (.ok (some (.bool (e.reset scenario s).1)),(e.reset scenario s).2)
  | .status => e.perform .status

namespace Rules
variable {ρ : Type}

def object (lib : Library ρ) (corpus : Corpus) (rules : List PyVal) (vendor : String) (seed : Int) :
    TwoPhase.Object (State ρ) Request Prepared UnderLock PyError (Option Json) where
  prepare request s := prepare lib corpus rules s.1.heap request
  locked := locked lib
  atomic := (engine lib corpus rules vendor seed).underLock

end Rules

/- A dictionary that a set transition stores, or a member of one. -/
inductive Writable (spec : Specification) : Nat → Prop where
  | value {rule t c} (listed : rule ∈ spec.entries) (transition : t ∈ transitionsOf spec.heap rule)
      (found : field spec.heap t "value" = some (.dict c)) : Writable spec c
  | member {r key c} (before : Writable spec r)
      (found : (spec.heap.cell r).lookup key = some (.dict c)) : Writable spec c

def shapeKeys : List String := ["method","path","body","body_contains"]

/- A dictionary read before the lock: a rule, what it asks of a request, or a condition. -/
inductive Read (spec : Specification) : Nat → Prop where
  | rule {r} (listed : .dict r ∈ spec.entries) : Read spec r
  | shape {rule key v r} (listed : rule ∈ spec.entries) (asked : key ∈ shapeKeys)
      (found : field spec.heap rule key = some v) (reached : Reach spec.heap v r) : Read spec r
  | conditions {rule r} (listed : rule ∈ spec.entries)
      (found : field spec.heap rule "when" = some (.dict r)) : Read spec r
  | condition {rule items r} (listed : rule ∈ spec.entries)
      (found : field spec.heap rule "when" = some (.list items)) (among : .dict r ∈ items) :
      Read spec r

def Isolated (spec : Specification) : Prop := ∀ r, Writable spec r → ¬ Read spec r

section
variable {spec : Specification}

theorem readKnown {r} (read : Read spec r) : r < spec.heap.size := by
  cases read with
  | rule listed => exact spec.known _ listed r (by simp [refs])
  | shape listed asked found reached =>
    cases reached with
    | here direct => exact fieldKnown found r direct
    | there before inside => exact cellKnown _ r inside
  | conditions listed found => exact fieldKnown found r (by simp [refs])
  | condition listed found among =>
    refine fieldKnown found r ?_
    exact PyVal.refsItemsMem.mpr ⟨_,among,by simp [refs]⟩

def Touched (spec : Specification) (r : Nat) : Prop := Writable spec r ∨ spec.heap.size ≤ r

theorem touchedUnread (isolated : Isolated spec) {r} (read : Read spec r) : ¬ Touched spec r := by
  intro touched
  cases touched with
  | inl writable => exact isolated r writable read
  | inr beyond => exact absurd (readKnown read) (not_lt.mpr beyond)

theorem touchedStart : Confined spec.heap (Touched spec) ⟨spec.heap,[]⟩ := by
  refine confinedStart (fun r beyond => .inr beyond) fun r key c touched found => ?_
  cases touched with
  | inl writable => exact .inl (.member writable found)
  | inr beyond =>
    have absent : spec.heap.cell r = [] := by
      simp only [Heap.cell,List.getElem?_eq_none beyond,Option.getD_none]
    simp [absent] at found

theorem touchedIsolates (isolated : Isolated spec) :
    Isolates spec.heap (Touched spec) spec.entries :=
  ⟨fun _ listed => touchedUnread isolated (.rule listed),
    fun _ mem _ listed _ found => .inl (.value mem listed found)⟩

end

theorem truthyAgree {h h' v} (same : ∀ r, v = .dict r → h.cell r = h'.cell r) :
    truthy h v = truthy h' v := by
  cases v with
  | dict r => simp only [truthy,same r rfl]
  | float x => cases x <;> rfl
  | _ => rfl

theorem iterateAgree {h h' v} (same : ∀ r, v = .dict r → h.cell r = h'.cell r) :
    iterate h v = iterate h' v := by
  cases v with
  | dict r => simp only [iterate,same r rfl]
  | _ => rfl

section
variable {spec : Specification} (unshared : Unshared spec)
include unshared

theorem readPlace {q r key} (read : Read spec r) (occurs : Occurs spec q key r) :
    Read spec q ∧ (.dict q ∈ spec.entries → key ∈ "when"::shapeKeys) := by
  cases read with
  | rule listed => exact absurd listed (occursBelow unshared occurs)
  | @shape rule key' v _ listed asked found reached =>
    cases reached with
    | here direct =>
      cases rule with
      | dict p =>
        obtain ⟨rfl,rfl⟩ := occursOnce unshared occurs (occursField found direct)
        exact ⟨.rule listed,fun _ => List.mem_cons_of_mem _ asked⟩
      | _ => simp [field] at found
    | @there x _ before inside =>
      obtain ⟨key'',place⟩ := occursRefs inside
      obtain ⟨rfl,rfl⟩ := occursOnce unshared occurs place
      refine ⟨.shape listed asked found before,fun top => ?_⟩
      cases before with
      | here direct =>
        cases rule with
        | dict p => exact absurd top (occursBelow unshared (occursField found direct))
        | _ => simp [field] at found
      | there _ inside =>
        obtain ⟨_,place⟩ := occursRefs inside
        exact absurd top (occursBelow unshared place)
  | @conditions rule _ listed found =>
    cases rule with
    | dict p =>
      obtain ⟨rfl,rfl⟩ := occursOnce unshared occurs (occursField found (by simp [refs]))
      exact ⟨.rule listed,fun _ => by simp⟩
    | _ => simp [field] at found
  | @condition rule items _ listed found among =>
    cases rule with
    | dict p =>
      have inside : r ∈ (list items).refs := by
        exact PyVal.refsItemsMem.mpr ⟨_,among,by simp [refs]⟩
      obtain ⟨rfl,rfl⟩ := occursOnce unshared occurs (occursField found inside)
      exact ⟨.rule listed,fun _ => by simp⟩
    | _ => simp [field] at found

theorem unsharedIsolated : Isolated spec := by
  intro r writable
  induction writable with
  | @value rule t c listed transition found =>
    intro read
    cases t with
    | dict q =>
      have stored : Occurs spec q "value" c := occursField found (by simp [refs])
      have readTransition := (readPlace unshared read stored).1
      unfold transitionsOf at transition
      split at transition
      · rename_i items all
        cases rule with
        | dict p =>
          have inside : q ∈ (list items).refs := by
            exact PyVal.refsItemsMem.mpr ⟨_,transition,by simp [refs]⟩
          have place := (readPlace unshared readTransition (occursField all inside)).2 listed
          exact absurd place (by decide)
        | _ => simp [field] at all
      · simp at transition
    | _ => simp [field] at found
  | @member r key c before found ih =>
    intro read
    have occurs : Occurs spec r key c := ⟨_,AssocList.lookupMem found,by simp [refs]⟩
    exact ih (readPlace unshared read occurs).1

end

section
variable {spec : Specification} {h : Heap} (isolated : Isolated spec)
  (confined : ConfinedHeap spec.heap (Touched spec) h)
include confined

theorem documentStill {v} (unread : ∀ r, Reach spec.heap v r → ¬ Touched spec r) :
    document h v = document spec.heap v := by
  unfold document
  rw [Heap.viewAgree fun r reached => confined.frame r (unread r reached)]

include isolated

variable {rule : PyVal}

theorem ruleField (listed : rule ∈ spec.entries) (key : String) :
    field h rule key = field spec.heap rule key :=
  fieldStill confined (fun _ same => touchedUnread isolated (.rule (same ▸ listed))) key

theorem textStill (listed : rule ∈ spec.entries) {key} (asked : key ∈ shapeKeys) :
    textOr h rule key = textOr spec.heap rule key := by
  unfold textOr
  rw [ruleField isolated confined listed]
  cases found : field spec.heap rule key with
  | none => rfl
  | some v =>
    have same := documentStill confined fun r reached =>
      touchedUnread isolated (.shape listed asked found reached)
    simp [text,same]

theorem constraintStill (listed : rule ∈ spec.entries) {key} (asked : key ∈ shapeKeys)
    (test : Json → Bool) : constraint h rule key test = constraint spec.heap rule key test := by
  unfold constraint
  rw [ruleField isolated confined listed]
  cases found : field spec.heap rule key with
  | none => rfl
  | some v =>
    have same := documentStill confined fun r reached =>
      touchedUnread isolated (.shape listed asked found reached)
    simp [same]

theorem conditionsStill (listed : rule ∈ spec.entries) :
    conditions h rule = conditions spec.heap rule := by
  unfold conditions
  rw [ruleField isolated confined listed]
  cases found : field spec.heap rule "when" with
  | none => rfl
  | some v =>
    have same : ∀ r, v = .dict r → h.cell r = spec.heap.cell r := by
      intro r eq
      subst eq
      simp [Heap.cell,confined.frame r (touchedUnread isolated (.conditions listed found))]
    simp only [orElse,truthyAgree same]
    split
    · exact iterateAgree same
    · rfl

theorem conditionPathStill {condition} (listed : rule ∈ spec.entries) {cs}
    (all : conditions spec.heap rule = .ok cs) (mem : condition ∈ cs) :
    conditionPath h condition = conditionPath spec.heap condition := by
  obtain ⟨s,rfl⟩ | ⟨items,same,among⟩ := iterateMem all mem
  · rfl
  · have found := orElseList same among
    have unread : ∀ r, condition = .dict r → ¬ Touched spec r := fun r eq =>
      touchedUnread isolated (.condition listed found (eq ▸ among))
    simp [conditionPath,fieldStill confined unread]

theorem preconditionPathsStill {rules} (listed : ∀ rule ∈ rules, rule ∈ spec.entries) :
    Rules.preconditionPaths h rules = Rules.preconditionPaths spec.heap rules := by
  induction rules with
  | nil => rfl
  | cons rule rest ih =>
    have later := ih fun other mem => listed other (by simp [mem])
    have here := listed rule (by simp)
    simp only [Rules.preconditionPaths,conditionsStill isolated confined here,later]
    cases all : conditions spec.heap rule with
    | error e => rfl
    | ok cs =>
      have paths : ∀ part, (∀ c ∈ part, c ∈ cs) →
          conditionPaths h part = conditionPaths spec.heap part := by
        intro part inside
        induction part with
        | nil => rfl
        | cons c others ih =>
          simp [conditionPaths,ih fun d mem => inside d (by simp [mem]),conditionPathStill isolated confined here all (inside c (by simp))]
      simp only [bind,Except.bind,paths cs fun c mem => mem]

variable {ρ : Type} (lib : Library ρ)

theorem candidateStill (listed : rule ∈ spec.entries) (method path : String) (body : Json) :
    isCandidate lib h method path body rule = isCandidate lib spec.heap method path body rule := by
  have text {key : String} (asked : key ∈ shapeKeys) := textStill isolated confined listed asked
  have asks {key : String} (asked : key ∈ shapeKeys) :=
    constraintStill isolated confined listed asked
  simp [isCandidate,Rules.requestMatches,bodyMatches,text (show "method" ∈ shapeKeys by decide),text (show "path" ∈ shapeKeys by decide),asks (show "body" ∈ shapeKeys by decide),asks (show "body_contains" ∈ shapeKeys by decide)]

theorem candidatesStill {rules} (listed : ∀ rule ∈ rules, rule ∈ spec.entries)
    (method path : String) (body : Json) :
    candidates lib h rules method path body = candidates lib spec.heap rules method path body := by
  induction rules with
  | nil => rfl
  | cons rule rest ih =>
    simp [candidates,ih fun other mem => listed other (by simp [mem]),candidateStill isolated confined lib (listed rule (by simp))]

theorem prepareStill (corpus : Corpus) (request : Request) :
    prepare lib corpus spec.entries h request =
      prepare lib corpus spec.entries spec.heap request := by
  refine bind_congr fun path => ?_
  rw [candidatesStill isolated confined lib fun _ mem => mem]
  cases found : candidates lib spec.heap spec.entries request.method path request.body with
  | error e => rfl
  | ok matching =>
    have paths := preconditionPathsStill isolated confined (Rules.candidatesMem lib found)
    simp only [bind,Except.bind,paths]

end

section
variable {ρ : Type} (lib : Library ρ) (corpus : Corpus) (vendor : String) (seed : Int)
  {spec : Specification}

theorem underLockKeeps (operation : UnderLock) :
    Keeps (OnStore (Confined spec.heap (Touched spec))) (fun _ => True)
      ((engine lib corpus spec.entries vendor seed).underLock operation) := by
  cases operation with
  | overlayFor path => exact keepsReading _
  | status => exact keepsReading _
  | reset scenario =>
    intro s confined
    refine ⟨?_,fun _ _ => trivial⟩
    simp only [Engine.underLock,Engine.reset]
    split
    · exact confined
    · have heap : ConfinedHeap spec.heap (Touched spec) s.1.heap := Confined.heap confined
      exact ⟨heap,fun _ _ absent => by simp at absent⟩

theorem linearizable (isolated : Isolated spec)
    (schedule : List (TwoPhase.Event Request UnderLock)) :
    let object := Rules.object lib corpus spec.entries vendor seed
    let start := (engine lib corpus spec.entries vendor seed).start spec.heap
    let final := object.interleaved start schedule
    object.serve start (final.history.map Prod.fst) = (final.history.map Prod.snd,final.shared) := by
  intro object start final
  have stable (s : Rules.State ρ) (request : Request)
      (confined : OnStore (Confined spec.heap (Touched spec)) s) :
      object.prepare request s = object.prepare request start :=
    prepareStill isolated confined.heap lib corpus request
  have locked (request : Request) (prepared : Rules.Prepared)
      (done : object.prepare request start = .ok prepared) :
      Keeps (OnStore (Confined spec.heap (Touched spec))) (fun _ => True) (object.locked prepared) :=
    Rules.lockedKeeps lib (confinedKept (touchedIsolates isolated)) (Rules.prepareMem lib done)
  have first : OnStore (Confined spec.heap (Touched spec)) start := touchedStart
  exact TwoPhase.interleavedServed first stable locked
    (underLockKeeps lib corpus vendor seed) schedule

end

theorem linearizablePower :
    let object := Rules.object stillLibrary emptyCorpus powerSpecification.entries "generic" 0
    let start := (engine stillLibrary emptyCorpus powerSpecification.entries "generic" 0).start
      powerSpecification.heap
    let off : Request := ⟨"POST","/a",.null⟩
    let final := object.interleaved start
      [.enter 1 off,.enter 2 off,.lock 2,.atomic (.overlayFor "/a"),.lock 1]
    object.serve start (final.history.map Prod.fst) = (final.history.map Prod.snd,final.shared) :=
  linearizable stillLibrary emptyCorpus "generic" 0 (unsharedIsolated (by decide)) _

def aliasSpecification : Specification where
  heap := ⟨[
    [("method",.str "PATCH"),("path",.str "/a"),("state_transitions",.list [.dict 1])],
    [("op",.str "set"),("path",.str "/a"),("json_path",.list [.str "Boot"]),("value",.dict 2)],
    [("Mode",.str "UEFI")],
    [("method",.str "POST"),("path",.str "/a"),("state_transitions",.list [.dict 4])],
    [("op",.str "set"),("path",.str "/a"),("json_path",.list [.str "Boot",.str "Target"]),
      ("value",.str "Pxe")],
    [("method",.str "PUT"),("path",.str "/b"),("body_contains",.dict 2)]]⟩
  entries := [.dict 0,.dict 3,.dict 5]
  distinct := by decide
  closed := by decide
  known := by decide

def aliasObject : TwoPhase.Object (Rules.State Unit) Request Rules.Prepared UnderLock PyError
    (Option Json) :=
  Rules.object stillLibrary emptyCorpus aliasSpecification.entries "generic" 0

def aliasSchedule : List (TwoPhase.Event Request UnderLock) :=
  [.enter 1 ⟨"PUT","/b",.obj [("Mode",.str "UEFI")]⟩,
    .enter 2 ⟨"PATCH","/a",.null⟩,.lock 2,.enter 3 ⟨"POST","/a",.null⟩,.lock 3,.lock 1]

theorem staleMatch :
    let start := (engine stillLibrary emptyCorpus aliasSpecification.entries "generic" 0).start
      aliasSpecification.heap
    let final := aliasObject.interleaved start aliasSchedule
    final.history.map Prod.snd = [.ok (some (.obj [])),.ok (some (.obj [])),.ok (some (.obj []))] ∧
    (aliasObject.serve start (final.history.map Prod.fst)).1 =
      [.ok (some (.obj [])),.ok (some (.obj [])),.ok none] := by
  decide +kernel

end RedfishCtl.MockEngine
