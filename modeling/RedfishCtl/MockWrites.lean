import RedfishCtl.MockEngine

/-! The engines only apply transitions that their rules or steps list, so an invariant that those
keep is kept by every operation. -/
namespace RedfishCtl.MockEngine
open MockOverlay
open Stateful

def OnStore {ω : Type} (J : Store → Prop) (s : Store × ω) : Prop := J s.1

/- Listed transitions have the property, and transitions with the property keep the invariant. -/
structure Kept (entries : List PyVal) (J : Store → Prop) (P : PyVal → Prop) : Prop where
  listed : ∀ rule ∈ entries, ∀ s ts, J s →
    iterate s.heap (orElse s.heap (field s.heap rule "state_transitions") (.list [])) = .ok ts →
    ∀ t ∈ ts, P t
  applied : ∀ t, P t → Keeps J (fun _ => True) (applyTransition t)

def transitionStep (s : Store) (t : PyVal) : Store := (applyTransition t s).2

section
variable {entries : List PyVal} {J : Store → Prop} {P : PyVal → Prop}

theorem keepsZoom {ω α} {p : Stateful Store PyError α} (keeps : Keeps J (fun _ => True) p) :
    Keeps (@OnStore ω J) (fun _ => True) (zoom Prod.fst (fun store s => (store,s.2)) p) :=
  fun s start => ⟨(keeps s.1 start).1,fun _ _ => trivial⟩

theorem keepsReading {ω α} (f : Store × ω → Except PyError α) :
    Keeps (OnStore J) (fun _ => True) (Stateful.read f) :=
  keepsRead fun _ _ _ _ => trivial

theorem keepsListed {ω} (kept : Kept entries J P) {rule} (mem : rule ∈ entries) :
    Keeps (@OnStore ω J) (fun ts => ∀ t ∈ ts, P t)
      (Stateful.read fun s =>
        iterate s.1.heap (orElse s.1.heap (field s.1.heap rule "state_transitions") (.list []))) :=
  keepsRead fun s ts start listed => kept.listed rule mem s.1 ts start listed

theorem keepsTransitions (kept : Kept entries J P) {ts} (each : ∀ t ∈ ts, P t) :
    Keeps J (fun _ => True) (applyTransitions ts) :=
  keepsForEach fun t mem => kept.applied t (each t mem)

namespace Rules
variable {ρ : Type} (lib : Library ρ)

theorem rollRuleKeeps (rule : PyVal) : Keeps (OnStore J) (fun _ => True) (rollRule lib rule) := by
  refine keepsBind (keepsReading _) fun failure _ => ?_
  split
  · split
    · exact keepsPure trivial
    refine keepsBind (keepsReading _) fun p _ => ?_
    split
    · exact keepsPure trivial
    refine keepsBind (P := fun _ => True) (fun s start => ⟨start,fun _ _ => trivial⟩) ?_
    intro x _
    split
    · refine keepsBind (keepsReading _) fun name _ => ?_
      refine keepsBind (keepsModify fun s start => start) fun _ _ => ?_
      refine keepsBind (keepsReading _) fun response _ => ?_
      exact keepsPure trivial
    · exact keepsPure trivial
  · exact keepsPure trivial

theorem rollFailureKeeps (rules : List PyVal) :
    Keeps (OnStore J) (fun _ => True) (rollFailure lib rules) := by
  induction rules with
  | nil => exact keepsPure trivial
  | cons rule rest ih =>
    refine keepsBind (rollRuleKeeps lib rule) fun response _ => ?_
    cases response with
    | some response => exact keepsPure trivial
    | none => exact ih

theorem applyRuleKeeps (kept : Kept entries J P) {rule} (mem : rule ∈ entries) :
    Keeps (@OnStore (Volatile ρ) J) (fun _ => True) (applyRule rule) := by
  refine keepsBind (keepsListed kept mem) fun transitions each => ?_
  refine keepsBind (keepsZoom (keepsTransitions kept each)) fun _ _ => ?_
  refine keepsBind (keepsReading _) fun name _ => ?_
  exact keepsModify fun s start => start

theorem lockedKeeps (kept : Kept entries J P) {prepared}
    (listed : ∀ rule ∈ prepared.matching, rule ∈ entries) :
    Keeps (OnStore J) (fun _ => True) (locked lib prepared) := by
  refine keepsBind (keepsSelect fun rule _ => keepsReading _) fun matched among => ?_
  cases matched with
  | nil => exact keepsPure trivial
  | cons first rest =>
    refine keepsBind (rollFailureKeeps lib (first::rest)) fun response _ => ?_
    cases response with
    | some response => exact keepsPure trivial
    | none =>
      refine keepsBind (keepsForEach fun rule mem =>
        applyRuleKeeps kept (listed rule (among rule mem))) fun _ _ => ?_
      refine keepsBind (keepsReading _) fun response _ => ?_
      exact keepsPure trivial

theorem candidatesMem {h rules matching method path body}
    (found : candidates lib h rules method path body = .ok matching) :
    ∀ rule ∈ matching, rule ∈ rules := by
  induction rules generalizing matching with
  | nil =>
    cases found
    simp
  | cons rule rest ih =>
    obtain ⟨fits,-,found⟩ := okOfBind found
    obtain ⟨more,others,found⟩ := okOfBind found
    cases found
    intro other mem
    cases fits with
    | false => exact List.mem_cons_of_mem rule (ih others other mem)
    | true => exact List.mem_cons.mpr ((List.mem_cons.mp mem).imp_right (ih others other))

theorem prepareMem {corpus rules h request prepared}
    (done : prepare lib corpus rules h request = .ok prepared) :
    ∀ rule ∈ prepared.matching, rule ∈ rules := by
  obtain ⟨path,-,done⟩ := okOfBind done
  obtain ⟨matching,found,done⟩ := okOfBind done
  obtain ⟨paths,-,done⟩ := okOfBind done
  obtain ⟨cache,-,done⟩ := okOfBind done
  cases done
  exact candidatesMem lib found

theorem matchWriteKeeps (kept : Kept entries J P) (corpus : Corpus) (request : Request) :
    Keeps (OnStore J) (fun _ => True) (matchWrite lib corpus entries request) := by
  refine keepsBind (keepsRead fun s prepared _ done => prepareMem lib done) fun prepared listed => ?_
  exact lockedKeeps lib kept listed

end Rules

theorem Replay.matchWriteKeeps (upper : String → String) (kept : Kept entries J P)
    (request : Request) :
    Keeps (OnStore J) (fun _ => True) (Replay.matchWrite upper entries request) := by
  refine keepsBind (P := fun _ => True) (fun s start => ⟨start,fun _ _ => trivial⟩) ?_
  intro path _
  refine keepsBind (keepsRead (P := fun next => ∀ i, next = some i → entries.getD i .null ∈ entries)
    fun s next _ found => ?_) fun next listed => ?_
  · intro i same
    cases found
    have inside := List.mem_of_find?_eq_some same
    have below : i < entries.length := List.mem_range.mp inside
    rw [List.getD_eq_getElem?_getD,List.getElem?_eq_getElem below]
    exact List.getElem_mem below
  · cases next with
    | none => exact keepsPure trivial
    | some i =>
      refine keepsBind (keepsReading _) fun fits _ => ?_
      split
      · exact keepsPure trivial
      refine keepsBind (keepsModify fun s start => start) fun _ _ => ?_
      refine keepsBind (keepsListed kept (listed i rfl)) fun transitions each => ?_
      refine keepsBind (keepsZoom (keepsTransitions kept each)) fun _ _ => ?_
      refine keepsBind (keepsReading _) fun response _ => ?_
      exact keepsPure trivial

end

section
variable {ω : Type} {spec : Specification} {J : Store → Prop} {P : PyVal → Prop} {e : Engine ω}

theorem builtKeeps (built : Built spec e) (kept : Kept spec.entries J P) (op : Operation) :
    Keeps (OnStore J) (fun _ => True) (e.perform op) := by
  cases op with
  | write request =>
    cases built with
    | rules lib corpus vendor seed => exact Rules.matchWriteKeeps lib kept corpus request
    | replay upper scenario => exact Replay.matchWriteKeeps upper kept request
  | overlayFor path => exact keepsReading _
  | status => exact keepsReading _

theorem keptAfter (built : Built spec e) (kept : Kept spec.entries J P) (start : J ⟨spec.heap,[]⟩)
    (ops : List Operation) : J (e.after spec.heap ops).1 := by
  have step (s : Store × ω) (op : Operation) (before : OnStore J s) :
      OnStore J (e.perform op s).2 := (builtKeeps built kept op s before).1
  have first : OnStore J (e.start spec.heap) := start
  exact Runs.invariant step first ops

end

def powerSpecification : Specification where
  heap := ⟨[
    [("name",.str "off"),("method",.str "POST"),("path",.str "/a"),
      ("state_transitions",.list [.dict 1])],
    [("op",.str "set"),("path",.str "/a"),("field",.str "PowerState"),("value",.str "Off")]]⟩
  entries := [.dict 0]
  distinct := by decide
  closed := by decide
  known := by decide

def bootSpecification : Specification where
  heap := ⟨[
    [("method",.str "PATCH"),("path",.str "/a"),("state_transitions",.list [.dict 1])],
    [("op",.str "set"),("path",.str "/a"),("json_path",.list [.str "Boot"]),("value",.dict 2)],
    [("Mode",.str "UEFI")],
    [("method",.str "POST"),("path",.str "/a"),("state_transitions",.list [.dict 4])],
    [("op",.str "set"),("path",.str "/a"),("json_path",.list [.str "Boot",.str "Target"]),
      ("value",.str "Pxe")]]⟩
  entries := [.dict 0,.dict 3]
  distinct := by decide
  closed := by decide
  known := by decide

def stillLibrary : Library Unit :=
  ⟨id,fun _ _ => false,fun _ => .ok Binary64.zero,fun _ => (),fun _ => (Binary64.zero,())⟩

def emptyCorpus : Corpus := fun _ => .ok []

end RedfishCtl.MockEngine
