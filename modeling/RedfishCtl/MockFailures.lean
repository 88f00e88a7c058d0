import RedfishCtl.MockConfined

/-! Writes that fail. A step is marked before its transitions are applied, and they are applied in
place, so a failed write leaves the engine as it was exactly when nothing raises after the first
change. -/
namespace RedfishCtl.MockEngine
open MockOverlay
open PyUrl (normalizeRequestPath)
open Stateful (bindOk bindError readOk readError forEachDone forEachAfter modifyRun)
open Stateful (forEach modify read select zoom)

def locates (keys : Option PyVal) : Bool :=
  match pathParts keys with
  | .ok parts => !parts.isEmpty
  | .error _ => false

def locatable (h : Heap) (t : PyVal) : Bool :=
  match field h t "op" with
  | some (.str "set") => locates (keysOf h t)
  | some (.str "delete") => locates (keysOf h t)
  | _ => true

def wellFormed (h : Heap) (t : PyVal) : Bool :=
  match field h t "path" with
  | some (.str resourcePath) => (normalizeRequestPath resourcePath).isOk && locatable h t
  | _ => true

theorem setValueOk (h : Heap) (cursor : Nat) (parts : List String) (v : PyVal) :
    (setValue h cursor parts v).isOk = !parts.isEmpty := by
  fun_induction setValue h cursor parts v with
  | case1 => rfl
  | case2 => rfl
  | case3 h cursor key next rest v child found ih => simpa using ih
  | case4 h cursor key next rest v absent child h' new ih => simpa using ih

theorem deleteValueOk (h : Heap) (cursor : Nat) (parts : List String) :
    (deleteValue h cursor parts).isOk = !parts.isEmpty := by
  fun_induction deleteValue h cursor parts with
  | case1 => rfl
  | case2 => rfl
  | case3 cursor key next rest child found ih => simpa using ih
  | case4 => rfl

theorem fieldAlloc (h : Heap) (v : PyVal) (key : String) : field h.alloc.2 v key = field h v key := by
  cases v with
  | dict r => simp only [field,cellAlloc]
  | _ => rfl

theorem overlayField (s : Store) (path : String) (v : PyVal) (key : String) :
    field (overlayAt s path).2.heap v key = field s.heap v key := by
  unfold overlayAt
  split
  · rfl
  · exact fieldAlloc s.heap v key

theorem changeOther {h t} (overlay : Nat) (noSet : field h t "op" ≠ some (.str "set"))
    (noDelete : field h t "op" ≠ some (.str "delete")) : change h t overlay = .ok h := by
  unfold change
  split
  · exact absurd ‹_› noSet
  · exact absurd ‹_› noDelete
  · rfl

theorem locatableOther {h t} (noSet : field h t "op" ≠ some (.str "set"))
    (noDelete : field h t "op" ≠ some (.str "delete")) : locatable h t = true := by
  unfold locatable
  split
  · exact absurd ‹_› noSet
  · exact absurd ‹_› noDelete
  · rfl

theorem changeOk (h : Heap) (t : PyVal) (overlay : Nat) :
    (change h t overlay).isOk = locatable h t := by
  by_cases set : field h t "op" = some (.str "set")
  · simp only [change,locatable,set,locates]
    cases pathParts (keysOf h t) with
    | error e => rfl
    | ok parts => exact setValueOk h overlay parts _
  by_cases delete : field h t "op" = some (.str "delete")
  · simp only [change,locatable,delete,locates]
    cases pathParts (keysOf h t) with
    | error e => rfl
    | ok parts => exact deleteValueOk h overlay parts
  · rw [changeOther overlay set delete,locatableOther set delete]
    rfl

theorem applyTransitionOk (t : PyVal) (s : Store) :
    (applyTransition t s).1 = .ok () ↔ wellFormed s.heap t = true := by
  unfold applyTransition
  split
  · rename_i resourcePath named
    simp only [wellFormed,named]
    cases normalizeRequestPath resourcePath with
    | error e => simp [Except.toBool]
    | ok path =>
      have same : locatable (overlayAt s path).2.heap t = locatable s.heap t := by
        simp [locatable,keysOf,overlayField]
      have ends := changeOk (overlayAt s path).2.heap t (overlayAt s path).1
      rw [← same,← ends]
      dsimp only
      cases change (overlayAt s path).2.heap t (overlayAt s path).1 <;>
        simp [Except.toBool]
  · rename_i unnamed
    unfold wellFormed
    split
    · exact absurd ‹_› (unnamed _)
    · simp

def listed (h : Heap) (entry : PyVal) : Except PyError (List PyVal) :=
  iterate h (orElse h (field h entry "state_transitions") (.list []))

def applies (s : Store) (ts : List PyVal) : Bool :=
  decide (Runs.Guarded transitionStep (fun s t => wellFormed s.heap t = true) s ts)

theorem applyTransitionsOk (ts : List PyVal) (s : Store) :
    (applyTransitions ts s).1 = .ok () ↔ applies s ts = true := by
  simp only [applies,decide_eq_true_eq,applyTransitions,forEachDone,applyTransitionOk]
  exact Iff.rfl

theorem applyTransitionsRun {ts s} (done : applies s ts = true) :
    applyTransitions ts s = (.ok (),Runs.run transitionStep s ts) := by
  have first := (applyTransitionsOk ts s).mpr done
  exact Prod.ext first (forEachAfter first)

theorem applyTransitionsRaises {ts s} (stops : applies s ts = false) :
    ∃ e t, applyTransitions ts s = (.error e,t) := by
  have raised : (applyTransitions ts s).1 ≠ .ok () := by
    rw [ne_eq,applyTransitionsOk,stops]
    exact Bool.false_ne_true
  cases out : applyTransitions ts s with
  | mk result t =>
    cases result with
    | error e => exact ⟨e,t,rfl⟩
    | ok done => exact absurd (congrArg Prod.fst out) raised

def SameOverlays (s t : Store) : Prop := ∀ path, overlayFor t path = overlayFor s path

namespace Replay

def consume (i : Nat) (step : PyVal) : Stateful State PyError (Option Json) := do
  modify fun s => (s.1,s.2 ++ [i])
  let transitions ← read fun s => listed s.1.heap step
  zoom Prod.fst (fun store s => (store,s.2)) (applyTransitions transitions)
  let response ← read fun s => responseOf s.1.heap step
  pure (some response)

def locked (upper : String → String) (steps : List PyVal) (call : Request × String) :
    Stateful State PyError (Option Json) := do
  let next ← read fun s => .ok (nextPending steps s.2)
  match next with
  | none => pure none
  | some i =>
      let step := steps.getD i .null
      let fits ← read fun s =>
        stepMatches upper s.1.heap step call.1.method call.2 call.1.body
      if !fits then pure none else consume i step

variable (upper : String → String)

theorem matchWriteLocked (steps : List PyVal) (request : Request) :
    matchWrite upper steps request = (do
      let path ← Stateful.ofExcept (normalizeRequestPath request.path)
      locked upper steps (request,path)) := rfl

def selected (upper : String → String) (steps : List PyVal) (call : Request × String) (s : State) :
    Except PyError (Option (Nat × PyVal)) :=
  match nextPending steps s.2 with
  | none => .ok none
  | some i => do
      let step := steps.getD i .null
      let fits ← stepMatches upper s.1.heap step call.1.method call.2 call.1.body
      .ok (if fits then some (i,step) else none)

theorem lockedRun (steps : List PyVal) (call : Request × String) (s : State) :
    locked upper steps call s = match selected upper steps call s with
      | .error e => (.error e,s)
      | .ok none => (.ok none,s)
      | .ok (some (i,step)) => consume i step s := by
  unfold selected
  refine (readOk (by rfl)).trans ?_
  cases nextPending steps s.2 with
  | none => rfl
  | some i =>
    dsimp only
    generalize matched : stepMatches upper s.1.heap (steps.getD i .null) call.1.method call.2
      call.1.body = fits
    cases fits with
    | error e => exact readError matched
    | ok fits =>
      refine (readOk (by exact matched)).trans ?_
      cases fits <;> rfl

theorem consumeRun (i : Nat) (step : PyVal) (s : State) :
    consume i step s = match listed s.1.heap step with
      | .error e => (.error e,(s.1,s.2 ++ [i]))
      | .ok ts => match applyTransitions ts s.1 with
          | (.error e,t) => (.error e,(t,s.2 ++ [i]))
          | (.ok _,t) => ((responseOf t.heap step).map some,(t,s.2 ++ [i])) := by
  cases found : listed s.1.heap step with
  | error e => exact readError found
  | ok ts =>
    refine (readOk (by exact found)).trans ?_
    dsimp only
    cases run : applyTransitions ts s.1 with
    | mk result t =>
      have zoomed : zoom Prod.fst (fun store s => (store,s.2)) (applyTransitions ts)
          (s.1,s.2 ++ [i]) = (result,(t,s.2 ++ [i])) := by simp [zoom,run]
      cases result with
      | error e => exact bindError zoomed
      | ok u =>
        refine (bindOk zoomed).trans ?_
        dsimp only
        cases response : responseOf t.heap step with
        | error e => exact readError response
        | ok r => exact readOk response

def completes (s : Store) (step : PyVal) : Bool :=
  match listed s.heap step with
  | .error _ => false
  | .ok ts => applies s ts && (responseOf (Runs.run transitionStep s ts).heap step).isOk

theorem consumeMatched (i : Nat) (step : PyVal) (s : State) : (consume i step s).2.2 = s.2 ++ [i] := by
  rw [consumeRun]
  split
  · rfl
  · split <;> rfl

theorem consumeCompletes (i : Nat) (step : PyVal) (s : State) :
    (∃ response, (consume i step s).1 = .ok (some response)) ↔ completes s.1 step = true := by
  rw [consumeRun]
  unfold completes
  cases listed s.1.heap step with
  | error e => simp
  | ok ts =>
    cases run : applies s.1 ts with
    | true =>
      simp only [applyTransitionsRun run,run,Bool.true_and]
      cases responseOf (Runs.run transitionStep s.1 ts).heap step <;>
        simp [Except.map,Except.toBool]
    | false =>
      obtain ⟨e,t,raised⟩ := applyTransitionsRaises run
      simp [raised,run]

theorem consumeNever (i : Nat) (step : PyVal) (s : State) : (consume i step s).1 ≠ .ok none := by
  rw [consumeRun]
  split
  · simp
  · split
    · simp
    · rename_i t _
      cases responseOf t.heap step <;> simp [Except.map]

theorem lockedUnchanged (steps : List PyVal) (call : Request × String) (s : State) :
    ((∀ response, (locked upper steps call s).1 ≠ .ok (some response)) →
      (locked upper steps call s).2.2 = s.2 ∧ SameOverlays s.1 (locked upper steps call s).2.1) ↔
    ∀ i step, selected upper steps call s = .ok (some (i,step)) → completes s.1 step = true := by
  rw [lockedRun]
  cases selected upper steps call s with
  | error e => simp [SameOverlays]
  | ok next =>
    cases next with
    | none => simp [SameOverlays]
    | some pair =>
      obtain ⟨i,step⟩ := pair
      have answered := consumeCompletes i step s
      constructor
      · intro unchanged i' step' same
        cases same
        by_contra raised
        have silent := mt answered.mp raised
        have kept := (unchanged fun response done => silent ⟨response,done⟩).1
        -- a raising write has the step marked already
        rw [consumeMatched] at kept
        simp at kept
      · intro complete silent
        obtain ⟨response,done⟩ := answered.mpr (complete i step rfl)
        exact absurd done (silent response)

theorem unansweredUnchanged (steps : List PyVal) (request : Request)
    (s : State) :
    ((∀ response, (matchWrite upper steps request s).1 ≠ .ok (some response)) →
      (matchWrite upper steps request s).2.2 = s.2 ∧
        SameOverlays s.1 (matchWrite upper steps request s).2.1) ↔
    ∀ path i step, normalizeRequestPath request.path = .ok path →
      selected upper steps (request,path) s = .ok (some (i,step)) → completes s.1 step = true := by
  rw [matchWriteLocked]
  cases normalizeRequestPath request.path with
  | error e =>
    rw [bindError (by rfl)]
    simp [SameOverlays]
  | ok path =>
    rw [bindOk (by rfl),lockedUnchanged]
    constructor
    · rintro complete _ i step ⟨⟩ found
      exact complete i step found
    · intro complete i step found
      exact complete path i step rfl found

end Replay

namespace Rules
variable {ρ : Type} (lib : Library ρ)

def holding (prepared : Prepared) (s : State ρ) : Except PyError (List PyVal) :=
  (select (fun rule => read fun s => preconditionsHold s.1 prepared.corpus rule)
    prepared.matching s).1

def ruleApplies (s : Store) (rule : PyVal) : Bool :=
  match listed s.heap rule with
  | .error _ => false
  | .ok ts => applies s ts && (nameOf (Runs.run transitionStep s ts).heap rule "unnamed").isOk

def ruleStep (s : Store) (rule : PyVal) : Store :=
  match listed s.heap rule with
  | .error _ => s
  | .ok ts => (applyTransitions ts s).2

theorem applyRuleRun (rule : PyVal) (s : State ρ) :
    applyRule rule s = match listed s.1.heap rule with
      | .error e => (.error e,s)
      | .ok ts => match applyTransitions ts s.1 with
          | (.error e,t) => (.error e,(t,s.2))
          | (.ok _,t) => match nameOf t.heap rule "unnamed" with
              | .error e => (.error e,(t,s.2))
              | .ok name => (.ok (),(t,{ s.2 with applied := s.2.applied ++ [name] })) := by
  cases found : listed s.1.heap rule with
  | error e => exact readError (by exact found)
  | ok ts =>
    refine (readOk (by exact found)).trans ?_
    dsimp only
    cases run : applyTransitions ts s.1 with
    | mk result t =>
      have zoomed : onStore (applyTransitions ts) s = (result,(t,s.2)) := by
        simp [onStore,zoom,run]
      cases result with
      | error e => exact bindError zoomed
      | ok u =>
        refine (bindOk zoomed).trans ?_
        dsimp only
        cases name : nameOf t.heap rule "unnamed" with
        | error e => exact readError (by exact name)
        | ok name => exact readOk (by exact ‹_›)

theorem applyRuleStore (rule : PyVal) (s : State ρ) :
    (applyRule rule s).2.1 = ruleStep s.1 rule := by
  rw [applyRuleRun]
  unfold ruleStep
  cases listed s.1.heap rule with
  | error e => rfl
  | ok ts =>
    dsimp only
    split
    · simp [*]
    · split <;> simp only [*]

theorem applyRuleOk (rule : PyVal) (s : State ρ) :
    (applyRule rule s).1 = .ok () ↔ ruleApplies s.1 rule = true := by
  rw [applyRuleRun]
  unfold ruleApplies
  cases listed s.1.heap rule with
  | error e => simp
  | ok ts =>
    cases run : applies s.1 ts with
    | true =>
      simp only [applyTransitionsRun run,run,Bool.true_and]
      cases nameOf (Runs.run transitionStep s.1 ts).heap rule "unnamed" <;>
        simp [Except.toBool]
    | false =>
      obtain ⟨e,t,raised⟩ := applyTransitionsRaises run
      simp [raised,run]

theorem applyRuleVolatile (rule : PyVal) (s : State ρ) :
    (applyRule rule s).2.2 = s.2 ∧ ruleApplies s.1 rule = false ∨
      ruleApplies s.1 rule = true ∧
        ∃ name, (applyRule rule s).2.2 = { s.2 with applied := s.2.applied ++ [name] } := by
  by_cases done : (applyRule rule s).1 = .ok ()
  · right
    refine ⟨(applyRuleOk rule s).mp done,?_⟩
    rw [applyRuleRun] at done ⊢
    split
    · simp_all
    split
    · simp_all
    · split
      · simp_all
      · exact ⟨_,rfl⟩
  · left
    have raised := mt (applyRuleOk rule s).mpr done
    refine ⟨?_,by simpa using raised⟩
    rw [applyRuleRun] at done ⊢
    split
    · rfl
    split
    · rfl
    · split
      · rfl
      · simp_all

/- Rolling keeps overlays and applied rules, and records a failure exactly when its response is the
result. -/
structure Rolled (s : State ρ) (out : Except PyError (Option Json) × State ρ) : Prop where
  store : out.2.1 = s.1
  applied : out.2.2.applied = s.2.applied
  quiet : out.1 = .ok none → out.2.2.failed = s.2.failed
  injected : ∀ response, out.1 = .ok (some response) → out.2.2.failed ≠ s.2.failed

theorem rolledQuiet (s : State ρ) (rng : ρ) : Rolled s (.ok none,(s.1,{ s.2 with rng := rng })) :=
  ⟨rfl,rfl,fun _ => rfl,fun _ done => by cases done⟩

theorem rolledError (s : State ρ) (e : PyError) (failed : List String) (rng : ρ) :
    Rolled s (.error e,(s.1,⟨s.2.applied,failed,rng⟩)) :=
  ⟨rfl,rfl,fun done => (by cases done),fun _ done => by cases done⟩

theorem rolledInjected (s : State ρ) (name : String) (response : Json) (rng : ρ) :
    Rolled s (.ok (some response),(s.1,⟨s.2.applied,s.2.failed ++ [name],rng⟩)) :=
  ⟨rfl,rfl,fun done => (by cases done),fun _ _ => by simp⟩

theorem rollRuleRolled (rule : PyVal) (s : State ρ) : Rolled s (rollRule lib rule s) := by
  unfold rollRule
  rw [readOk (by rfl)]
  cases field s.1.heap rule "failure" with
  | none => exact rolledQuiet s s.2.rng
  | some failure =>
    dsimp only
    split
    · exact rolledQuiet s s.2.rng
    cases p : probability lib s.1.heap failure with
    | error e =>
      rw [readError (by exact p)]
      exact rolledError s e _ _
    | ok p' =>
      rw [readOk (by exact p)]
      split
      · exact rolledQuiet s s.2.rng
      rw [bindOk (by rfl)]
      split
      · cases name : nameOf s.1.heap rule "unnamed" with
        | error e =>
          rw [readError (by exact name)]
          exact rolledError s e _ _
        | ok name' =>
          rw [readOk (by exact name),bindOk (modifyRun _ _)]
          cases response : failureResponse s.1.heap failure with
          | error e =>
            rw [readError (by exact response)]
            exact rolledError s e _ _
          | ok r =>
            rw [readOk (by exact response)]
            exact rolledInjected s name' r _
      · exact rolledQuiet s _

theorem rollFailureRolled (rules : List PyVal) (s : State ρ) :
    Rolled s (rollFailure lib rules s) := by
  induction rules generalizing s with
  | nil => exact rolledQuiet s s.2.rng
  | cons rule rest ih =>
    have first := rollRuleRolled lib rule s
    unfold rollFailure
    cases rolled : rollRule lib rule s with
    | mk result t =>
      rw [rolled] at first
      cases result with
      | error e =>
        rw [bindError rolled]
        exact ⟨first.store,first.applied,fun done => (by cases done),fun _ done => by cases done⟩
      | ok failure =>
        rw [bindOk rolled]
        cases failure with
        | some response => exact first
        | none =>
          have later := ih t
          have still := first.quiet rfl
          exact ⟨later.store.trans first.store,later.applied.trans first.applied,
            fun done => (later.quiet done).trans still,
            fun response done same => later.injected response done (same.trans still.symm)⟩

theorem applyRulesOk (rules : List PyVal) (s : State ρ) :
    (forEach applyRule rules s).1 = .ok () ↔
      Runs.Guarded ruleStep (fun s rule => ruleApplies s rule = true) s.1 rules := by
  rw [forEachDone]
  exact Runs.guardedMap (f := Prod.fst) (fun s rule => applyRuleStore rule s)
    fun s rule => applyRuleOk rule s

theorem applyRulesStore {rules} {s : State ρ} (done : (forEach applyRule rules s).1 = .ok ()) :
    (forEach applyRule rules s).2.1 = Runs.run ruleStep s.1 rules := by
  rw [forEachAfter done]
  exact Runs.runMap (fun s rule => applyRuleStore rule s) s rules

theorem applyRulesVolatile (rules : List PyVal) (s : State ρ) :
    s.2.applied <+: (forEach applyRule rules s).2.2.applied ∧
      (forEach applyRule rules s).2.2.failed = s.2.failed := by
  have each (rule : PyVal) : Stateful.Keeps
      (fun t : State ρ => s.2.applied <+: t.2.applied ∧ t.2.failed = s.2.failed) (fun _ => True)
      (applyRule rule) := by
    intro t kept
    refine ⟨?_,fun _ _ => trivial⟩
    obtain ⟨same,-⟩ | ⟨-,name,more⟩ := applyRuleVolatile rule t
    · rw [same]
      exact kept
    · rw [more]
      exact ⟨kept.1.trans (List.prefix_append _ _),kept.2⟩
  exact (Stateful.keepsForEach (fun rule _ => each rule) s ⟨List.prefix_refl _,rfl⟩).1

theorem lockedRun (prepared : Prepared) (s : State ρ) :
    locked lib prepared s = match holding prepared s with
      | .error e => (.error e,s)
      | .ok [] => (.ok none,s)
      | .ok (first::rest) => match rollFailure lib (first::rest) s with
          | (.error e,t) => (.error e,t)
          | (.ok (some response),t) => (.ok (some response),t)
          | (.ok none,t) => match forEach applyRule (first::rest) t with
              | (.error e,u) => (.error e,u)
              | (.ok _,u) => ((responseOf u.1.heap first).map some,u) := by
  have still : (select (fun rule => read fun s : State ρ =>
      preconditionsHold s.1 prepared.corpus rule) prepared.matching s).2 = s :=
    Stateful.selectReads prepared.matching s
  unfold locked holding
  generalize select (fun rule => read fun s : State ρ =>
    preconditionsHold s.1 prepared.corpus rule) prepared.matching = selection at still ⊢
  cases found : selection s with
  | mk result t =>
    have same : t = s := by rw [found] at still; exact still
    subst same
    cases result with
    | error e => exact bindError found
    | ok matched =>
      refine (bindOk found).trans ?_
      cases matched with
      | nil => rfl
      | cons first rest =>
        dsimp only
        cases rolled : rollFailure lib (first::rest) t with
        | mk result u =>
          cases result with
          | error e => exact bindError rolled
          | ok failure =>
            refine (bindOk rolled).trans ?_
            cases failure with
            | some response => rfl
            | none =>
              dsimp only
              cases run : forEach applyRule (first::rest) u with
              | mk result v =>
                cases result with
                | error e => exact bindError run
                | ok done =>
                  refine (bindOk run).trans ?_
                  dsimp only
                  cases response : responseOf v.1.heap first with
                  | error e => exact readError (by exact response)
                  | ok r => exact readOk (by exact response)

def Failed (s : State ρ) (out : Except PyError (Option Json) × State ρ) : Prop :=
  out.1 = .ok none ∨ (∃ e, out.1 = .error e) ∨ out.2.2.failed ≠ s.2.failed

def Untouched (s : State ρ) (out : Except PyError (Option Json) × State ρ) : Prop :=
  out.2.2.applied = s.2.applied ∧ SameOverlays s.1 out.2.1

/- Every rule applies and there is a response, or the first one raises after writing only what was
there. -/
def Harmless (s : Store) (first : PyVal) (rest : List PyVal) : Prop :=
  Runs.Guarded ruleStep (fun s rule => ruleApplies s rule = true) s (first::rest) ∧
      (responseOf (Runs.run ruleStep s (first::rest)).heap first).isOk = true ∨
    ruleApplies s first = false ∧ SameOverlays s (ruleStep s first)

section
variable {first : PyVal} {rest : List PyVal} {s t : State ρ}

theorem applyGrows (rest : List PyVal) (run : ruleApplies t.1 first = true) :
    (forEach applyRule (first::rest) t).2.2.applied ≠ t.2.applied := by
  intro same
  have done := (applyRuleOk first t).mpr run
  obtain ⟨-,raised⟩ | ⟨-,name,more⟩ := applyRuleVolatile first t
  · rw [run] at raised
    cases raised
  have later := (applyRulesVolatile rest (applyRule first t).2).1
  have split : forEach applyRule (first::rest) t =
      forEach applyRule rest (applyRule first t).2 :=
    Stateful.forEachOk (Prod.ext done rfl)
  rw [← split,same,more] at later
  exact absurd later.length_le (by simp)

theorem applyRaises (rest : List PyVal) (raised : ruleApplies t.1 first = false) :
    ∃ e, forEach applyRule (first::rest) t = (.error e,(ruleStep t.1 first,t.2)) := by
  have failed := mt (applyRuleOk first t).mp (by simp [raised])
  cases result : applyRule first t with
  | mk x u =>
    rw [result] at failed
    cases x with
    | ok done => exact absurd rfl failed
    | error e =>
      refine ⟨e,(bindError result).trans ?_⟩
      have store := applyRuleStore first t
      obtain ⟨same,-⟩ | ⟨run,-⟩ := applyRuleVolatile first t
      · rw [result] at store same
        exact congrArg _ (Prod.ext store same)
      · rw [run] at raised
        cases raised

theorem applyUnchanged (store : t.1 = s.1) (applied : t.2.applied = s.2.applied)
    (quiet : t.2.failed = s.2.failed) :
    let out := match forEach applyRule (first::rest) t with
      | (.error e,u) => (.error e,u)
      | (.ok _,u) => ((responseOf u.1.heap first).map some,u)
    (Failed s out → Untouched s out) ↔ Harmless s.1 first rest := by
  intro out
  have ends := applyRulesOk (first::rest) t
  have calm := (applyRulesVolatile (first::rest) t).2.trans quiet
  cases begins : ruleApplies s.1 first with
  | false =>
    obtain ⟨e,run⟩ := applyRaises rest (store ▸ begins)
    have result : out = (.error e,(ruleStep t.1 first,t.2)) := by simp [out,run]
    have stops : ¬ Runs.Guarded ruleStep (fun s rule => ruleApplies s rule = true) s.1
        (first::rest) := fun guarded => by simp [guarded.1] at begins
    rw [result,store]
    simp [Failed,Untouched,Harmless,stops,begins,applied]
  | true =>
    have grown := applyGrows rest (store ▸ begins)
    rw [applied] at grown
    simp only [Harmless,begins,Bool.true_eq_false,false_and,or_false]
    rw [store] at ends
    rw [← ends]
    cases run : forEach applyRule (first::rest) t with
    | mk x u =>
      rw [run] at grown calm ends
      cases x with
      | error e =>
        have result : out = (.error e,u) := by simp [out,run]
        rw [result]
        simp [Failed,Untouched,grown]
      | ok done =>
        have final : (forEach applyRule (first::rest) t).2.1 =
            Runs.run ruleStep t.1 (first::rest) := applyRulesStore (by rw [run])
        rw [run,store] at final
        have result : out = ((responseOf u.1.heap first).map some,u) := by simp [out,run]
        rw [result,← final]
        dsimp only at grown calm
        cases responseOf u.1.heap first <;>
          simp [Failed,Untouched,Except.map,Except.toBool,grown,calm]

end

theorem rolledUntouched {s} {out : Except PyError (Option Json) × State ρ} (rolled : Rolled s out) :
    Untouched s out :=
  ⟨rolled.applied,fun _ => by rw [rolled.store]⟩

theorem lockedUnchanged (prepared : Prepared) (s : State ρ) :
    (Failed s (locked lib prepared s) → Untouched s (locked lib prepared s)) ↔
    ∀ first rest, holding prepared s = .ok (first::rest) →
      (rollFailure lib (first::rest) s).1 = .ok none → Harmless s.1 first rest := by
  rw [lockedRun]
  cases holding prepared s with
  | error e => simp [Untouched,SameOverlays]
  | ok matched =>
    cases matched with
    | nil => simp [Untouched,SameOverlays]
    | cons first rest =>
      have rolls := rollFailureRolled lib (first::rest) s
      have one : (∀ first' rest', Except.ok (first::rest) = Except.ok (ε := PyError) (first'::rest') →
          (rollFailure lib (first'::rest') s).1 = .ok none → Harmless s.1 first' rest') ↔
          ((rollFailure lib (first::rest) s).1 = .ok none → Harmless s.1 first rest) := by
        constructor
        · exact fun all => all first rest rfl
        · rintro here _ _ ⟨⟩
          exact here
      rw [one]
      dsimp only
      cases rolled : rollFailure lib (first::rest) s with
      | mk result t =>
        rw [rolled] at rolls
        have still := rolledUntouched rolls
        cases result with
        | error e => simp [still]
        | ok failure =>
          cases failure with
          | some response => simp [still]
          | none =>
            simp only [forall_const]
            exact applyUnchanged rolls.store rolls.applied (rolls.quiet rfl)

theorem failedUntouched (corpus : Corpus) (rules : List PyVal) (request : Request) (s : State ρ) :
    (Failed s (matchWrite lib corpus rules request s) →
      Untouched s (matchWrite lib corpus rules request s)) ↔
    ∀ prepared first rest, prepare lib corpus rules s.1.heap request = .ok prepared →
      holding prepared s = .ok (first::rest) →
      (rollFailure lib (first::rest) s).1 = .ok none → Harmless s.1 first rest := by
  unfold matchWrite
  cases done : prepare lib corpus rules s.1.heap request with
  | error e =>
    rw [readError (by exact done)]
    simp [Untouched,SameOverlays]
  | ok prepared =>
    rw [readOk (by exact done),lockedUnchanged]
    constructor
    · rintro harmless _ first rest ⟨⟩
      exact harmless first rest
    · intro harmless first rest
      exact harmless prepared first rest rfl

end Rules

theorem failedWritesUnchanged {ρ : Type} (lib : Library ρ) (corpus : Corpus) (entries : List PyVal)
    (request : Request) (replay : Replay.State) (rules : Rules.State ρ) :
    (((∀ response, (Replay.matchWrite lib.upper entries request replay).1 ≠ .ok (some response)) →
        (Replay.matchWrite lib.upper entries request replay).2.2 = replay.2 ∧
          SameOverlays replay.1 (Replay.matchWrite lib.upper entries request replay).2.1) ↔
      ∀ path i step, normalizeRequestPath request.path = .ok path →
        Replay.selected lib.upper entries (request,path) replay = .ok (some (i,step)) →
        Replay.completes replay.1 step = true) ∧
    ((Rules.Failed rules (Rules.matchWrite lib corpus entries request rules) →
        Rules.Untouched rules (Rules.matchWrite lib corpus entries request rules)) ↔
      ∀ prepared first rest, Rules.prepare lib corpus entries rules.1.heap request = .ok prepared →
        Rules.holding prepared rules = .ok (first::rest) →
        (Rules.rollFailure lib (first::rest) rules).1 = .ok none →
        Rules.Harmless rules.1 first rest) :=
  ⟨Replay.unansweredUnchanged lib.upper entries request replay,
    Rules.failedUntouched lib corpus entries request rules⟩

def halfHeap : Heap := ⟨[
  [("name",.str "half"),("method",.str "POST"),("path",.str "/a"),
    ("state_transitions",.list [.dict 1,.dict 2])],
  [("op",.str "set"),("path",.str "/a"),("field",.str "PowerState"),("value",.str "Off")],
  [("op",.str "set"),("path",.str "/a"),("value",.str "On")]]⟩

theorem raisingWriteKept : let request : Request := ⟨"POST","/a",.null⟩
    let replay := Replay.matchWrite id [.dict 0] request (⟨halfHeap,[]⟩,[])
    let rules := Rules.matchWrite stillLibrary emptyCorpus [.dict 0] request
      (⟨halfHeap,[]⟩,⟨[],[],()⟩)
    let needs : PyError := .valueError "state transition needs field or json_path"
    let off : Json := .obj [("PowerState",.str "Off")]
    (replay.1 = .error needs ∧ replay.2.2 = [0] ∧ overlayFor replay.2.1 "/a" = .ok off) ∧
      rules.1 = .error needs ∧ overlayFor rules.2.1 "/a" = .ok off := by
  decide +kernel

end RedfishCtl.MockEngine
