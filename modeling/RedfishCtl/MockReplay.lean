import RedfishCtl.MockFailures
import RedfishCtl.MockLinear

/-! Concurrent writes to the replay engine. A write normalises its path and then holds the lock. The
history in the order of the locks says how many steps the answered writes have consumed since the
last reset. -/
namespace RedfishCtl.MockEngine.Replay
open MockOverlay
open PyUrl (normalizeRequestPath)
open TwoPhase (Call Event System Steady)

abbrev Result := Except PyError (Option Json)
abbrev Shared := System State Request (Request × String) UnderLock PyError (Option Json)

variable (upper : String → String) (steps : List PyVal) (scenario : String)

def object : TwoPhase.Object State Request (Request × String) UnderLock PyError (Option Json) where
  prepare request _ := (normalizeRequestPath request.path).map fun path => (request,path)
  locked := locked upper steps
  atomic := (engine upper steps scenario).underLock

def tally (k : Nat) : Call Request UnderLock × Result → Nat
  | (.split _,.ok (some _)) => k + 1
  | (.atomic (.reset _),.ok (some (.bool true))) => 0
  | _ => k

def consumed (history : List (Call Request UnderLock × Result)) : Nat := history.foldl tally 0

def Named (h : Heap) (numbered : PyVal × Nat) (name : String) : Prop :=
  isDict numbered.1 = true ∧ nameOf h numbered.1 ("step-" ++ toString numbered.2) = .ok name

def Names (h : Heap) (k : Nat) (names : List String) : Prop :=
  List.Forall₂ (Named h) (steps.zipIdx.drop k) names

def report (k : Nat) (names : List String) : Json :=
  .obj [("scenario",.str scenario),("matched_steps",.int k),
    ("pending_steps",.arr (names.map .str)),("total_steps",.int steps.length),
    ("complete",.bool (decide (k = steps.length)))]

/- With k steps consumed an answered write matches step k, and a status read reports on the others. -/
def Fits (s : State) (k : Nat) : Call Request UnderLock × Result → Prop
  | (.split request,.ok (some _)) => ∃ path step, normalizeRequestPath request.path = .ok path ∧
      steps[k]? = some step ∧
      stepMatches upper s.1.heap step request.method path request.body = .ok true
  | (.atomic .status,result) => ∃ names, Names steps s.1.heap k names ∧
      result = .ok (some (report steps scenario k names))
  | _ => True

structure Ordered (start : State) (sys : Shared) : Prop where
  bound : consumed sys.history ≤ steps.length
  matched : sys.shared.2 = List.range (consumed sys.history)
  entries : ∀ before entry later, sys.history = before ++ entry::later →
    Fits upper steps scenario ((object upper steps scenario).serve start (before.map Prod.fst)).2
      (consumed before) entry

def Completing (sys : Shared) : Event Request UnderLock → Prop
  | .lock id => ∀ request call i step, sys.waiting.lookup id = some (request,call) →
      selected upper steps call sys.shared = .ok (some (i,step)) →
      completes sys.shared.1 step = true
  | .atomic .status => ∀ i step, steps[i]? = some step → i ∉ sys.shared.2 →
      isDict step = true ∧ (nameOf sys.shared.1.heap step ("step-" ++ toString i)).isOk = true
  | _ => True

variable {upper steps scenario}

theorem nextPendingRange {k} (bound : k ≤ steps.length) :
    nextPending steps (List.range k) = if k < steps.length then some k else none := by
  unfold nextPending
  split
  · rename_i below
    simp [below]
  rw [List.find?_eq_none]
  intro i inside
  have : i < steps.length := List.mem_range.mp inside
  simp
  omega

theorem pendingNamesCons {h matched i} (pending : i ∉ matched) (step : PyVal) (rest : List PyVal)
    (names : List String) :
    pendingNames h matched i (step::rest) = .ok names ↔
      ∃ name others, Named h (step,i) name ∧ pendingNames h matched (i + 1) rest = .ok others ∧
        names = name::others := by
  have skipped : matched.contains i = false := by simpa using pending
  rw [pendingNames]
  simp only [Named,skipped,Bool.false_eq_true,if_false]
  cases isDict step with
  | false => simp
  | true =>
    constructor
    · intro found
      obtain ⟨name,named,found⟩ := Stateful.okOfBind found
      obtain ⟨others,later,same⟩ := Stateful.okOfBind found
      cases same
      exact ⟨name,others,⟨rfl,named⟩,later,rfl⟩
    · rintro ⟨name,others,⟨-,named⟩,later,rfl⟩
      simp only [Bool.not_true,Bool.false_eq_true,if_false,named,later,bind,Except.bind]

theorem pendingNamesRange (h : Heap) (k : Nat) (rest : List PyVal) (i : Nat) (names : List String) :
    pendingNames h (List.range k) i rest = .ok names ↔
      List.Forall₂ (Named h) ((rest.zipIdx i).drop (k - i)) names := by
  induction rest generalizing i names with
  | nil => cases names <;> simp [pendingNames]
  | cons step rest ih =>
    by_cases past : i < k
    · have drop : k - i = (k - (i + 1)) + 1 := by omega
      unfold pendingNames
      simp [past,ih,drop]
    have drop : k - i = 0 := by omega
    have later : k - (i + 1) = 0 := by omega
    have pending : i ∉ List.range k := by simpa using past
    simp only [pendingNamesCons pending,ih,drop,later,List.zipIdx_cons,List.drop_zero,
      List.forall₂_cons_left_iff]

theorem named {h numbered} :
    (∃ names, List.Forall₂ (Named h) numbered names) ↔
      ∀ p ∈ numbered, isDict p.1 = true ∧ (nameOf h p.1 ("step-" ++ toString p.2)).isOk = true := by
  induction numbered with
  | nil => simp
  | cons p rest ih =>
    rw [List.forall_mem_cons,← ih]
    constructor
    · rintro ⟨_,every⟩
      cases every with
      | cons first others =>
        exact ⟨⟨first.1,by rw [first.2]; rfl⟩,_,others⟩
    rintro ⟨⟨dict,ok⟩,names,others⟩
    cases found : nameOf h p.1 ("step-" ++ toString p.2) with
    | error e =>
      rw [found] at ok
      cases ok
    | ok name => exact ⟨name::names,.cons ⟨dict,found⟩ others⟩

theorem statusReports (scenario : String) {s k} (matched : s.2 = List.range k)
    (bound : k ≤ steps.length) :
    (∃ names, Names steps s.1.heap k names ∧
      (status steps scenario s).map some = .ok (some (report steps scenario k names))) ↔
    ∀ i step, steps[i]? = some step → i ∉ s.2 →
      isDict step = true ∧ (nameOf s.1.heap step ("step-" ++ toString i)).isOk = true := by
  have reported (names : List String) (found : Names steps s.1.heap k names) :
      (status steps scenario s).map some = .ok (some (report steps scenario k names)) := by
    have pending := (pendingNamesRange s.1.heap k steps 0 names).mpr found
    have length := found.length_eq
    simp only [List.length_drop,List.length_zipIdx] at length
    have complete : names.isEmpty = decide (k = steps.length) := by
      rw [Bool.eq_iff_iff,List.isEmpty_iff_length_eq_zero,decide_eq_true_eq]
      omega
    simp only [status,matched,pending,bind,Except.bind,Except.map,report,List.length_range,complete]
  have drop : (∃ names, Names steps s.1.heap k names ∧
      (status steps scenario s).map some = .ok (some (report steps scenario k names))) ↔
      ∃ names, Names steps s.1.heap k names :=
    ⟨fun ⟨names,found,_⟩ => ⟨names,found⟩,fun ⟨names,found⟩ => ⟨names,found,reported names found⟩⟩
  refine drop.trans (named.trans ?_)
  rw [matched]
  constructor
  · intro every i step found pending
    have past : k ≤ i := by simpa using pending
    refine every (step,i) (List.mem_of_getElem? (i := i - k) ?_)
    have place : k + (i - k) = i := by omega
    rw [List.getElem?_drop,place,List.getElem?_zipIdx,found]
    simp
  · intro every p inside
    obtain ⟨j,found⟩ := List.getElem?_of_mem inside
    rw [List.getElem?_drop,List.getElem?_zipIdx,Option.map_eq_some_iff] at found
    obtain ⟨step,there,rfl⟩ := found
    exact every (0 + (k + j)) step (by simpa using there) (by simp)

theorem orderedDone {start sys} (ordered : Ordered upper steps scenario start sys)
    (served : TwoPhase.Served (object upper steps scenario) start sys)
    (call : Call Request UnderLock) (result : Result × State) :
    Ordered upper steps scenario start (sys.done call result) ↔
      tally (consumed sys.history) (call,result.1) ≤ steps.length ∧
      result.2.2 = List.range (tally (consumed sys.history) (call,result.1)) ∧
      Fits upper steps scenario sys.shared (consumed sys.history) (call,result.1) := by
  have total : consumed (sys.done call result).history =
      tally (consumed sys.history) (call,result.1) := by
    simp [consumed,System.done]
  have state := congrArg Prod.snd served
  constructor
  · intro after
    have last := after.entries sys.history (call,result.1) [] (by simp [System.done])
    rw [state] at last
    exact ⟨total ▸ after.bound,total ▸ after.matched,last⟩
  rintro ⟨bound,matched,last⟩
  refine ⟨total ▸ bound,total ▸ matched,?_⟩
  intro before entry later split
  obtain ⟨middle,same,last'⟩ | ⟨middle,same,last'⟩ := List.append_eq_append_iff.mp split
  · cases middle with
    | nil =>
      cases last'
      rw [same,List.append_nil,state]
      exact last
    | cons x middle => simp at last'
  · cases middle with
    | nil =>
      cases last'
      rw [List.append_nil] at same
      rw [← same,state]
      exact last
    | cons x middle =>
      cases last'
      exact ordered.entries before entry middle same

section
variable {start : State} {sys : Shared}

theorem orderedQuiet (ordered : Ordered upper steps scenario start sys)
    (served : TwoPhase.Served (object upper steps scenario) start sys) {call result}
    (quiet : tally (consumed sys.history) (call,result) = consumed sys.history)
    (fits : Fits upper steps scenario sys.shared (consumed sys.history) (call,result)) :
    Ordered upper steps scenario start (sys.done call (result,sys.shared)) := by
  rw [orderedDone ordered served,quiet]
  exact ⟨ordered.bound,ordered.matched,fits⟩

theorem selectedNext (ordered : Ordered upper steps scenario start sys) {call i step}
    (found : selected upper steps call sys.shared = .ok (some (i,step))) :
    i = consumed sys.history ∧ steps[i]? = some step ∧
      stepMatches upper sys.shared.1.heap step call.1.method call.2 call.1.body = .ok true := by
  unfold selected at found
  rw [ordered.matched,nextPendingRange ordered.bound] at found
  split at found
  · cases found
  rename_i j next
  split at next
  · rename_i below
    cases next
    obtain ⟨fits,matched,same⟩ := Stateful.okOfBind found
    cases fits with
    | false => simp at same
    | true =>
      have place : steps[consumed sys.history]? = some (steps.getD (consumed sys.history) .null) := by
        simp [below]
      cases same
      exact ⟨rfl,place,matched⟩
  · cases next

theorem orderedLocked (ordered : Ordered upper steps scenario start sys)
    (served : TwoPhase.Served (object upper steps scenario) start sys) {request path}
    (normal : normalizeRequestPath request.path = .ok path) :
    Ordered upper steps scenario start
        (sys.done (.split request) (locked upper steps (request,path) sys.shared)) ↔
      ∀ i step, selected upper steps (request,path) sys.shared = .ok (some (i,step)) →
        completes sys.shared.1 step = true := by
  rw [lockedRun]
  cases found : selected upper steps (request,path) sys.shared with
  | error e =>
    have kept : Ordered upper steps scenario start (sys.done (.split request) (.error e,sys.shared)) :=
      orderedQuiet ordered served rfl trivial
    simpa using kept
  | ok next =>
    cases next with
    | none =>
      have kept : Ordered upper steps scenario start (sys.done (.split request) (.ok none,sys.shared)) :=
        orderedQuiet ordered served rfl trivial
      simpa using kept
    | some pair =>
      obtain ⟨i,step⟩ := pair
      have one : (∀ i' step', Except.ok (some (i,step)) = Except.ok (ε := PyError) (some (i',step')) →
          completes sys.shared.1 step' = true) ↔ completes sys.shared.1 step = true := by
        constructor
        · exact fun all => all i step rfl
        · rintro here _ _ ⟨⟩
          exact here
      rw [one,orderedDone ordered served,consumeMatched,ordered.matched]
      obtain ⟨rfl,here,matched⟩ := selectedNext ordered found
      have below : consumed sys.history < steps.length := (List.getElem?_eq_some_iff.mp here).1
      rw [← consumeCompletes (consumed sys.history)]
      constructor
      · rintro ⟨-,grown,-⟩
        by_contra silent
        have never := consumeNever (consumed sys.history) step sys.shared
        -- without an answer the count stays, and the step is marked
        have quiet : tally (consumed sys.history)
            (.split request,(consume (consumed sys.history) step sys.shared).1) =
              consumed sys.history := by
          cases result : (consume (consumed sys.history) step sys.shared).1 with
          | error e => rfl
          | ok answer =>
            cases answer with
            | none => exact absurd result never
            | some response => exact absurd ⟨response,result⟩ silent
        rw [quiet] at grown
        simpa using congrArg List.length grown
      · rintro ⟨response,done⟩
        rw [done]
        exact ⟨below,List.range_succ.symm,path,step,normal,here,matched⟩

theorem orderedStep (steady : Steady (object upper steps scenario) (fun _ => True) start sys)
    (ordered : Ordered upper steps scenario start sys) (event : Event Request UnderLock) :
    Ordered upper steps scenario start ((object upper steps scenario).step sys event) ↔
      Completing upper steps sys event := by
  cases event with
  | enter id request =>
    refine iff_of_true ?_ trivial
    simp only [TwoPhase.Object.step]
    split
    · exact ordered
    · split
      · exact orderedQuiet ordered steady.served rfl trivial
      · exact ⟨ordered.bound,ordered.matched,ordered.entries⟩
  | lock id =>
    simp only [TwoPhase.Object.step,Completing]
    cases found : sys.waiting.lookup id with
    | none => simpa using ordered
    | some pair =>
      obtain ⟨request,call⟩ := pair
      have read := steady.read id request call found
      simp only [object] at read
      cases normal : normalizeRequestPath request.path with
      | error e =>
        rw [normal] at read
        cases read
      | ok path =>
        rw [normal] at read
        cases read
        have waitless : Ordered upper steps scenario start
            { sys with waiting := AssocList.erase id sys.waiting } :=
          ⟨ordered.bound,ordered.matched,ordered.entries⟩
        refine (orderedLocked waitless steady.served normal).trans ?_
        constructor
        · rintro complete _ _ i step ⟨⟩
          exact complete i step
        · intro complete i step
          exact complete request (request,path) i step rfl
  | atomic operation =>
    simp only [TwoPhase.Object.step]
    cases operation with
    | overlayFor path => exact iff_of_true (orderedQuiet ordered steady.served rfl trivial) trivial
    | reset scenario' =>
      refine iff_of_true ?_ trivial
      rw [orderedDone ordered steady.served]
      simp only [object,Engine.underLock,Engine.reset]
      split
      · exact ⟨ordered.bound,ordered.matched,trivial⟩
      · exact ⟨Nat.zero_le _,rfl,trivial⟩
    | status =>
      rw [orderedDone ordered steady.served]
      have reports := statusReports scenario ordered.matched ordered.bound
      constructor
      · rintro ⟨-,-,fits⟩
        exact reports.mp fits
      · intro complete
        exact ⟨ordered.bound,ordered.matched,reports.mpr complete⟩

/- The order holds throughout exactly when every write that matches a step completes it and every
status read can name the steps left. -/
theorem replayInOrder (upper : String → String) (steps : List PyVal) (scenario : String) (h : Heap)
    (schedule : List (Event Request UnderLock)) :
    let replay := object upper steps scenario
    let start : State := (⟨h,[]⟩,[])
    (∀ part, part <+: schedule → Ordered upper steps scenario start (replay.interleaved start part)) ↔
      Runs.Guarded replay.step (Completing upper steps) ⟨start,[],[]⟩ schedule := by
  intro replay start
  have begin : Steady replay (fun _ => True) start ⟨start,[],[]⟩ :=
    ⟨trivial,fun id call prepared found => by simp at found,rfl⟩
  have kept (sys : Shared) (event : Event Request UnderLock)
      (steady : Steady replay (fun _ => True) start sys) :
      Steady replay (fun _ => True) start (replay.step sys event) :=
    TwoPhase.steadyStep (fun _ _ _ => rfl)
      (fun _ _ _ s _ => ⟨trivial,fun _ _ => trivial⟩)
      (fun _ s _ => ⟨trivial,fun _ _ => trivial⟩) sys event steady
  have first : Ordered upper steps scenario start ⟨start,[],[]⟩ :=
    ⟨Nat.zero_le _,rfl,fun before entry later split => by simp at split⟩
  have exactly (sys : Shared) (event : Event Request UnderLock)
      (both : Steady replay (fun _ => True) start sys ∧ Ordered upper steps scenario start sys) :
      (Steady replay (fun _ => True) start (replay.step sys event) ∧
        Ordered upper steps scenario start (replay.step sys event)) ↔
          Completing upper steps sys event :=
    (and_iff_right (kept sys event both.1)).trans (orderedStep both.1 both.2 event)
  rw [← Runs.throughoutGuarded exactly ⟨begin,first⟩]
  constructor
  · intro throughout part inside
    exact ⟨Runs.invariant kept begin part,throughout part inside⟩
  · intro throughout part inside
    exact (throughout part inside).2

theorem raisingWriteConsumes : let steps : List PyVal := [.dict 0,.dict 3]
    let heap : Heap := ⟨halfHeap.cells ++ [[("method",.str "PATCH"),("path",.str "/a")]]⟩
    let replay := object id steps "default"
    let start : State := (⟨heap,[]⟩,[])
    let final := replay.interleaved start [.enter 1 ⟨"POST","/a",.null⟩,.lock 1,
      .enter 2 ⟨"PATCH","/a",.null⟩,.lock 2]
    final.history.map Prod.snd = [.error (.valueError "state transition needs field or json_path"),
      .ok (some (.obj []))] ∧ consumed final.history = 1 ∧ final.shared.2 = [0,1] := by
  decide +kernel

end

end RedfishCtl.MockEngine.Replay
