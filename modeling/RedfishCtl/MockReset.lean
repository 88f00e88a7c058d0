import RedfishCtl.MockConfined
import RedfishCtl.MockRename

/-! A reset clears the overlays and the engine's own state, not the heap. As far as the loaded
specification is unchanged, the engine runs in step with a new one under a renaming of the
dictionaries. -/
namespace RedfishCtl.MockEngine
open MockOverlay
open PyUrl (normalizeRequestPath)
open Stateful

section
variable {f : Nat → Nat} {h h' : Heap}

theorem responseRenamed (linked : Linked f h h') (v : PyVal) :
    responseOf h' (v.rename f) = responseOf h v := by
  unfold responseOf
  rw [fieldRenamed linked]
  cases field h v "response" with
  | none => rfl
  | some response =>
    simp [truthyRenamed linked,isDictRenamed,documentRenamed linked]

theorem constraintRenamed (linked : Linked f h h') (v : PyVal) (key : String) (test : Json → Bool) :
    constraint h' (v.rename f) key test = constraint h v key test := by
  unfold constraint
  rw [fieldRenamed linked]
  cases field h v key with
  | none => rfl
  | some expected => simp only [Option.map_some,documentRenamed linked]

theorem bodyMatchesRenamed (linked : Linked f h h') (v : PyVal) (body : Json) :
    bodyMatches h' (v.rename f) body = bodyMatches h v body := by
  simp [bodyMatches,constraintRenamed linked]

theorem textOrRenamed (linked : Linked f h h') (v : PyVal) (key : String) :
    textOr h' (v.rename f) key = textOr h v key := by
  unfold textOr
  rw [fieldRenamed linked]
  cases field h v key with
  | none => rfl
  | some value => exact textRenamed linked value

theorem nameRenamed (linked : Linked f h h') (v : PyVal) (default : String) :
    nameOf h' (v.rename f) default = nameOf h v default := by
  have either := orElseRenamed linked (field h v "name") (.str default)
  simp only [PyVal.rename] at either
  unfold nameOf
  rw [fieldRenamed linked,either]
  exact textRenamed linked _

namespace Rules
variable {ρ : Type} (lib : Library ρ)

theorem requestMatchesRenamed (linked : Linked f h h') (rule : PyVal) (method path : String)
    (body : Json) :
    requestMatches lib h' (rule.rename f) method path body =
      requestMatches lib h rule method path body := by
  simp [requestMatches,textOrRenamed linked,bodyMatchesRenamed linked]

theorem candidatesRenamed (linked : Linked f h h') (rules : List PyVal) (method path : String)
    (body : Json) :
    candidates lib h' (rules.map (PyVal.rename f)) method path body =
      (candidates lib h rules method path body).map (List.map (PyVal.rename f)) := by
  induction rules with
  | nil => rfl
  | cons rule rest ih =>
    have same : isCandidate lib h' method path body (rule.rename f) =
        isCandidate lib h method path body rule := by
      simp [isCandidate,isDictRenamed,requestMatchesRenamed lib linked]
    simp only [List.map_cons,candidates,same,ih]
    cases isCandidate lib h method path body rule with
    | error e => rfl
    | ok fits =>
      cases candidates lib h rest method path body with
      | error e => rfl
      | ok others => cases fits <;> rfl

theorem conditionsRenamed (linked : Linked f h h') (rule : PyVal) :
    conditions h' (rule.rename f) = (conditions h rule).map (List.map (PyVal.rename f)) := by
  have either := orElseRenamed linked (field h rule "when") (.list [])
  simp only [PyVal.rename,PyVal.renameItems] at either
  unfold conditions
  rw [fieldRenamed linked,either,iterateRenamed linked]

theorem conditionPathsRenamed (linked : Linked f h h') (cs : List PyVal) :
    conditionPaths h' (cs.map (PyVal.rename f)) = conditionPaths h cs := by
  induction cs with
  | nil => rfl
  | cons condition rest ih =>
    have same : conditionPath h' (condition.rename f) = conditionPath h condition := by
      simp only [conditionPath,fieldRenamed linked]
      cases field h condition "path" with
      | none => rfl
      | some path => cases path <;> rfl
    simp [conditionPaths,same,ih]

theorem preconditionPathsRenamed (linked : Linked f h h') (rules : List PyVal) :
    preconditionPaths h' (rules.map (PyVal.rename f)) = preconditionPaths h rules := by
  induction rules with
  | nil => rfl
  | cons rule rest ih =>
    simp only [List.map_cons,preconditionPaths,conditionsRenamed linked,ih]
    cases conditions h rule with
    | error e => rfl
    | ok cs =>
      have paths := conditionPathsRenamed linked cs
      simp only [Except.map,bind,Except.bind] at paths ⊢
      rw [paths]

def Prepared.rename (f : Nat → Nat) (p : Prepared) : Prepared :=
  ⟨p.matching.map (PyVal.rename f),p.corpus⟩

theorem prepareRenamed (linked : Linked f h h') (corpus : Corpus) (rules : List PyVal)
    (request : Request) :
    prepare lib corpus (rules.map (PyVal.rename f)) h' request =
      (prepare lib corpus rules h request).map (Prepared.rename f) := by
  unfold prepare
  cases normalizeRequestPath request.path with
  | error e => rfl
  | ok path =>
    simp only [bind,Except.bind,candidatesRenamed lib linked]
    cases candidates lib h rules request.method path request.body with
    | error e => rfl
    | ok matching =>
      simp only [Except.map,preconditionPathsRenamed linked]
      cases preconditionPaths h matching with
      | error e => rfl
      | ok paths =>
        simp only
        cases loadCorpus corpus paths.dedup <;> rfl

theorem probabilityRenamed (linked : Linked f h h') (failure : PyVal) :
    probability lib h' (failure.rename f) = probability lib h failure := by
  have either := orElseRenamed linked (field h failure "probability") (.int 0)
  simp only [PyVal.rename] at either
  simp [probability,fieldRenamed linked,either,documentRenamed linked]

theorem failureResponseRenamed (linked : Linked f h h') (failure : PyVal) :
    failureResponse h' (failure.rename f) = failureResponse h failure := by
  unfold failureResponse
  rw [fieldRenamed linked]
  cases field h failure "response" with
  | none => rfl
  | some response =>
    simp [truthyRenamed linked,isDictRenamed,documentRenamed linked]

section
variable {s t : Store}

theorem effectiveStateRenamed (linked : LinkedStores f s t) (cache : List (String × Members))
    (resourcePath : String) :
    effectiveState t cache resourcePath = effectiveState s cache resourcePath := by
  refine bind_congr fun path => bind_congr fun key => ?_
  rw [overlayRenamed linked]
  cases s.overlays.lookup path with
  | none => rfl
  | some r =>
    have same : document t.heap (.dict (f r)) = document s.heap (.dict r) :=
      documentRenamed linked.heap (.dict r)
    simp [same]

theorem preconditionRenamed (linked : LinkedStores f s t) (cache : List (String × Members))
    (condition : PyVal) :
    preconditionHolds t cache (condition.rename f) = preconditionHolds s cache condition := by
  unfold preconditionHolds
  rw [fieldRenamed linked.heap]
  cases field s.heap condition "path" with
  | none => rfl
  | some path =>
    cases path with
    | str resourcePath =>
      simp only [Option.map_some,PyVal.rename,effectiveStateRenamed linked,
        keysOfRenamed linked.heap,pathPartsRenamed,fieldRenamed linked.heap]
      refine bind_congr fun state => bind_congr fun keys => ?_
      cases field s.heap condition "exists" with
      | some v => simp only [Option.map_some,truthyRenamed linked.heap]
      | none =>
        cases field s.heap condition "absent" with
        | some v => simp only [Option.map_none,Option.map_some,truthyRenamed linked.heap]
        | none =>
          cases walk state keys with
          | none => rfl
          | some value =>
            cases field s.heap condition "equals" with
            | some v => simp only [Option.map_none,Option.map_some,documentRenamed linked.heap]
            | none =>
              cases field s.heap condition "not_equals" with
              | some v => simp only [Option.map_none,Option.map_some,documentRenamed linked.heap]
              | none => rfl
    | _ => rfl

theorem allHoldRenamed (linked : LinkedStores f s t) (cache : List (String × Members))
    (cs : List PyVal) : allHold t cache (cs.map (PyVal.rename f)) = allHold s cache cs := by
  induction cs with
  | nil => rfl
  | cons condition rest ih =>
    simp [allHold,isDictRenamed,preconditionRenamed linked,ih]

theorem preconditionsRenamed (linked : LinkedStores f s t) (cache : List (String × Members))
    (rule : PyVal) :
    preconditionsHold t cache (rule.rename f) = preconditionsHold s cache rule := by
  unfold preconditionsHold
  rw [conditionsRenamed linked.heap]
  cases conditions s.heap rule with
  | error e => rfl
  | ok cs => exact allHoldRenamed linked cache cs

end
end Rules
end

def Related {ω : Type} (f : Nat → Nat) (s t : Store × ω) : Prop := LinkedStores f s.1 t.1 ∧ s.2 = t.2

theorem agreeRefl {α} (x : Except PyError α) : Agree Eq x x := by
  cases x <;> rfl

variable {f : Nat → Nat}

theorem inStepReadEq {ω α} {g g' : Store × ω → Except PyError α}
    (same : ∀ s t, Related f s t → g' t = g s) : InStep (Related f) Eq (read g) (read g') :=
  inStepRead fun s t related => by rw [same s t related]; exact agreeRefl _

theorem inStepZoom {ω α} {p q : Stateful Store PyError α} (inside : InStep (LinkedStores f) Eq p q) :
    InStep (@Related ω f) Eq (zoom Prod.fst (fun store s => (store,s.2)) p)
      (zoom Prod.fst (fun store s => (store,s.2)) q) := by
  intro s t related
  obtain ⟨results,after⟩ := inside s.1 t.1 related.1
  exact ⟨results,after,related.2⟩

variable {ω : Type} {s : Store × ω}

theorem transitionsRenamed {t} (related : Related f s t) (v : PyVal) :
    Agree (fun xs ys => ys = xs.map (PyVal.rename f))
      (iterate s.1.heap (orElse s.1.heap (field s.1.heap v "state_transitions") (.list [])))
      (iterate t.1.heap (orElse t.1.heap (field t.1.heap (v.rename f) "state_transitions")
        (.list []))) := by
  have either := orElseRenamed related.1.heap (field s.1.heap v "state_transitions") (.list [])
  simp only [PyVal.rename,PyVal.renameItems] at either
  rw [fieldRenamed related.1.heap,either,iterateRenamed related.1.heap]
  cases iterate s.1.heap (orElse s.1.heap (field s.1.heap v "state_transitions") (.list [])) <;> rfl

namespace Rules
variable {ρ : Type} (lib : Library ρ) {f : Nat → Nat}

theorem drawInStep : InStep (Related f) Eq (draw lib) (draw lib) := by
  intro s t related
  simp only [draw,← related.2]
  exact ⟨rfl,related.1,rfl⟩

theorem rollRuleInStep (rule : PyVal) :
    InStep (Related f) Eq (rollRule lib rule) (rollRule lib (rule.rename f)) := by
  refine inStepBind (Q := fun x y => y = x.map (PyVal.rename f)) ?_ ?_
  · exact inStepRead fun s t related => fieldRenamed related.1.heap rule "failure"
  intro failure _ same
  subst same
  cases failure with
  | none => exact inStepPure rfl
  | some failure =>
    simp only [Option.map_some,isDictRenamed]
    split
    · exact inStepPure rfl
    refine inStepBind (inStepReadEq fun s t related =>
      probabilityRenamed lib related.1.heap failure) fun p _ same => ?_
    subst same
    split
    · exact inStepPure rfl
    refine inStepBind (drawInStep lib) fun x _ same => ?_
    subst same
    split
    · refine inStepBind (inStepReadEq fun s t related =>
        nameRenamed related.1.heap rule "unnamed") fun name _ same => ?_
      subst same
      refine inStepBind (inStepModify fun s t related => ?_) fun _ _ _ => ?_
      · exact ⟨related.1,by simp [related.2]⟩
      · refine inStepBind (inStepReadEq fun s t related =>
          failureResponseRenamed related.1.heap failure) fun response _ same => ?_
        subst same
        exact inStepPure rfl
    · exact inStepPure rfl

theorem rollFailureInStep (rules : List PyVal) :
    InStep (Related f) Eq (rollFailure lib rules) (rollFailure lib (rules.map (PyVal.rename f))) := by
  induction rules with
  | nil => exact inStepPure rfl
  | cons rule rest ih =>
    refine inStepBind (rollRuleInStep lib rule) fun response _ same => ?_
    subst same
    cases response with
    | some response => exact inStepPure rfl
    | none => exact ih

theorem applyRuleInStep (rule : PyVal) :
    InStep (@Related (Volatile ρ) f) Eq (applyRule rule) (applyRule (rule.rename f)) := by
  refine inStepBind (inStepRead fun s t related => transitionsRenamed related rule) ?_
  intro transitions _ same
  subst same
  refine inStepBind (inStepZoom (applyTransitionsInStep transitions)) fun _ _ _ => ?_
  refine inStepBind (inStepReadEq fun s t related =>
    nameRenamed related.1.heap rule "unnamed") fun name _ same => ?_
  subst same
  exact inStepModify fun s t related => ⟨related.1,by simp [related.2]⟩

theorem lockedInStep (prepared : Prepared) :
    InStep (Related f) Eq (locked lib prepared) (locked lib (prepared.rename f)) := by
  refine inStepBind (inStepSelect fun rule _ => inStepReadEq fun s t related =>
    preconditionsRenamed related.1 prepared.corpus rule) fun matched _ same => ?_
  subst same
  cases matched with
  | nil => exact inStepPure rfl
  | cons first rest =>
    refine inStepBind (rollFailureInStep lib (first::rest)) fun response _ same => ?_
    subst same
    cases response with
    | some response => exact inStepPure rfl
    | none =>
      refine inStepBind (inStepForEach fun rule _ => applyRuleInStep rule) fun _ _ _ => ?_
      refine inStepBind (inStepReadEq fun s t related =>
        responseRenamed related.1.heap first) fun response _ same => ?_
      subst same
      exact inStepPure rfl

theorem matchWriteInStep (corpus : Corpus) {rules} (known : rules.map (PyVal.rename f) = rules)
    (request : Request) :
    InStep (Related f) Eq (matchWrite lib corpus rules request) (matchWrite lib corpus rules request) := by
  refine inStepBind (Q := fun p q => q = p.rename f) (inStepRead fun s t related => ?_) ?_
  · have prepared := prepareRenamed lib related.1.heap corpus rules request
    rw [known] at prepared
    rw [prepared]
    cases prepare lib corpus rules s.1.heap request <;> rfl
  · intro prepared _ same
    subst same
    exact lockedInStep lib prepared

end Rules

namespace Replay
variable (upper : String → String) {f : Nat → Nat}

theorem stepMatchesRenamed {h h'} (linked : Linked f h h') (step : PyVal) (method path : String)
    (body : Json) :
    stepMatches upper h' (step.rename f) method path body =
      stepMatches upper h step method path body := by
  simp [stepMatches,isDictRenamed,textOrRenamed linked,bodyMatchesRenamed linked]

variable {steps : List PyVal}

theorem stepRenamed (known : steps.map (PyVal.rename f) = steps) (i : Nat) :
    (steps.getD i .null).rename f = steps.getD i .null := by
  conv_rhs => rw [← known]
  simp only [List.getD_eq_getElem?_getD,List.getElem?_map]
  cases steps[i]? <;> rfl

theorem matchWriteInStep (known : steps.map (PyVal.rename f) = steps)
    (request : Request) :
    InStep (Related f) Eq (matchWrite upper steps request) (matchWrite upper steps request) := by
  refine inStepBind (fun s t related => ⟨agreeRefl _,related⟩) fun path _ same => ?_
  subst same
  refine inStepBind (inStepReadEq fun s t related => by rw [related.2]) fun next _ same => ?_
  subst same
  cases next with
  | none => exact inStepPure rfl
  | some i =>
    have step := stepRenamed known i
    refine inStepBind (inStepReadEq fun s t related => ?_) fun fits _ same => ?_
    · have fits := stepMatchesRenamed upper related.1.heap (steps.getD i .null)
        request.method path request.body
      rwa [step] at fits
    subst same
    split
    · exact inStepPure rfl
    refine inStepBind (inStepModify fun s t related =>
      ⟨related.1,by simp [related.2]⟩) fun _ _ _ => ?_
    refine inStepBind (Q := fun xs ys => ys = xs.map (PyVal.rename f))
      (inStepRead fun s t related => ?_) fun transitions _ same => ?_
    · have found := transitionsRenamed related (steps.getD i .null)
      rwa [step] at found
    subst same
    refine inStepBind (inStepZoom (applyTransitionsInStep transitions)) fun _ _ _ => ?_
    refine inStepBind (inStepReadEq fun s t related => ?_) fun response _ same => ?_
    · have response := responseRenamed related.1.heap (steps.getD i .null)
      rwa [step] at response
    · subst same
      exact inStepPure rfl

theorem pendingNamesRenamed {h h'} (linked : Linked f h h') (matched : List Nat)
    (steps : List PyVal) (i : Nat) :
    pendingNames h' matched i (steps.map (PyVal.rename f)) = pendingNames h matched i steps := by
  induction steps generalizing i with
  | nil => rfl
  | cons step rest ih => simp only [List.map_cons,pendingNames,isDictRenamed,nameRenamed linked,ih]

theorem statusRenamed (known : steps.map (PyVal.rename f) = steps) (scenario : String) {s t}
    (related : Related f s t) : status steps scenario t = status steps scenario s := by
  have pending := pendingNamesRenamed related.1.heap s.2 steps 0
  rw [known] at pending
  simp [status,← related.2,pending]

end Replay

def shift (n k r : Nat) : Nat := if r < n then r else r + k

theorem shiftBelow {n r} (below : r < n) (k : Nat) : shift n k r = r := if_pos below

theorem unchangedSize {h h'} (unchanged : Unchanged h h') : h.size ≤ h'.size := by
  by_contra shorter
  have absent : h'.cells[h'.size]? = none := List.getElem?_eq_none le_rfl
  rw [unchanged _ (not_le.mp shorter),List.getElem?_eq_none_iff] at absent
  exact shorter absent

theorem shiftLinked (spec : Specification) {h} (unchanged : Unchanged spec.heap h) :
    Linked (shift spec.heap.size (h.size - spec.heap.size)) spec.heap h := by
  have longer := unchangedSize unchanged
  refine ⟨?_,?_,?_⟩
  · intro a b same
    simp only [shift] at same
    split at same <;> split at same <;> omega
  · intro r
    by_cases below : r < spec.heap.size
    · obtain ⟨m,found⟩ : ∃ m, spec.heap.cells[r]? = some m :=
        ⟨_,List.getElem?_eq_getElem below⟩
      rw [shiftBelow below,unchanged r below,found,Option.map_some,
        Entries.renameId fun q mem => shiftBelow
          (spec.closed m (List.mem_of_getElem? found) q mem) _]
    · have moved : shift spec.heap.size (h.size - spec.heap.size) r =
          r + (h.size - spec.heap.size) := if_neg below
      have absent : spec.heap.cells[r]? = none := List.getElem?_eq_none (not_lt.mp below)
      have outside : h.cells[r + (h.size - spec.heap.size)]? = none :=
        List.getElem?_eq_none (by simp only [Heap.size] at *; omega)
      rw [moved,absent,outside]
      rfl
  · intro i
    simp only [shift]
    split <;> omega

theorem shiftKnown (spec : Specification) (k : Nat) :
    spec.entries.map (PyVal.rename (shift spec.heap.size k)) = spec.entries := by
  refine (List.map_congr_left fun v mem => ?_).trans (List.map_id _)
  exact PyVal.renameId _ v fun r inside => shiftBelow (spec.known v mem r inside) k

variable {e : Engine ω}

theorem observeInStep (each : ∀ op, InStep (Related f) Eq (e.perform op) (e.perform op)) {t}
    (related : Related f s t) (ops : List Operation) : e.observe t ops = e.observe s ops := by
  induction ops generalizing s t with
  | nil => rfl
  | cons op rest ih =>
    obtain ⟨results,after⟩ := each op s t related
    simp only [Engine.observe,ih after]
    congr 1
    generalize (e.perform op s).1 = x at results
    generalize (e.perform op t).1 = y at results
    cases x with
    | error e => cases y with
      | error e' => exact congrArg _ (Eq.symm results)
      | ok b => exact absurd results id
    | ok a => cases y with
      | error e' => exact absurd results id
      | ok b => exact congrArg _ (Eq.symm results)

theorem performInStep
    (writes : ∀ request, InStep (Related f) Eq (e.write request) (e.write request))
    (statuses : ∀ s t : Store × ω, Related f s t → e.status t = e.status s) (op : Operation) :
    InStep (Related f) Eq (e.perform op) (e.perform op) := by
  cases op with
  | write request => exact writes request
  | overlayFor path =>
    exact inStepReadEq fun s t related => by rw [overlayForRenamed related.1]
  | status => exact inStepReadEq fun s t related => by rw [statuses s t related]

theorem resetDone {scenario} (done : (e.reset scenario s).1 = true) :
    (e.reset scenario s).2 = (⟨s.1.heap,[]⟩,e.fresh) := by
  unfold Engine.reset at done ⊢
  split at done
  · simp at done
  · rename_i allowed
    rw [if_neg allowed]

theorem resetRelated (e : Engine ω) (spec : Specification) {h} (unchanged : Unchanged spec.heap h) :
    Related (shift spec.heap.size (h.size - spec.heap.size)) (e.start spec.heap) (⟨h,[]⟩,e.fresh) :=
  ⟨⟨shiftLinked spec unchanged,rfl⟩,rfl⟩

theorem builtInStep {spec} (built : Built spec e) (k : Nat) (op : Operation) :
    InStep (Related (shift spec.heap.size k)) Eq (e.perform op) (e.perform op) := by
  have known := shiftKnown spec k
  cases built with
  | rules lib corpus vendor seed =>
    refine performInStep (fun request => Rules.matchWriteInStep lib corpus known request) ?_ op
    intro s t related
    simp [Rules.engine,Rules.status,related.2]
  | replay upper scenario =>
    refine performInStep (fun request => Replay.matchWriteInStep upper known request) ?_ op
    intro s t related
    exact Replay.statusRenamed known scenario related

theorem plainUnchanged {spec} (built : Built spec e)
    (plain : ∀ rule ∈ spec.entries, ∀ t ∈ transitionsOf spec.heap rule,
      (field spec.heap t "value").any isDict = false) (ops : List Operation) :
    Unchanged spec.heap (e.after spec.heap ops).1.heap := by
  have isolates : Isolates spec.heap (spec.heap.size ≤ ·) spec.entries := by
    refine ⟨fun r mem => not_le.mpr (spec.known _ mem r (by simp [PyVal.refs])),?_⟩
    intro rule mem t listed c found
    have scalar := plain rule mem t listed
    simp [found,isDict] at scalar
  have start : Confined spec.heap (spec.heap.size ≤ ·) ⟨spec.heap,[]⟩ := by
    refine confinedStart (fun r beyond => beyond) fun r key c beyond found => ?_
    have absent : spec.heap.cell r = [] := by
      simp only [Heap.cell,List.getElem?_eq_none beyond,Option.getD_none]
    simp [absent] at found
  intro r below
  exact (keptAfter built (confinedKept isolates) start ops).heap.frame r (not_le.mpr below)

/- The specification can change under the engine; as long as it has not, a reset engine cannot be
told from a new one. -/
theorem resetRestores {ω : Type} {spec : Specification} {e : Engine ω} (built : Built spec e)
    (before : List Operation) (scenario : Option String)
    (done : (e.reset scenario (e.after spec.heap before)).1 = true)
    (unchanged : Unchanged spec.heap (e.after spec.heap before).1.heap) (ops : List Operation) :
    e.observe (e.reset scenario (e.after spec.heap before)).2 ops =
      e.observe (e.start spec.heap) ops := by
  rw [resetDone done]
  exact observeInStep (builtInStep built _) (resetRelated e spec unchanged) ops

theorem resetRestoresPower :
    let e := Rules.engine stillLibrary emptyCorpus powerSpecification.entries "generic" 0
    let off := Operation.write ⟨"POST","/a",.null⟩
    e.observe (e.reset none (e.after powerSpecification.heap [off])).2 [.overlayFor "/a",off,.status] =
      e.observe (e.start powerSpecification.heap) [.overlayFor "/a",off,.status] := by
  have built := @Built.rules powerSpecification Unit stillLibrary emptyCorpus "generic" 0
  exact resetRestores built _ none rfl (plainUnchanged built (by decide) _) _

def bootEngine : Engine (Rules.Volatile Unit) :=
  Rules.engine stillLibrary emptyCorpus bootSpecification.entries "generic" 0

def bootWrites : List Operation := [.write ⟨"PATCH","/a",.null⟩,.write ⟨"POST","/a",.null⟩]

def bootReads : List Operation := [.write ⟨"PATCH","/a",.null⟩,.overlayFor "/a"]

theorem resetKeepsTarget :
    (∀ r ∈ bootEngine.observe (bootEngine.start bootSpecification.heap) bootWrites,
      r = .ok (some (.obj []))) ∧
    (bootEngine.reset none (bootEngine.after bootSpecification.heap bootWrites)).1 = true ∧
    bootEngine.observe
        (bootEngine.reset none (bootEngine.after bootSpecification.heap bootWrites)).2 bootReads =
      [.ok (some (.obj [])),
        .ok (some (.obj [("Boot",.obj [("Mode",.str "UEFI"),("Target",.str "Pxe")])]))] ∧
    bootEngine.observe (bootEngine.start bootSpecification.heap) bootReads =
      [.ok (some (.obj [])),.ok (some (.obj [("Boot",.obj [("Mode",.str "UEFI")])]))] := by
  decide +kernel

end RedfishCtl.MockEngine
