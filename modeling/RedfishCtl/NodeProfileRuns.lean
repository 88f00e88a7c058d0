import RedfishCtl.NodeProfile
import RedfishCtl.Runs

/-! Runs of the node-profile handler with a fixed spec over a merge-patched status. Span attributes
are built before the handler's try block from the spec's address; when that raises, the call writes
nothing. -/
namespace RedfishCtl.NodeProfile
open Reconcile (Members ReconcileStep AppliedChange ReconcileResult get)
open Rfc3339 (DateTime)
open Traced
open Runs
open Json (getD getMergePatch mergePatch)

structure Resource where
  spec : Members
  attributes : Except PyError Unit

structure Call where
  credentials : Except PyError Unit
  manager : Except PyError Unit
  dry : Except PyError (List ReconcileStep × List AppliedChange)
  apply : Except PyError (List ReconcileStep × List AppliedChange)
  now : DateTime

def Call.reconcileFunc (c : Call) : ReconcileFunc Bool := fun confirm _ =>
  ⟨[confirm],(if confirm then c.apply else c.dry).map fun r => ⟨!confirm,r.1,r.2⟩⟩

structure State where
  status : Json
  confirmed : Nat

def step (res : Resource) (s : State) (c : Call) : State :=
  match res.attributes with
  | .error _ => s
  | .ok _ =>
      let (calls,patch) := reconcileRedfishNodeProfile res.spec s.status c.credentials c.manager
        c.reconcileFunc c.now
      ⟨mergePatch s.status (.obj patch),s.confirmed + calls.count true⟩

inductive Ending where
  | silent
  | failed (exc : PyError) (confirmed : Bool)
  | planned (dry : ReconcileResult)
  | applied (hash : PlanHash) (result : ReconcileResult)

def planning (spec : Members) (c : Call) : Except PyError ReconcileResult := do
  let _ ← c.credentials
  let _ ← endpointSpec spec
  let _ ← c.manager
  let dry ← c.dry
  .ok ⟨true,dry.1,dry.2⟩

def ending (res : Resource) (status : Json) (c : Call) : Ending :=
  match res.attributes, planning res.spec c with
  | .error _, _ => .silent
  | .ok _, .error exc => .failed exc false
  | .ok _, .ok dry =>
      match approval res.spec status (dryStatus res.spec status dry c.now), c.apply with
      | none, _ => .planned dry
      | some _, .error exc => .failed exc true
      | some hash, .ok r => .applied hash ⟨false,r.1,r.2⟩

def Ending.after (spec : Members) (s : State) (now : DateTime) : Ending → State
  | .silent => s
  | .failed exc confirmed =>
      ⟨mergePatch s.status (.obj (buildErrorStatus exc.text now)),s.confirmed + confirmed.toNat⟩
  | .planned dry => ⟨mergePatch s.status (.obj (dryStatus spec s.status dry now)),s.confirmed⟩
  | .applied hash result => ⟨mergePatch s.status (.obj
      (buildStatus result true (approvedPlanHash spec) (some hash) (some hash) now)),s.confirmed + 1⟩

theorem stepEnding (res : Resource) (s : State) (c : Call) :
    step res s c = (ending res s.status c).after res.spec s c.now := by
  unfold step ending
  cases res.attributes with
  | error _ => rfl
  | ok _ =>
    simp only [reconcileRedfishNodeProfile,reconcileProfile,planning]
    cases c.credentials with
    | error exc => rfl
    | ok _ =>
      cases endpointSpec res.spec with
      | error exc => rfl
      | ok endpoint =>
        cases c.manager with
        | error exc => rfl
        | ok _ =>
          cases dry : c.dry with
          | error exc =>
            simp [bind,andThen,Except.bind,Call.reconcileFunc,dry,Except.map,Ending.after]
          | ok d =>
            cases given : approval res.spec s.status
                (dryStatus res.spec s.status ⟨true,d.1,d.2⟩ c.now) with
            | none =>
              simp [bind,andThen,Except.bind,Call.reconcileFunc,dry,Except.map,Ending.after,given]
            | some hash =>
              cases apply : c.apply with
              | error exc =>
                simp [bind,andThen,Except.bind,Call.reconcileFunc,dry,apply,Except.map,Ending.after,
                  given]
              | ok r =>
                simp [bind,andThen,Except.bind,Call.reconcileFunc,dry,apply,Except.map,Ending.after,
                  given]

theorem errorDistinct (message : String) (now : DateTime) :
    AssocList.Distinct (buildErrorStatus message now) := by
  simp [AssocList.Distinct,AssocList.keys,buildErrorStatus]

theorem consumedFailed (status : Json) (message : String) (now : DateTime) :
    consumedPlanHash (mergePatch status (.obj (buildErrorStatus message now))) =
      consumedPlanHash status := by
  unfold consumedPlanHash getD
  rw [getMergePatch (errorDistinct message now)]
  simp [buildErrorStatus]

theorem consumedPlanned (spec : Members) (status : Json) (dry : ReconcileResult) (now : DateTime) :
    consumedPlanHash (mergePatch status (.obj (dryStatus spec status dry now))) =
      consumedPlanHash status := by
  have written : (dryStatus spec status dry now).lookup "consumedPlanHash" =
      (consumedPlanHash status).map fun hash => .str hash.text := by
    unfold dryStatus
    rw [statusConsumed]
    simp
  conv_lhs => unfold consumedPlanHash getD
  have distinct : AssocList.Distinct (dryStatus spec status dry now) := statusDistinct ..
  rw [getMergePatch distinct,written]
  cases consumed : consumedPlanHash status with
  | none => exact consumed
  | some hash => simp

theorem consumedApplied (status : Json) (result : ReconcileResult) (approved : Option PlanHash)
    (hash : PlanHash) (now : DateTime) :
    consumedPlanHash (mergePatch status (.obj
      (buildStatus result true approved (some hash) (some hash) now))) = some hash := by
  unfold consumedPlanHash getD
  rw [getMergePatch (statusDistinct ..),statusConsumed]
  simp [currentPlanHash]

def Confirms (res : Resource) (status : Json) (c : Call) : Prop :=
  (∃ u, res.attributes = .ok u) ∧ ∃ dry hash, planning res.spec c = .ok dry ∧
    approval res.spec status (dryStatus res.spec status dry c.now) = some hash

def Returns (res : Resource) (s : State) (c : Call) : Prop :=
  Confirms res s.status c → ∃ r, c.apply = .ok r

variable {res : Resource} {s : State} {c : Call}

theorem returnsEnding : Returns res s c ↔ ∀ exc, ending res s.status c ≠ .failed exc true := by
  unfold Returns Confirms ending
  cases res.attributes with
  | error _ => simp
  | ok u =>
    cases planning res.spec c with
    | error _ => simp
    | ok dry =>
      cases given : approval res.spec s.status (dryStatus res.spec s.status dry c.now) with
      | none => simp [given]
      | some hash => cases c.apply <;> simp [given]

def Spent (res : Resource) (s : State) : Prop :=
  s.confirmed = 0 ∨ s.confirmed = 1 ∧
    ∃ hash, approvedPlanHash res.spec = some hash ∧ consumedPlanHash s.status = some hash

theorem endingApplied {res status c hash result} (ended : ending res status c = .applied hash result) :
    approvedPlanHash res.spec = some hash ∧ consumedPlanHash status ≠ some hash := by
  unfold ending at ended
  split at ended <;> try contradiction
  split at ended <;> try contradiction
  rename_i given _
  cases ended
  exact (approvalSome.mp given).2

theorem spentStep (spent : Spent res s)
    (returns : Returns res s c) : Spent res (step res s c) := by
  rw [stepEnding]
  cases ended : ending res s.status c with
  | silent => exact spent
  | failed exc confirmed =>
    cases confirmed with
    | true => exact absurd ended (returnsEnding.mp returns exc)
    | false => simpa [Ending.after,Spent,consumedFailed] using spent
  | planned dry => simpa [Ending.after,Spent,consumedPlanned] using spent
  | applied hash result =>
    obtain ⟨approved,fresh⟩ := endingApplied ended
    rcases spent with unused | ⟨_,other,same,consumed⟩
    · exact .inr ⟨by simp [Ending.after,unused],hash,approved,consumedApplied ..⟩
    · cases same.symm.trans approved
      exact absurd consumed fresh

theorem endingBroken {exc} (ended : ending res s.status c = .failed exc true) :
    ending res (step res s c).status c = .failed exc true := by
  have kept : consumedPlanHash (step res s c).status = consumedPlanHash s.status := by
    rw [stepEnding,ended]
    exact consumedFailed ..
  have same (dry : ReconcileResult) :
      approval res.spec (step res s c).status (dryStatus res.spec (step res s c).status dry c.now) =
        approval res.spec s.status (dryStatus res.spec s.status dry c.now) := by
    simp [approval,dryStatus,kept]
  unfold ending at ended ⊢
  simp only [same]
  exact ended

theorem brokenRepeats (broken : ¬ Returns res s c) :
    (run (step res) s [c,c]).confirmed = s.confirmed + 2 := by
  simp only [returnsEnding,not_forall,not_not] at broken
  obtain ⟨exc,ended⟩ := broken
  have again := endingBroken ended
  rw [runCons,runCons,stepEnding res (step res s c),again,stepEnding,ended]
  rfl

theorem confirmsAtMostOnce (res : Resource) :
    (∀ (status : Json) (calls : List Call),
      Guarded (step res) (Returns res) ⟨status,0⟩ calls →
        (run (step res) ⟨status,0⟩ calls).confirmed ≤ 1) ∧
    (∀ (s : State) (c : Call), ¬ Returns res s c →
      (run (step res) s [c,c]).confirmed = s.confirmed + 2) := by
  refine ⟨?_,fun s c broken => brokenRepeats broken⟩
  intro status calls returned
  have spent : Spent res (run (step res) ⟨status,0⟩ calls) :=
    guardedInvariant (fun _ _ => spentStep) (.inl rfl) returned
  rcases spent with none | ⟨one,_⟩ <;> omega

def approving (hash : PlanHash) : Resource :=
  ⟨[("endpoint",.obj [("address",.str "bmc")]),("approvedPlanHash",.str hash.text)],.ok ()⟩

def restart : List ReconcileStep := [⟨.reboot,true,"Host reset On",[]⟩]

def restarting (apply : Except PyError (List ReconcileStep × List AppliedChange)) : Call :=
  ⟨.ok (),.ok (),.ok (restart,[]),apply,0⟩

theorem restartConfirms {hash} (hashed : planHash (restart.map plannedStep) = some hash) (apply) :
    Confirms (approving hash) (.obj []) (restarting apply) := by
  refine ⟨⟨(),rfl⟩,⟨true,restart,[]⟩,hash,rfl,approvalSome.mpr ⟨hashed,hashTextStr hash,?_⟩⟩
  simp [consumedPlanHash,hashText,getD]

theorem confirmsAtMostOnceApplied : ∃ hash, planHash (restart.map plannedStep) = some hash ∧
    Confirms (approving hash) (.obj []) (restarting (.ok (restart,[]))) ∧
    (run (step (approving hash)) ⟨.obj [],0⟩ (List.replicate 2 (restarting (.ok (restart,[]))))).confirmed
      ≤ 1 := by
  obtain ⟨hash,hashed⟩ := Option.isSome_iff_exists.mp ((planHashSome restart).trans (by decide))
  exact ⟨hash,hashed,restartConfirms hashed _,(confirmsAtMostOnce (approving hash)).1 _ _
    ⟨fun _ => ⟨_,rfl⟩,⟨fun _ => ⟨_,rfl⟩,trivial⟩⟩⟩

theorem confirmsTwice : ∃ hash, planHash (restart.map plannedStep) = some hash ∧
    (run (step (approving hash)) ⟨.obj [],0⟩
      (List.replicate 2 (restarting (.error (.redfishApiError "busy"))))).confirmed = 2 := by
  obtain ⟨hash,hashed⟩ := Option.isSome_iff_exists.mp ((planHashSome restart).trans (by decide))
  refine ⟨hash,hashed,brokenRepeats fun returns => ?_⟩
  obtain ⟨r,impossible⟩ := returns (restartConfirms hashed _)
  simp [restarting] at impossible

end RedfishCtl.NodeProfile
