import RedfishCtl.NodeProfileRuns

/-! The stored plan and the stored hash. A patch names planHash only when it has one, so the hash of
an earlier plan outlives the plan whenever a later call reports no required step. -/
namespace RedfishCtl.NodeProfile
open Reconcile (Members ReconcileStep ReconcileResult)
open Runs

structure Coherent (status : Json) : Prop where
  present : (status.get? "planHash").isSome = true ↔
    ∃ steps, status.get? "plannedSteps" = some (.arr steps) ∧ anyRequired steps = true
  hashed : status.get? "dryRun" ≠ some (.bool false) → ∀ stored,
    status.get? "planHash" = some stored → ∃ steps hash,
      status.get? "plannedSteps" = some (.arr steps) ∧ planHash steps = some hash ∧
        stored = .str hash.text

def Keeps (res : Resource) (s : State) (c : Call) : Prop :=
  match ending res s.status c with
  | .silent => True
  | .failed _ _ => s.status.get? "planHash" = none
  | .planned dry => dry.steps.any ReconcileStep.required = false → s.status.get? "planHash" = none
  | .applied _ result => result.steps.any ReconcileStep.required = true

theorem coherentFailed (status : Json) (message : String) (now) :
    Coherent (Json.mergePatch status (.obj (buildErrorStatus message now))) ↔
      status.get? "planHash" = none := by
  have get := Json.getMergePatch (errorDistinct message now) status
  have hash : (Json.mergePatch status (.obj (buildErrorStatus message now))).get? "planHash" =
      status.get? "planHash" := by rw [get]; simp [buildErrorStatus]
  have steps : (Json.mergePatch status (.obj (buildErrorStatus message now))).get? "plannedSteps" =
      some (.arr []) := by rw [get]; simp [buildErrorStatus]
  constructor
  · intro coherent
    have absent := coherent.present
    rw [hash,steps] at absent
    simpa [anyRequired] using absent
  · intro none
    exact ⟨by simp [hash,steps,none,anyRequired],by simp [hash,none]⟩

section
variable (status : Json) (result : ReconcileResult) (approved : Bool)
  (approvedHash value consumed : Option PlanHash) (now : Rfc3339.DateTime)

def stored : Json :=
  Json.mergePatch status (.obj (buildStatus result approved approvedHash value consumed now))

theorem storedSteps : (stored status result approved approvedHash value consumed now).get?
    "plannedSteps" = some (.arr (result.steps.map plannedStep)) := by
  unfold stored
  rw [Json.getMergePatch (statusDistinct ..),statusSteps]
  simp

theorem storedDryRun : (stored status result approved approvedHash value consumed now).get?
    "dryRun" = some (.bool result.dryRun) := by
  unfold stored
  rw [Json.getMergePatch (statusDistinct ..),statusDryRun]
  simp

theorem storedHash : (stored status result approved approvedHash value consumed now).get?
    "planHash" = match currentPlanHash value (result.steps.map plannedStep) with
      | some hash => some (.str hash.text)
      | none => status.get? "planHash" := by
  unfold stored
  rw [Json.getMergePatch (statusDistinct ..),statusPlanHash]
  cases currentPlanHash value (result.steps.map plannedStep) <;> simp

end

theorem coherentPlanned (spec : Members) (status : Json) (dry : ReconcileResult) (now) :
    Coherent (Json.mergePatch status (.obj (dryStatus spec status dry now))) ↔
      (dry.steps.any ReconcileStep.required = false → status.get? "planHash" = none) := by
  have steps := storedSteps status dry false (approvedPlanHash spec) none (consumedPlanHash status) now
  have hash := storedHash status dry false (approvedPlanHash spec) none (consumedPlanHash status) now
  change Coherent (stored status dry false (approvedPlanHash spec) none (consumedPlanHash status) now) ↔ _
  have found := planHashSome dry.steps
  simp only [currentPlanHash] at hash
  cases planned : planHash (dry.steps.map plannedStep) with
  | none =>
    rw [planned] at hash found
    constructor
    · intro coherent _
      have absent := coherent.present
      rw [hash,steps] at absent
      simpa [anyRequiredPlanned,← found] using absent
    · intro absent
      have none := absent found.symm
      exact ⟨by simp [hash,none,steps,anyRequiredPlanned,← found],by simp [hash,none]⟩
  | some value =>
    rw [planned] at hash found
    refine ⟨fun _ inSync => by simp [← found] at inSync,fun _ => ?_⟩
    refine ⟨by simp [hash,steps,anyRequiredPlanned,← found],?_⟩
    intro _ h is
    rw [hash] at is
    exact ⟨_,value,steps,planned,(Option.some.inj is).symm⟩

theorem coherentApplied (status : Json) (result : ReconcileResult) (approved : Option PlanHash)
    (hash : PlanHash) (applied : result.dryRun = false) (now) :
    Coherent (Json.mergePatch status (.obj
      (buildStatus result true approved (some hash) (some hash) now))) ↔
      result.steps.any ReconcileStep.required = true := by
  have steps := storedSteps status result true approved (some hash) (some hash) now
  have present := storedHash status result true approved (some hash) (some hash) now
  have dryRun := storedDryRun status result true approved (some hash) (some hash) now
  change Coherent (stored status result true approved (some hash) (some hash) now) ↔ _
  simp only [currentPlanHash] at present
  constructor
  · intro coherent
    have listed := coherent.present
    rw [present,steps] at listed
    simpa [anyRequiredPlanned] using listed
  · intro required
    exact ⟨by simp [present,steps,anyRequiredPlanned,required],by simp [dryRun,applied]⟩

theorem coherentStep {res s} (c : Call) (coherent : Coherent s.status) :
    Coherent (step res s c).status ↔ Keeps res s c := by
  rw [stepEnding]
  unfold Keeps
  cases ended : ending res s.status c with
  | silent => exact ⟨fun _ => trivial,fun _ => coherent⟩
  | failed exc confirmed => exact coherentFailed ..
  | planned dry => exact coherentPlanned ..
  | applied hash result =>
    refine coherentApplied _ _ _ _ ?_ _
    unfold ending at ended
    split at ended <;> try contradiction
    split at ended <;> try contradiction
    cases ended
    rfl

theorem coherentEmpty : Coherent (.obj []) := ⟨by simp,by simp⟩

theorem coherentIff (res : Resource) (calls : List Call) :
    (∀ pre, pre <+: calls → Coherent (run (step res) ⟨.obj [],0⟩ pre).status) ↔
      Guarded (step res) (Keeps res) ⟨.obj [],0⟩ calls :=
  @throughoutGuarded State Call (step res) (Keeps res) ⟨.obj [],0⟩ calls (fun s => Coherent s.status)
    (fun _ c => coherentStep c) coherentEmpty

def unapproved : Resource := ⟨[("endpoint",.obj [("address",.str "bmc")])],.ok ()⟩

def unreadable : Call := ⟨.error (.other "ApiException" "(403)"),.ok (),.ok ([],[]),.ok ([],[]),0⟩

theorem incoherentAfterFailure :
    ¬ ∀ pre, pre <+: [restarting (.ok ([],[])),unreadable] →
      Coherent (run (step unapproved) ⟨.obj [],0⟩ pre).status := by
  intro throughout
  have plan : ending unapproved (.obj []) (restarting (.ok ([],[]))) = .planned ⟨true,restart,[]⟩ := by
    have ungiven : approval unapproved.spec (.obj [])
        (dryStatus unapproved.spec (.obj []) ⟨true,restart,[]⟩ 0) = none := by
      rw [Option.eq_none_iff_forall_ne_some]
      intro hash given
      have approves := (approvalSome.mp given).2.1
      simp [approvedPlanHash,unapproved,Reconcile.get,hashText] at approves
    have planned : planning unapproved.spec (restarting (.ok ([],[]))) = .ok ⟨true,restart,[]⟩ := rfl
    have attributes : unapproved.attributes = .ok () := rfl
    simp only [ending,attributes,planned]
    rw [show (restarting (.ok ([],[]))).now = 0 from rfl,ungiven]
  have first := throughout [restarting (.ok ([],[]))] (by simp)
  have second := throughout _ (List.prefix_refl _)
  rw [runCons,runNil] at first
  have kept : Keeps unapproved (step unapproved ⟨.obj [],0⟩ (restarting (.ok ([],[])))) unreadable :=
    (coherentStep unreadable first).mp second
  have lost : (step unapproved ⟨.obj [],0⟩ (restarting (.ok ([],[])))).status.get? "planHash" = none :=
    kept
  have needed := first.present
  rw [lost,stepEnding,plan] at needed
  have steps := storedSteps (.obj []) ⟨true,restart,[]⟩ false (approvedPlanHash unapproved.spec) none
    (consumedPlanHash (.obj [])) 0
  have found : (none : Option Json).isSome = true := needed.mpr ⟨_,steps,by decide⟩
  simp at found

end RedfishCtl.NodeProfile
