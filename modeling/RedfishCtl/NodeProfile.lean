import RedfishCtl.Reconcile
import RedfishCtl.Rfc3339
import RedfishCtl.Sha256

/-! The node-profile controller: plan hashing, the status builders, the two-pass reconcile_profile
and the handler. A plan is approved by the SHA-256 of the canonical JSON of its required steps. -/
namespace RedfishCtl.NodeProfile
open PyText (str dumps)
open Rfc3339 (DateTime rfc3339)
open Reconcile (Members ReconcileStep AppliedChange ReconcileResult get)

def statusText : Option Bool → String
  | some true => "True"
  | some false => "False"
  | none => "Unknown"

def condition (type : String) (status : Option Bool) (reason message : String)
    (changedAt : DateTime) : Json :=
  .obj ([("type",.str type),("status",.str (statusText status)),("reason",.str reason),
    ("lastTransitionTime",.str (rfc3339 changedAt))] ++
    (if message ≠ "" then [("message",.str message)] else []))

def plannedStep (step : ReconcileStep) : Json :=
  .obj [("kind",.str step.kind.name),("required",.bool step.required),
    ("description",.str step.description),("preview",.obj step.preview)]

def appliedChange (change : AppliedChange) : Json :=
  .obj [("kind",.str change.kind.name),("changed",.bool change.changed),
    ("result",.obj change.result)]

/- A hash that is present, and so not empty: the source tests its truth value. -/
structure PlanHash where
  text : String
  present : text ≠ ""
  deriving DecidableEq, Repr

def PlanHash.ofText (text : String) : Option PlanHash :=
  if present : text = "" then none else some ⟨text,present⟩

def planHash (plannedSteps : List Json) : Option PlanHash :=
  match plannedSteps.filter fun step => (step.getD "required").truthy with
  | [] => none
  | required => some ⟨Sha256.hexdigest (dumps (.arr required)).toUTF8.toList,
      Sha256.hexdigestNonempty _⟩

def approvalReason (approved : Bool) (current approvedHash consumed : Option PlanHash) : String :=
  if approved then "Approved"
  else if current.isSome ∧ consumed = current then "ApprovalConsumed"
  else if approvedHash.isSome ∧ approvedHash ≠ current then "ApprovalHashMismatch"
  else "ApprovalRequired"

def currentPlanHash (planHashValue : Option PlanHash) (plannedSteps : List Json) :
    Option PlanHash :=
  match planHashValue with
  | some value => some value
  | none => planHash plannedSteps

def buildStatus (result : ReconcileResult) (approved : Bool)
    (approvedPlanHash planHashValue consumedPlanHash : Option PlanHash) (observedAt : DateTime) :
    Members :=
  let plannedSteps := result.steps.map plannedStep
  let appliedChanges := result.applied.map appliedChange
  let current := currentPlanHash planHashValue plannedSteps
  let consumed := if approved ∧ current.isSome then current else consumedPlanHash
  let drift := result.steps.any ReconcileStep.required
  let changed := result.applied.any AppliedChange.changed
  let appliedReason := if changed then "Applied" else if approved then "NoChanges" else "DryRun"
  [("dryRun",.bool result.dryRun),("drift",.bool drift),("plannedSteps",.arr plannedSteps),
   ("appliedChanges",.arr appliedChanges),
   ("conditions",.arr
     [condition "Approved" (some approved)
        (approvalReason approved current approvedPlanHash consumedPlanHash) "" observedAt,
      condition "DriftDetected" (some drift) (if drift then "PlanRequiresChanges" else "InSync")
        "" observedAt,
      condition "Applied" (some (changed && approved)) appliedReason "" observedAt,
      condition "Ready" (some true) "ReconciliationSucceeded" "" observedAt]),
   ("lastReconciled",.str (rfc3339 observedAt))] ++
  (current.map fun hash => ("planHash",.str hash.text)).toList ++
  (consumed.map fun hash => ("consumedPlanHash",.str hash.text)).toList

def buildErrorStatus (message : String) (observedAt : DateTime) : Members :=
  [("dryRun",.bool true),("drift",.null),("plannedSteps",.arr []),("appliedChanges",.arr []),
   ("conditions",.arr
     [condition "ReconcileAvailable" (some false) "BackendUnavailable" message observedAt,
      condition "Ready" (some false) "BackendUnavailable" message observedAt]),
   ("lastReconciled",.str (rfc3339 observedAt))]

def endpointSpec (spec : Members) : Except PyError Members :=
  match (get spec "endpoint").members with
  | [] => .error (.valueError "RedfishNodeProfile spec.endpoint is required")
  | endpoint => .ok endpoint

def hashText (value : Json) : Option PlanHash :=
  if value.truthy then PlanHash.ofText (str value) else none

def approvedPlanHash (spec : Members) : Option PlanHash := hashText (get spec "approvedPlanHash")

def consumedPlanHash (status : Json) : Option PlanHash := hashText (status.getD "consumedPlanHash")

def dryStatus (spec : Members) (status : Json) (dry : ReconcileResult) (now : DateTime) : Members :=
  buildStatus dry false (approvedPlanHash spec) none (consumedPlanHash status) now

def approval (spec : Members) (status : Json) (planned : Members) : Option PlanHash :=
  (hashText (get planned "planHash")).filter fun hash =>
    approvedPlanHash spec = some hash ∧ consumedPlanHash status ≠ some hash

abbrev ReconcileFunc (ι : Type) := (confirm waitForReboot : Bool) → Traced ι PyError ReconcileResult

def reconcileProfile {ι : Type} (spec : Members) (currentStatus : Json)
    (manager : Except PyError Unit) (reconcileFunc : ReconcileFunc ι) (now : DateTime) :
    Traced ι PyError Members := do
  let _ ← Traced.ofExcept (endpointSpec spec)
  let _ ← Traced.ofExcept manager
  let dry ← reconcileFunc false false
  let planned := dryStatus spec currentStatus dry now
  match approval spec currentStatus planned with
  | none => pure planned
  | some hash => do
      let result ← reconcileFunc true (get spec "waitForReboot").truthy
      pure (buildStatus result true (approvedPlanHash spec) (some hash) (some hash) now)

/- The patch of one handler call; every exception of the body becomes an error status. -/
def reconcileRedfishNodeProfile {ι : Type} (spec : Members) (currentStatus : Json)
    (credentials manager : Except PyError Unit) (reconcileFunc : ReconcileFunc ι)
    (now : DateTime) : List ι × Members :=
  let body : Traced ι PyError Members := do
    let _ ← Traced.ofExcept credentials
    reconcileProfile spec currentStatus manager reconcileFunc now
  (body.issued,match body.result with
    | .ok status => status
    | .error exc => buildErrorStatus exc.text now)

@[simp] theorem hashTextStr (hash : PlanHash) : hashText (.str hash.text) = some hash := by
  have present : (Json.str hash.text).truthy = true := by simpa [Json.truthy] using hash.present
  simp [hashText,present,str,PlanHash.ofText,hash.present]

theorem plannedRequired (step : ReconcileStep) :
    ((plannedStep step).getD "required").truthy = step.required := by
  simp [plannedStep,Json.getD]

def anyRequired (plannedSteps : List Json) : Bool :=
  plannedSteps.any fun step => (step.getD "required").truthy

theorem anyRequiredPlanned (steps : List ReconcileStep) :
    anyRequired (steps.map plannedStep) = steps.any ReconcileStep.required := by
  unfold anyRequired
  rw [List.any_map]
  exact congrArg (List.any steps) (funext plannedRequired)

theorem planHashPresent (plannedSteps : List Json) :
    (planHash plannedSteps).isSome = anyRequired plannedSteps := by
  unfold planHash anyRequired
  cases required : plannedSteps.filter fun step => (step.getD "required").truthy with
  | nil => simpa using required
  | cons step rest =>
    have mem : step ∈ plannedSteps.filter fun step => (step.getD "required").truthy := by
      simp [required]
    obtain ⟨inside,needed⟩ := List.mem_filter.mp mem
    simpa using ⟨step,inside,needed⟩

theorem planHashSome (steps : List ReconcileStep) :
    (planHash (steps.map plannedStep)).isSome = steps.any ReconcileStep.required := by
  rw [planHashPresent,anyRequiredPlanned]

section
variable (result : ReconcileResult) (approved : Bool) (approvedHash value consumed : Option PlanHash)
  (now : DateTime)

theorem statusDistinct :
    AssocList.Distinct (buildStatus result approved approvedHash value consumed now) := by
  simp only [AssocList.Distinct,AssocList.keys,buildStatus,List.map_append]
  generalize currentPlanHash value (result.steps.map plannedStep) = current
  generalize (if approved = true ∧ current.isSome = true then current else consumed) = kept
  cases current <;> cases kept <;> simp

theorem statusPlanHash : (buildStatus result approved approvedHash value consumed now).lookup
    "planHash" = (currentPlanHash value (result.steps.map plannedStep)).map
      fun hash => .str hash.text := by
  simp only [buildStatus]
  generalize currentPlanHash value (result.steps.map plannedStep) = current
  generalize (if approved = true ∧ current.isSome = true then current else consumed) = kept
  cases current <;> cases kept <;> simp

theorem statusConsumed : (buildStatus result approved approvedHash value consumed now).lookup
    "consumedPlanHash" =
      (if approved ∧ (currentPlanHash value (result.steps.map plannedStep)).isSome then
        currentPlanHash value (result.steps.map plannedStep) else consumed).map
          fun hash => .str hash.text := by
  simp only [buildStatus]
  generalize currentPlanHash value (result.steps.map plannedStep) = current
  generalize (if approved = true ∧ current.isSome = true then current else consumed) = kept
  cases current <;> cases kept <;> simp

theorem statusSteps : (buildStatus result approved approvedHash value consumed now).lookup
    "plannedSteps" = some (.arr (result.steps.map plannedStep)) := by
  simp [buildStatus]

theorem statusDryRun : (buildStatus result approved approvedHash value consumed now).lookup
    "dryRun" = some (.bool result.dryRun) := by
  simp [buildStatus]

end

theorem approvalSome {spec status dry now hash} :
    approval spec status (dryStatus spec status dry now) = some hash ↔
      planHash (dry.steps.map plannedStep) = some hash ∧ approvedPlanHash spec = some hash ∧
        consumedPlanHash status ≠ some hash := by
  have current : hashText (get (dryStatus spec status dry now) "planHash") =
      planHash (dry.steps.map plannedStep) := by
    unfold dryStatus Reconcile.get
    rw [statusPlanHash]
    simp only [currentPlanHash]
    cases planHash (dry.steps.map plannedStep) with
    | none => rfl
    | some hash => simp
  unfold approval
  rw [current]
  simp

end RedfishCtl.NodeProfile
