import RedfishCtl.Reconcile

/-! The invocations of a pass: each configured part is read once, and its mutating command is sent
only when confirmed and only when that part's own answers ask for the change. -/
namespace RedfishCtl.Reconcile
open Traced

@[simp] theorem mappingIssued (m : Manager) (i : Invocation) : (invokeMapping m i).issued = [i] := by
  simp [invokeMapping,invokeData]

@[simp] theorem rowsIssued (m : Manager) (i : Invocation) : (invokeRows m i).issued = [i] := by
  simp [invokeRows,invokeData]

variable {m : Manager} {i : Invocation}

theorem mappingData {data} (read : dataOf (m i) = .ok data) :
    (invokeMapping m i).result = .ok data.members := by
  simp [invokeMapping,invokeData,resultBind,read]

theorem mappingError {e} (failed : dataOf (m i) = .error e) : (invokeMapping m i).result = .error e := by
  simp [invokeMapping,invokeData,bind,andThen,failed]

theorem rowsData {data} (read : dataOf (m i) = .ok data) :
    (invokeRows m i).result = .ok (mappingRows data) := by
  simp [invokeRows,invokeData,resultBind,read]

theorem rowsError {e} (failed : dataOf (m i) = .error e) : (invokeRows m i).result = .error e := by
  simp [invokeRows,invokeData,bind,andThen,failed]

def drifted (m : Manager) (state : DesiredState) : Part → Bool
  | .biosProfile profileName => match dataOf (m (.biosProfileDiff profileName)) with
      | .ok data => !(get data.members "matches").truthy
      | .error _ => false
  | .ntp => match dataOf (m .managerNetwork) with
      | .ok data => ntpAlreadyMatches (mappingRows data) state = .ok false
      | .error _ => false
  | .boot device => match dataOf (m .currentBootQuery) with
      | .ok data => !bootAlreadyMatches data.members state device
      | .error _ => false
  | .reboot _ => true

def command (state : DesiredState) (wait async : Bool) : Part → Invocation
  | .biosProfile profileName => .biosProfileApply profileName true false
  | .ntp => .ntpSet state.ntpServers state.ntpManagerId true
  | .boot device => .bootOneShot (some device) state.bootMode state.uefiTarget false
  | .reboot resetType => .reboot resetType false wait async

def reads (m : Manager) (state : DesiredState) (confirm async : Bool) : Part → List Invocation
  | .biosProfile profileName => [.biosProfileDiff profileName]
  | .ntp => .managerNetwork :: if !confirm && drifted m state .ntp then
      [.ntpSet state.ntpServers state.ntpManagerId false] else []
  | .boot _ => [.currentBootQuery]
  | .reboot resetType => if confirm then [] else [.reboot resetType true false async]

section
variable (m : Manager) (state : DesiredState) (confirm wait async : Bool)

theorem applyRequiredIssued (step : ReconcileStep) (i : Invocation) :
    (applyRequired m confirm step i).issued = if confirm && step.required then [i] else [] := by
  unfold applyRequired
  split <;> simp

theorem stageIssued (part : Part) : (stage m state confirm wait async part).issued =
    reads m state confirm async part ++
      if confirm && drifted m state part then [command state wait async part] else [] := by
  cases part with
  | biosProfile profileName =>
    cases read : dataOf (m (.biosProfileDiff profileName)) with
    | error e =>
      rw [stage,reconcileBiosProfile,bindError (mappingError read)]
      simp [reads,drifted,read]
    | ok data =>
      rw [stage,reconcileBiosProfile,bindOk (mappingData read)]
      simp [reads,drifted,read,command,applyRequiredIssued]
  | ntp =>
    cases read : dataOf (m .managerNetwork) with
    | error e =>
      rw [stage,reconcileNtp,bindError (rowsError read)]
      simp [reads,drifted,read]
    | ok data =>
      rw [stage,reconcileNtp,bindOk (rowsData read)]
      cases compared : ntpAlreadyMatches (mappingRows data) state with
      | error e =>
        rw [bindError (by rw [ofExceptResult])]
        simp [reads,drifted,read,compared]
      | ok same =>
        rw [bindOk (by rw [ofExceptResult])]
        cases same <;> cases confirm <;> simp [reads,drifted,read,compared,command]
  | boot device =>
    cases read : dataOf (m .currentBootQuery) with
    | error e =>
      rw [stage,reconcileBoot,bindError (mappingError read)]
      simp [reads,drifted,read]
    | ok data =>
      rw [stage,reconcileBoot,bindOk (mappingData read)]
      simp [reads,drifted,read,command,applyRequiredIssued]
  | reboot resetType =>
    cases confirm <;> simp [stage,reconcileReboot,reads,drifted,command]

theorem commandMutates (part : Part) :
    (command state wait async part).mutates = some part.kind := by
  cases part <;> rfl

variable {m state confirm wait async}

theorem readsOnly {part i} (read : i ∈ reads m state confirm async part) : i.mutates = none := by
  cases part with
  | biosProfile profileName => cases List.mem_singleton.mp read; rfl
  | ntp =>
    rcases List.mem_cons.mp read with rfl | read
    · rfl
    · split at read
      · cases List.mem_singleton.mp read; rfl
      · simp at read
  | boot device => cases List.mem_singleton.mp read; rfl
  | reboot resetType =>
    cases confirm with
    | true => simp [reads] at read
    | false => cases List.mem_singleton.mp read; rfl

theorem stageMutates {part i kind} :
    (i ∈ (stage m state confirm wait async part).issued ∧ i.mutates = some kind) ↔
      confirm = true ∧ drifted m state part = true ∧ i = command state wait async part ∧
        kind = part.kind := by
  rw [stageIssued,List.mem_append]
  constructor
  · rintro ⟨read | sent,mutates⟩
    · simp [readsOnly read] at mutates
    split at sent
    · rename_i both
      rw [Bool.and_eq_true] at both
      cases List.mem_singleton.mp sent
      rw [commandMutates,Option.some.injEq] at mutates
      exact ⟨both.1,both.2,rfl,mutates.symm⟩
    · simp at sent
  · rintro ⟨confirmed,drift,rfl,rfl⟩
    exact ⟨.inr (by simp [confirmed,drift]),commandMutates ..⟩

def order : List Kind := [.biosProfile,.ntp,.boot,.reboot]

theorem partsOrdered (state : DesiredState) : ((parts state).map Part.kind).Sublist order := by
  unfold parts
  simp only [List.map_append]
  change List.Sublist _ ([Kind.biosProfile] ++ [.ntp] ++ [.boot] ++ [.reboot])
  refine List.Sublist.append (List.Sublist.append (List.Sublist.append ?_ ?_) ?_) ?_
  · cases state.biosProfile.bind nonempty <;> simp [Part.kind]
  · split <;> simp [Part.kind]
  · cases state.bootDevice.bind nonempty <;> simp [Part.kind]
  · cases state.resetType.bind nonempty <;> simp [Part.kind]

theorem reconcileStateIssued : (reconcileState m state confirm wait async).issued =
    (Traced.sequence ((parts state).map (stage m state confirm wait async))).issued := by
  simp [reconcileState]

/- One pass asks nothing twice, so what a manager answers is a function of the invocation. -/

end
end RedfishCtl.Reconcile
