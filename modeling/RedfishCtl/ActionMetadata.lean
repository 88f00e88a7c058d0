import RedfishCtl.ActionGuard

/-! What a payload is checked against. The target may come from the full type, but the allowable
values always come from the action that the short-name map keeps. -/
namespace RedfishCtl.Actions
open Stateful (okOfBind)

def annotations (m : Members) : Members := (m.foldl addArg none).getD []

def shortEntries (resource : Json) : Members := entriesOf (resource.getD "Actions").members

def shortAnnotations (resource : Json) (short : String) : Members :=
  match lastNamed short (shortEntries resource) with
  | some (_,.obj m) => if (m.lookup "target").isSome then annotations m else []
  | _ => []

/- The object of the posted action: the last with a target under the full type, or else the last
with the short name. -/
def postedObject (resource : Json) (call : Call) : Option Members :=
  match call.fullActionType.bind fun full =>
    if full = "" then none else offered full (advertised resource) with
  | some (m,_) => some m
  | none => match lastNamed call.actionName (shortEntries resource) with
      | some (_,.obj m) => some m
      | _ => none

def SameAllowed (p q : List (String × List Json)) : Prop :=
  ∀ name, (p.lookup name).isSome = (q.lookup name).isSome ∧
    ∀ v, v ∈ (p.lookup name).getD [] ↔ v ∈ (q.lookup name).getD []

def SameAnnotations (args own : Members) : Prop :=
  match allowances args, allowances own with
  | .ok p, .ok q => SameAllowed p q
  | .error _, .error _ => True
  | _, _ => False

def SameChecks (x y : Except PyError Parameters) : Prop :=
  match x, y with
  | .ok p, .ok q => p.strictNames = q.strictNames ∧ SameAllowed p.allowed q.allowed
  | .error _, .error _ => True
  | _, _ => False

@[simp] theorem allowancesNil : allowances [] = .ok [] := rfl

theorem allowancesFirst {first rest p} (read : allowances (first::rest) = .ok p) :
    (p.lookup first.1).isSome = true := by
  obtain ⟨allowed,-,read⟩ := okOfBind read
  obtain ⟨others,-,same⟩ := okOfBind read
  cases same
  simp

theorem sameChecksAnnotations (env : Environment) (full : String) (args own : Members) :
    SameChecks (parametersFor env full args) (parametersFor env full own) ↔
      SameAnnotations args own := by
  cases args with
  | nil =>
    cases own with
    | nil => simp [SameChecks,SameAnnotations,parametersFor,SameAllowed]
    | cons first rest =>
      cases read : allowances (first::rest) with
      | error e => simp [SameChecks,SameAnnotations,parametersFor,read,Except.map]
      | ok q =>
        have listed := allowancesFirst read
        have differs : ¬ SameAllowed [] q := fun same => by simp [← (same first.1).1] at listed
        simp [SameChecks,SameAnnotations,parametersFor,read,Except.map,differs]
  | cons first rest =>
    cases own with
    | nil =>
      cases read : allowances (first::rest) with
      | error e => simp [SameChecks,SameAnnotations,parametersFor,read,Except.map]
      | ok p =>
        have listed := allowancesFirst read
        have differs : ¬ SameAllowed p [] := fun same => by simp [(same first.1).1] at listed
        simp [SameChecks,SameAnnotations,parametersFor,read,Except.map,differs]
    | cons first' rest' =>
      simp only [SameChecks,SameAnnotations,parametersFor]
      cases allowances (first::rest) <;> cases allowances (first'::rest') <;> simp [Except.map]

variable {actions : List (String × RedfishAction)}

theorem discoverEachLookup {map} (distinct : AssocList.Distinct map)
    (read : discoverEach map = .ok actions) (short : String) :
    match map.lookup short with
    | none => actions.lookup short = none
    | some (full,value) => ∃ here, discoverAction short full value = .ok here ∧
        actions.lookup short = here := by
  induction map generalizing actions with
  | nil =>
    cases read
    rfl
  | cons first rest ih =>
    obtain ⟨name,full,value⟩ := first
    obtain ⟨here,one,read⟩ := okOfBind read
    obtain ⟨others,later,read⟩ := okOfBind read
    have fresh := (List.nodup_cons.mp distinct).1
    have tail := ih (List.nodup_cons.mp distinct).2 later
    rw [AssocList.lookupCons]
    by_cases same : short = name
    · subst same
      rw [AssocList.lookupNone.mpr fresh] at tail
      rw [if_pos rfl]
      refine ⟨here,one,?_⟩
      cases here with
      | none =>
        cases read
        exact tail
      | some action =>
        cases read
        simp
    · rw [if_neg same]
      cases here with
      | none =>
        cases read
        exact tail
      | some action =>
        cases read
        rw [AssocList.lookupCons,if_neg same]
        exact tail

theorem inlineShort {resource} (read : discoverRedfishActions resource = .ok actions)
    (short : String) : inlineArgs (actions.lookup short) = shortAnnotations resource short := by
  obtain ⟨map,kept,read⟩ := okOfBind read
  have same := getActionsKept kept
  have distinct : AssocList.Distinct map := same ▸ keptDistinct _ (by decide)
  have each := discoverEachLookup distinct read short
  have last : map.lookup short = lastNamed short (shortEntries resource) := by
    rw [same,lookupKept]
    simp [shortEntries]
  rw [last] at each
  unfold shortAnnotations
  cases found : lastNamed short (shortEntries resource) with
  | none =>
    rw [found] at each
    simp [each,inlineArgs]
  | some entry =>
    obtain ⟨full,value⟩ := entry
    rw [found] at each
    obtain ⟨here,one,there⟩ := each
    rw [there]
    cases here with
    | some action =>
      obtain ⟨m,target,rfl,given,rfl⟩ := discoverActionSome one
      simp [inlineArgs,given,annotations]
    | none =>
      cases value with
      | obj m =>
        cases given : m.lookup "target" with
        | none => simp only [given,inlineArgs,Option.bind_none,Option.getD_none,Option.isSome_none,
            Bool.false_eq_true,if_false]
        | some target =>
          simp only [discoverAction,isIn,bind,Except.bind,given] at one
          cases one
      | _ => rfl

theorem postedOwn {resource target full call} (read : discoverRedfishActions resource = .ok actions)
    (resolved : resolve resource actions call = .ok (some (full,target))) :
    ∃ own, postedObject resource call = some own ∧ own.lookup "target" = some target ∧
      ((full,.obj own) ∈ advertised resource ∨ (full,.obj own) ∈ shortEntries resource) := by
  unfold postedObject
  obtain typed | ⟨absent,short⟩ := resolveCases resolved
  · obtain ⟨given,m,offer⟩ := byFullTypeSome typed
    obtain ⟨inside,found,-⟩ := offeredMem offer
    have named : full ≠ "" := by
      intro empty
      simp [byFullType,given,empty] at typed
    simp only [given,Option.bind_some,if_neg named,offer]
    exact ⟨m,rfl,found,.inl inside⟩
  · obtain ⟨m,last,found,-⟩ := byShortNameSome read short
    have untyped : (call.fullActionType.bind fun full =>
        if full = "" then none else offered full (advertised resource)) = none := by
      cases given : call.fullActionType with
      | none => rfl
      | some type =>
        by_cases named : type = ""
        · simp [named]
        · simp [byFullTypeNone given named absent]
    rw [untyped]
    simp only [shortEntries,last]
    exact ⟨m,rfl,found,.inr (lastNamedMem last).1⟩

/- The payload is checked against the posted action's own annotations, or the schema of its type
when it has none, exactly when the action kept under the short name has the same annotations. -/
theorem checkedAgainstOwn (env : Environment) {resource target : Json}
    {actions : List (String × RedfishAction)} {full : String} {call : Call}
    (read : discoverRedfishActions resource = .ok actions)
    (resolved : resolve resource actions call = .ok (some (full,target))) :
    ∃ own, postedObject resource call = some own ∧ own.lookup "target" = some target ∧
      ((full,.obj own) ∈ advertised resource ∨ (full,.obj own) ∈ shortEntries resource) ∧
      (SameChecks (parametersFor env full (inlineArgs (actions.lookup call.actionName)))
          (parametersFor env full (annotations own)) ↔
        SameAnnotations (shortAnnotations resource call.actionName) (annotations own)) := by
  obtain ⟨own,posted,found,inside⟩ := postedOwn read resolved
  refine ⟨own,posted,found,inside,?_⟩
  rw [inlineShort read]
  exact sameChecksAnnotations env full _ _

def defaultsObject (target value : String) : Members :=
  [("target",.str target),("ResetType@Redfish.AllowableValues",.arr [.str value])]
def sharedName (value : String) : Json :=
  .obj [("Actions",.obj [("#Manager.ResetToDefaults",.obj (defaultsObject "/Manager" "ResetAll")),
    ("Oem",.obj [("#NvidiaManager.ResetToDefaults",.obj (defaultsObject "/Nvidia" value))])])]

def defaultsCall : Call :=
  ⟨"/redfish/v1/Managers/1","ResetToDefaults",some [("ResetType",.str "ResetAll")],
    some "#Manager.ResetToDefaults",false,202,false,true,true⟩

theorem checkedAgainstOwnShared :
    ∃ own, postedObject (sharedName "ResetAll") defaultsCall = some own ∧
      own.lookup "target" = some (.str "/Manager") ∧
      (("#Manager.ResetToDefaults",.obj own) ∈ advertised (sharedName "ResetAll") ∨
        ("#Manager.ResetToDefaults",.obj own) ∈ shortEntries (sharedName "ResetAll")) ∧
      (SameChecks (parametersFor plainEnvironment "#Manager.ResetToDefaults"
          [("ResetType",.arr [.str "ResetAll"])])
          (parametersFor plainEnvironment "#Manager.ResetToDefaults" (annotations own)) ↔
        SameAnnotations (shortAnnotations (sharedName "ResetAll") "ResetToDefaults")
          (annotations own)) := by
  let kept : RedfishAction := ⟨"ResetToDefaults","#NvidiaManager.ResetToDefaults",.str "/Nvidia",
    some [("ResetType",.arr [.str "ResetAll"])]⟩
  have read : discoverRedfishActions (sharedName "ResetAll") = .ok [("ResetToDefaults",kept)] := by
    decide +kernel
  have resolved : resolve (sharedName "ResetAll") [("ResetToDefaults",kept)] defaultsCall =
      .ok (some ("#Manager.ResetToDefaults",.str "/Manager")) := by decide +kernel
  exact checkedAgainstOwn plainEnvironment read resolved

theorem checkedAgainstOther :
    let out := invokeAction plainEnvironment acceptingService (.ok (sharedName "Nvidia")) defaultsCall
    out.issued = [] ∧ out.result.map CommandResult.error = .ok (.str
      "invalid value for Manager.ResetToDefaults ResetType: ResetAll; allowed: Nvidia") := by
  decide +kernel

end RedfishCtl.Actions
