import RedfishCtl.PyText
import RedfishCtl.Traced

/-! Desired-state reconciliation over a manager, which is what it answers to each invocation of one
pass. A pass reads the device, plans one step per configured part and, when confirmed, applies the
required ones. -/
namespace RedfishCtl.Reconcile
open PyText (strip str)

abbrev Members := List (String × Json)

structure DesiredState where
  biosProfile : Option String
  ntpServers : List String
  ntpManagerId : Option String
  bootDevice : Option String
  bootMode : Option String
  uefiTarget : Option String
  resetType : Option String
  deriving DecidableEq, Repr

def first (mapping : Members) (keys : List String) : Json :=
  (keys.findSome? fun key => mapping.lookup key).getD .null

def nonempty (text : String) : Option String := if text = "" then none else some text

def optionalStr : Json → Option String
  | .null => none
  | value => nonempty (strip (str value))

def splitComma (text : String) : List String := (text.toList.splitOn ',').map String.ofList

def strTuple : Json → Except PyError (List String)
  | .null => .ok []
  | .str text => .ok ((splitComma text).filterMap fun raw => nonempty (strip raw))
  | .arr items => .ok (items.filterMap fun raw => nonempty (strip (str raw)))
  | .obj m => .ok (m.filterMap fun p => nonempty (strip p.1))
  | .bool _ => .error (.typeError "'bool' object is not iterable")
  | .int _ => .error (.typeError "'int' object is not iterable")
  | .float _ => .error (.typeError "'float' object is not iterable")

def resetTypeError : PyError := .valueError "reboot.resetType must be an explicit string"

def resetType (rebootSpec : Json) : Except PyError (Option String) :=
  match rebootSpec with
  | .str _ => .ok (optionalStr rebootSpec)
  | .bool true => .error resetTypeError
  | .bool false => .ok none
  | _ => match first rebootSpec.members ["resetType","reset_type"] with
      | .null => .ok none
      | .str text => .ok (optionalStr (.str text))
      | _ => .error resetTypeError

def fromMapping (spec : Members) : Except PyError DesiredState := do
  let ntp := ((spec.lookup "ntp").getD .null).members
  let boot := ((spec.lookup "boot").getD .null).members
  let own := first ntp ["servers"]
  let servers ← strTuple (if own.truthy then own else first spec ["ntpServers","ntp_servers"])
  let reset ← resetType ((spec.lookup "reboot").getD .null)
  .ok ⟨optionalStr (first spec ["biosProfile","bios_profile"]),servers,
    optionalStr (first ntp ["manager","managerId","manager_id"]),
    optionalStr (first boot ["device"]),optionalStr (first boot ["mode"]),
    optionalStr (first boot ["uefiTarget","uefi_target"]),reset⟩

inductive Kind where
  | biosProfile
  | ntp
  | boot
  | reboot
  deriving DecidableEq, Repr

def Kind.name : Kind → String
  | .biosProfile => "bios-profile"
  | .ntp => "ntp"
  | .boot => "boot"
  | .reboot => "reboot"

structure ReconcileStep where
  kind : Kind
  required : Bool
  description : String
  preview : Members
  deriving DecidableEq, Repr

structure AppliedChange where
  kind : Kind
  changed : Bool
  result : Members
  deriving DecidableEq, Repr

structure ReconcileResult where
  dryRun : Bool
  steps : List ReconcileStep
  applied : List AppliedChange
  deriving DecidableEq, Repr

inductive Invocation where
  | biosProfileDiff (profileName : String)
  | biosProfileApply (profileName : String) (confirm dryRun : Bool)
  | managerNetwork
  | ntpSet (servers : List String) (managerId : Option String) (confirm : Bool)
  | currentBootQuery
  | bootOneShot (device mode uefiTarget : Option String) (doReboot : Bool)
  | reboot (resetType : String) (dryRun doWait doAsync : Bool)
  deriving DecidableEq, Repr

def Invocation.mutates : Invocation → Option Kind
  | .biosProfileApply _ _ _ => some .biosProfile
  | .ntpSet _ _ true => some .ntp
  | .bootOneShot _ _ _ _ => some .boot
  | .reboot _ false _ _ => some .reboot
  | _ => none

inductive Answer where
  | raised (exc : PyError)
  | result (error data : Json)
  deriving DecidableEq, Repr

abbrev Manager := Invocation → Answer

abbrev Pass := Traced Invocation PyError

def dataOf : Answer → Except PyError Json
  | .raised exc => .error exc
  | .result error data => if error.truthy then .error (.redfishApiError (str error)) else .ok data

def invokeData (m : Manager) (i : Invocation) : Pass Json := Traced.issue i (dataOf (m i))

def invokeMapping (m : Manager) (i : Invocation) : Pass Members := do
  let data ← invokeData m i
  pure data.members

def mappingRows : Json → List Members
  | .arr items => items.filterMap fun row => match row with
      | .obj m => some m
      | _ => none
  | _ => []

def invokeRows (m : Manager) (i : Invocation) : Pass (List Members) := do
  let data ← invokeData m i
  pure (mappingRows data)

def get (m : Members) (key : String) : Json := (m.lookup key).getD .null

def ntpRowIsCapable (ntp : Members) : Bool :=
  get ntp "ProtocolEnabled" ≠ .null || (get ntp "NTPServers").truthy

def ntpRowsMatch (state : DesiredState) : Bool → List Members → Except PyError Bool
  | comparable, [] => .ok comparable
  | comparable, row::rest =>
      let pinned := state.ntpManagerId.bind nonempty
      if pinned.isSome ∧ optionalStr (get row "Manager") ≠ pinned then
        ntpRowsMatch state comparable rest
      else
        let ntp := (get row "NTP").members
        if !ntpRowIsCapable ntp then
          if pinned.isSome then .ok false else ntpRowsMatch state comparable rest
        else if get ntp "ProtocolEnabled" ≠ .bool true then .ok false
        else do
          let servers ← strTuple (get ntp "NTPServers")
          if servers ≠ state.ntpServers then .ok false else ntpRowsMatch state true rest

def ntpAlreadyMatches (rows : List Members) (state : DesiredState) : Except PyError Bool :=
  ntpRowsMatch state false rows

def bootAlreadyMatches (current : Members) (state : DesiredState) (device : String) : Bool :=
  get current "BootSourceOverrideEnabled" = .str (if device = "None" then "Disabled" else "Once") &&
  get current "BootSourceOverrideTarget" = .str device &&
  (match state.bootMode with
   | none => true
   | some mode => get current "BootSourceOverrideMode" = .str mode) &&
  (match state.uefiTarget with
   | none => true
   | some target => get current "UefiTargetBootSourceOverride" = .str target)

def optional (value : Option String) : Json := (value.map .str).getD .null

structure Stage where
  step : ReconcileStep
  applied : Option AppliedChange

/- A required step is applied when the pass is confirmed, and counts as changed whatever was
answered. -/
def applyRequired (m : Manager) (confirm : Bool) (step : ReconcileStep) (command : Invocation) :
    Pass Stage :=
  if confirm && step.required then do
    let result ← invokeMapping m command
    pure ⟨step,some ⟨step.kind,true,result⟩⟩
  else pure ⟨step,none⟩

def reconcileBiosProfile (m : Manager) (confirm : Bool) (profileName : String) : Pass Stage := do
  let diff ← invokeMapping m (.biosProfileDiff profileName)
  let required := !(get diff "matches").truthy
  applyRequired m confirm ⟨.biosProfile,required,"BIOS profile " ++ profileName,diff⟩
    (.biosProfileApply profileName true false)

def reconcileNtp (m : Manager) (state : DesiredState) (confirm : Bool) : Pass Stage := do
  let current ← invokeRows m .managerNetwork
  let same ← Traced.ofExcept (ntpAlreadyMatches current state)
  if same then
    pure ⟨⟨.ntp,false,"Manager NTP servers",
      [("servers",.arr (state.ntpServers.map .str)),("manager",optional state.ntpManagerId),
       ("current",.arr (current.map .obj))]⟩,none⟩
  else do
    let result ← invokeMapping m (.ntpSet state.ntpServers state.ntpManagerId confirm)
    let required := (get result "plan").truthy || (get result "applied").truthy
    pure ⟨⟨.ntp,required,"Manager NTP servers",result⟩,
      if confirm then some ⟨.ntp,(get result "applied").truthy,result⟩ else none⟩

def reconcileBoot (m : Manager) (state : DesiredState) (confirm : Bool) (device : String) :
    Pass Stage := do
  let current ← invokeMapping m .currentBootQuery
  let required := !bootAlreadyMatches current state device
  let preview : Members := [("device",.str device),("mode",optional state.bootMode),
    ("uefiTarget",optional state.uefiTarget),("current",.obj current)]
  applyRequired m confirm ⟨.boot,required,"One-time boot override",preview⟩
    (.bootOneShot (some device) state.bootMode state.uefiTarget false)

def reconcileReboot (m : Manager) (confirm waitForReboot asyncCall : Bool) (resetType : String) :
    Pass Stage := do
  let result ← invokeMapping m (.reboot resetType (!confirm) (waitForReboot && confirm) asyncCall)
  pure ⟨⟨.reboot,true,"Host reset " ++ resetType,result⟩,
    if confirm then some ⟨.reboot,true,result⟩ else none⟩

inductive Part where
  | biosProfile (profileName : String)
  | ntp
  | boot (device : String)
  | reboot (resetType : String)
  deriving DecidableEq, Repr

def Part.kind : Part → Kind
  | .biosProfile _ => .biosProfile
  | .ntp => .ntp
  | .boot _ => .boot
  | .reboot _ => .reboot

def parts (state : DesiredState) : List Part :=
  ((state.biosProfile.bind nonempty).map .biosProfile).toList ++
  (if state.ntpServers = [] then [] else [.ntp]) ++
  ((state.bootDevice.bind nonempty).map .boot).toList ++
  ((state.resetType.bind nonempty).map .reboot).toList

def stage (m : Manager) (state : DesiredState) (confirm waitForReboot asyncCall : Bool) :
    Part → Pass Stage
  | .biosProfile profileName => reconcileBiosProfile m confirm profileName
  | .ntp => reconcileNtp m state confirm
  | .boot device => reconcileBoot m state confirm device
  | .reboot resetType => reconcileReboot m confirm waitForReboot asyncCall resetType

def reconcileState (m : Manager) (state : DesiredState) (confirm waitForReboot asyncCall : Bool) :
    Pass ReconcileResult := do
  let stages ← Traced.sequence ((parts state).map (stage m state confirm waitForReboot asyncCall))
  pure ⟨!confirm,stages.map Stage.step,stages.filterMap Stage.applied⟩

inductive Desired where
  | state (s : DesiredState)
  | mapping (spec : Members)

def Desired.resolve : Desired → Except PyError DesiredState
  | .state s => .ok s
  | .mapping spec => fromMapping spec

def reconcile (m : Manager) (desired : Desired) (confirm waitForReboot asyncCall : Bool) :
    Pass ReconcileResult := do
  let state ← Traced.ofExcept desired.resolve
  reconcileState m state confirm waitForReboot asyncCall

end RedfishCtl.Reconcile
