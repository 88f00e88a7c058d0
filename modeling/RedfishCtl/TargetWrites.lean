import RedfishCtl.GenericWrite
import RedfishCtl.JsonAccess

/-! `ntp-set`, `dns-set` and `serial-console --enable`: each discovers its targets, previews the
PATCHes, and sends them one after the other once it is confirmed. -/
namespace RedfishCtl.TargetWrites
open DellWrite (ApiRespond Raised RedfishError Response lastSegment)
open JsonAccess
open Actions (isIn noAttribute)

structure Patch where
  target : Json
  payload : Json
  deriving DecidableEq

/- The URI of the managed system, the Managers, the documents, and the response to each PATCH by
number and content. -/
structure Bmc where
  manageServers : Except PyError String
  managers : Except PyError Json
  query : Json → Except PyError Json
  answer : ℕ → Patch → Except PyError Response

inductive Failure where
  | python (e : PyError)
  | write (e : Raised)

inductive WritePath where
  | generic
  | dell
  deriving DecidableEq, Repr

abbrev Answer := DellWrite.CommandResult × ApiRespond

def WritePath.respond (path : WritePath) (expected : Int) (r : Response) : Except Raised Answer :=
  match path with
  | .generic => GenericWrite.baseRequestRespond r (some 0)
  | .dell => DellWrite.baseRequestRespond .patch false r (some expected) (some 0)

def basePatch (path : WritePath) (expected : Int) (answer : Except PyError Response) :
    Except Failure Answer :=
  match answer with
  | .error e => .error (.python e)
  | .ok r => (path.respond expected r).mapError .write

def patchEach (answer : ℕ → Patch → Except Failure Answer) :
    ℕ → List Patch → Traced Patch Failure (List Answer)
  | _,[] => pure []
  | i,p::rest => do
      let a ← Traced.issue p (answer i p)
      let others ← patchEach answer (i + 1) rest
      pure (a::others)

def memberIds : Json → List String
  | .arr items => items.filterMap memberId
  | _ => []

def discoverManagerIds (bmc : Bmc) : Except PyError (List String) := bmc.managers.map memberIds

def bestEffort (bmc : Bmc) (uri : Json) : Json :=
  match bmc.query uri with
  | .ok data => orEmpty data
  | .error _ => .obj []

def Values.given : Values → Bool
  | .none => false
  | .text value => value ≠ ""
  | .each values => !values.isEmpty

def splitServers (raw : List Json) : List String :=
  raw.flatMap fun value => ((Actions.split ',' (PyText.str value)).map PyText.strip).filter (· ≠ "")

def maxServers : Nat := 4

def normalizeServers (required tooMany : String) (servers : Values) (clear : Bool) :
    Except PyError (List String) :=
  if clear then
    if Values.given servers then .error (invalidArgument "--clear cannot be used with --server")
    else .ok []
  else
    let normalized := match servers with
      | .none => []
      | .text value => splitServers [.str value]
      | .each values => splitServers values
    if normalized = [] then .error (invalidArgument required)
    else if maxServers < normalized.length then .error (invalidArgument tooMany)
    else .ok normalized

def normalizeDnsServers : Values → Bool → Except PyError (List String) :=
  normalizeServers "at least one DNS server is required" "StaticNameServers supports at most 4 servers"

def isAlphanumeric (c : Char) : Bool := DellWrite.isAlphanumeric c

/- `[A-Za-z0-9](?:[A-Za-z0-9-]{0,61}[A-Za-z0-9])?`. -/
def isHostLabel (label : List Char) : Bool :=
  label.head?.any isAlphanumeric && label.getLast?.any isAlphanumeric &&
    label.all (fun c => isAlphanumeric c || c = '-') && label.length ≤ 63

/- `ipAddress` is the parser of the library. -/
def isPlausibleNtpServer (ipAddress : String → Bool) (server : String) : Bool :=
  let hostname := if server.toList.getLast? = some '.' then server.toList.dropLast else server.toList
  server ≠ "" && !server.toList.any PyText.isSpace && !server.toList.contains '/' &&
    (ipAddress server || (hostname.length ≤ 253 && hostname ≠ [] &&
      (hostname.splitOn '.').all isHostLabel))

def normalizeNtpServers (ipAddress : String → Bool) (servers : Values) (clear : Bool) :
    Except PyError (List String) := do
  let normalized ← normalizeServers "at least one NTP server is required"
    "ManagerNetworkProtocol NTP supports at most 4 servers" servers clear
  match normalized.find? fun server => !isPlausibleNtpServer ipAddress server with
  | some server => .error (invalidArgument ("invalid NTP server: " ++ PyText.reprString server))
  | none => .ok normalized

structure Planned where
  manager : Json
  patch : Patch
  deriving DecidableEq

structure Skipped where
  manager : Json
  target : Json
  reason : String
  deriving DecidableEq

inductive Entry where
  | ignored
  | planned (p : Planned)
  | skipped (s : Skipped)

def nestedLink : Json → List String → Json
  | j,[] => j.getD "@odata.id"
  | .obj m,key::rest => nestedLink ((m.lookup key).getD .null) rest
  | _,_::_ => .null

def rstripSlash (uri : String) : String := String.ofList (PyText.dropEnd (· = '/') uri.toList)

def legacyNtpUri (manager : Json) (managerUri : String) : Except PyError Json := do
  let nested := nestedLink (orEmpty manager) ["Oem","Supermicro","NTP"]
  if nested.truthy then .ok nested
  else
    let oem ← get (orEmpty manager) "Oem"
    if oem.isObj && (oem.get? "Supermicro").isSome then .ok (.str (rstripSlash managerUri ++ "/NTP"))
    else .ok .null

def isLegacyNtpResource (data : Json) : Bool :=
  ["NTPEnable","PrimaryNTPServer","SecondaryNTPServer"].any fun key => (data.get? key).isSome

def legacyLimit : String := "legacy Manager NTP resources support at most 2 servers"

def legacyNtpPayload (servers : List String) : Json :=
  .obj (("NTPEnable",.bool !servers.isEmpty)::
    (servers[0]?.map fun s => ("PrimaryNTPServer",.str s)).toList ++
    (servers[1]?.map fun s => ("SecondaryNTPServer",.str s)).toList)

def ntpPayload (servers : List String) : Json :=
  .obj [("NTP",.obj (("NTPServers",.arr (servers.map .str))::
    if servers.isEmpty then [] else [("ProtocolEnabled",.bool true)]))]

def tryGet (bmc : Bmc) (uri : Json) : Json × Bool :=
  if uri.truthy then match bmc.query uri with
    | .ok data => (orEmpty data,true)
    | .error _ => (.obj [],false)
  else (.obj [],false)

def planLegacy (bmc : Bmc) (servers : List String) (manager id networkUri : Json)
    (managerUri : String) : Except PyError Entry := do
  let legacyUri ← legacyNtpUri manager managerUri
  let legacy := if legacyUri.truthy then bestEffort bmc legacyUri else .obj []
  if isLegacyNtpResource legacy then
    if 2 < servers.length then .ok (.skipped ⟨id,legacyUri,legacyLimit⟩)
    else .ok (.planned ⟨id,⟨legacyUri,legacyNtpPayload servers⟩⟩)
  else if networkUri.truthy then .ok (.skipped ⟨id,networkUri,"NTP block is not available"⟩)
  else .ok (.skipped ⟨id,legacyUri,"NTP resource is not available"⟩)

def planManager (bmc : Bmc) (servers : List String) (managerId : Option String)
    (managerUri : String) : Except PyError Entry := do
  let manager := bestEffort bmc (.str managerUri)
  let own ← get manager "Id"
  let id : Json := if own.truthy then own else .str (lastSegment managerUri)
  let networkUri ← link manager "NetworkProtocol"
  if managerId.any fun wanted => wanted ≠ "" ∧ id ≠ .str wanted then .ok .ignored
  else
    let (network,readable) := tryGet bmc networkUri
    if networkUri.truthy && !readable then
      .ok (.skipped ⟨id,networkUri,"NetworkProtocol resource is not readable"⟩)
    else
      let ntp ← get network "NTP"
      if ntp.isObj then .ok (.planned ⟨id,⟨networkUri,ntpPayload servers⟩⟩)
      else planLegacy bmc servers manager id networkUri managerUri

def planManagers (bmc : Bmc) (servers : List String) (managerId : Option String) :
    List String → Except PyError (List Entry)
  | [] => .ok []
  | uri::rest => do
      let entry ← planManager bmc servers managerId uri
      let others ← planManagers bmc servers managerId rest
      .ok (entry::others)

def Entry.plan? : Entry → Option Planned
  | .planned p => some p
  | _ => none

def Entry.skip? : Entry → Option Skipped
  | .skipped s => some s
  | _ => none

def ntpPlan (bmc : Bmc) (servers : List String) (managerId : Option String) :
    Except PyError (List Planned × List Skipped) := do
  let uris ← discoverManagerIds bmc
  let entries ← planManagers bmc servers managerId uris
  let plan := entries.filterMap Entry.plan?
  let skipped := entries.filterMap Entry.skip?
  if plan ≠ [] then .ok (plan,skipped)
  else match managerId.filter (· ≠ "") with
    | some wanted => .error (invalidArgument ("Manager " ++ PyText.reprString wanted ++
        " has no NTP-capable resource"))
    | none =>
        if skipped.any fun s => s.reason = legacyLimit then .error (invalidArgument legacyLimit)
        else .error (invalidArgument "no NTP-capable Manager resources found")

/- A target that was written: `manager` is null for an interface. -/
structure Applied where
  manager : Json
  target : Json
  status : ApiRespond
  error : Option RedfishError
  deriving DecidableEq

structure SerialStatus where
  system : String
  attr : Option String
  current : Json
  target : Option String
  sol : List (String × Json)
  deriving DecidableEq

structure SerialPlan where
  bios : Patch
  sol : List Patch
  solAlreadyEnabled : List String
  deriving DecidableEq

inductive Report where
  | ntpPreview (servers : List String) (plan : List Planned) (skipped : List Skipped)
  | ntpApplied (servers : List String) (applied : List Applied) (skipped : List Skipped)
  | dnsPreview (servers : List String) (targets : List Json)
  | dnsApplied (servers : List String) (applied : List Applied)
  | serialStatus (status : SerialStatus)
  | serialPreview (plan : SerialPlan) (status : SerialStatus)
  | serialApplied (bios : Json) (sol : List (Json × Json)) (plan : SerialPlan) (before : SerialStatus)
  deriving DecidableEq

structure CommandResult where
  data : Report
  error : Option String
  deriving DecidableEq

abbrev Writing := Traced Patch Failure CommandResult

def ofPython {α : Type} (x : Except PyError α) : Traced Patch Failure α :=
  Traced.ofExcept (x.mapError .python)

@[simp] theorem ofPythonOk {α β} (a : α) (f : α → Traced Patch Failure β) :
    ofPython (.ok a) >>= f = f a := rfl

@[simp] theorem ofPythonError {α β} (e : PyError) (f : α → Traced Patch Failure β) :
    ofPython (.error e) >>= f = ⟨[],.error (.python e)⟩ := rfl

def failureText (item : Applied) (error : RedfishError) : String :=
  PyText.str item.manager ++ " (" ++ item.status.text ++ "): " ++ GenericWrite.errorText error

def overallError (applied : List Applied) : Option String :=
  let failures := applied.filterMap fun item => item.error.map (failureText item)
  if failures = [] then none
  else some ("NTP PATCH failed on " ++ toString failures.length ++ "/" ++ toString applied.length ++
    " target(s): " ++ String.intercalate "; " failures)

def ntpSet (path : WritePath) (bmc : Bmc) (ipAddress : String → Bool) (servers : Values)
    (managerId : Option String) (clear confirm : Bool) : Writing := do
  let normalized ← ofPython (normalizeNtpServers ipAddress servers clear)
  let (plan,skipped) ← ofPython (ntpPlan bmc normalized managerId)
  if confirm then
    let answers ← patchEach (fun i p => basePatch path 200 (bmc.answer i p)) 0 (plan.map Planned.patch)
    let applied := List.zipWith (fun (item : Planned) (a : Answer) =>
      ⟨item.manager,item.patch.target,a.2,a.1.error⟩) plan answers
    pure ⟨.ntpApplied normalized applied skipped,overallError applied⟩
  else pure ⟨.ntpPreview normalized plan skipped,none⟩

def interfaceMembers (bmc : Bmc) (managerUri : String) : Except PyError (List Json) :=
  match bmc.query (.str managerUri) with
  | .error _ => .ok []
  | .ok data => do
      let interfaces ← get (orEmpty data) "EthernetInterfaces"
      let collection ← get (orEmpty interfaces) "@odata.id"
      if collection.truthy then
        match bmc.query collection >>= fun listed => getOr (orEmpty listed) "Members" (.arr []) with
        | .error _ => .ok []
        | .ok members => iterate members
      else .ok []

def linkedUris : List Json → Except PyError (List Json)
  | [] => .ok []
  | m::rest => do
      let present ← isIn "@odata.id" m
      let own ← if present then (item m "@odata.id").map some else .ok none
      let others ← linkedUris rest
      .ok (own.toList ++ others)

def interfaceUris (bmc : Bmc) : List String → Except PyError (List Json)
  | [] => .ok []
  | managerUri::rest => do
      let members ← interfaceMembers bmc managerUri
      let own ← linkedUris members
      let others ← interfaceUris bmc rest
      .ok (own ++ others)

def selectInterface (interfaceId : String) : List Json → Except PyError (List Json)
  | [] => .ok []
  | .str uri::rest => do
      let others ← selectInterface interfaceId rest
      .ok (if lastSegment (rstripSlash uri) = interfaceId then .str uri::others else others)
  | j::_ => .error (noAttribute j "rstrip")

def dnsTargets (bmc : Bmc) (interfaceId : Option String) : Except PyError (List Json) := do
  let managers ← discoverManagerIds bmc
  let uris ← interfaceUris bmc managers
  let targets ← match interfaceId.filter (· ≠ "") with
    | some id => selectInterface id uris
    | none => .ok uris
  if targets = [] then .error (invalidArgument "no Manager EthernetInterface resources found")
  else .ok targets

def dnsPatch (servers : List String) (target : Json) : Patch :=
  ⟨target,.obj [("StaticNameServers",.arr (servers.map .str))]⟩

def dnsSet (path : WritePath) (bmc : Bmc) (servers : Values) (interfaceId : Option String)
    (clear confirm : Bool) : Writing := do
  let normalized ← ofPython (normalizeDnsServers servers clear)
  let targets ← ofPython (dnsTargets bmc interfaceId)
  if confirm then
    let answers ← patchEach (fun i p => basePatch path 200 (bmc.answer i p)) 0
      (targets.map (dnsPatch normalized))
    let applied := List.zipWith (fun target (a : Answer) => ⟨.null,target,a.2,a.1.error⟩) targets answers
    pure ⟨.dnsApplied normalized applied,none⟩
  else pure ⟨.dnsPreview normalized targets,none⟩

def serialBiosEnable : List (String × String) :=
  [("SerialComm","OnConRedirCom2"),("SerialPortConfiguration","ConsoleEnabledSbsa")]

def mentions (name word : String) : Bool := decide (word.toList <:+: name.toLower.toList)

def knownAttr (biosAttrs : Json) : List String → Except PyError (Option String)
  | [] => .ok none
  | name::rest => do if ← isIn name biosAttrs then .ok (some name) else knownAttr biosAttrs rest

def serialAttr : List Json → Except PyError (Option String)
  | [] => .ok none
  | .str name::rest =>
      if mentions name "serial" && ["comm","console","port","redir"].any (mentions name) then
        .ok (some name)
      else serialAttr rest
  | j::_ => .error (noAttribute j "lower")

def resolveBiosAttr (biosAttrs : Json) (override : Option String) : Except PyError (Option String) :=
  match override.filter (· ≠ "") with
  | some name => .ok (some name)
  | none => do
      match ← knownAttr biosAttrs (AssocList.keys serialBiosEnable) with
      | some name => .ok (some name)
      | none =>
          let names ← iterate biosAttrs
          serialAttr names

structure SolState where
  manager : String
  uri : String
  serviceEnabled : Json

def solStates (bmc : Bmc) : List String → Except PyError (List SolState)
  | [] => .ok []
  | uri::rest => do
      let block ← get (bestEffort bmc (.str uri)) "SerialConsole"
      let others ← solStates bmc rest
      .ok (⟨lastSegment uri,uri,block.getD "ServiceEnabled"⟩::others)

def candidates (biosAttrs : Json) : Except PyError (List Json) := do
  let names ← iterate biosAttrs
  .ok (names.filter fun k => match k with
    | .str name => mentions name "serial" || mentions name "console"
    | _ => false)

def solPatch (uri : String) : Patch :=
  ⟨.str uri,.obj [("SerialConsole",.obj [("ServiceEnabled",.bool true)])]⟩

def serialState (bmc : Bmc) (biosAttr biosValue : Option String) :
    Except PyError (String × Json × List SolState × SerialStatus) := do
  let systemUri ← bmc.manageServers
  let bios := bestEffort bmc (.str (systemUri ++ "/Bios"))
  let biosAttrs := if bios.isObj then (bios.get? "Attributes").getD (.obj []) else .obj []
  let attr ← resolveBiosAttr biosAttrs biosAttr
  let current ← match attr with
    | some name => get biosAttrs name
    | none => .ok .null
  let target := (biosValue.filter (· ≠ "")).or (attr.bind fun name => serialBiosEnable.lookup name)
  let managers := match discoverManagerIds bmc with
    | .ok uris => uris
    | .error _ => []
  let sol ← solStates bmc managers
  .ok (systemUri,biosAttrs,sol,
    ⟨lastSegment systemUri,attr,current,target,sol.map fun s => (s.manager,s.serviceEnabled)⟩)

def serialPlan (systemUri : String) (biosAttrs : Json) (sol : List SolState)
    (status : SerialStatus) : Except PyError SerialPlan :=
  match status.attr,status.target with
  | none,_ => do
      let names ← candidates biosAttrs
      .error (invalidArgument ("could not discover a serial BIOS attribute; pass --bios_attr " ++
        "(candidates: " ++ PyText.repr (.arr names) ++ ")"))
  | some attr,none => .error (invalidArgument ("no known enable value for BIOS attribute " ++
      PyText.reprString attr ++ "; pass --bios_value"))
  | some attr,some value =>
      .ok ⟨⟨.str (systemUri ++ "/Bios/Settings"),.obj [("Attributes",.obj [(attr,.str value)])]⟩,
        (sol.filter fun s => s.serviceEnabled ≠ .bool true).map fun s => solPatch s.uri,
        (sol.filter fun s => s.serviceEnabled = .bool true).map SolState.manager⟩

def serialConsole (path : WritePath) (bmc : Bmc) (biosAttr biosValue : Option String)
    (enable confirm : Bool) : Writing := do
  let (systemUri,biosAttrs,sol,status) ← ofPython (serialState bmc biosAttr biosValue)
  if enable then
    let plan ← ofPython (serialPlan systemUri biosAttrs sol status)
    if confirm then
      let answer := fun i p => basePatch path 204 (bmc.answer i p)
      let bios ← Traced.issue plan.bios (answer 0 plan.bios)
      let answers ← patchEach answer 1 plan.sol
      let applied := List.zipWith (fun (p : Patch) (a : Answer) => (p.target,a.1.data)) plan.sol answers
      pure ⟨.serialApplied bios.1.data applied plan status,none⟩
    else pure ⟨.serialPreview plan status,none⟩
  else pure ⟨.serialStatus status,none⟩

end RedfishCtl.TargetWrites
