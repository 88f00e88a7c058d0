import RedfishCtl.DellWrite
import RedfishCtl.JsonAccess

/-! `volume-create` and `volume-delete`. Drives are looked up in the Storage resource of a
controller, and a volume in its Volumes collection, by an id or by a URI; both only write when
confirmed. -/
namespace RedfishCtl.Volumes
open AssocList
open DellWrite (ApiRespond)
open JsonAccess
open Actions (CommandResult Members)
open Stateful (okOfBind)

def lastSegment (uri : String) : String :=
  DellWrite.lastSegment (String.ofList (PyText.dropEnd (· = '/') uri.toList))

def asList : Values → List String
  | .none => []
  | .text value => [value]
  | .each values => values.map PyText.str

def advertisesRaidTypes (key : String) : Bool :=
  key = "SupportedRAIDTypes" || key = "RAIDType@Redfish.AllowableValues"

def advertised (members : Members) : List String :=
  (members.filter fun p => advertisesRaidTypes p.1).flatMap fun p => match p.2 with
    | .arr entries => entries.map PyText.str
    | _ => []

mutual
/- A stack takes the lists of a mapping before the values inside it, the last first. -/
def collectRaidTypes : Json → List String
  | .obj members => advertised members ++ collectInMembers members
  | .arr items => collectInItems items
  | _ => []
termination_by structural j => j
def collectInMembers : List (String × Json) → List String
  | [] => []
  | (_,.obj m)::rest => collectInMembers rest ++ (advertised m ++ collectInMembers m)
  | (k,.arr items)::rest =>
      collectInMembers rest ++ if advertisesRaidTypes k then [] else collectInItems items
  | _::rest => collectInMembers rest
termination_by structural m => m
def collectInItems : List Json → List String
  | [] => []
  | j::rest => collectInItems rest ++ collectRaidTypes j
termination_by structural items => items
end

def sorted (names : List String) : List String := names.insertionSort (· ≤ ·)

def collectSupportedRaidTypes (payload : Json) : List String :=
  sorted (collectRaidTypes payload).dedup

def buildVolumePayload (name raidType : String) (driveUris : List Json) : Json :=
  .obj [("Name",.str name),("RAIDType",.str raidType),
    ("Links",.obj [("Drives",.arr (driveUris.map fun uri => .obj [("@odata.id",uri)]))])]

structure VolumePost where
  target : String
  payload : Json
  deriving DecidableEq

/- The URIs of the managed system, the documents, plain or expanded, the actions of members, and the
answers to a POST and a DELETE with their error. -/
structure Bmc where
  manageServers : Except PyError String
  managedSystem : Except PyError String
  query : String → Bool → Except PyError Json
  memberActions : Json → Except PyError Unit
  post : VolumePost → Except PyError (Json × ApiRespond)
  delete : String → Except PyError (Json × ApiRespond)

def storageOf (bmc : Bmc) (controller : String) : Except PyError Json := do
  if controller = "" then .error (invalidArgument "provide --controller")
  else
    let servers ← bmc.manageServers
    let data ← bmc.query (servers ++ "/Storage/" ++ controller) false
    .ok (orEmpty data)

def volumesUri (storage : Json) (controller : String) : Except PyError String := do
  let volumes ← get storage "Volumes"
  match memberUri volumes with
  | some uri => .ok (PyText.str uri)
  | none => .error (.other "UnsupportedAction"
      ("Storage controller " ++ controller ++ " does not advertise a Volumes link"))

def notFound (kind name : String) (available : List String) : PyError :=
  invalidArgument (kind ++ " " ++ name ++ " not found, available " ++
    PyText.repr (.arr (available.map .str)))

def listedDrives (storage : Json) : Except PyError (List Json) := do
  let drives ← getOr storage "Drives" (.arr [])
  let members ← iterate drives
  .ok (members.filterMap memberUri)

def driveMap (uris : List Json) : Members :=
  uris.foldl (fun drives uri => insert (lastSegment (PyText.str uri)) uri drives) []

def resolveDrive (drives : Members) (drive : String) : Except PyError Json :=
  if isUri drive then .ok (.str drive)
  else match drives.lookup drive with
    | some uri => .ok uri
    | none => .error (notFound "Drive" drive (sorted (keys drives)))

def resolveDrives (drives : Members) : List String → Except PyError (List Json)
  | [] => .ok []
  | drive::rest => do
      let uri ← resolveDrive drives drive
      let others ← resolveDrives drives rest
      .ok (uri::others)

def resolveDriveUris (storage : Json) (drives : List String) : Except PyError (List Json) := do
  if drives = [] then .error (invalidArgument "provide at least one --drive")
  else
    let uris ← listedDrives storage
    resolveDrives (driveMap uris) drives

def previewCreate (post : VolumePost) : CommandResult :=
  ⟨.obj [("dry_run",.bool true),("action",.str "create"),("target",.str post.target),
    ("payload",post.payload),("hint",.str "re-run with --confirm to create the volume")],none,.null⟩

def planCreate (bmc : Bmc) (controller volumeName raidType : String) (drives : Values) :
    Except PyError VolumePost := do
  let storage ← storageOf bmc controller
  let target ← volumesUri storage controller
  let allowed := collectSupportedRaidTypes storage
  if allowed ≠ [] ∧ raidType ∉ allowed then
    .error (invalidArgument ("RAIDType " ++ raidType ++ " not supported, available " ++
      PyText.repr (.arr (allowed.map .str))))
  else
    let uris ← resolveDriveUris storage (asList drives)
    .ok ⟨target,buildVolumePayload volumeName raidType uris⟩

def volumeCreate (bmc : Bmc) (controller volumeName raidType : String) (drives : Values)
    (confirm dryRun : Bool) : Traced VolumePost PyError CommandResult := do
  let post ← Traced.ofExcept (planCreate bmc controller volumeName raidType drives)
  if dryRun || !confirm then pure (previewCreate post)
  else
    let (error,status) ← Traced.issue post (bmc.post post)
    pure ⟨.obj [("action",.str "create"),("target",.str post.target),("status",.str status.text),
      ("error",error)],none,error⟩

structure Volume where
  uri : String
  id : Option String
  deriving DecidableEq, Repr

def Volume.of (member : Json) : Option Volume :=
  (memberUri member).map fun uri =>
    ⟨PyText.str uri,((member.get? "Id").filter Json.truthy).map PyText.str⟩

def Volume.key (v : Volume) : String := v.id.getD (lastSegment v.uri)

def volumeCollection (bmc : Bmc) (controller : String) : Except PyError (List Volume) := do
  let system ← bmc.managedSystem
  let data ← bmc.query (system ++ "/Storage/" ++ controller ++ "/Volumes") true
  bmc.memberActions data
  let members ← getOr (orEmpty data) "Members" (.arr [])
  let items ← iterate members
  .ok (items.filterMap Volume.of)

def available (volumes : List Volume) : List (String × String) :=
  volumes.foldl (fun table v => insert v.uri v.uri (insert v.key v.uri table)) []

def ids (table : List (String × String)) : List String :=
  sorted ((keys table).filter fun key => !isUri key)

def resolveVolumeUri (bmc : Bmc) (controller volumeId : String) :
    Except PyError (String × String × List String) := do
  if volumeId = "" then .error (invalidArgument "provide --volume_id")
  else
    let volumes ← volumeCollection bmc controller
    match (available volumes).lookup volumeId with
    | some uri => .ok (uri,lastSegment uri,ids (available volumes))
    | none => .error (notFound "Volume" volumeId (ids (available volumes)))

def previewDelete (volumeId uri : String) : CommandResult :=
  ⟨.obj [("dry_run",.bool true),("action",.str "delete"),("target",.str volumeId),("uri",.str uri),
    ("hint",.str "re-run with --confirm and --confirm_volume_id to delete")],none,.null⟩

def volumeDelete (bmc : Bmc) (controller volumeId : String) (confirm : Bool)
    (confirmVolumeId : Option String) (dryRun : Bool) : Traced String PyError CommandResult := do
  let (uri,resolvedId,_) ← Traced.ofExcept (resolveVolumeUri bmc controller volumeId)
  if dryRun || !confirm then pure (previewDelete volumeId uri)
  else if confirmVolumeId ≠ some resolvedId then
    pure ⟨.null,none,.str ("confirm_volume_id must match " ++ resolvedId)⟩
  else
    let (error,status) ← Traced.issue uri (bmc.delete uri)
    pure ⟨.obj [("action",.str "delete"),("target",.str resolvedId),("uri",.str uri),
      ("status",.str status.text),("error",error)],none,error⟩

/- The link of a drive: its URI as given, or the one listed under its id. -/
def Linked (storage : Json) (drive : String) (uri : Json) : Prop :=
  (isUri drive = true ∧ uri = .str drive) ∨ (isUri drive = false ∧
    ∃ uris, listedDrives storage = .ok uris ∧ uri ∈ uris ∧ lastSegment (PyText.str uri) = drive)

def Volume.Answers (v : Volume) (value : String) : Prop := v.uri = value ∨ v.key = value

def Volume.Named (v : Volume) (value : String) : Prop :=
  v.uri = value ∨ v.id = some value ∨ lastSegment v.uri = value

def Apart (volumes : List Volume) : Prop :=
  ∀ v ∈ volumes, ∀ w ∈ volumes, ∀ value, v.Named value → w.Named value → v = w

structure Selected (volumes : List Volume) (volumeId uri : String) (v : Volume) : Prop where
  listed : v ∈ volumes
  same : v.uri = uri
  answers : v.Answers volumeId
  only : Apart volumes → ∀ w ∈ volumes, w.Named volumeId → w = v

theorem Volume.answersNamed {v : Volume} {value} (answers : v.Answers value) : v.Named value := by
  rcases answers with uri | key
  · exact .inl uri
  cases own : v.id with
  | none =>
    rw [Volume.key,own] at key
    exact .inr (.inr key)
  | some id =>
    rw [Volume.key,own] at key
    exact .inr (.inl (by rw [own]; exact congrArg some key))

variable {uris : List Json}

theorem driveMapMem {p} (mem : p ∈ driveMap uris) : p.2 ∈ uris ∧ lastSegment (PyText.str p.2) = p.1 := by
  induction uris using List.reverseRecOn with
  | nil => exact absurd mem List.not_mem_nil
  | append_singleton front last ih =>
    rw [driveMap,List.foldl_append,List.foldl_cons] at mem
    rcases insertMem mem with rfl | earlier
    · exact ⟨List.mem_append_right front List.mem_cons_self,rfl⟩
    · exact ⟨List.mem_append_left [last] (ih earlier).1,(ih earlier).2⟩

theorem resolveDriveLinked {storage uri drive} (listed : listedDrives storage = .ok uris)
    (done : resolveDrive (driveMap uris) drive = .ok uri) : Linked storage drive uri := by
  unfold resolveDrive at done
  cases form : isUri drive with
  | true =>
    rw [form] at done
    exact .inl ⟨form,(Except.ok.inj done).symm⟩
  | false =>
    rw [form] at done
    cases found : (driveMap uris).lookup drive with
    | none =>
      rw [found] at done
      cases done
    | some link =>
      rw [found] at done
      cases Except.ok.inj done
      obtain ⟨inside,segment⟩ := driveMapMem (lookupMem found)
      exact .inr ⟨form,uris,listed,inside,segment⟩

theorem resolveDrivesLinked {storage} (listed : listedDrives storage = .ok uris) {drives links}
    (done : resolveDrives (driveMap uris) drives = .ok links) :
    List.Forall₂ (Linked storage) drives links := by
  induction drives generalizing links with
  | nil =>
    cases Except.ok.inj done
    exact .nil
  | cons drive rest ih =>
    obtain ⟨uri,first,later⟩ := okOfBind done
    obtain ⟨others,resolved,last⟩ := okOfBind later
    cases Except.ok.inj last
    exact .cons (resolveDriveLinked listed first) (ih resolved)

theorem planCreateLinked {bmc controller volumeName raidType drives post}
    (planned : planCreate bmc controller volumeName raidType drives = .ok post) :
    ∃ storage links, storageOf bmc controller = .ok storage ∧
      post.payload = buildVolumePayload volumeName raidType links ∧
      List.Forall₂ (Linked storage) (asList drives) links := by
  obtain ⟨storage,read,later⟩ := okOfBind planned
  obtain ⟨target,-,checked⟩ := okOfBind later
  dsimp only at checked
  split at checked
  · cases checked
  obtain ⟨links,resolved,last⟩ := okOfBind checked
  cases Except.ok.inj last
  refine ⟨storage,links,read,rfl,?_⟩
  unfold resolveDriveUris at resolved
  split at resolved
  · cases resolved
  · obtain ⟨uris,listed,found⟩ := okOfBind resolved
    exact resolveDrivesLinked listed found

theorem availableMem {volumes p} (mem : p ∈ available volumes) :
    ∃ v ∈ volumes, v.uri = p.2 ∧ v.Answers p.1 := by
  induction volumes using List.reverseRecOn with
  | nil => exact absurd mem List.not_mem_nil
  | append_singleton front last ih =>
    rw [available,List.foldl_append,List.foldl_cons] at mem
    have own : last ∈ front ++ [last] := List.mem_append_right front List.mem_cons_self
    rcases insertMem mem with rfl | earlier
    · exact ⟨last,own,rfl,.inl rfl⟩
    · rcases insertMem earlier with rfl | earlier
      · exact ⟨last,own,rfl,.inr rfl⟩
      · obtain ⟨v,inside,same,answers⟩ := ih earlier
        exact ⟨v,List.mem_append_left [last] inside,same,answers⟩

theorem resolveVolumeSelected {bmc : Bmc} {controller volumeId found}
    (resolved : resolveVolumeUri bmc controller volumeId = .ok found) :
    found.2.1 = lastSegment found.1 ∧ ∃ volumes v, volumeCollection bmc controller = .ok volumes ∧
      Selected volumes volumeId found.1 v := by
  unfold resolveVolumeUri at resolved
  split at resolved
  · cases resolved
  obtain ⟨volumes,read,later⟩ := okOfBind resolved
  cases entry : (available volumes).lookup volumeId with
  | none =>
    rw [entry] at later
    cases later
  | some uri =>
    rw [entry] at later
    cases Except.ok.inj later
    obtain ⟨v,listed,same,answers⟩ := availableMem (lookupMem entry)
    refine ⟨rfl,volumes,v,read,listed,same,answers,fun apart w inside named => ?_⟩
    exact apart w inside v listed volumeId named (Volume.answersNamed answers)

section
variable {bmc : Bmc} {controller volumeName raidType volumeId : String} {drives : Values}
variable {confirmVolumeId : Option String} {dryRun : Bool}

theorem createPlanned {post}
    (sent : post ∈ (volumeCreate bmc controller volumeName raidType drives true dryRun).issued) :
    planCreate bmc controller volumeName raidType drives = .ok post := by
  unfold volumeCreate at sent
  cases planned : planCreate bmc controller volumeName raidType drives with
  | error e =>
    rw [planned] at sent
    exact absurd sent List.not_mem_nil
  | ok own =>
    rw [planned,Traced.ofExceptOk] at sent
    split at sent
    · exact absurd sent List.not_mem_nil
    · rw [Traced.mapIssued,Traced.issueIssued,List.mem_singleton] at sent
      rw [sent]

theorem deleteIssued : (volumeDelete bmc controller volumeId true confirmVolumeId dryRun).issued =
      match resolveVolumeUri bmc controller volumeId with
      | .ok (uri,resolvedId,_) =>
          if dryRun = false ∧ confirmVolumeId = some resolvedId then [uri] else []
      | .error _ => [] := by
  unfold volumeDelete
  cases resolveVolumeUri bmc controller volumeId with
  | error e => rfl
  | ok found =>
    obtain ⟨uri,resolvedId,names⟩ := found
    rw [Traced.ofExceptOk]
    cases dryRun with
    | true => rfl
    | false =>
      by_cases repeated : confirmVolumeId = some resolvedId
      · simp [repeated]
      · simp [repeated]

end

def sampleController : String := "/redfish/v1/Systems/1/Storage/A"

def linkTo (uri : String) : Json := .obj [("@odata.id",.str uri)]

def sampleBmc : Bmc where
  manageServers := .ok "/redfish/v1/Systems/1"
  managedSystem := .ok "/redfish/v1/Systems/1"
  query _ expanded :=
    if expanded then .ok (.obj [("Members",.arr [.obj [("Id",.str "os"),
      ("@odata.id",.str (sampleController ++ "/Volumes/V1"))]])])
    else .ok (.obj [("Drives",.arr [linkTo (sampleController ++ "/Drives/D0")]),
      ("Volumes",linkTo (sampleController ++ "/Volumes"))])
  memberActions _ := .ok ()
  post _ := .ok (.null,.created)
  delete _ := .ok (.null,.success)

end RedfishCtl.Volumes
