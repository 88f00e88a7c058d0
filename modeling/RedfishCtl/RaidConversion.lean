import RedfishCtl.DellWrite
import RedfishCtl.JsonAccess

/-! `storage-convert-raid` and `storage-convert-noraid`: the drives of a controller are sorted by
the RAID status of their documents, and the ids that the exclude list leaves are posted. -/
namespace RedfishCtl.RaidConversion
open AssocList
open Actions (isIn noAttribute)
open JsonAccess (getOr item)
open DellWrite (lastSegment)
open Stateful (okOfBind)

abbrev Members := List (String × Json)

mutual
def findIds (key : String) : Json → List Json
  | .obj members => findInMembers key members
  | _ => []
termination_by structural j => j
def findInMembers (key : String) : List (String × Json) → List Json
  | [] => []
  | (k,.obj m)::rest =>
      findInMembers key m ++ (if k = key then [.obj m] else []) ++ findInMembers key rest
  | (_,.arr items)::rest => findInItems key items ++ findInMembers key rest
  | (k,.null)::rest => (if k = key then [.null] else []) ++ findInMembers key rest
  | (k,.bool b)::rest => (if k = key then [.bool b] else []) ++ findInMembers key rest
  | (k,.int n)::rest => (if k = key then [.int n] else []) ++ findInMembers key rest
  | (k,.float x)::rest => (if k = key then [.float x] else []) ++ findInMembers key rest
  | (k,.str s)::rest => (if k = key then [.str s] else []) ++ findInMembers key rest
termination_by structural m => m
def findInItems (key : String) : List Json → List Json
  | [] => []
  | j::rest => findIds key j ++ findInItems key rest
termination_by structural items => items
end

def mentions (name key : String) : Bool := decide (name.toLower.toList <:+: key.toLower.toList)

def filterByKeys (members : Members) (name : String) : Members :=
  members.filter fun p => mentions name p.1

inductive DiskKind where
  | nonRaid
  | raid
  | other
  deriving DecidableEq, Repr

def diskKind (document : Json) : Except PyError DiskKind := do
  if ← isIn "Oem" document then
    let oem ← item document "Oem"
    if ← isIn "Dell" oem then
      let dell ← item oem "Dell"
      let disk ← getOr dell "DellPhysicalDisk" (.obj [])
      let raidStatus ← getOr disk "RaidStatus" (.str "")
      if ← isIn "NonRAID" raidStatus then .ok .nonRaid else .ok .raid
    else .ok .other
  else .ok .other

structure Bmc where
  document : String → Except PyError Json
  manageServers : Except PyError String
  post : String → List String → Except PyError Json

structure Post where
  target : String
  pdArray : List String
  deriving DecidableEq, Repr

def driveKind (bmc : Bmc) (uri : String) : Except PyError DiskKind := bmc.document uri >>= diskKind

def diskIdOf : Json → Except PyError (String × String)
  | .str uri => .ok (uri,lastSegment uri)
  | j => .error (noAttribute j "split")

def sortDisks (bmc : Bmc) : List Json → Except PyError (List (String × DiskKind))
  | [] => .ok []
  | link::rest => do
      let (uri,diskId) ← diskIdOf link
      let kind ← driveKind bmc uri
      let others ← sortDisks bmc rest
      .ok ((diskId,kind)::others)

def ofKind (kind : DiskKind) (disks : List (String × DiskKind)) : List String :=
  (disks.filter fun d => d.2 = kind).map Prod.fst

def kept (exclude : String) (ids : List String) : List String :=
  ids.filter fun x => decide (¬ x.toList <:+: exclude.toList)

def raidService (bmc : Bmc) (action : String) : Except PyError String :=
  bmc.manageServers.map fun uri =>
    "/redfish/v1/Dell/Systems/" ++ lastSegment uri ++ "/DellRaidService/Actions/DellRaidService." ++ action

def send (bmc : Bmc) (post : Post) : Traced Post PyError Json :=
  Traced.issue post (bmc.post post.target post.pdArray)

def allNoneRaid : Json := .obj [("Status",.str "all disk are none raid")]

def prepare (bmc : Bmc) (storage : Members) (action : String) :
    Except PyError (List (String × DiskKind) × String) := do
  let disks ← sortDisks bmc (findIds "@odata.id" (.obj (filterByKeys storage "Drives")))
  let target ← raidService bmc action
  .ok (disks,target)

/- `ConvertToRaid.execute` for a Storage resource: the list is tested before the exclusion. -/
def convertToRaid (bmc : Bmc) (storage : Members) (exclude : String) : Traced Post PyError Json := do
  let (disks,target) ← Traced.ofExcept (prepare bmc storage "ConvertToRAID")
  if ofKind .nonRaid disks ≠ [] then send bmc ⟨target,kept exclude (ofKind .nonRaid disks)⟩
  else pure allNoneRaid

/- `ConvertNoneRaid.execute`: the list is tested after the exclusion. -/
def convertNoneRaid (bmc : Bmc) (storage : Members) (exclude : String) : Traced Post PyError Json := do
  let (disks,target) ← Traced.ofExcept (prepare bmc storage "ConvertToNonRAID")
  if kept exclude (ofKind .raid disks) ≠ [] then send bmc ⟨target,kept exclude (ofKind .raid disks)⟩
  else pure allNoneRaid

def linkOf (link : Json) : Option String :=
  match link.get? "@odata.id" with
  | some (.str uri) => some uri
  | _ => none

def drives (storage : Members) : List String :=
  match storage.lookup "Drives" with
  | some (.arr items) => items.filterMap linkOf
  | _ => []

def visited (storage : Members) : List Json := findIds "@odata.id" (.obj (filterByKeys storage "Drives"))

def uriOf : Json → Option String
  | .str uri => some uri
  | _ => none

def visitedUris (storage : Members) : List String := (visited storage).filterMap uriOf

section
variable {key : String}

theorem findInCons (p : String × Json) (rest : Members) :
    findInMembers key (p::rest) = findInMembers key [p] ++ findInMembers key rest := by
  obtain ⟨k,v⟩ := p
  cases v with
  | _ => simp [findInMembers]

theorem memFindMember {members p j} (mem : p ∈ members) (found : j ∈ findInMembers key [p]) :
    j ∈ findInMembers key members := by
  induction members with
  | nil => exact absurd mem List.not_mem_nil
  | cons q rest ih =>
    rw [findInCons]
    rcases List.mem_cons.mp mem with rfl | later
    · exact List.mem_append_left _ found
    · exact List.mem_append_right _ (ih later)

theorem memFindItem {items link j} (mem : link ∈ items) (found : j ∈ findIds key link) :
    j ∈ findInItems key items := by
  induction items with
  | nil => exact absurd mem List.not_mem_nil
  | cons first rest ih =>
    rcases List.mem_cons.mp mem with rfl | later
    · exact List.mem_append_left _ found
    · exact List.mem_append_right _ (ih later)

theorem memFindLink {link uri} (has : linkOf link = some uri) : .str uri ∈ findIds "@odata.id" link := by
  unfold linkOf at has
  split at has
  · rename_i read
    cases has
    cases link with
    | obj m =>
      exact memFindMember (lookupMem read) (by simp [findInMembers])
    | _ => cases read
  · cases has

end

variable {storage : Members} {uri : String}

theorem drivesVisited (mem : uri ∈ drives storage) : uri ∈ visitedUris storage := by
  refine List.mem_filterMap.mpr ⟨.str uri,?_,rfl⟩
  unfold drives at mem
  split at mem
  · rename_i items has
    obtain ⟨link,inside,linked⟩ := List.mem_filterMap.mp mem
    have kept : ("Drives",.arr items) ∈ filterByKeys storage "Drives" :=
      List.mem_filter.mpr ⟨lookupMem has,show mentions "Drives" "Drives" = true by decide +kernel⟩
    refine memFindMember kept ?_
    exact List.mem_append_left _ (memFindItem inside (memFindLink linked))
  · exact absurd mem List.not_mem_nil

def entries (exclude : String) : List String :=
  ((Actions.split ',' exclude).map PyText.strip).filter (· ≠ "")

def candidates (bmc : Bmc) (kind : DiskKind) (uris : List String) : List String :=
  (uris.filter fun uri => driveKind bmc uri = .ok kind).map lastSegment

variable {bmc : Bmc} {id : String}

theorem memCandidates {kind uris} :
    id ∈ candidates bmc kind uris ↔
      ∃ uri ∈ uris, driveKind bmc uri = .ok kind ∧ lastSegment uri = id := by
  simp [candidates,and_assoc]

def requested (bmc : Bmc) (storage : Members) (kind : DiskKind) (exclude : String) : List String :=
  (candidates bmc kind (drives storage)).filter fun id => decide (id ∉ entries exclude)

variable {exclude : String}

theorem memRequested {kind} :
    id ∈ requested bmc storage kind exclude ↔
      id ∈ candidates bmc kind (drives storage) ∧ id ∉ entries exclude := by
  simp [requested]

theorem memKept {ids} : id ∈ kept exclude ids ↔ id ∈ ids ∧ ¬ id.toList <:+: exclude.toList := by
  simp [kept]

inductive Conversion where
  | toRaid
  | toNonRaid
  deriving DecidableEq, Repr

namespace Conversion

def wanted : Conversion → DiskKind
  | .toRaid => .nonRaid
  | .toNonRaid => .raid

def execute : Conversion → Bmc → Members → String → Traced Post PyError Json
  | .toRaid => convertToRaid
  | .toNonRaid => convertNoneRaid

def tested (c : Conversion) (exclude : String) (ids : List String) : List String :=
  match c with
  | .toRaid => ids
  | .toNonRaid => kept exclude ids

end Conversion

def Readable (bmc : Bmc) (storage : Members) : Prop :=
  (∃ uri, bmc.manageServers = .ok uri) ∧
    ∀ link ∈ visited storage, ∃ uri kind, link = .str uri ∧ driveKind bmc uri = .ok kind

theorem sortCons {rest} :
    sortDisks bmc (.str uri::rest) = (do
      let kind ← driveKind bmc uri
      let others ← sortDisks bmc rest
      .ok ((lastSegment uri,kind)::others)) := rfl

theorem candidatesCons {rest here} (known : driveKind bmc uri = .ok here) (kind : DiskKind) :
    candidates bmc kind (uri::rest) =
      (if here = kind then [lastSegment uri] else []) ++ candidates bmc kind rest := by
  unfold candidates
  rw [List.filter_cons,known]
  by_cases same : here = kind
  · subst same
    simp
  · simp [same]

theorem diskIdRead {link p} (read : diskIdOf link = .ok p) : ∃ uri, link = .str uri := by
  cases link with
  | str uri => exact ⟨uri,rfl⟩
  | _ => cases read

theorem sortRead {links disks} (sorted : sortDisks bmc links = .ok disks) :
    (∀ link ∈ links, ∃ uri kind, link = .str uri ∧ driveKind bmc uri = .ok kind) ∧
      ∀ kind, ofKind kind disks = candidates bmc kind (links.filterMap uriOf) := by
  induction links generalizing disks with
  | nil =>
    cases sorted
    exact ⟨fun uri mem => absurd mem List.not_mem_nil,fun _ => rfl⟩
  | cons link rest ih =>
    obtain ⟨_,read,_⟩ := okOfBind sorted
    obtain ⟨uri,rfl⟩ := diskIdRead read
    rw [sortCons] at sorted
    obtain ⟨here,known,later⟩ := okOfBind sorted
    obtain ⟨others,tail,last⟩ := okOfBind later
    cases Except.ok.inj last
    obtain ⟨reads,same⟩ := ih tail
    refine ⟨fun link mem => ?_,fun kind => ?_⟩
    · rcases List.mem_cons.mp mem with rfl | mem
      · exact ⟨uri,here,rfl,known⟩
      · exact reads link mem
    have visit : (Json.str uri::rest).filterMap uriOf = uri::rest.filterMap uriOf := rfl
    rw [visit,candidatesCons known,← same]
    by_cases equal : here = kind
    · simp [ofKind,equal]
    · simp [ofKind,equal]

theorem sortComplete {links}
    (all : ∀ link ∈ links, ∃ uri kind, link = .str uri ∧ driveKind bmc uri = .ok kind) :
    ∃ disks, sortDisks bmc links = .ok disks := by
  induction links with
  | nil => exact ⟨[],rfl⟩
  | cons link rest ih =>
    obtain ⟨uri,kind,rfl,known⟩ := all link List.mem_cons_self
    obtain ⟨others,tail⟩ := ih fun u mem => all u (List.mem_cons_of_mem _ mem)
    refine ⟨(lastSegment uri,kind)::others,?_⟩
    rw [sortCons,known,tail]
    rfl

theorem prepareReadable (readable : Readable bmc storage)
    (action : String) : ∃ disks target, prepare bmc storage action = .ok (disks,target) ∧
      ∀ kind, ofKind kind disks = candidates bmc kind (visitedUris storage) := by
  obtain ⟨⟨uri,manages⟩,all⟩ := readable
  obtain ⟨disks,sorted⟩ := sortComplete all
  obtain ⟨target,service⟩ : ∃ target, raidService bmc action = .ok target := by
    rw [raidService,manages]
    exact ⟨_,rfl⟩
  refine ⟨disks,target,?_,(sortRead sorted).2⟩
  unfold visited at sorted
  rw [prepare,sorted,service]
  rfl

theorem prepareUnreadable (unreadable : ¬ Readable bmc storage)
    (action : String) : ∃ e, prepare bmc storage action = .error e := by
  cases prepared : prepare bmc storage action with
  | error e => exact ⟨e,rfl⟩
  | ok result =>
    obtain ⟨disks,sorted,later⟩ := okOfBind prepared
    obtain ⟨target,manages,-⟩ := okOfBind later
    refine absurd ⟨?_,(sortRead sorted).1⟩ unreadable
    cases system : bmc.manageServers with
    | ok uri => exact ⟨uri,rfl⟩
    | error e =>
      rw [raidService,system] at manages
      cases manages

theorem executeReadable (readable : Readable bmc storage) (c : Conversion) (exclude : String) :
    (c.execute bmc storage exclude).issued.map Post.pdArray =
      if c.tested exclude (candidates bmc c.wanted (visitedUris storage)) = [] then []
      else [kept exclude (candidates bmc c.wanted (visitedUris storage))] := by
  cases c with
  | toRaid =>
    obtain ⟨disks,target,prepared,same⟩ := prepareReadable readable "ConvertToRAID"
    simp only [Conversion.execute,Conversion.wanted,Conversion.tested,convertToRaid,prepared,
      Traced.ofExceptOk,← same,ne_eq,ite_not]
    split
    · rfl
    · rfl
  | toNonRaid =>
    obtain ⟨disks,target,prepared,same⟩ := prepareReadable readable "ConvertToNonRAID"
    simp only [Conversion.execute,Conversion.wanted,Conversion.tested,convertNoneRaid,prepared,
      Traced.ofExceptOk,← same,ne_eq,ite_not]
    split
    · rfl
    · rfl

theorem executeUnreadable (unreadable : ¬ Readable bmc storage)
    (c : Conversion) (exclude : String) : (c.execute bmc storage exclude).issued = [] := by
  cases c with
  | toRaid =>
    obtain ⟨e,failed⟩ := prepareUnreadable unreadable "ConvertToRAID"
    simp only [Conversion.execute,convertToRaid,failed]
    rfl
  | toNonRaid =>
    obtain ⟨e,failed⟩ := prepareUnreadable unreadable "ConvertToNonRAID"
    simp only [Conversion.execute,convertNoneRaid,failed]
    rfl

theorem infixIntercalate {α} {part separator : List α} {parts} (mem : part ∈ parts) :
    part <:+: separator.intercalate parts := by
  induction parts with
  | nil => exact absurd mem List.not_mem_nil
  | cons first rest ih =>
    cases rest with
    | nil =>
      rw [List.mem_singleton.mp mem,List.intercalate_singleton]
    | cons second rest =>
      rw [List.intercalate_cons_cons]
      rcases List.mem_cons.mp mem with rfl | later
      · exact ((List.prefix_append _ _).trans (List.prefix_append _ _)).isInfix
      · exact (ih later).trans (List.suffix_append _ _).isInfix

theorem stripInfix (s : String) : (PyText.strip s).toList <:+: s.toList := by
  rw [PyText.strip,PyText.stripChars,String.toList_ofList]
  have front := (List.dropWhile_suffix (l := s.toList) PyText.isSpace).isInfix
  refine List.IsInfix.trans (List.IsPrefix.isInfix ?_) front
  unfold PyText.dropEnd
  rw [← List.reverse_suffix,List.reverse_reverse]
  exact List.dropWhile_suffix _

theorem entryInfix (mem : id ∈ entries exclude) : id.toList <:+: exclude.toList := by
  obtain ⟨raw,part,rfl⟩ := List.mem_map.mp (List.mem_filter.mp mem).1
  obtain ⟨chars,inside,rfl⟩ := List.mem_map.mp part
  have stands : chars <:+: [','].intercalate (exclude.toList.splitOn ',') := infixIntercalate inside
  rw [List.intercalate_splitOn] at stands
  refine (stripInfix _).trans ?_
  rw [String.toList_ofList]
  exact stands

structure Converts (c : Conversion) (bmc : Bmc) (storage : Members) (exclude : String) : Prop where
  silent : requested bmc storage c.wanted exclude = [] → (c.execute bmc storage exclude).issued = []
  posted : requested bmc storage c.wanted exclude ≠ [] →
    ∃ post, (c.execute bmc storage exclude).issued = [post] ∧
      ∀ id, id ∈ post.pdArray ↔ id ∈ requested bmc storage c.wanted exclude

/- No candidate merely stands in the text of the list, the other visited ones are drives of the
controller, and `storage-convert-raid` keeps a candidate. -/
structure Exact (c : Conversion) (bmc : Bmc) (storage : Members) (exclude : String) : Prop where
  entries : ∀ id ∈ candidates bmc c.wanted (drives storage),
    id.toList <:+: exclude.toList → id ∈ entries exclude
  drives : ∀ id ∈ candidates bmc c.wanted (visitedUris storage),
    ¬ id.toList <:+: exclude.toList → id ∈ candidates bmc c.wanted (drives storage)
  left : c = .toRaid → candidates bmc .nonRaid (visitedUris storage) ≠ [] →
    requested bmc storage .nonRaid exclude ≠ []

section
variable {c : Conversion} {bmc : Bmc} {storage : Members} {exclude : String}

theorem candidatesVisited {kind id} (mem : id ∈ candidates bmc kind (drives storage)) :
    id ∈ candidates bmc kind (visitedUris storage) := by
  obtain ⟨uri,inside,known,same⟩ := memCandidates.mp mem
  exact memCandidates.mpr ⟨uri,drivesVisited inside,known,same⟩

theorem keptRequested : (∀ id, id ∈ kept exclude (candidates bmc c.wanted (visitedUris storage)) ↔
        id ∈ requested bmc storage c.wanted exclude) ↔
      (∀ id ∈ candidates bmc c.wanted (drives storage),
        id.toList <:+: exclude.toList → id ∈ entries exclude) ∧
      ∀ id ∈ candidates bmc c.wanted (visitedUris storage),
        ¬ id.toList <:+: exclude.toList → id ∈ candidates bmc c.wanted (drives storage) := by
  constructor
  · intro same
    refine ⟨fun id mem stands => ?_,fun id mem free => ?_⟩
    · by_contra unnamed
      exact (memKept.mp ((same id).mpr (memRequested.mpr ⟨mem,unnamed⟩))).2 stands
    · exact (memRequested.mp ((same id).mp (memKept.mpr ⟨mem,free⟩))).1
  · rintro ⟨named,own⟩ id
    rw [memKept,memRequested]
    constructor
    · rintro ⟨mem,free⟩
      exact ⟨own id mem free,fun entry => free (entryInfix entry)⟩
    · rintro ⟨mem,unnamed⟩
      exact ⟨candidatesVisited mem,fun stands => unnamed (named id mem stands)⟩

theorem keptTested (none : c.tested exclude (candidates bmc c.wanted (visitedUris storage)) = []) :
    kept exclude (candidates bmc c.wanted (visitedUris storage)) = [] := by
  cases c with
  | toRaid =>
    have empty : candidates bmc Conversion.toRaid.wanted (visitedUris storage) = [] := none
    rw [empty]
    rfl
  | toNonRaid => exact none

theorem readableSilent (readable : Readable bmc storage) :
    (c.execute bmc storage exclude).issued = [] ↔
      c.tested exclude (candidates bmc c.wanted (visitedUris storage)) = [] := by
  rw [← List.map_eq_nil_iff (f := Post.pdArray),executeReadable readable]
  split
  · simp_all
  · simp_all

theorem readablePosts (readable : Readable bmc storage)
    (some : c.tested exclude (candidates bmc c.wanted (visitedUris storage)) ≠ []) :
    ∃ post, (c.execute bmc storage exclude).issued = [post] ∧
      post.pdArray = kept exclude (candidates bmc c.wanted (visitedUris storage)) := by
  have run := executeReadable readable c exclude
  rw [if_neg some] at run
  obtain ⟨post,sent,array⟩ := List.map_eq_singleton_iff.mp run
  exact ⟨post,sent,array⟩

theorem convertsExact (readable : Readable bmc storage) (converts : Converts c bmc storage exclude) :
    Exact c bmc storage exclude := by
  by_cases none : requested bmc storage c.wanted exclude = []
  · have untested := (readableSilent readable).mp (converts.silent none)
    obtain ⟨named,own⟩ := keptRequested.mp fun id => by rw [keptTested untested,none]
    refine ⟨named,own,?_⟩
    rintro rfl candidate
    exact absurd untested candidate
  · obtain ⟨post,sent,same⟩ := converts.posted none
    have some : c.tested exclude (candidates bmc c.wanted (visitedUris storage)) ≠ [] := fun empty => by
      rw [(readableSilent readable).mpr empty] at sent
      cases sent
    obtain ⟨again,posted,array⟩ := readablePosts readable some
    obtain ⟨rfl,-⟩ := List.cons.inj (sent.symm.trans posted)
    rw [array] at same
    obtain ⟨named,own⟩ := keptRequested.mp same
    refine ⟨named,own,?_⟩
    rintro rfl -
    exact none

theorem exactConverts (readable : Readable bmc storage) (precise : Exact c bmc storage exclude) :
    Converts c bmc storage exclude := by
  have same := keptRequested.mpr ⟨precise.entries,precise.drives⟩
  refine ⟨fun none => (readableSilent readable).mpr ?_,fun some => ?_⟩
  · cases c with
    | toRaid =>
      by_contra candidate
      exact precise.left rfl candidate none
    | toNonRaid =>
      refine List.eq_nil_iff_forall_not_mem.mpr fun id mem => ?_
      have left := (same id).mp mem
      rw [none] at left
      exact absurd left List.not_mem_nil
  · obtain ⟨id,mem⟩ := List.exists_mem_of_ne_nil _ some
    have tested : c.tested exclude (candidates bmc c.wanted (visitedUris storage)) ≠ [] := fun empty => by
      have left := (same id).mpr mem
      rw [keptTested empty] at left
      exact absurd left List.not_mem_nil
    obtain ⟨post,sent,array⟩ := readablePosts readable tested
    refine ⟨post,sent,?_⟩
    rw [array]
    exact same

end

def diskDocument (raidStatus : String) : Json :=
  .obj [("Oem",.obj [("Dell",.obj [("DellPhysicalDisk",.obj [("RaidStatus",.str raidStatus)])])])]

def sampleBmc : Bmc where
  document uri := .ok (diskDocument (if uri = "/redfish/v1/D/Disk.Bay.2" then "Online" else "NonRAID"))
  manageServers := .ok "/redfish/v1/Systems/System.Embedded.1"
  post _ _ := .ok .null

def link (uri : String) : Json := .obj [("@odata.id",.str uri)]

def sampleStorage : Members :=
  [("Drives",.arr [link "/redfish/v1/D/Disk.Bay.1",link "/redfish/v1/D/Disk.Bay.10",
    link "/redfish/v1/D/Disk.Bay.2"]),("Drives@odata.count",.int 3)]

end RedfishCtl.RaidConversion
