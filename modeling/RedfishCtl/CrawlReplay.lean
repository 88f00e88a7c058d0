import RedfishCtl.DiscoveryRuns
import RedfishCtl.MockCorpus

/-! A crawl followed by a replay of its directory. The maps load exactly when every recorded status
is one of HTTP, and a GET is answered from the status map or the file names. -/
namespace RedfishCtl.CrawlReplay
open AssocList
open Discovery
open MockCorpus
open PyUrl (normalizeRequestPath)

def statuses (c : Crawl) : List (String × Json) := c.status.map fun p => (p.1,.int p.2)
def mappedFiles (files : List (String × String)) : List (String × Json) :=
  files.map fun p => (p.1,.str p.2)

def InRange (c : Crawl) : Prop := ∀ p ∈ c.status, 100 ≤ p.2 ∧ p.2 ≤ 599

def stored (c : Crawl) : Directory :=
  ⟨insert restApiStatusMapJson (sidecar c) c.files,some (mappings c)⟩
def replayMap (platform : Platform) (c : Crawl) : List (String × Json) :=
  if platform.numpy then (mappings c).members else (sidecar c).members

variable {path : String}

theorem validateStatusesOk {recorded : List (String × Nat)} {after}
    (done : validateStatuses path (recorded.map fun p => (p.1,.int p.2)) = .ok after) :
    (∀ p ∈ recorded, 100 ≤ p.2 ∧ p.2 ≤ 599) ∧ after = recorded.map fun p => (p.1,.int p.2) := by
  induction recorded generalizing after with
  | nil => exact ⟨by simp,(Except.ok.inj done).symm⟩
  | cons p rest ih =>
    obtain ⟨status,valid,others⟩ := Stateful.okOfBind done
    obtain ⟨tail,later,last⟩ := Stateful.okOfBind others
    obtain ⟨inside,same⟩ := ih later
    simp only [validateStatus,PyText.int] at valid
    split at valid
    · exact nomatch valid
    cases Except.ok.inj valid
    refine ⟨?_,by rw [← Except.ok.inj last,same]; rfl⟩
    intro q mem
    rcases List.mem_cons.mp mem with here | there
    · subst here
      omega
    · exact inside q there

theorem validateStatusesInRange {recorded : List (String × Nat)}
    (inside : ∀ p ∈ recorded, 100 ≤ p.2 ∧ p.2 ≤ 599) :
    validateStatuses path (recorded.map fun p => (p.1,.int p.2)) =
      .ok (recorded.map fun p => (p.1,.int p.2)) := by
  induction recorded with
  | nil => rfl
  | cons p rest ih =>
    have here := inside p (by simp)
    have within : ¬((p.2 : Int) < 100 ∨ 599 < (p.2 : Int)) := by omega
    have later := ih fun q mem => inside q (by simp [mem])
    simp only [List.map_cons,validateStatuses,validateStatus,PyText.int,if_neg within,later,bind,
      Except.bind]

structure Describes (c : Crawl) (apiMap : List (String × Json)) : Prop where
  sections : ∀ key ∈ mappingKeys, apiMap.lookup key = none ∨ ∃ m, apiMap.lookup key = some (.obj m)
  statuses : apiMap.lookup "http_status_mapping" = some (.obj (statuses c))
  names : ∀ key ∈ ["url_file_mapping","error_file_mapping"], ∀ p ∈ mappingDict apiMap key,
    ∃ q ∈ c.urlFiles ++ c.errorFiles, p.2 = .str q.2

variable {apiMap : List (String × Json)}

theorem validateSectionsOk {names}
    (objects : ∀ key ∈ names, apiMap.lookup key = none ∨ ∃ m, apiMap.lookup key = some (.obj m)) :
    validateSections path apiMap names = .ok () := by
  induction names with
  | nil => rfl
  | cons key rest ih =>
    have later := ih fun other mem => objects other (by simp [mem])
    rcases objects key (by simp) with missing | ⟨m,found⟩
    · rw [validateSections,missing]
      exact later
    · rw [validateSections,found]
      exact later

theorem validateDescribed {c} (describes : Describes c apiMap) :
    validateRestApiMap path apiMap = (validateStatuses path (statuses c)).map fun valid =>
      insert "http_status_mapping" (.obj valid) apiMap := by
  simp only [validateRestApiMap,validateSectionsOk describes.sections,describes.statuses,bind,
    Except.bind]
  cases validateStatuses path (statuses c) <;> rfl

theorem validateInRange {c : Crawl} (describes : Describes c apiMap) (inside : InRange c) :
    validateRestApiMap path apiMap = .ok apiMap := by
  have valid : validateStatuses path (statuses c) = .ok (statuses c) :=
    validateStatusesInRange inside
  rw [validateDescribed describes,valid,Except.map,insertSame describes.statuses]

theorem inRangeOfValid {c : Crawl} {apiMap after} (describes : Describes c apiMap)
    (done : validateRestApiMap path apiMap = .ok after) : InRange c := by
  rw [validateDescribed describes] at done
  cases valid : validateStatuses path (statuses c) with
  | error e => rw [valid] at done; exact nomatch done
  | ok l => exact (validateStatusesOk valid).1

theorem mappedSource {files p} (listed : p ∈ mappedFiles files) : ∃ q ∈ files, p.2 = .str q.2 := by
  obtain ⟨q,inside,same⟩ := List.mem_map.mp listed
  exact ⟨q,inside,same ▸ rfl⟩

theorem describesSidecar (c : Crawl) : Describes c (sidecar c).members := by
  refine ⟨?_,rfl,?_⟩
  · intro key mem
    simp only [mappingKeys,List.mem_cons,List.not_mem_nil,or_false] at mem
    rcases mem with url | status | error
    · subst url; exact .inl rfl
    · subst status; exact .inr ⟨_,rfl⟩
    · subst error; exact .inr ⟨_,rfl⟩
  · intro key mem p listed
    simp only [List.mem_cons,List.not_mem_nil,or_false] at mem
    rcases mem with url | error
    · subst url
      exact absurd listed List.not_mem_nil
    · subst error
      obtain ⟨q,inside,same⟩ := mappedSource listed
      exact ⟨q,List.mem_append_right _ inside,same⟩

theorem describesMappings (c : Crawl) : Describes c (mappings c).members := by
  refine ⟨?_,rfl,?_⟩
  · intro key mem
    simp only [mappingKeys,List.mem_cons,List.not_mem_nil,or_false] at mem
    rcases mem with url | status | error
    · subst url; exact .inr ⟨_,rfl⟩
    · subst status; exact .inr ⟨_,rfl⟩
    · subst error; exact .inr ⟨_,rfl⟩
  · intro key mem p listed
    simp only [List.mem_cons,List.not_mem_nil,or_false] at mem
    rcases mem with url | error
    · subst url
      obtain ⟨q,inside,same⟩ := mappedSource listed
      exact ⟨q,List.mem_append_left _ inside,same⟩
    · subst error
      obtain ⟨q,inside,same⟩ := mappedSource listed
      exact ⟨q,List.mem_append_right _ inside,same⟩

theorem describesReplayMap (platform : Platform) (c : Crawl) :
    Describes c (replayMap platform c) := by
  unfold replayMap
  split
  · exact describesMappings c
  · exact describesSidecar c

theorem overlayMappings (c : Crawl) :
    overlaySidecar (mappings c).members (sidecar c).members = (mappings c).members := rfl

theorem loadStored (platform : Platform) (directory : String) (c : Crawl) :
    loadRestApiMap platform directory (stored c) =
      (do
        let read ← validateRestApiMap (mapPath directory restApiStatusMapJson) (sidecar c).members
        if !platform.numpy then .ok read
        else do
          let legacy ← validateRestApiMap (mapPath directory restApiMapNpy) (mappings c).members
          validateRestApiMap (mapPath directory restApiStatusMapJson) (overlaySidecar legacy read)) := by
  cases numpy : platform.numpy <;>
    simp [loadRestApiMap,stored,numpy] <;> rfl

theorem loadInRange {platform directory c} (inside : InRange c) :
    loadRestApiMap platform directory (stored c) = .ok (replayMap platform c) := by
  rw [loadStored,validateInRange (describesSidecar c) inside,replayMap]
  cases platform.numpy with
  | false => rfl
  | true =>
    simp only [validateInRange (describesMappings c) inside,overlayMappings,bind,Except.bind]
    rfl

theorem inRangeOfLoad {platform directory c}
    (done : loadRestApiMap platform directory (stored c) = .ok apiMap) : InRange c := by
  rw [loadStored] at done
  obtain ⟨read,valid,_⟩ := Stateful.okOfBind done
  exact inRangeOfValid (describesSidecar c) valid

def served (url : String) : String := if url = serviceRoot then "/redfish/v1" else url

theorem joinAbsolute {directory} (absolute : isAbsolute directory = true) (name : String) :
    isAbsolute (join directory name) = true := by
  simp only [isAbsolute,decide_eq_true_eq] at absolute ⊢
  unfold join
  split <;> simp [absolute]

theorem servedRoot : served serviceRoot = "/redfish/v1" := if_pos rfl

theorem servedCanonical (canonical : Canonical path) : served path = path :=
  if_neg canonical.notRoot

section
variable {directory : String} {bmc : Bmc} {c : Crawl} {platform : Platform}
  {apiMap : List (String × Json)} {p : String × Nat}

theorem recordedCases (recorded : Recorded directory bmc c) (mem : p ∈ c.status) :
    p = (serviceRoot,200) ∨ Canonical p.1 :=
  (recorded.entry p mem).imp_right And.left

theorem normalizeServed (recorded : Recorded directory bmc c) (mem : p ∈ c.status)
    (stable : normalizeRequestPath p.1 = .ok (served p.1)) :
    normalizeRequestPath (served p.1) = .ok (served p.1) := by
  rcases recordedCases recorded mem with root | canonical
  · rw [root]
    decide +kernel
  · rw [servedCanonical canonical] at stable ⊢
    exact stable

theorem servedRedfish (recorded : Recorded directory bmc c) (mem : p ∈ c.status) :
    isRedfish (served p.1) = true := by
  rcases recordedCases recorded mem with root | canonical
  · rw [root]
    decide
  · rw [servedCanonical canonical]
    exact canonical.redfish

theorem rootUnrecorded (recorded : Recorded directory bmc c) :
    c.status.lookup "/redfish/v1" = none := by
  refine lookupNone.mpr fun listed => ?_
  obtain ⟨p,mem,same⟩ := List.mem_map.mp listed
  rcases recordedCases recorded mem with root | canonical
  · rw [root] at same
    exact absurd same (by decide)
  · exact canonical.beyond same

theorem lookupRecorded (recorded : Recorded directory bmc c) (mem : p ∈ c.status)
    (stable : normalizeRequestPath p.1 = .ok (served p.1)) :
    lookupMapping (statuses c) (served p.1) = .ok (some (.int p.2)) := by
  have found := lookupOfMem recorded.distinct mem
  have read : ∀ key, (statuses c).lookup key = (c.status.lookup key).map fun n : Nat => .int n :=
    fun key => lookupMap (fun n : Nat => Json.int n) key c.status
  simp only [lookupMapping,candidateMapKeys,normalizeServed recorded mem stable,bind,Except.bind]
  rcases recordedCases recorded mem with root | canonical
  · rw [root] at found ⊢
    rw [servedRoot,if_pos rfl]
    simp only [List.findSome?_cons,read,rootUnrecorded recorded]
    rw [show c.status.lookup "/redfish/v1/" = some 200 from found]
    rfl
  · rw [servedCanonical canonical,if_neg canonical.beyond]
    simp only [List.findSome?_cons,read,found]
    rfl

theorem mappedUnused (platform : Platform) (key : String) (recorded : Recorded directory bmc c)
    (absolute : isAbsolute directory = true) (describes : Describes c apiMap) {path}
    (kind : key ∈ ["url_file_mapping","error_file_mapping"])
    (normal : normalizeRequestPath path = .ok path) :
    ∃ mapped, lookupMapping (mappingDict apiMap key) path = .ok mapped ∧
      resolveMappedFixture platform mapped = none := by
  simp only [lookupMapping,candidateMapKeys,normal,bind,Except.bind]
  refine ⟨_,rfl,?_⟩
  cases found : (if path = "/redfish/v1" then [path,"/redfish/v1/"] else [path]).findSome?
      fun key' => (mappingDict apiMap key).lookup key' with
  | none => rfl
  | some value =>
    obtain ⟨key',_,present⟩ := List.exists_of_findSome?_eq_some found
    obtain ⟨q,inside,same⟩ := describes.names key kind _ (lookupMem present)
    obtain ⟨name,joined⟩ := recorded.mapped q inside
    simp only at same
    rw [same,joined,resolveMappedFixture,joinAbsolute absolute,Bool.or_true,if_pos rfl]

theorem statusesRead (describes : Describes c apiMap) :
    mappingDict apiMap "http_status_mapping" = statuses c := by
  rw [mappingDict,describes.statuses]
  rfl

theorem apiMapFilled (describes : Describes c apiMap) : apiMap.isEmpty = false := by
  cases apiMap with
  | nil => exact nomatch describes.statuses
  | cons => rfl

section
variable (recorded : Recorded directory bmc c) (absolute : isAbsolute directory = true) {h : Handler}
  (describes : Describes c h.apiMap) (mem : p ∈ c.status)
  (stable : normalizeRequestPath p.1 = .ok (served p.1))
include recorded absolute describes mem stable

theorem capturedRecorded : capturedErrorForRequest platform h p.1 =
      .ok (if (p.2 : Int) < 400 then none else some (p.2,none)) := by
  have again := normalizeServed recorded mem stable
  obtain ⟨mapped,read,unused⟩ := mappedUnused platform "error_file_mapping" recorded absolute
    describes (by simp) again
  simp only [capturedErrorForRequest,apiMapFilled describes,Bool.false_eq_true,if_false,stable,
    servedRedfish recorded mem,Bool.not_true,statusesRead describes,
    lookupRecorded recorded mem stable,recordedStatus,PyText.int,Except.map,read,unused,bind,Except.bind]

theorem fixtureRecorded : fixtureForRequest platform h p.1 =
      .ok (h.index.lookup (platform.lower (fixtureKey (served p.1)))) := by
  have again := normalizeServed recorded mem stable
  obtain ⟨mapped,read,unused⟩ := mappedUnused platform "url_file_mapping" recorded absolute
    describes (by simp) again
  simp only [fixtureForRequest,stable,servedRedfish recorded mem,Bool.not_true,Bool.false_eq_true,
    if_false,read,unused,bind,Except.bind]

theorem getRecorded : doGet platform h p.1 =
      if (p.2 : Int) < 400 then
        match h.index.lookup (platform.lower (fixtureKey (served p.1))) with
        | none => .ok (404,.obj [("error",.str ("no fixture for " ++ p.1))])
        | some file => .ok (200,content h file)
      else .ok (p.2,capturedBody p.2 p.1) := by
  have redfish := servedRedfish recorded mem
  have resource : served p.1 ≠ "/__replay_status" := by
    intro same
    rw [same] at redfish
    exact absurd redfish (by decide)
  simp only [doGet,stable,if_neg resource,serveFixture,
    capturedRecorded recorded absolute describes mem stable,
    fixtureRecorded recorded absolute describes mem stable,bind,Except.bind]
  by_cases low : (p.2 : Int) < 400
  · cases h.index.lookup (platform.lower (fixtureKey (served p.1))) <;> simp only [if_pos low]
  · simp only [if_neg low]

end

variable {files : List (String × Json)}

theorem indexFold {f : String → String} {start key file}
    (found : (files.foldl (fun index q => insert (f q.1) q.1 index) start).lookup key =
      some file) : start.lookup key = some file ∨ f file = key ∧ file ∈ keys files := by
  induction files generalizing start with
  | nil => exact .inl found
  | cons q rest ih =>
    rcases ih found with before | ⟨same,later⟩
    · rw [lookupInsert] at before
      split at before
      · rename_i here
        cases Option.some.inj before
        exact .inr ⟨here.symm,List.mem_cons_self⟩
      · exact .inl before
    · exact .inr ⟨same,List.mem_cons_of_mem _ later⟩

theorem indexKeys {f : String → String} {start key}
    (present : key ∈ keys start ∨ ∃ q ∈ files, f q.1 = key) :
    key ∈ keys (files.foldl (fun index q => insert (f q.1) q.1 index) start) := by
  induction files generalizing start with
  | nil => exact present.resolve_right (by simp)
  | cons q rest ih =>
    refine ih ?_
    rcases present with before | ⟨r,mem,same⟩
    · exact .inl ((memKeysInsert _ _ _ _).mpr (.inr before))
    · rcases List.mem_cons.mp mem with here | later
      · exact .inl ((memKeysInsert _ _ _ _).mpr (.inl (here ▸ same.symm)))
      · exact .inr ⟨r,later,same⟩

theorem indexSound {key file : String}
    (found : (buildFixtureIndex platform files).lookup key = some file) :
    platform.lower file = key ∧ file ∈ keys files := by
  rcases indexFold found with nothing | ⟨same,listed⟩
  · exact nomatch nothing
  · obtain ⟨q,mem,name⟩ := List.mem_map.mp listed
    exact ⟨same,List.mem_map.mpr ⟨q,(platform.listed files).mem_iff.mp (List.mem_filter.mp mem).1,
      name⟩⟩

theorem indexComplete (platform : Platform) {file : String} (mem : file ∈ keys files)
    (suffix : endsWith ".json" file = true) :
    platform.lower file ∈ keys (buildFixtureIndex platform files) := by
  obtain ⟨q,listed,name⟩ := List.mem_map.mp mem
  subst name
  exact indexKeys (.inr ⟨q,List.mem_filter.mpr ⟨(platform.listed files).mem_iff.mpr listed,suffix⟩,rfl⟩)

theorem flattenSlash (path : List Char) :
    flatten (String.ofList ('/'::path)) = "_" ++ flatten (String.ofList path) := by
  simp [flatten]

theorem fixtureKeySaved (recorded : Recorded directory bmc c) (mem : p ∈ c.status) (ok : p.2 = 200) :
    fixtureKey (served p.1) = savedName p := by
  rcases recordedCases recorded mem with root | canonical
  · rw [root]
    decide +kernel
  obtain ⟨rest,shape⟩ := redfishShape canonical.redfish
  have same : p.1 = String.ofList ('/' :: 'r'::rest) := by rw [← shape,String.ofList_toList]
  have inner : PyText.stripChars (· = '/') p.1 = String.ofList ('r'::rest) := by
    rw [PyText.stripChars,shape,List.dropWhile_cons_of_pos (by decide),
      List.dropWhile_cons_of_neg (by decide)]
    congr 1
    refine PyText.dropEndSame fun c final => ?_
    have other : c ≠ '/' := by
      intro slash
      exact canonical.last (by rw [shape,List.getLast?_cons_cons,final,slash])
    simpa using other
  rw [servedCanonical canonical,savedName,if_neg canonical.notRoot,ok,fixtureKey,inner,fileName,same,
    flattenSlash]
  rfl

theorem savedSuffix (ok : p.2 = 200) : endsWith ".json" (savedName p) = true := by
  unfold savedName
  split
  · decide
  · rw [ok]
    simp [fileName,endsWith,isOk]

theorem savedUnderscore (recorded : Recorded directory bmc c) (mem : p ∈ c.status) :
    (savedName p).toList.head? = some '_' := by
  rcases recordedCases recorded mem with root | canonical
  · rw [root]
    decide
  · obtain ⟨rest,shape⟩ := redfishShape canonical.redfish
    rw [savedName,if_neg canonical.notRoot]
    simp [fileName,flatten,shape]

def Stable (c : Crawl) : Prop := ∀ p ∈ c.status, normalizeRequestPath p.1 = .ok (served p.1)

def Apart (platform : Platform) (bmc : Bmc) (c : Crawl) : Prop :=
  ∀ p ∈ c.status, p.2 = 200 → ∀ q ∈ c.status,
    platform.lower (savedName p) = platform.lower (savedName q) → (bmc p.1).2 = (bmc q.1).2

def handler (platform : Platform) (c : Crawl) : Handler :=
  ⟨replayMap platform c,buildFixtureIndex platform (stored c).files,(stored c).files⟩

theorem savedStored (recorded : Recorded directory bmc c) (mem : p ∈ c.status) :
    savedName p ∈ keys (stored c).files :=
  (memKeysInsert _ _ _ _).mpr (.inr (recorded.saved p mem))

theorem makeHandlerStored (recorded : Recorded directory bmc c) (inside : InRange c) :
    makeHandler platform directory (stored c) = .ok (handler platform c) := by
  have root := indexComplete platform (savedStored recorded recorded.root) (savedSuffix rfl)
  have filled : (buildFixtureIndex platform (stored c).files).isEmpty = false := by
    cases empty : buildFixtureIndex platform (stored c).files with
    | nil => rw [empty] at root; exact nomatch root
    | cons => rfl
  simp only [makeHandler,loadInRange inside,filled,bind,Except.bind,Bool.false_eq_true,if_false,handler]

theorem inRangeOfHandler {h} (done : makeHandler platform directory (stored c) = .ok h) : InRange c := by
  obtain ⟨apiMap,loaded,_⟩ := Stateful.okOfBind done
  exact inRangeOfLoad loaded

theorem indexedBody (recorded : Recorded directory bmc c) (apart : Apart platform bmc c)
    (mem : p ∈ c.status) (ok : p.2 = 200) :
    ∃ file, (handler platform c).index.lookup (platform.lower (fixtureKey (served p.1))) = some file ∧
      content (handler platform c) file = (bmc p.1).2 := by
  have listed := indexComplete platform (savedStored recorded mem) (savedSuffix ok)
  rw [fixtureKeySaved recorded mem ok]
  cases found : (handler platform c).index.lookup (platform.lower (savedName p)) with
  | none => exact absurd listed (lookupNone.mp found)
  | some file =>
    obtain ⟨same,present⟩ := indexSound found
    refine ⟨file,rfl,?_⟩
    -- The status map is no fixture of a URL: its name has no leading underscore.
    have fixture : file ≠ restApiStatusMapJson := by
      intro sidecar
      have first := (platform.underscore _).mpr (savedUnderscore recorded mem)
      rw [← same,sidecar,platform.underscore] at first
      exact absurd first (by decide)
    cases held : c.files.lookup file with
    | none =>
      rcases (memKeysInsert _ _ _ _).mp present with sidecar | saved
      · exact absurd sidecar fixture
      · exact absurd saved (lookupNone.mp held)
    | some body =>
      obtain ⟨q,recordedFile,this⟩ := recorded.source _ (lookupMem held)
      obtain ⟨name,bodies⟩ := Prod.mk.inj this
      have read : content (handler platform c) file = body := by
        simp [content,handler,stored,fixture,held]
      rw [read,bodies]
      exact (apart p mem ok q recordedFile (by rw [← name,same])).symm

def Replayable (bmc : Bmc) (p : String × Nat) : Prop :=
  p.2 = 200 ∨ 400 ≤ p.2 ∧ (bmc p.1).2 = capturedBody p.2 p.1

theorem getReplayable (recorded : Recorded directory bmc c)
    (absolute : isAbsolute directory = true) (stable : Stable c) (apart : Apart platform bmc c)
    (mem : p ∈ c.status) :
    doGet platform (handler platform c) p.1 = .ok (p.2,(bmc p.1).2) ↔ Replayable bmc p := by
  rw [getRecorded recorded absolute (describesReplayMap platform c) mem (stable p mem)]
  by_cases low : (p.2 : Int) < 400
  · rw [if_pos low]
    refine ⟨?_,?_⟩
    · intro same
      left
      cases found : (handler platform c).index.lookup (platform.lower (fixtureKey (served p.1))) with
      | none =>
        simp only [found] at same
        have := congrArg Prod.fst (Except.ok.inj same)
        omega
      | some file =>
        simp only [found] at same
        have := congrArg Prod.fst (Except.ok.inj same)
        omega
    · intro replayable
      have ok : p.2 = 200 := replayable.resolve_right fun high => by omega
      obtain ⟨file,found,body⟩ := indexedBody recorded apart mem ok
      simp only [found,body,ok]
      rfl
  · rw [if_neg low]
    refine ⟨?_,?_⟩
    · intro same
      exact .inr ⟨by omega,(congrArg Prod.snd (Except.ok.inj same)).symm⟩
    · intro replayable
      obtain ⟨_,body⟩ := replayable.resolve_left fun ok => by omega
      rw [body]

end

def Replays (platform : Platform) (directory : String) (bmc : Bmc) (c : Crawl) (d : Directory) :
    Prop :=
  ∃ h, makeHandler platform directory d = .ok h ∧ ∀ p ∈ c.status, 200 ≤ p.2 → p.2 ≤ 599 →
    doGet platform h p.1 = .ok (p.2,(bmc p.1).2)

theorem toLowerUnderscore (c : Char) : c.toLower = '_' ↔ c = '_' := by
  unfold Char.toLower
  split
  · rename_i upper
    have low : 65 ≤ c.val.toNat := UInt32.le_iff_toNat_le.mp upper.1
    have high : c.val.toNat ≤ 90 := UInt32.le_iff_toNat_le.mp upper.2
    have shifted : (c.val + ('a'.val - 'A'.val)).toNat = c.val.toNat + 32 := by
      exact Nat.mod_eq_of_lt (show c.val.toNat + 32 < 2 ^ 32 by omega)
    have value : ('_' : Char).val.toNat = 95 := rfl
    refine ⟨?_,?_⟩
    · intro same
      have := congrArg (fun d : Char => d.val.toNat) same
      simp only [shifted,value] at this
      omega
    · intro same
      rw [same] at high
      omega
  · rfl

def lowerAscii (s : String) : String := String.ofList (s.toList.map Char.toLower)

def asciiPlatform : Platform where
  lower := lowerAscii
  underscore s := by
    simp only [lowerAscii,String.toList_ofList,List.head?_map,Option.map_eq_some_iff,toLowerUnderscore]
    simp
  listing files := files
  listed _ := .refl _
  numpy := true
  resolve _ := none

def anyName : FileSystem := ⟨fun _ => true⟩

def rootDocument : Json := .obj [("Systems",.obj [("@odata.id",.str "/redfish/v1/Systems/")])]
def systemsDocument : Json := .obj [("Name",.str "Computer Systems")]
def missingDocument : Json := .obj [("error",.obj [("code",.str "Base.1.8.ResourceMissingAtURI")])]

def smallBmc : Bmc := fun path =>
  if path = serviceRoot then (200,rootDocument)
  else if path = "/redfish/v1/Systems" then (200,systemsDocument) else (404,missingDocument)
def danglingBmc : Bmc := fun path =>
  if path = serviceRoot then (200,rootDocument) else (404,missingDocument)

def smallCrawl : Crawl :=
  ⟨["/redfish/v1/Systems","/redfish/v1/CompositionService","/redfish/v1"],
    [(serviceRoot,200),("/redfish/v1/Systems",200)],
    [(serviceRoot,"/corpus/_redfish_v1.json"),
      ("/redfish/v1/Systems","/corpus/_redfish_v1_Systems.json")],[],
    [(serviceRootFile,rootDocument),("_redfish_v1_Systems.json",systemsDocument)]⟩

def danglingCrawl : Crawl :=
  ⟨["/redfish/v1/Systems","/redfish/v1/CompositionService","/redfish/v1"],
    [(serviceRoot,200),("/redfish/v1/Systems",404)],[(serviceRoot,"/corpus/_redfish_v1.json")],
    [("/redfish/v1/Systems","/corpus/_redfish_v1_Systems.error.json")],
    [(serviceRootFile,rootDocument),("_redfish_v1_Systems.error.json",missingDocument)]⟩

end RedfishCtl.CrawlReplay
