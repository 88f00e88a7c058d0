import RedfishCtl.CrawlReplay
import RedfishCtl.MockReads

/-! What a GET of the mock server with the rule engine serves, and the state on which the conditions
of the rules are evaluated, from a lookup that normalises a path once more. -/
namespace RedfishCtl.MockServer
open MockCorpus
open MockOverlay
open MockEngine hiding serveFixture
open PyUrl (normalizeRequestPath)
open Json (deepUpdate)
open Stateful (okOfBind)
open Rules (effectiveState prepare)

abbrev Identity := List (String × Members)

def identityOf (platform : Platform) (identity : Identity) (path : String) : Members :=
  (identity.lookup (platform.lower path)).getD []

section
variable (platform : Platform) (handler : Handler) (identity : Identity)

def corpusState : Corpus := fun requestPath => do
  let path ← normalizeRequestPath requestPath
  if !isRedfish path then .ok []
  else match handler.index.lookup (platform.lower (fixtureKey path)) with
    | none => .ok []
    | some fixture => match content handler fixture with
        | .obj payload =>
            let named := identityOf platform identity path
            .ok (if named.isEmpty then payload else deepUpdate payload named)
        | _ => .ok []

def notAMapping : PyError := .typeError "list indices must be integers or slices, not str"

def overlaidFixture (s : Store) (target : String) (fixture : Json) : Except PyError Json := do
  let overlay ← overlayFor s target
  let path ← normalizeRequestPath target
  let named := identityOf platform identity path
  match fixture with
  | .obj m => .ok (.obj (payload m named overlay.members))
  | j => if overlay.members.isEmpty && named.isEmpty then .ok j else .error notAMapping

def serveFixture (s : Store) (target : String) : Except PyError (Int × Json) := do
  match ← capturedErrorForRequest platform handler target with
  | some (status,none) => .ok (status,capturedBody status target)
  | some (status,some file) => .ok (status,content handler file)
  | none => do
      match ← fixtureForRequest platform handler target with
      | none => .ok (404,.obj [("error",.str ("no fixture for " ++ target))])
      | some file =>
          let body ← overlaidFixture platform identity s target (content handler file)
          .ok (200,body)

end

def Names (h : Heap) (rules : List PyVal) (resourcePath : String) : Prop :=
  ∃ rule ∈ rules, ∃ clause, Rules.conditions h rule = .ok clause ∧
    ∃ condition ∈ clause, field h condition "path" = some (.str resourcePath)

section
variable {h : Heap} {resourcePath : String} {paths : List String}

theorem conditionPathsNamed {clause condition} (done : Rules.conditionPaths h clause = .ok paths)
    (among : condition ∈ clause) (named : field h condition "path" = some (.str resourcePath)) :
    ∃ path ∈ paths, normalizeRequestPath resourcePath = .ok path := by
  induction clause generalizing paths with
  | nil => exact absurd among List.not_mem_nil
  | cons first rest ih =>
    obtain ⟨here,read,done⟩ := okOfBind done
    obtain ⟨others,later,done⟩ := okOfBind done
    cases done
    rcases List.mem_cons.mp among with same | inside
    · subst same
      simp only [Rules.conditionPath,named] at read
      cases normal : normalizeRequestPath resourcePath with
      | error e => simp [normal,Except.map] at read
      | ok path =>
        simp only [normal,Except.map] at read
        cases read
        exact ⟨path,by simp,rfl⟩
    · obtain ⟨path,mem,normal⟩ := ih later inside
      exact ⟨path,List.mem_append_right _ mem,normal⟩

theorem preconditionPathsNamed {rules} (done : Rules.preconditionPaths h rules = .ok paths)
    (names : Names h rules resourcePath) :
    ∃ path ∈ paths, normalizeRequestPath resourcePath = .ok path := by
  obtain ⟨rule,listed,clause,read,condition,among,named⟩ := names
  induction rules generalizing paths with
  | nil => exact absurd listed List.not_mem_nil
  | cons first rest ih =>
    obtain ⟨conditions,clauses,done⟩ := okOfBind done
    obtain ⟨here,found,done⟩ := okOfBind done
    obtain ⟨others,later,done⟩ := okOfBind done
    cases done
    rcases List.mem_cons.mp listed with same | inside
    · subst same
      cases Except.ok.inj (clauses.symm.trans read)
      obtain ⟨path,mem,normal⟩ := conditionPathsNamed found among named
      exact ⟨path,List.mem_append_left _ mem,normal⟩
    · obtain ⟨path,mem,normal⟩ := ih later inside
      exact ⟨path,List.mem_append_right _ mem,normal⟩

theorem loadCorpusLookup {corpus cache path} (done : Rules.loadCorpus corpus paths = .ok cache)
    (mem : path ∈ paths) : ∃ fixture, corpus path = .ok fixture ∧ cache.lookup path = some fixture := by
  induction paths generalizing cache with
  | nil => exact absurd mem List.not_mem_nil
  | cons first rest ih =>
    obtain ⟨fixture,read,done⟩ := okOfBind done
    obtain ⟨others,later,done⟩ := okOfBind done
    cases done
    by_cases same : path = first
    · subst same
      exact ⟨fixture,read,by simp⟩
    · obtain ⟨found,here,present⟩ := ih later ((List.mem_cons.mp mem).resolve_left same)
      exact ⟨found,here,by simp [same,present]⟩

theorem prepareSnapshot {ρ} {lib : Library ρ} {corpus rules request prepared}
    (done : prepare lib corpus rules h request = .ok prepared)
    (names : Names h prepared.matching resourcePath) :
    ∃ path fixture, normalizeRequestPath resourcePath = .ok path ∧ corpus path = .ok fixture ∧
      prepared.corpus.lookup path = some fixture := by
  obtain ⟨target,-,done⟩ := okOfBind done
  obtain ⟨matching,-,done⟩ := okOfBind done
  obtain ⟨paths,listed,done⟩ := okOfBind done
  obtain ⟨cache,loaded,done⟩ := okOfBind done
  cases done
  obtain ⟨path,mem,normal⟩ := preconditionPathsNamed listed names
  obtain ⟨fixture,read,present⟩ := loadCorpusLookup loaded (List.mem_dedup.mpr mem)
  exact ⟨path,fixture,normal,read,present⟩

end

section
variable {platform : Platform} {handler : Handler} {identity : Identity}
  {cache : List (String × Members)} {resourcePath path again : String}

theorem effectiveOverlay (normal : normalizeRequestPath resourcePath = .ok path)
    (twice : normalizeRequestPath path = .ok again) (s : Store) :
    effectiveState s cache resourcePath = (overlayFor s resourcePath).map fun overlay =>
      .obj (deepUpdate ((cache.lookup again).getD []) overlay.members) := by
  simp only [effectiveState,overlayFor,normal,twice,bind,Except.bind]
  cases s.overlays.lookup path with
  | none => simp [Except.map,Json.deepUpdateNil]
  | some r => cases document s.heap (.dict r) <;> rfl

theorem overlaidObject (normal : normalizeRequestPath resourcePath = .ok path) (s : Store)
    (m : Members) : overlaidFixture platform identity s resourcePath (.obj m) =
      (overlayFor s resourcePath).map fun overlay =>
        .obj (deepUpdate (deepUpdate m (identityOf platform identity path)) overlay.members) := by
  simp only [overlaidFixture,normal,payloadMerged,bind,Except.bind]
  cases overlayFor s resourcePath <;> rfl

theorem capturedStatus {target status}
    (captured : capturedErrorForRequest platform handler target = .ok (some (status,none))) :
    400 ≤ status := by
  unfold capturedErrorForRequest at captured
  split at captured
  · simp at captured
  obtain ⟨path,-,captured⟩ := okOfBind captured
  split at captured
  · simp at captured
  obtain ⟨raw,-,captured⟩ := okOfBind captured
  obtain ⟨recorded,-,captured⟩ := okOfBind captured
  obtain ⟨mapped,-,captured⟩ := okOfBind captured
  split at captured
  · simp at captured
  · split at captured
    · simp at captured
    · simp only [Except.ok.injEq,Option.some.injEq,Prod.mk.injEq] at captured
      omega
  · simp at captured
  · simp at captured

/- No error file is answered with 200, and a GET starts from the object in the snapshot of the
conditions. -/
structure Consistent (platform : Platform) (handler : Handler) (identity : Identity)
    (cache : List (String × Members)) (resourcePath : String) : Prop where
  noErrorFile : ∀ file m,
    capturedErrorForRequest platform handler resourcePath = .ok (some (200,some file)) →
    content handler file ≠ .obj m
  sameObject : ∀ path again file m, normalizeRequestPath resourcePath = .ok path →
    normalizeRequestPath path = .ok again →
    capturedErrorForRequest platform handler resourcePath = .ok none →
    fixtureForRequest platform handler resourcePath = .ok (some file) →
    content handler file = .obj m →
    (cache.lookup again).getD [] = deepUpdate m (identityOf platform identity path)

def Sees (platform : Platform) (handler : Handler) (identity : Identity)
    (cache : List (String × Members)) (resourcePath : String) (s : Store) : Prop :=
  ∀ m, serveFixture platform handler identity s resourcePath = .ok (200,.obj m) →
    effectiveState s cache resourcePath = .ok (.obj m)

theorem serveErrorFile {s file status}
    (captured : capturedErrorForRequest platform handler resourcePath =
      .ok (some (status,some file))) :
    serveFixture platform handler identity s resourcePath = .ok (status,content handler file) := by
  simp only [serveFixture,captured,bind,Except.bind]

theorem serveObject {s file m} (normal : normalizeRequestPath resourcePath = .ok path)
    (captured : capturedErrorForRequest platform handler resourcePath = .ok none)
    (found : fixtureForRequest platform handler resourcePath = .ok (some file))
    (object : content handler file = .obj m) :
    serveFixture platform handler identity s resourcePath =
      (overlayFor s resourcePath).map fun overlay =>
        (200,.obj (deepUpdate (deepUpdate m (identityOf platform identity path))
          overlay.members)) := by
  simp only [serveFixture,captured,found,object,overlaidObject normal,bind,Except.bind]
  cases overlayFor s resourcePath <;> rfl

theorem serveCases {s m}
    (served : serveFixture platform handler identity s resourcePath = .ok (200,.obj m)) :
    (∃ file, capturedErrorForRequest platform handler resourcePath = .ok (some (200,some file)) ∧
      content handler file = .obj m) ∨
    ∃ file fixture, capturedErrorForRequest platform handler resourcePath = .ok none ∧
      fixtureForRequest platform handler resourcePath = .ok (some file) ∧
      content handler file = .obj fixture := by
  obtain ⟨captured,read,rest⟩ := okOfBind served
  split at rest
  · rename_i status
    cases rest
    exact absurd (capturedStatus read) (by decide)
  · rename_i status file
    obtain ⟨ok,body⟩ := Prod.mk.inj (Except.ok.inj rest)
    subst ok
    exact .inl ⟨file,read,body⟩
  obtain ⟨fixture,found,rest⟩ := okOfBind rest
  split at rest
  · have status : (404 : Int) = 200 := congrArg Prod.fst (Except.ok.inj rest)
    exact absurd status (by decide)
  rename_i file
  obtain ⟨body,overlaid,rest⟩ := okOfBind rest
  obtain ⟨-,same⟩ := Prod.mk.inj (Except.ok.inj rest)
  subst same
  obtain ⟨overlay,-,overlaid⟩ := okOfBind overlaid
  obtain ⟨path,-,overlaid⟩ := okOfBind overlaid
  split at overlaid
  · rename_i fixture object
    exact .inr ⟨file,fixture,read,found,object⟩
  rename_i j plain
  dsimp only at overlaid
  split at overlaid
  · exact absurd (Except.ok.inj overlaid) (plain m)
  · cases overlaid

def oneMember (path : String) (value : PyVal) : Store := ⟨⟨[[("x",value)]]⟩,[(path,0)]⟩

theorem effectiveOneMember (normal : normalizeRequestPath resourcePath = .ok path)
    (twice : normalizeRequestPath path = .ok again) (b : Bool) {m}
    (state : effectiveState (oneMember path (.bool b)) cache resourcePath = .ok (.obj m)) :
    m.lookup "x" = some (.bool b) := by
  have overlay : overlayFor (oneMember path (.bool b)) resourcePath =
      .ok (.obj [("x",.bool b)]) := by
    simp [overlayFor,normal,oneMember,bind,Except.bind,document,Heap.view,Heap.size,Heap.viewCell,
      PyVal.viewWith,Entries.viewWith]
  rw [effectiveOverlay normal twice,overlay] at state
  simp only [Except.map,Json.members,Json.deepUpdateCons,Json.deepUpdateNil,Except.ok.injEq,
    Json.obj.injEq] at state
  rw [← state,AssocList.lookupInsert]
  simp [Json.overlaid]

end

def Unmapped (platform : Platform) (handler : Handler) (path : String) : Prop :=
  ∀ key ∈ ["url_file_mapping","error_file_mapping"], ∀ mapped,
    lookupMapping (mappingDict handler.apiMap key) path = .ok mapped →
    resolveMappedFixture platform mapped = none

section
variable {platform : Platform} {handler : Handler} {identity : Identity} {path resourcePath : String}

variable {file : String}

theorem unmappedCaptured (unmapped : Unmapped platform handler path)
    (normal : normalizeRequestPath resourcePath = .ok path) {status} :
    capturedErrorForRequest platform handler resourcePath ≠ .ok (some (status,some file)) := by
  intro captured
  unfold capturedErrorForRequest at captured
  split at captured
  · simp at captured
  obtain ⟨path',same,captured⟩ := okOfBind captured
  cases Except.ok.inj (normal.symm.trans same)
  split at captured
  · simp at captured
  obtain ⟨raw,-,captured⟩ := okOfBind captured
  obtain ⟨recorded,-,captured⟩ := okOfBind captured
  obtain ⟨mapped,read,captured⟩ := okOfBind captured
  rw [unmapped "error_file_mapping" (by simp) mapped read] at captured
  split at captured
  · simp at captured
  · split at captured <;> simp at captured
  · simp_all
  · simp_all

theorem unmappedFixture (unmapped : Unmapped platform handler path)
    (normal : normalizeRequestPath resourcePath = .ok path)
    (found : fixtureForRequest platform handler resourcePath = .ok (some file)) :
    isRedfish path = true ∧
      handler.index.lookup (platform.lower (fixtureKey path)) = some file := by
  obtain ⟨path',same,found⟩ := okOfBind found
  cases Except.ok.inj (normal.symm.trans same)
  split at found
  · simp at found
  · rename_i redfish
    obtain ⟨mapped,read,found⟩ := okOfBind found
    rw [unmapped "url_file_mapping" (by simp) mapped read] at found
    exact ⟨by simpa using redfish,Except.ok.inj found⟩

theorem corpusStateObject (stable : normalizeRequestPath path = .ok path)
    (redfish : isRedfish path = true) {m}
    (found : handler.index.lookup (platform.lower (fixtureKey path)) = some file)
    (object : content handler file = .obj m) :
    corpusState platform handler identity path =
      .ok (deepUpdate m (identityOf platform identity path)) := by
  simp only [corpusState,stable,redfish,found,object,bind,Except.bind,Bool.not_true,
    Bool.false_eq_true,if_false]
  split
  · rename_i none
    rw [List.isEmpty_iff.mp none,Json.deepUpdateNil]
  · rfl

theorem unmappedConsistent {ρ} {lib : Library ρ} {rules h request prepared}
    (ready : prepare lib (corpusState platform handler identity) rules h request =
      .ok prepared) (names : Names h prepared.matching resourcePath)
    (normal : normalizeRequestPath resourcePath = .ok path)
    (stable : normalizeRequestPath path = .ok path) (unmapped : Unmapped platform handler path) :
    Consistent platform handler identity prepared.corpus resourcePath := by
  obtain ⟨path',fixture,same,read,present⟩ := prepareSnapshot ready names
  cases Except.ok.inj (normal.symm.trans same)
  refine ⟨fun file m captured => absurd captured (unmappedCaptured unmapped normal),?_⟩
  intro path' again file m normal' twice captured found object
  cases Except.ok.inj (normal.symm.trans normal')
  cases Except.ok.inj (stable.symm.trans twice)
  obtain ⟨redfish,indexed⟩ := unmappedFixture unmapped normal found
  rw [corpusStateObject stable redfish indexed object] at read
  rw [present,Option.getD_some,Except.ok.inj read]

end

theorem preconditionsSeeServed {ρ : Type} (lib : Library ρ) (platform : Platform)
    (handler : Handler) (identity : Identity) (rules : List PyVal) (h : Heap) (request : Request)
    (prepared : Rules.Prepared) (resourcePath : String)
    (ready : prepare lib (corpusState platform handler identity) rules h request = .ok prepared)
    (names : Names h prepared.matching resourcePath) :
    (∀ s, Sees platform handler identity prepared.corpus resourcePath s) ↔
      Consistent platform handler identity prepared.corpus resourcePath := by
  obtain ⟨path,fixture,normal,read,-⟩ := prepareSnapshot ready names
  obtain ⟨again,twice,-⟩ := okOfBind read
  refine ⟨?_,?_⟩
  · intro sees
    refine ⟨?_,?_⟩
    · intro file m captured object
      have members (b : Bool) : m.lookup "x" = some (.bool b) := by
        refine effectiveOneMember normal twice b (sees (oneMember path (.bool b)) m ?_)
        rw [serveErrorFile captured,object]
      have clash := (members true).symm.trans (members false)
      simp at clash
    · intro path' again' file m normal' twice' captured found object
      cases Except.ok.inj (normal.symm.trans normal')
      cases Except.ok.inj (twice.symm.trans twice')
      have untouched : overlayFor ⟨⟨[]⟩,[]⟩ resourcePath = .ok (.obj []) := by
        simp [overlayFor,normal,bind,Except.bind]
      have state := sees ⟨⟨[]⟩,[]⟩ (deepUpdate m (identityOf platform identity path)) (by
        rw [serveObject normal captured found object,untouched]
        simp [Except.map,Json.members,Json.deepUpdateNil])
      rw [effectiveOverlay normal twice,untouched] at state
      simpa [Except.map,Json.members,Json.deepUpdateNil] using state
  · intro consistent s m served
    rcases serveCases served with ⟨file,captured,object⟩ | ⟨file,fixture,captured,found,object⟩
    · exact absurd object (consistent.noErrorFile file m captured)
    rw [serveObject normal captured found object] at served
    rw [effectiveOverlay normal twice,
      consistent.sameObject path again file fixture normal twice captured found object]
    cases overlay : overlayFor s resourcePath with
    | error e => simp [overlay,Except.map] at served
    | ok o =>
      simp only [overlay,Except.map,Except.ok.injEq,Prod.mk.injEq,true_and] at served ⊢
      exact served

def powerFiles : List (String × Json) :=
  [("_redfish_v1_Systems_1.json",.obj [("PowerState",.str "Off")]),
    ("system.json",.obj [("PowerState",.str "On")])]
def plainDirectory : Discovery.Directory := ⟨powerFiles,none⟩
def mappedDirectory : Discovery.Directory :=
  ⟨powerFiles,some (.obj [("url_file_mapping",
    .obj [("/redfish/v1/Systems/1",.str "system.json")])])⟩

def localPlatform : Platform := { CrawlReplay.asciiPlatform with resolve := some }

def whenOn : Heap := ⟨[
  [("method",.str "POST"),("path",.str "/redfish/v1/Systems/1"),("when",.list [.dict 1])],
  [("path",.str "/redfish/v1/Systems/1"),("field",.str "PowerState"),("equals",.str "On")]]⟩
def systemWrite : Request := ⟨"POST","/redfish/v1/Systems/1",.obj []⟩

def plainHandler : Handler :=
  ⟨[],[("_redfish_v1_systems_1.json","_redfish_v1_Systems_1.json"),("system.json","system.json")],
    powerFiles⟩
def plainPrepared : Rules.Prepared :=
  ⟨[.dict 0],[("/redfish/v1/Systems/1",[("PowerState",.str "Off")])]⟩

theorem whenOnNames : Names whenOn [.dict 0] "/redfish/v1/Systems/1" :=
  ⟨.dict 0,by simp,[.dict 1],by decide,.dict 1,by simp,by decide⟩

theorem preconditionsSeePlain :
    makeHandler localPlatform "/corpus" plainDirectory = .ok plainHandler ∧
      ∀ s, Sees localPlatform plainHandler [] plainPrepared.corpus "/redfish/v1/Systems/1" s := by
  have ready : prepare stillLibrary (corpusState localPlatform plainHandler []) [.dict 0]
      whenOn systemWrite = .ok plainPrepared := by decide +kernel
  have unmapped : Unmapped localPlatform plainHandler "/redfish/v1/Systems/1" := by
    intro key _ mapped read
    have nothing : mappingDict plainHandler.apiMap key = [] := rfl
    have normal : normalizeRequestPath "/redfish/v1/Systems/1" = .ok "/redfish/v1/Systems/1" := by
      decide +kernel
    cases read
    rfl
  refine ⟨by decide +kernel,?_⟩
  exact (preconditionsSeeServed stillLibrary localPlatform plainHandler [] [.dict 0] whenOn
    systemWrite plainPrepared _ ready whenOnNames).mpr
    (unmappedConsistent ready whenOnNames (by decide +kernel) (by decide +kernel) unmapped)

theorem conditionMissesMapping : Names whenOn [.dict 0] "/redfish/v1/Systems/1" ∧
    (do
      let handler ← makeHandler localPlatform "/corpus" mappedDirectory
      let prepared ← prepare stillLibrary (corpusState localPlatform handler []) [.dict 0]
        whenOn systemWrite
      let served ← serveFixture localPlatform handler [] ⟨whenOn,[]⟩ "/redfish/v1/Systems/1"
      let state ← effectiveState ⟨whenOn,[]⟩ prepared.corpus "/redfish/v1/Systems/1"
      .ok (prepared.matching,served,state)) =
      .ok ([.dict 0],(200,.obj [("PowerState",.str "On")]),.obj [("PowerState",.str "Off")]) :=
  ⟨whenOnNames,by decide +kernel⟩

end RedfishCtl.MockServer
