import RedfishCtl.CorpusTreeAccount

/-! Fixtures left out because another one holds the same document, by an equality that takes true, 1
and 1.0 for one value. -/
namespace RedfishCtl.Json

mutual
/- The same JSON value: as `pyEq`, with booleans, integers and floats kept apart. -/
def sameValue : Json → Json → Bool
  | .null, .null => true
  | .bool a, .bool b => a = b
  | .int a, .int b => a = b
  | .float a, .float b => sameNumber (number (.float a)) (number (.float b))
  | .str a, .str b => a = b
  | .arr a, .arr b => sameItems a b
  | .obj a, .obj b => a.length = b.length && sameMembers a b
  | _, _ => false
termination_by structural x => x
def sameItems : List Json → List Json → Bool
  | [], [] => true
  | x::xs, y::ys => sameValue x y && sameItems xs ys
  | _, _ => false
termination_by structural x => x
def sameMembers : List (String × Json) → List (String × Json) → Bool
  | [], _ => true
  | (k,x)::xs, ys => (match ys.lookup k with
      | some y => sameValue x y
      | none => false) && sameMembers xs ys
termination_by structural x => x
end

inductive NumberKind where
  | boolean
  | integer
  | floating
  deriving DecidableEq

def numberKind : Json → Option NumberKind
  | .bool _ => some .boolean
  | .int _ => some .integer
  | .float _ => some .floating
  | .null | .str _ | .arr _ | .obj _ => none

mutual
def sameKinds : Json → Json → Bool
  | .arr a, y => match y with
      | .arr b => sameKindsItems a b
      | _ => true
  | .obj a, y => match y with
      | .obj b => sameKindsMembers a b
      | _ => true
  | .null, _ => true
  | .str _, _ => true
  | .bool _, y => (numberKind y).all (· = .boolean)
  | .int _, y => (numberKind y).all (· = .integer)
  | .float _, y => (numberKind y).all (· = .floating)
termination_by structural x => x
def sameKindsItems : List Json → List Json → Bool
  | x::xs, y::ys => sameKinds x y && sameKindsItems xs ys
  | [], _ | _::_, [] => true
termination_by structural x => x
def sameKindsMembers : List (String × Json) → List (String × Json) → Bool
  | [], _ => true
  | (k,x)::xs, ys => (match ys.lookup k with
      | some y => sameKinds x y
      | none => true) && sameKindsMembers xs ys
termination_by structural x => x
end

variable {y : Json}

theorem sameBool {a} (equal : pyEq (.bool a) y = true) :
    sameValue (.bool a) y = sameKinds (.bool a) y := by
  cases y with
  | bool b =>
    have values : a = b := by
      cases a <;> cases b <;> simp [pyEq,number,sameNumber] at equal ⊢
    simp [sameValue,sameKinds,numberKind,values]
  | _ => simp_all [pyEq,number,sameNumber,sameValue,sameKinds,numberKind]

theorem sameInt {a} (equal : pyEq (.int a) y = true) : sameValue (.int a) y = sameKinds (.int a) y := by
  cases y with
  | int b =>
    have values : a = b := by simpa [pyEq,number,sameNumber] using equal
    simp [sameValue,sameKinds,numberKind,values]
  | _ => simp_all [pyEq,number,sameNumber,sameValue,sameKinds,numberKind]

theorem sameFloat {a} (equal : pyEq (.float a) y = true) :
    sameValue (.float a) y = sameKinds (.float a) y := by
  cases y with
  | float b =>
    rw [pyEq] at equal
    simp [sameValue,sameKinds,numberKind,equal]
  | _ => simp_all [pyEq,number,sameNumber,sameValue,sameKinds,numberKind]

mutual
theorem sameValueKinds : ∀ {x y : Json}, pyEq x y = true → sameValue x y = sameKinds x y
  | .null, y, equal => by cases y <;> simp_all [pyEq,sameValue,sameKinds]
  | .str a, y, equal => by cases y <;> simp_all [pyEq,sameValue,sameKinds]
  | .bool a, y, equal => sameBool equal
  | .int a, y, equal => sameInt equal
  | .float a, y, equal => sameFloat equal
  | .arr a, .arr b, equal => by
      rw [sameValue,sameKinds]
      exact sameItemsKinds (by simpa [pyEq] using equal)
  | .obj a, .obj b, equal => by
      have parts : a.length = b.length ∧ pyEqMembers a b = true := by simpa [pyEq] using equal
      rw [sameValue,sameKinds,← sameMembersKinds parts.2,decide_eq_true parts.1,Bool.true_and]
  | .arr a, .null, equal | .arr a, .bool _, equal | .arr a, .int _, equal | .arr a, .float _, equal
  | .arr a, .str _, equal | .arr a, .obj _, equal => by simp [pyEq] at equal
  | .obj a, .null, equal | .obj a, .bool _, equal | .obj a, .int _, equal | .obj a, .float _, equal
  | .obj a, .str _, equal | .obj a, .arr _, equal => by simp [pyEq] at equal
theorem sameItemsKinds : ∀ {xs ys : List Json}, pyEqItems xs ys = true →
    sameItems xs ys = sameKindsItems xs ys
  | [], [], _ => rfl
  | [], _::_, equal => by simp [pyEqItems] at equal
  | _::_, [], equal => by simp [pyEqItems] at equal
  | x::xs, y::ys, equal => by
      rw [pyEqItems,Bool.and_eq_true] at equal
      rw [sameItems,sameKindsItems,sameValueKinds equal.1,sameItemsKinds equal.2]
theorem sameMembersKinds : ∀ {xs ys : List (String × Json)}, pyEqMembers xs ys = true →
    sameMembers xs ys = sameKindsMembers xs ys
  | [], _, _ => rfl
  | (k,x)::xs, ys, equal => by
      rw [pyEqMembers,Bool.and_eq_true] at equal
      rw [sameMembers,sameKindsMembers,sameMembersKinds equal.2]
      cases found : ys.lookup k with
      | none => simp [found] at equal
      | some y =>
        rw [found] at equal
        simp only [sameValueKinds equal.1]
end

theorem pyEqMember {xs ys} (equal : pyEqMembers xs ys = true) {k x} (found : xs.lookup k = some x) :
    ∃ y, ys.lookup k = some y ∧ pyEq x y = true := by
  induction xs with
  | nil => cases found
  | cons p rest ih =>
    obtain ⟨l,value⟩ := p
    rw [pyEqMembers,Bool.and_eq_true] at equal
    rw [AssocList.lookupCons] at found
    split at found
    · rename_i same
      cases Option.some.inj found
      rw [same]
      cases other : ys.lookup l with
      | none => simp [other] at equal
      | some y =>
        rw [other] at equal
        exact ⟨y,rfl,equal.1⟩
    · exact ih equal.2 found

theorem pyEqText {x} (equal : pyEq x y = true) {key text} (found : x.get? key = some (.str text)) :
    y.get? key = some (.str text) := by
  cases x with
  | obj a =>
    cases y with
    | obj b =>
      have parts : a.length = b.length ∧ pyEqMembers a b = true := by simpa [pyEq] using equal
      obtain ⟨other,inside,same⟩ := pyEqMember parts.2 found
      cases other with
      | str s =>
        have texts : text = s := by simpa [pyEq] using same
        rw [getObj,inside,texts]
      | _ => simp [pyEq] at same
    | _ => simp [pyEq] at equal
  | _ => cases found

end RedfishCtl.Json

namespace RedfishCtl.CorpusTree
open AssocList Buckets
open Stateful (okOfBind)

section
variable {rt : Runtime} {files : List (String × Bytes)} {lookup : List (String × List String)}
variable {e : Evidence} {fixture : String} {found : Alias}

structure AliasFound (rt : Runtime) (lookup : List (String × List String)) (e : Evidence)
    (fixture : String) (found : Alias) (document other : Json) : Prop where
  top : topRoutes e fixture = [found.canonicalRoute]
  parsed : e.parsed.lookup fixture = some document
  canonical : bucket lookup (rt.casefold (forwardFilename found.canonicalRoute ".json")) =
    [found.canonicalSourceFixture]
  apart : found.canonicalSourceFixture ≠ fixture
  parsedOther : e.parsed.lookup found.canonicalSourceFixture = some other
  claimed : found.canonicalRoute ∈
    (bucket e.candidates found.canonicalSourceFixture).map Candidate.route
  equal : Json.pyEq document other = true

theorem aliasFound (known : canonicalAliasExclusion rt files lookup e fixture = some found) :
    ∃ document other, AliasFound rt lookup e fixture found document other := by
  unfold canonicalAliasExclusion at known
  split at known
  · rename_i route document top parsed
    dsimp only at known
    split at known
    · cases known
    split at known
    · rename_i canonical matched
      split at known
      · cases known
      rename_i apart
      split at known
      · cases known
      rename_i other parsedOther
      split at known
      · cases known
      rename_i claimed
      split at known
      · cases known
      rename_i equal
      cases Option.some.inj known
      exact ⟨document,other,top,parsed,matched,apart,parsedOther,by simpa using claimed,
        by simpa using equal⟩
    · cases known
  · cases known

theorem topRouteOwn (grounded : Grounded rt files e) {route document}
    (top : topRoutes e fixture = [route]) (parsed : e.parsed.lookup fixture = some document) :
    ∃ raw, document.get? "@odata.id" = some (.str raw) ∧ canonicalizeRoute rt raw = .ok route := by
  have mem : route ∈ topRoutes e fixture := by rw [top]; exact List.mem_singleton_self route
  rw [topRoutes,memSortedSet] at mem
  obtain ⟨c,inside,rfl⟩ := List.mem_map.mp mem
  obtain ⟨claimed,source⟩ := List.mem_filter.mp inside
  obtain ⟨own,raw,loaded,id,canonical⟩ := grounded.top claimed (by simpa using source)
  have same : document = own := by
    have read := (grounded.read parsed).2.2
    rw [loaded] at read
    exact (Except.ok.inj read).symm
  exact ⟨raw,same ▸ id,canonical⟩

theorem canonicalNoAlias (grounded : Grounded rt files e)
    (known : canonicalAliasExclusion rt files lookup e fixture = some found) :
    canonicalAliasExclusion rt files lookup e found.canonicalSourceFixture = none := by
  obtain ⟨document,other,first⟩ := aliasFound known
  cases again : canonicalAliasExclusion rt files lookup e found.canonicalSourceFixture with
  | none => rfl
  | some next =>
    obtain ⟨document',other',second⟩ := aliasFound again
    obtain ⟨raw,id,canonical⟩ := topRouteOwn grounded first.top first.parsed
    obtain ⟨raw',id',canonical'⟩ := topRouteOwn grounded second.top second.parsed
    cases Option.some.inj (first.parsedOther.symm.trans second.parsed)
    have own := Json.pyEqText first.equal id
    cases Json.str.inj (Option.some.inj (own.symm.trans id'))
    have routes := Except.ok.inj (canonical.symm.trans canonical')
    have matched := first.canonical
    rw [routes,second.canonical] at matched
    exact absurd (List.cons.inj matched).1 second.apart

end

def documentOf (rt : Runtime) (files : List (String × Bytes)) (fixture : String) : Except PyError Json :=
  jsonLoadBytes rt (payloadOf files fixture) fixture

def AliasesKept (rt : Runtime) (files : List (String × Bytes)) (report : Report) : Prop :=
  ∀ fixture found, (fixture,Reason.canonicalAliasSubset found) ∈ report.excluded →
    (∃ m ∈ report.mappings, m.sourceFixture = found.canonicalSourceFixture) ∧
    ∃ document other, documentOf rt files fixture = .ok document ∧
      documentOf rt files found.canonicalSourceFixture = .ok other ∧ Json.sameValue document other = true

def AliasesAlike (rt : Runtime) (files : List (String × Bytes)) (report : Report) : Prop :=
  ∀ fixture found, (fixture,Reason.canonicalAliasSubset found) ∈ report.excluded →
    ∀ document other, documentOf rt files fixture = .ok document →
      documentOf rt files found.canonicalSourceFixture = .ok other → Json.sameKinds document other = true

section
variable {rt : Runtime} {files : List (String × Bytes)}

theorem notUnresolved {v f} (counted : countStatus v .unresolved = 0) :
    v.status.lookup f ≠ some .unresolved := by
  intro found
  rw [countStatus,List.length_eq_zero_iff,List.filter_eq_nil_iff] at counted
  exact counted _ (lookupMem found) (decide_eq_true rfl)

theorem canonicalEmitted {w} (sound : Sound rt files w)
    (counted : countStatus (finalVerdicts rt files w) .unresolved = 0) {fixture found}
    (known : aliasOf rt files w.evidence fixture = some found) :
    found.canonicalSourceFixture ∈ keys (classify rt files w).routes := by
  obtain ⟨document,other,evidence⟩ := aliasFound known
  obtain ⟨seen,named,-⟩ := sound.grounded.read evidence.parsedOther
  have closed := finalClosed sound
  obtain ⟨status,settled⟩ := Option.isSome_iff_exists.mp (finalTotal rt w named)
  cases status with
  | emitted => exact closed.emitted.mp settled
  | unresolved => exact absurd settled (notUnresolved counted)
  | excluded =>
    rcases closed.excluded settled with skipped | aliased | unrouted
    · rw [seen] at skipped
      cases skipped
    · rw [aliasOf,canonicalNoAlias sound.grounded known] at aliased
      cases aliased
    have mem : found.canonicalRoute ∈
        routesOf (bucket w.evidence.candidates found.canonicalSourceFixture) :=
      memSortedSet.mpr evidence.claimed
    rw [unrouted] at mem
    cases mem

theorem aliasesKept {w c} (sound : Sound rt files w) (concluded : Concluded rt files w c)
    (passed : c.report.passed = true) :
    AliasesKept rt files c.report ↔ AliasesAlike rt files c.report := by
  have known : ∀ {fixture found}, (fixture,Reason.canonicalAliasSubset found) ∈ c.report.excluded →
      aliasOf rt files w.evidence fixture = some found := by
    intro fixture found mem
    rw [concluded.excluded] at mem
    exact (finalClosed sound).aliases (memRowsOf.mp mem).2.2
  constructor
  · intro kept fixture found mem document other loaded loadedOther
    obtain ⟨-,document',other',first,second,same⟩ := kept fixture found mem
    cases Except.ok.inj (loaded.symm.trans first)
    cases Except.ok.inj (loadedOther.symm.trans second)
    obtain ⟨own,canonical,evidence⟩ := aliasFound (known mem)
    cases Except.ok.inj (loaded.symm.trans (sound.grounded.read evidence.parsed).2.2)
    cases Except.ok.inj (loadedOther.symm.trans (sound.grounded.read evidence.parsedOther).2.2)
    rw [← Json.sameValueKinds evidence.equal]
    exact same
  · intro alike fixture found mem
    obtain ⟨document,other,evidence⟩ := aliasFound (known mem)
    have loaded := (sound.grounded.read evidence.parsed).2.2
    have loadedOther := (sound.grounded.read evidence.parsedOther).2.2
    refine ⟨?_,document,other,loaded,loadedOther,?_⟩
    · obtain ⟨p,inside,same⟩ :=
        List.mem_map.mp (canonicalEmitted sound (concluded.passed passed).2.1 (known mem))
      refine ⟨mappingOf files p,?_,(mappingFixture p).trans same⟩
      rw [concluded.mappings]
      exact List.mem_map_of_mem (memEmissions.mpr inside)
    · rw [Json.sameValueKinds evidence.equal]
      exact alike fixture found mem document other loaded loadedOther

theorem aliasExclusionKeepsData (rt : Runtime) {row : Row} {archive : Archive} {c : Conversion}
    (done : buildConversion rt row archive = .ok c) (passed : c.report.passed = true) :
    ∃ files, readArchive archive row.arcname = .ok files ∧
      (AliasesKept rt files c.report ↔ AliasesAlike rt files c.report) := by
  unfold buildConversion at done
  split at done
  · cases done
  obtain ⟨files,read,rest⟩ := okOfBind done
  obtain ⟨routeMap,-,rest⟩ := okOfBind rest
  obtain ⟨w,gathering,finished⟩ := okOfBind rest
  exact ⟨files,read,aliasesKept (gathered gathering).sound (concluded finished) passed⟩

end

def aliasDocuments (rt : Runtime) (files : List (String × Bytes)) (report : Report) : List (Json × Json) :=
  report.excluded.filterMap fun row => match row.2 with
    | .canonicalAliasSubset found =>
        match documentOf rt files row.1, documentOf rt files found.canonicalSourceFixture with
        | .ok document, .ok other => some (document,other)
        | _, _ => none
    | _ => none

theorem memAliasDocuments {rt files report p} :
    p ∈ aliasDocuments rt files report ↔ ∃ fixture found,
      (fixture,Reason.canonicalAliasSubset found) ∈ report.excluded ∧
      documentOf rt files fixture = .ok p.1 ∧ documentOf rt files found.canonicalSourceFixture = .ok p.2 := by
  rw [aliasDocuments,List.mem_filterMap]
  constructor
  · rintro ⟨⟨fixture,reason⟩,mem,here⟩
    cases reason with
    | canonicalAliasSubset found =>
      dsimp only at here
      split at here
      · rename_i document other loaded loadedOther
        cases Option.some.inj here
        exact ⟨fixture,found,mem,loaded,loadedOther⟩
      · cases here
    | _ => cases here
  · rintro ⟨fixture,found,mem,loaded,loadedOther⟩
    exact ⟨_,mem,by simp [loaded,loadedOther]⟩

namespace Sample

def aliased (first second : Json) : List Json :=
  [document "/redfish/v1" [("A",document "/redfish/v1/A" []),("B",document "/redfish/v1/B" [])],
    document "/redfish/v1/A" [("Enabled",first)],document "/redfish/v1/A" [("Enabled",second)]]

def aliasArchive : Archive :=
  archive [member "_redfish_v1.json" [0],member "_redfish_v1_A.json" [1],member "_redfish_v1_B.json" [2]]

def compared (first second : Json) : Option (List (Json × Json)) :=
  match buildConversion (runtime (aliased first second)) row aliasArchive,
      readArchive aliasArchive row.arcname with
  | .ok c, .ok files =>
      if c.report.passed then some (aliasDocuments (runtime (aliased first second)) files c.report) else none
  | _, _ => none

theorem comparedOk {first second documents} (done : compared first second = some documents) :
    ∃ c files,
      buildConversion (runtime (aliased first second)) row aliasArchive = .ok c ∧
      readArchive aliasArchive row.arcname = .ok files ∧ c.report.passed = true ∧
      aliasDocuments (runtime (aliased first second)) files c.report = documents := by
  unfold compared at done
  split at done
  · rename_i c files built read
    split at done
    · rename_i passed
      exact ⟨c,files,built,read,passed,Option.some.inj done⟩
    · cases done
  · cases done

end Sample

open Sample in
theorem sameAliasKept : ∃ c files,
    buildConversion (runtime (aliased (.bool true) (.bool true))) row aliasArchive = .ok c ∧
    c.report.passed = true ∧ c.report.excluded ≠ [] ∧
    AliasesKept (runtime (aliased (.bool true) (.bool true))) files c.report := by
  have documents : compared (.bool true) (.bool true) =
      some [(document "/redfish/v1/A" [("Enabled",.bool true)],
        document "/redfish/v1/A" [("Enabled",.bool true)])] := by
    decide +kernel
  obtain ⟨c,files,built,read,passed,pairs⟩ := comparedOk documents
  obtain ⟨files',read',equivalent⟩ := aliasExclusionKeepsData _ built passed
  cases Except.ok.inj (read.symm.trans read')
  refine ⟨c,files,built,passed,fun none => ?_,equivalent.mpr fun fixture found mem d o loaded other => ?_⟩
  · rw [aliasDocuments,none] at pairs
    cases pairs
  have inside : (d,o) ∈ aliasDocuments (runtime (aliased (.bool true) (.bool true))) files c.report :=
    memAliasDocuments.mpr ⟨fixture,found,mem,loaded,other⟩
  rw [pairs] at inside
  cases List.mem_singleton.mp inside
  decide +kernel

open Sample in
theorem numberAliasLost : ∃ c files,
    buildConversion (runtime (aliased (.bool true) (.int 1))) row aliasArchive = .ok c ∧
    readArchive aliasArchive row.arcname = .ok files ∧ c.report.passed = true ∧
    ¬ AliasesKept (runtime (aliased (.bool true) (.int 1))) files c.report := by
  have documents : compared (.bool true) (.int 1) =
      some [(document "/redfish/v1/A" [("Enabled",.int 1)],
        document "/redfish/v1/A" [("Enabled",.bool true)])] := by
    decide +kernel
  obtain ⟨c,files,built,read,passed,pairs⟩ := comparedOk documents
  refine ⟨c,files,built,read,passed,fun kept => ?_⟩
  obtain ⟨fixture,found,mem,loaded,loadedOther⟩ :=
    memAliasDocuments.mp (pairs ▸ List.mem_singleton_self _)
  obtain ⟨-,d,o,first,second,same⟩ := kept fixture found mem
  cases Except.ok.inj (loaded.symm.trans first)
  cases Except.ok.inj (loadedOther.symm.trans second)
  exact absurd same (by decide +kernel)

end RedfishCtl.CorpusTree
