import RedfishCtl.CorpusTreeAccount
import RedfishCtl.MockTree

/-! The converted tree under the mock server. Both read a reference in the same way, so a reference
to an emitted route leads to its file, as long as the server takes the right directory for the
service root. -/
namespace RedfishCtl.CorpusTree
open AssocList Buckets
open PosixPath
open MockTree (Tree Output pathOf nameOf isFile materialize mockupServiceRoot mockupFileForRedfishPath
  mockupIndex contained writeFile)
open Stateful (okOfBind)

structure Segments (route : String) (path : Path) : Prop where
  names : Names path
  spelled : route.toList = serviceRoot.toList ++ spell path

variable {route : String}

theorem checkPathOk {path} (done : checkPath path = .ok route) :
    route = String.ofList path ∧ ∃ segments, Segments route segments := by
  unfold checkPath at done
  split at done
  · cases done
  split at done
  · cases done
  rename_i below
  by_cases root : path = serviceRoot.toList
  · subst root
    cases Except.ok.inj done
    exact ⟨rfl,[],fun _ mem => absurd mem List.not_mem_nil,by simp [spell]⟩
  have prefixed : (serviceRoot ++ "/").toList.isPrefixOf path = true := by
    by_contra outside
    exact below ⟨root,by rw [Bool.eq_false_of_not_eq_true outside]; rfl⟩
  obtain ⟨rest,whole⟩ := List.isPrefixOf_iff_prefix.mp prefixed
  have suffix : path.drop serviceRoot.length = '/'::rest := by
    rw [← whole]
    rfl
  rw [suffix] at done
  simp only [List.isEmpty_cons,Bool.false_eq_true,if_false,List.drop_succ_cons,List.drop_zero] at done
  split at done
  · cases done
  rename_i noEmpty
  split at done
  · cases done
  rename_i noDot
  split at done
  · cases done
  rename_i noDots
  cases Except.ok.inj done
  obtain ⟨spelled,clean⟩ := splitSpelled rest
  refine ⟨rfl,rest.splitOn '/',fun s mem => isNameIff.mpr ⟨?_,?_,?_,clean s mem⟩,?_⟩
  · rintro rfl
    exact noEmpty (List.any_eq_true.mpr ⟨_,mem,by simp⟩)
  · rintro rfl
    exact noDot (List.any_eq_true.mpr ⟨_,mem,by simp⟩)
  · rintro rfl
    exact noDots (List.any_eq_true.mpr ⟨_,mem,by simp⟩)
  · rw [spelled,← whole]
    simp

variable {path : Path}

theorem Segments.last (segments : Segments route path) : route.toList.getLast? ≠ some '/' := by
  rw [segments.spelled]
  cases path with
  | nil => simp [spell,serviceRoot]
  | cons s rest =>
    rw [spellRender (List.cons_ne_nil s rest),List.getLast?_append_of_ne_nil _ (List.cons_ne_nil _ _)]
    have full : render (s::rest) ≠ [] := by
      intro none
      have own := partsRender segments.names
      rw [none] at own
      cases own
    rw [List.getLast?_cons_of_ne_nil full]
    exact renderLast segments.names

theorem dropSlashOk {path left} (dropped : dropSlash path = left) :
    path = left ∨ path = left ++ ['/'] := by
  unfold dropSlash at dropped
  split at dropped
  · rename_i root
    right
    rw [root,← dropped]
    decide
  split at dropped
  · rename_i last
    right
    rw [← dropped]
    exact (List.dropLast_append_getLast? '/' last).symm
  · exact .inl dropped

theorem stripTrailingOk {path left} (dropped : dropSlash path = left) (full : left ≠ [])
    (last : left.getLast? ≠ some '/') : PyUrl.stripTrailing path = left := by
  rcases dropSlashOk dropped with rfl | rfl
  · exact PyUrl.stripNothing last
  have other : left ++ ['/'] ≠ ['/'] := by simpa using full
  rw [PyUrl.stripTrailing,if_neg other,PyText.dropEnd,List.reverse_append]
  refine PyText.dropEndSame fun c final => ?_
  have different : c ≠ '/' := fun same => last (same ▸ final)
  simpa using different

variable {rt : Runtime} {raw : String}

theorem canonicalOk {route} (done : canonicalizeRoute rt raw = .ok route) :
    ∃ parsed, PyUrl.urlsplit raw = .ok parsed ∧ escapesOk parsed.path = true ∧
      (∀ c ∈ PyUrl.unquote parsed.path, c ≠ '\\' ∧ c ≠ Char.ofNat 0) ∧
      checkPath (dropSlash (PyUrl.unquote parsed.path)) = .ok route := by
  unfold canonicalizeRoute at done
  split at done
  · cases done
  split at done
  · cases done
  rename_i parsed divided
  refine ⟨parsed,divided,?_⟩
  iterate 3
    split at done
    · cases done
  split at done
  · cases done
  rename_i escapes
  iterate 3
    split at done
    · cases done
  dsimp only at done
  split at done
  · cases done
  split at done
  · cases done
  rename_i noBackslash noNul
  refine ⟨by simpa using escapes,fun c mem => ⟨?_,?_⟩,done⟩
  · rintro rfl
    exact noBackslash (List.contains_iff_mem.mpr mem)
  · rintro rfl
    exact noNul (List.contains_iff_mem.mpr mem)

theorem canonicalNormalized {route} (done : canonicalizeRoute rt raw = .ok route) :
    PyUrl.normalizeRequestPath raw = .ok route := by
  obtain ⟨parsed,read,-,-,checked⟩ := canonicalOk done
  obtain ⟨whole,segments,shape⟩ := checkPathOk checked
  have full : route.toList ≠ [] := by
    rw [shape.spelled]
    simp [serviceRoot]
  have left : dropSlash (PyUrl.unquote parsed.path) = route.toList := by
    rw [whole,String.toList_ofList]
  rw [PyUrl.normalizeRequestPath,PyUrl.urlsplitPathSplit,read]
  simp only [Except.map,bind,Except.bind]
  rw [stripTrailingOk left full shape.last,String.ofList_toList]

theorem canonicalSegments {route} (done : canonicalizeRoute rt raw = .ok route) :
    (∃ segments, Segments route segments) ∧ Char.ofNat 0 ∉ route.toList := by
  obtain ⟨parsed,-,-,clean,checked⟩ := canonicalOk done
  obtain ⟨whole,shape⟩ := checkPathOk checked
  refine ⟨shape,fun mem => ?_⟩
  rw [whole,String.toList_ofList] at mem
  rcases @dropSlashOk (PyUrl.unquote parsed.path) _ rfl with same | longer
  · exact (clean _ (same ▸ mem)).2 rfl
  · exact (clean _ (longer ▸ List.mem_append_left _ mem)).2 rfl

theorem stripSpelled (names : Names path) :
    stripSlashes (String.ofList (spell path)) = String.ofList (render path) := by
  unfold stripSlashes PyText.stripChars
  rw [String.toList_ofList]
  congr 1
  have trimmed : (spell path).dropWhile (fun c => decide (c = '/')) = render path := by
    cases path with
    | nil => rfl
    | cons s rest =>
      rw [spellRender (List.cons_ne_nil s rest),List.dropWhile_cons_of_pos (by simp)]
      have first := renderHead names
      cases shape : render (s::rest) with
      | nil => rfl
      | cons c others =>
        rw [shape] at first
        exact List.dropWhile_cons_of_neg (by simpa using first)
  rw [trimmed]
  refine PyText.dropEndSame fun c final => ?_
  have different : c ≠ '/' := fun same => renderLast names (same ▸ final)
  simpa using different

theorem Segments.subpath (segments : Segments route path) :
    stripSlashes (String.ofList (route.toList.drop serviceRoot.length)) = String.ofList (render path) := by
  rw [segments.spelled]
  exact stripSpelled segments.names

def terminalOf (xml : Bool) : List Char := (if xml then "index.xml" else "index.json").toList

theorem terminalName (xml : Bool) : isName (terminalOf xml) = true := by
  cases xml <;> decide

theorem renderNil (names : Names path) : render path = [] ↔ path = [] := by
  constructor
  · intro none
    rw [← partsRender names,none]
    rfl
  · rintro rfl
    rfl

theorem snocNames {s} (names : Names path) (name : isName s = true) : Names (path ++ [s]) := by
  intro t mem
  rcases List.mem_append.mp mem with inside | last
  · exact names t inside
  · exact List.mem_singleton.mp last ▸ name

theorem Segments.destination (segments : Segments route path) (xml : Bool) :
    destinationForRoute route xml = nameOf (path ++ [terminalOf xml]) := by
  unfold destinationForRoute nameOf
  rw [segments.subpath]
  have terminal : (if xml then "index.xml" else "index.json") = String.ofList (terminalOf xml) := by
    rw [terminalOf,String.ofList_toList]
  rw [terminal]
  by_cases root : path = []
  · subst root
    rfl
  have full : String.ofList (render path) ≠ "" := by
    intro none
    have empty := congrArg String.toList none
    rw [String.toList_ofList] at empty
    exact root ((renderNil segments.names).mp empty)
  rw [if_neg full,renderSnoc root,← String.ofList_toList (s := String.ofList (render path) ++ "/" ++ _)]
  simp

theorem Segments.destinationPath (segments : Segments route path) (xml : Bool) :
    pathOf (destinationForRoute route xml) = path ++ [terminalOf xml] := by
  rw [segments.destination xml,pathOf,nameOf,String.toList_ofList]
  exact partsRender (snocNames segments.names (terminalName xml))

theorem Segments.unique {path other} (first : Segments route path) (second : Segments route other) :
    path = other := by
  have same := first.destinationPath false
  rw [second.destinationPath false] at same
  exact (List.append_inj_left' same rfl).symm

theorem nameInj {path other} (names : Names path) (otherNames : Names other)
    (same : nameOf path = nameOf other) : path = other := by
  refine renderInj names otherNames ?_
  have texts := congrArg String.toList same
  rwa [nameOf,nameOf,String.toList_ofList,String.toList_ofList] at texts

theorem writeFileOk {t after p} (done : writeFile t p = .ok after) :
    after = AssocList.insert (nameOf (pathOf p.1)) p.2 t := by
  unfold writeFile at done
  dsimp only at done
  split at done
  · cases done
  split at done
  · cases done
  · exact (Except.ok.inj done).symm

theorem writeAllKeys {items : List (String × Bytes)} {t after}
    (done : items.foldlM writeFile t = .ok after) (name : String) :
    name ∈ keys after ↔ name ∈ keys t ∨ ∃ p ∈ items, nameOf (pathOf p.1) = name := by
  induction items generalizing t with
  | nil =>
    cases Except.ok.inj done
    simp
  | cons p rest ih =>
    obtain ⟨next,first,later⟩ := okOfBind done
    rw [ih later,writeFileOk first,memKeysInsert]
    simp only [List.mem_cons,exists_eq_or_imp]
    constructor
    · rintro ((same | old) | later)
      · exact .inr (.inl same.symm)
      · exact .inl old
      · exact .inr (.inr later)
    · rintro (old | same | later)
      · exact .inl (.inr old)
      · exact .inl (.inl same.symm)
      · exact .inr later

theorem materializedKeys {c : Conversion} {before after}
    (proper : ∀ name ∈ keys c.payloads, nameOf (pathOf name) = name)
    (done : materialize c before = .ok after) :
    ∃ t, after.profile = some t ∧ ∀ name, name ∈ keys t ↔ name ∈ keys c.payloads := by
  unfold materialize at done
  split at done
  · cases done
  dsimp only at done
  split at done
  · cases done
  rename_i matching
  split at done
  · cases done
  obtain ⟨t,created,rest⟩ := okOfBind done
  cases Except.ok.inj rest
  refine ⟨t,rfl,fun name => ?_⟩
  cases existing : before.profile with
  | none =>
    rw [existing] at created
    rw [writeAllKeys created name]
    constructor
    · rintro (none | ⟨p,mem,same⟩)
      · cases none
      · have inside : p.1 ∈ keys c.payloads := List.mem_map_of_mem (memSortedItems.mp mem)
        exact same ▸ (proper p.1 inside).symm ▸ inside
    · intro mem
      obtain ⟨p,inside,rfl⟩ := List.mem_map.mp mem
      exact .inr ⟨p,memSortedItems.mpr inside,proper p.1 mem⟩
  | some tree =>
    rw [existing] at created matching
    cases Except.ok.inj created
    simp only [MockTree.findingsOf,MockTree.existingTreeFindings] at matching
    have none : ∀ {text : String} {names : List String}, (sortedNames names).map (text ++ ·) = [] →
        names = [] := by
      intro text names empty
      exact List.eq_nil_iff_forall_not_mem.mpr fun x mem =>
        List.not_mem_nil ((List.map_eq_nil_iff.mp empty) ▸ memSortedNames.mpr mem)
    simp only [Bool.not_eq_true',Bool.not_eq_false,List.isEmpty_iff,List.append_eq_nil_iff] at matching
    have missing := List.filter_eq_nil_iff.mp (none matching.1.1)
    have unexpected := List.filter_eq_nil_iff.mp (none matching.1.2)
    constructor
    · intro mem
      simpa using unexpected name mem
    · intro mem
      simpa using missing name mem

section
variable {rt : Runtime} {files : List (String × Bytes)} {w : Work} {p : String × String}

theorem Undisputed.segments (undisputed : Undisputed rt files w p)
    (grounded : Grounded rt files w.evidence) :
    (∃ segments, Segments p.2 segments) ∧ Char.ofNat 0 ∉ p.2.toList := by
  have mem : p.2 ∈ routesOf (bucket w.evidence.candidates p.1) := by
    rw [undisputed.agreed]
    exact List.mem_singleton_self _
  obtain ⟨c,inside,same⟩ := List.mem_map.mp (memSortedSet.mp mem)
  obtain ⟨raw,canonical⟩ := grounded.routes inside
  rw [same] at canonical
  exact canonicalSegments canonical

theorem Segments.partsOf {path} (segments : Segments p.2 path) :
    partsOf p = path ++ [terminalOf (p.1 = metadataFixture)] :=
  segments.destinationPath _

def Holds (t : Tree) (routes : List (String × String)) : Prop :=
  ∀ path, Names path → (isFile t path = true ↔ ∃ p ∈ routes, partsOf p = path)

variable {routes : List (String × String)} {t : Tree}

theorem treeHolds (shapes : ∀ p ∈ routes, ∃ segments, Segments p.2 segments)
    (same : ∀ name, name ∈ keys t ↔ name ∈ keys (payloadsOf files routes)) : Holds t routes := by
  intro path names
  rw [isFile,List.contains_iff_mem,same,memPayloads]
  constructor
  · rintro ⟨p,mem,named⟩
    obtain ⟨segments,shape⟩ := shapes p mem
    rw [destinationOf,shape.destination] at named
    refine ⟨p,mem,?_⟩
    rw [shape.partsOf]
    exact nameInj (snocNames shape.names (terminalName _)) names named
  · rintro ⟨p,mem,rfl⟩
    obtain ⟨segments,shape⟩ := shapes p mem
    refine ⟨p,mem,?_⟩
    rw [shape.partsOf,destinationOf,shape.destination]

variable {base : Path}

theorem containedPlain {root candidate} (resolved : ['.','.'] ∉ base) (names : Names candidate)
    (inside : root <+: candidate) :
    contained base root t candidate = if isFile t candidate then some candidate else none := by
  have plain : ['.','.'] ∉ base ++ candidate := by
    intro mem
    rcases List.mem_append.mp mem with left | right
    · exact resolved left
    · exact (isNameIff.mp (names _ right)).2.2.1 rfl
  have within := List.isPrefixOf_iff_prefix.mpr ((List.prefix_append_right_inj base).mpr inside)
  rw [contained,normalSame plain]
  simp [within]

theorem Segments.served {route path} (segments : Segments route path) :
    ¬ (route ≠ "/redfish/v1" ∧ (!"/redfish/v1/".toList.isPrefixOf route.toList) = true) := by
  rintro ⟨other,outside⟩
  cases path with
  | nil =>
    refine other ?_
    have whole := segments.spelled
    exact String.toList_inj.mp whole
  | cons s rest =>
    rw [segments.spelled] at outside
    cases outside

def metadataSegment : List Char := "$metadata".toList

def candidates (root path : Path) : List Path :=
  (if path = [metadataSegment] then [root ++ [metadataSegment,terminalOf true]] else []) ++
    [root ++ path ++ [mockupIndex],root ++ path]

theorem mockupFileSegments {root path raw route} (canonical : canonicalizeRoute rt raw = .ok route)
    (segments : Segments route path) :
    mockupFileForRedfishPath base t root raw = .ok (if path = [] then some (root ++ [mockupIndex])
      else (candidates root path).findSome? (contained base root t)) := by
  have nul := (canonicalSegments canonical).2
  rw [mockupFileForRedfishPath,canonicalNormalized canonical]
  simp only [bind,Except.bind]
  rw [if_neg segments.served,show "/redfish/v1".length = serviceRoot.length from rfl,segments.subpath]
  by_cases below : path = []
  · subst below
    rfl
  have full : String.ofList (render path) ≠ "" := by
    intro none
    have empty := congrArg String.toList none
    rw [String.toList_ofList] at empty
    exact below ((renderNil segments.names).mp empty)
  have clean : (String.ofList (render path)).toList.contains (Char.ofNat 0) = false := by
    rw [String.toList_ofList]
    refine Bool.eq_false_of_not_eq_true fun mem => nul ?_
    rw [segments.spelled,spellRender below]
    exact List.mem_append_right _ (List.mem_cons_of_mem _ (List.contains_iff_mem.mp mem))
  have metadata : String.ofList (render path) = "$metadata" ↔ path = [metadataSegment] := by
    constructor
    · intro same
      have texts := congrArg String.toList same
      rw [String.toList_ofList] at texts
      exact renderInj segments.names (by decide) texts
    · rintro rfl
      rfl
  have split : parts (String.ofList (render path)).toList = path := by
    rw [String.toList_ofList,partsRender segments.names]
  rw [if_neg full,if_neg (by rw [clean]; exact Bool.false_ne_true),if_neg below,split]
  simp only [metadata]
  rfl

variable {routeMap : List (String × String)}

theorem fileServed (gathered : Gathered rt files routeMap w)
    (routed : ∀ p ∈ routes, Undisputed rt files w p) (apart : Apart rt routes)
    (holds : Holds t routes) (resolved : ['.','.'] ∉ base) (mem : p ∈ routes) {raw}
    (canonical : canonicalizeRoute rt raw = .ok p.2) :
    mockupFileForRedfishPath base t [] raw = .ok (some (partsOf p)) := by
  obtain ⟨path,shape⟩ := (canonicalSegments canonical).1
  have own : isFile t (partsOf p) = true := by
    rw [shape.partsOf]
    exact (holds _ (snocNames shape.names (terminalName _))).mpr ⟨p,mem,shape.partsOf⟩
  have anchor : Segments anchorRoute [metadataSegment] := ⟨by decide,by decide⟩
  rw [mockupFileSegments canonical shape]
  have found : ∀ {candidate : Path}, Names candidate → contained base [] t candidate =
      if isFile t candidate then some candidate else none :=
    fun names => containedPlain resolved names List.nil_prefix
  by_cases metadata : p.1 = metadataFixture
  · -- The metadata document stands under its own name, which is tried first.
    have route := (routed p mem).metadata gathered metadata
    rw [route] at shape
    cases shape.unique anchor
    have place : partsOf p = [metadataSegment,terminalOf true] := by
      rw [Segments.partsOf (route ▸ anchor),decide_eq_true metadata]
      rfl
    have names : Names [metadataSegment,terminalOf true] := snocNames anchor.names (terminalName true)
    have first := found names
    rw [← place,own,place] at first
    simp only [candidates,if_pos,List.nil_append,List.cons_append,List.findSome?_cons,first]
    rw [place]
    rfl
  · have place : partsOf p = path ++ [mockupIndex] := by
      rw [shape.partsOf,decide_eq_false metadata]
      rfl
    by_cases root : path = []
    · rw [if_pos root,place,root]
    rw [if_neg root]
    have names : Names (path ++ [mockupIndex]) := snocNames shape.names (terminalName false)
    have second := found names
    rw [← place,own,place] at second
    have before : path = [metadataSegment] → isFile t [metadataSegment,terminalOf true] = false := by
      intro same
      refine Bool.eq_false_of_not_eq_true fun taken => ?_
      obtain ⟨q,inside,there⟩ := (holds _ (by decide)).mp taken
      obtain ⟨other,shapeOther⟩ := ((routed q inside).segments gathered.sound.grounded).1
      rw [shapeOther.partsOf] at there
      have xml : q.1 = metadataFixture := by
        by_contra plain
        have ends : other ++ [terminalOf (q.1 = metadataFixture)] = [metadataSegment] ++ [terminalOf true] :=
          there
        have terminals := List.append_inj_right' ends rfl
        simp [plain,terminalOf] at terminals
      have routes : p.2 = q.2 := by
        rw [(routed q inside).metadata gathered xml]
        have whole := shape.spelled
        rw [same] at whole
        exact String.toList_inj.mp whole
      have different : p.1 ≠ q.1 := fun equal => metadata (equal.trans xml)
      exact (apart p mem q inside different).1 routes
    rw [place]
    unfold candidates
    split
    · rename_i same
      have first := found (by decide : Names [metadataSegment,terminalOf true])
      rw [before same] at first
      simp only [List.nil_append,List.cons_append,List.findSome?_cons,first,second]
      rfl
    · simp only [List.nil_append,List.findSome?_cons,second]
      rfl

def nestedRoot : String := "/redfish/v1/redfish/v1"

def nestedPath : Path := ["redfish".toList,"v1".toList]

theorem nestedFile
    (gathered : Gathered rt files routeMap w) (routed : ∀ p ∈ routes, Undisputed rt files w p)
    (holds : Holds t routes) :
    isFile t (nestedPath ++ [mockupIndex]) = true ↔ ∃ p ∈ routes, p.2 = nestedRoot := by
  have nested : Segments nestedRoot nestedPath := ⟨by decide,by decide⟩
  have names : Names (nestedPath ++ [mockupIndex]) := by decide
  rw [holds _ names]
  constructor
  · rintro ⟨p,mem,there⟩
    obtain ⟨path,shape⟩ := ((routed p mem).segments gathered.sound.grounded).1
    rw [shape.partsOf] at there
    have same : path = nestedPath := List.append_inj_left' there rfl
    refine ⟨p,mem,String.toList_inj.mp ?_⟩
    rw [shape.spelled,nested.spelled,same]
  · rintro ⟨p,mem,same⟩
    have plain : p.1 ≠ metadataFixture := by
      intro metadata
      have route := (routed p mem).metadata gathered metadata
      rw [same] at route
      exact absurd route (by decide)
    refine ⟨p,mem,?_⟩
    rw [Segments.partsOf (same ▸ nested),decide_eq_false plain]
    rfl

theorem materializedPassed {c before after} (done : materialize c before = .ok after) :
    c.report.passed = true := by
  unfold materialize at done
  split at done
  · cases done
  · rename_i passed
    simpa using passed

theorem planReplays {c} (gathered : Gathered rt files routeMap w)
    (concluded : Concluded rt files w c) (passed : c.report.passed = true)
    (holds : Holds t (classify rt files w).routes) (resolved : ['.','.'] ∉ base) :
    ∃ root, mockupServiceRoot t = .ok root ∧
      ((∀ m ∈ c.report.mappings, ∀ raw, canonicalizeRoute rt raw = .ok m.route →
        mockupFileForRedfishPath base t root raw = .ok (some (pathOf m.destination))) ↔
      ∀ m ∈ c.report.mappings, m.route ≠ nestedRoot) := by
  obtain ⟨routed,apart⟩ := classifyRouted gathered.sound
  obtain ⟨q,inside,service⟩ := emittedRoute (concluded.passed passed).2.2
  have rootSegments : Segments serviceRoot [] := ⟨fun _ mem => absurd mem List.not_mem_nil,by decide⟩
  have mapped : ∀ {p}, p ∈ (classify rt files w).routes → mappingOf files p ∈ c.report.mappings := by
    intro p mem
    rw [concluded.mappings]
    exact List.mem_map_of_mem (memEmissions.mpr mem)
  have nested := nestedFile gathered routed.routed holds
  by_cases taken : isFile t (nestedPath ++ [mockupIndex]) = true
  · refine ⟨nestedPath,if_pos taken,?_⟩
    obtain ⟨p,mem,same⟩ := nested.mp taken
    constructor
    · intro replays
      have reply := replays (mappingOf files q) (mapped inside) serviceRoot
        (by rw [mappingRoute,service]; exact canonicalServiceRoot rt)
      rw [mockupFileSegments (canonicalServiceRoot rt) rootSegments,mappingDestination] at reply
      have place := Option.some.inj (Except.ok.inj reply)
      have own : pathOf (destinationOf q) = [] ++ [terminalOf (q.1 = metadataFixture)] :=
        Segments.partsOf (service ▸ rootSegments)
      rw [own] at place
      exact absurd (congrArg List.length place) (by simp [nestedPath])
    · intro unnested
      exact absurd ((mappingRoute p).trans same) (unnested _ (mapped mem))
  · have first : isFile t [mockupIndex] = true := by
      have plain : q.1 ≠ metadataFixture := by
        intro metadata
        have route := (routed.routed q inside).metadata gathered metadata
        rw [service] at route
        exact absurd route (by decide)
      refine (holds _ (by decide)).mpr ⟨q,inside,?_⟩
      rw [Segments.partsOf (service ▸ rootSegments),decide_eq_false plain]
      rfl
    refine ⟨[],(if_neg taken).trans (if_pos first),?_⟩
    constructor
    · rintro - m mem same
      rw [concluded.mappings] at mem
      obtain ⟨p,emitted,rfl⟩ := List.mem_map.mp mem
      exact taken (nested.mpr ⟨p,memEmissions.mp emitted,(mappingRoute p).symm.trans same⟩)
    rintro - m mem raw canonical
    rw [concluded.mappings] at mem
    obtain ⟨p,emitted,rfl⟩ := List.mem_map.mp mem
    rw [mappingDestination]
    exact fileServed gathered routed.routed apart holds resolved (memEmissions.mp emitted) canonical

theorem treesReplay (rt : Runtime) {row : Row} {archive : Archive} {c : Conversion}
    (done : buildConversion rt row archive = .ok c) {before after : Output}
    (materialized : materialize c before = .ok after) (base : Path) (resolved : ['.','.'] ∉ base) :
    ∃ t root, after.profile = some t ∧ mockupServiceRoot t = .ok root ∧
      ((∀ m ∈ c.report.mappings, ∀ raw, canonicalizeRoute rt raw = .ok m.route →
        mockupFileForRedfishPath base t root raw = .ok (some (pathOf m.destination))) ↔
      ∀ m ∈ c.report.mappings, m.route ≠ nestedRoot) := by
  unfold buildConversion at done
  split at done
  · cases done
  obtain ⟨files,-,rest⟩ := okOfBind done
  obtain ⟨routeMap,-,rest⟩ := okOfBind rest
  obtain ⟨w,gathering,finished⟩ := okOfBind rest
  have claims := gathered gathering
  have plan := concluded finished
  have routed := (classifyRouted claims.sound).1
  have shapes : ∀ p ∈ (classify rt files w).routes, ∃ segments, Segments p.2 segments :=
    fun p mem => ((routed.routed p mem).segments claims.sound.grounded).1
  have proper : ∀ name ∈ keys c.payloads, nameOf (pathOf name) = name := by
    intro name mem
    rw [plan.payloads] at mem
    obtain ⟨p,inside,rfl⟩ := memPayloads.mp mem
    obtain ⟨path,shape⟩ := shapes p inside
    rw [destinationOf,shape.destinationPath,shape.destination]
  obtain ⟨t,profile,same⟩ := materializedKeys proper materialized
  rw [plan.payloads] at same
  obtain ⟨root,chosen,replays⟩ := planReplays claims plan (materializedPassed materialized)
    (treeHolds shapes same) resolved
  exact ⟨t,root,profile,chosen,replays⟩

end

namespace Sample

/- The emitted routes with their places, and the answer to a request, when the converted archive is
materialised in an empty directory and served. -/
def reply (documents : List Json) (source : Archive) (raw : String) :
    Option (List (String × String) × Option Path) := do
  let c ← (buildConversion (runtime documents) row source).toOption
  let after ← (materialize c ⟨none,none⟩).toOption
  let t ← after.profile
  let root ← (mockupServiceRoot t).toOption
  let file ← (mockupFileForRedfishPath [] t root raw).toOption
  some (c.report.mappings.map fun m => (m.route,m.destination),file)

theorem okOfOption {ε α} {x : Except ε α} {a} (found : x.toOption = some a) : x = .ok a := by
  cases x with
  | error e => cases found
  | ok b => exact congrArg Except.ok (Option.some.inj found)

theorem replyOk {documents} {source : Archive} {raw rows file}
    (done : reply documents source raw = some (rows,file)) : ∃ c after t root,
      buildConversion (runtime documents) row source = .ok c ∧ materialize c ⟨none,none⟩ = .ok after ∧
      after.profile = some t ∧ mockupServiceRoot t = .ok root ∧
      mockupFileForRedfishPath [] t root raw = .ok file ∧
      (c.report.mappings.map fun m => (m.route,m.destination)) = rows := by
  simp only [reply,bind,Option.bind_eq_some_iff] at done
  obtain ⟨c,built,after,materialized,t,profile,root,chosen,found,served,last⟩ := done
  cases Option.some.inj last
  exact ⟨c,after,t,root,okOfOption built,okOfOption materialized,profile,okOfOption chosen,
    okOfOption served,rfl⟩

def nested : List Json :=
  [document "/redfish/v1" [("Nested",document nestedRoot [])],document nestedRoot []]

def nestedArchive : Archive :=
  archive [member "_redfish_v1.json" [0],member "_redfish_v1_redfish_v1.json" [1]]

end Sample

open Sample in
theorem smallTreeReplays : ∃ c after t root,
    buildConversion (runtime small) row smallArchive = .ok c ∧ materialize c ⟨none,none⟩ = .ok after ∧
    after.profile = some t ∧ mockupServiceRoot t = .ok root ∧
    ∀ m ∈ c.report.mappings, ∀ raw, canonicalizeRoute (runtime small) raw = .ok m.route →
      mockupFileForRedfishPath [] t root raw = .ok (some (pathOf m.destination)) := by
  have answered : reply small smallArchive "/redfish/v1/Systems/" =
      some ([("/redfish/v1","index.json"),("/redfish/v1/Systems","Systems/index.json")],
        some ["Systems".toList,"index.json".toList]) := by
    decide +kernel
  obtain ⟨c,after,-,-,built,materialized,-,-,-,rows⟩ := replyOk answered
  obtain ⟨t,root,profile,chosen,replays⟩ :=
    treesReplay (runtime small) built materialized [] List.not_mem_nil
  refine ⟨c,after,t,root,built,materialized,profile,chosen,replays.mpr fun m mem same => ?_⟩
  have inside : (m.route,m.destination) ∈ [("/redfish/v1","index.json"),
      ("/redfish/v1/Systems","Systems/index.json")] :=
    rows ▸ List.mem_map_of_mem mem
  rw [same] at inside
  simp [nestedRoot] at inside

open Sample in
theorem nestedRootServed : ∃ c after t root m,
    buildConversion (runtime nested) row nestedArchive = .ok c ∧ materialize c ⟨none,none⟩ = .ok after ∧
    after.profile = some t ∧ mockupServiceRoot t = .ok root ∧ m ∈ c.report.mappings ∧
    canonicalizeRoute (runtime nested) "/redfish/v1" = .ok m.route ∧
    mockupFileForRedfishPath [] t root "/redfish/v1" =
      .ok (some ["redfish".toList,"v1".toList,"index.json".toList]) ∧
    m.destination = "index.json" := by
  have answered : reply nested nestedArchive "/redfish/v1" =
      some ([("/redfish/v1","index.json"),(nestedRoot,"redfish/v1/index.json")],
        some ["redfish".toList,"v1".toList,"index.json".toList]) := by
    decide +kernel
  obtain ⟨c,after,t,root,built,materialized,profile,chosen,served,rows⟩ := replyOk answered
  have inside : ("/redfish/v1","index.json") ∈ c.report.mappings.map fun m => (m.route,m.destination) := by
    rw [rows]
    exact List.mem_cons_self
  obtain ⟨m,mem,same⟩ := List.mem_map.mp inside
  have parts := Prod.mk.inj same
  refine ⟨c,after,t,root,m,built,materialized,profile,chosen,mem,?_,served,parts.2⟩
  rw [parts.1]
  exact canonicalServiceRoot _

end RedfishCtl.CorpusTree
