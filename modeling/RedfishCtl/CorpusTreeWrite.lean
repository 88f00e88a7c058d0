import RedfishCtl.CorpusTreeReplay
import RedfishCtl.FaultyDisk

/-! Writing a conversion to a disk whose operations may fail. Tree and report are each built apart
and renamed into place, where nothing stands yet. -/
namespace RedfishCtl.CorpusTree
open AssocList Buckets
open PosixPath
open MockTree (Tree pathOf nameOf existingTreeFindings mismatch reportName)
open FaultyDisk
open Stateful (ofExcept forEach rescue always Keeps keepsBind keepsRead keepsForEach keepsPure okOfRun bindOk
  okOfBind)

/- Where a conversion goes, with the process id, the random part of a temporary name and the report. -/
structure Setting where
  output : Path
  names : Names output
  pid : List Char
  pidName : '/' ∉ pid
  token : List Char
  tokenName : '/' ∉ token
  canonicalJson : Report → Bytes

section
variable (s : Setting) (c : Conversion)

def profileRoot : Path := s.output ++ [c.report.profileId.toList]

def reportPath : Path := s.output ++ [(reportName c).toList]

def temporary : Path := s.output ++ ['.'::(c.report.profileId.toList ++ '.'::s.token)]

def temporaryReport : Path := s.output ++ ['.'::((reportName c).toList ++ '.'::(s.pid ++ ".tmp".toList))]

def fileEntry (root : Path) (e : Path × Node) : Option (String × Bytes) :=
  match e.2 with
  | .file data =>
      if below root e.1 && root.length < e.1.length then some (nameOf (e.1.drop root.length),data) else none
  | .directory | .special => none

def filesBelow (root : Path) (d : Disk) : Tree := d.filterMap (fileEntry root)

def raise {α : Type} (e : PyError) : Act α := ofExcept (.error e)

def findingsAt (d : Disk) : List String :=
  match nodeAt d (profileRoot s c) with
  | none => ["profile root is missing"]
  | some .directory => existingTreeFindings (filesBelow (profileRoot s c) d) c.payloads
  | some (.file _) | some .special => ["profile root is not a directory"]

def readExpected (t : Tree) : Act Unit :=
  forEach (fun name => do
    let _ ← readBytes (profileRoot s c ++ pathOf name)
    pure ()) (sortedNames ((keys c.payloads).filter (keys t).contains))

def treeFindings : Act (List String) := do
  let d ← look
  readExpected s c (filesBelow (profileRoot s c) d)
  pure (findingsAt s c d)

def checkTree : Act Unit := do
  let there ← present (profileRoot s c)
  if there then
    let findings ← treeFindings s c
    if findings.isEmpty then pure () else raise (mismatch ("; ".intercalate (findings.take 5)))
  else pure ()

def checkReport : Act Unit := do
  let there ← present (reportPath s c)
  if there then
    let stored ← readBytes (reportPath s c)
    if stored = s.canonicalJson c.report then pure () else raise (mismatch (reportName c))
  else pure ()

def writePayload (p : String × Bytes) : Act Unit := do
  makeDirectories (temporary s c ++ (pathOf p.1).dropLast)
  writeBytes (temporary s c ++ pathOf p.1) p.2

def writeTree : Act Unit := do
  makeNew (temporary s c)
  rescue (do
    forEach (writePayload s c) (sortedItems (· ≤ ·) c.payloads)
    replace (temporary s c) (profileRoot s c)) fun e => some do
    removeTree (temporary s c)
    raise e

def writeReport : Act Unit :=
  always (do
    writeBytes (temporaryReport s c) (s.canonicalJson c.report)
    replace (temporaryReport s c) (reportPath s c)) do
    let left ← present (temporaryReport s c)
    if left then unlink (temporaryReport s c) else pure ()

def unlessPresent (path : Path) (act : Act Unit) : Act Unit := do
  let there ← present path
  if there then pure () else act

def materialize : Act Report :=
  if !c.report.passed then
    raise (conversionError "materialize requires a conversion plan with result=pass")
  else do
    checkTree s c
    checkReport s c
    makeDirectories s.output
    unlessPresent (profileRoot s c) (writeTree s c)
    unlessPresent (reportPath s c) (writeReport s c)
    pure c.report

structure Verification where
  profileId : String
  sourceSha256 : String
  expectedTreeSha256 : String
  observedTreeSha256 : Option String
  findings : List String
  passed : Bool

def observedTreeSha256 : Act (Option String) := do
  let d ← look
  if nodeAt d (profileRoot s c) = some .directory then
    let t := filesBelow (profileRoot s c) d
    forEach (fun name => do
      let _ ← readBytes (profileRoot s c ++ pathOf name)
      pure ()) (sortedNames (keys t))
    pure (some (treeSha256 t))
  else pure none

def reportFindings : Act (List String) := do
  let d ← look
  match nodeAt d (reportPath s c) with
  | some (.file _) => do
      let stored ← readBytes (reportPath s c)
      pure (if stored = s.canonicalJson c.report then [] else ["conversion report mismatch"])
  | none | some .directory | some .special => pure ["conversion report is missing"]

def verify : Act Verification := do
  let tree ← treeFindings s c
  let stored ← reportFindings s c
  let plan := if c.report.passed then [] else ["source conversion plan does not pass"]
  let observed ← observedTreeSha256 s c
  let findings := tree ++ stored ++ plan
  pure ⟨c.report.profileId,c.report.sourceSha256,c.report.treeSha256,observed,sortedSet findings,
    findings.isEmpty⟩

end

/- A profile id that is a name without dots, and a proper relative path for every payload. -/
structure Proper (c : Conversion) : Prop where
  idName : isName c.report.profileId.toList = true
  idPlain : '.' ∉ c.report.profileId.toList
  distinct : Distinct c.payloads
  spelled : ∀ name ∈ keys c.payloads, nameOf (pathOf name) = name
  names : ∀ name ∈ keys c.payloads, Names (pathOf name)
  full : ∀ name ∈ keys c.payloads, pathOf name ≠ []

def Holding (root : Path) (d : Disk) (payloads : List (String × Bytes)) : Prop :=
  ∀ rest data, rest ≠ [] → (nodeAt d (root ++ rest) = some (.file data) ↔
    ∃ name, payloads.lookup name = some data ∧ pathOf name = rest)

section
variable {s : Setting} {c : Conversion} {d : Disk} {root : Path}

theorem fileEntryIff {e name data} :
    fileEntry root e = some (name,data) ↔
      ∃ rest, rest ≠ [] ∧ e = (root ++ rest,.file data) ∧ nameOf rest = name := by
  unfold fileEntry
  obtain ⟨path,node⟩ := e
  constructor
  · intro found
    split at found
    · rename_i content is
      split at found
      · rename_i inside
        rw [Bool.and_eq_true,belowIff] at inside
        obtain ⟨⟨rest,rfl⟩,longer⟩ := inside
        cases Option.some.inj found
        cases is
        rw [List.drop_left]
        refine ⟨rest,fun none => ?_,rfl,rfl⟩
        simp [none] at longer
      · cases found
    all_goals cases found
  · rintro ⟨rest,full,whole,rfl⟩
    cases whole
    have inside : (below root (root ++ rest) && root.length < (root ++ rest).length) = true := by
      rw [Bool.and_eq_true,belowIff,decide_eq_true_eq,List.length_append]
      have := List.length_pos_iff.mpr full
      exact ⟨List.prefix_append _ _,by omega⟩
    dsimp only
    rw [if_pos inside,List.drop_left]

theorem filesBelowAt (named : WellNamed d) {name data} :
    (filesBelow root d).lookup name = some data ↔
      ∃ rest, rest ≠ [] ∧ nodeAt d (root ++ rest) = some (.file data) ∧ nameOf rest = name := by
  constructor
  · intro found
    obtain ⟨e,mem,shown⟩ := List.mem_filterMap.mp (lookupMem found)
    obtain ⟨rest,full,rfl,same⟩ := fileEntryIff.mp shown
    exact ⟨rest,full,nodeAtOfMem named.distinct mem,same⟩
  rintro ⟨rest,full,found,rfl⟩
  have mem := nodeAtMem found
  obtain ⟨distinct,names⟩ := named
  clear found
  unfold filesBelow
  induction d with
  | nil => cases mem
  | cons e others ih =>
    have proper : Names rest := fun t inside =>
      names _ (List.mem_map_of_mem mem) t (List.mem_append_right root inside)
    rcases List.mem_cons.mp mem with rfl | later
    · rw [List.filterMap_cons_some (fileEntryIff.mpr ⟨rest,full,rfl,rfl⟩),lookupCons,if_pos rfl]
    have tail := ih later (List.nodup_cons.mp distinct).2
      fun path inside => names path (List.mem_cons_of_mem _ inside)
    rw [List.filterMap_cons]
    split
    · exact tail
    rename_i shown head
    obtain ⟨other,-,rfl,same⟩ := fileEntryIff.mp head
    have otherProper : Names other := fun t inside =>
      names _ List.mem_cons_self t (List.mem_append_right root inside)
    rw [lookupCons,if_neg]
    · exact tail
    intro equal
    -- two files of one name are one entry
    have one : rest = other := nameInj proper otherProper (equal.trans same.symm)
    subst one
    exact (List.nodup_cons.mp distinct).1 (List.mem_map.mpr ⟨_,later,rfl⟩)

theorem findingsNone {t payloads} :
    existingTreeFindings t payloads = [] ↔ ∀ name, t.lookup name = payloads.lookup name := by
  have none : ∀ {text : String} {names : List String}, (sortedNames names).map (text ++ ·) = [] ↔
      names = [] := by
    intro text names
    rw [List.map_eq_nil_iff,sortedNames,← List.length_eq_zero_iff,List.length_insertionSort,
      List.length_eq_zero_iff]
  simp only [existingTreeFindings,List.append_eq_nil_iff,none,List.filter_eq_nil_iff]
  constructor
  · rintro ⟨⟨missing,unexpected⟩,different⟩ name
    by_cases expected : name ∈ keys payloads
    · have there := missing name expected
      have same := different name expected
      simp only [Bool.not_eq_true',Bool.not_eq_false,List.contains_iff_mem] at there
      simpa [there] using same
    rw [lookupNone.mpr expected,lookupNone]
    intro there
    have known := unexpected name there
    simp only [Bool.not_eq_true',Bool.not_eq_false,List.contains_iff_mem] at known
    exact expected known
  · intro same
    have keysSame : ∀ name, name ∈ keys t ↔ name ∈ keys payloads := by
      intro name
      rw [← not_iff_not,← lookupNone,← lookupNone,same]
    refine ⟨⟨fun name mem => ?_,fun name mem => ?_⟩,fun name mem => ?_⟩
    · simp [(keysSame name).mpr mem]
    · simp [(keysSame name).mp mem]
    · simp [same]

theorem findingsHolding (proper : Proper c) (named : WellNamed d)
    (directory : nodeAt d (profileRoot s c) = some .directory) :
    findingsAt s c d = [] ↔ Holding (profileRoot s c) d c.payloads := by
  unfold findingsAt
  rw [directory]
  rw [findingsNone]
  constructor
  · intro same rest data full
    constructor
    · intro found
      have shown := (filesBelowAt named).mpr ⟨rest,full,found,rfl⟩
      rw [same] at shown
      refine ⟨nameOf rest,shown,?_⟩
      have mem : nameOf rest ∈ keys c.payloads := List.mem_map_of_mem (lookupMem shown)
      refine nameInj (proper.names _ mem) (fun t inside => ?_) (proper.spelled _ mem)
      exact named.names _ (List.mem_map_of_mem (nodeAtMem found)) t (List.mem_append_right _ inside)
    · rintro ⟨name,found,rfl⟩
      rw [← same] at found
      obtain ⟨rest,-,there,spelled⟩ := (filesBelowAt named).mp found
      have mem : name ∈ keys c.payloads := by
        rw [same] at found
        exact List.mem_map_of_mem (lookupMem found)
      have one : rest = pathOf name := by
        refine nameInj (fun t inside => ?_) (proper.names _ mem) (spelled.trans (proper.spelled _ mem).symm)
        exact named.names _ (List.mem_map_of_mem (nodeAtMem there)) t (List.mem_append_right _ inside)
      exact one ▸ there
  · intro holding name
    apply Option.ext
    intro data
    rw [filesBelowAt named]
    constructor
    · rintro ⟨rest,full,found,rfl⟩
      obtain ⟨name,listed,rfl⟩ := (holding rest data full).mp found
      rwa [proper.spelled name (List.mem_map_of_mem (lookupMem listed))]
    · intro listed
      have mem : name ∈ keys c.payloads := List.mem_map_of_mem (lookupMem listed)
      exact ⟨pathOf name,proper.full name mem,(holding _ _ (proper.full name mem)).mpr ⟨name,listed,rfl⟩,
        proper.spelled name mem⟩

end

section
variable {s : Setting} {c : Conversion}

theorem asideRoot (proper : Proper c) : Aside (temporary s c) (profileRoot s c) := by
  refine asideNames _ fun same => proper.idPlain ?_
  rw [← same]
  exact List.mem_cons_self

theorem dotted (proper : Proper c) (rest : List Char) : '.'::rest ≠ (reportName c).toList := by
  intro same
  obtain ⟨full,-⟩ := isNameIff.mp proper.idName
  rw [reportName,String.toList_append] at same
  cases text : c.report.profileId.toList with
  | nil => exact full text
  | cons ch more =>
    rw [text] at same
    have first := (List.cons.inj same).1
    exact proper.idPlain (text ▸ first ▸ List.mem_cons_self)

theorem asideReport (proper : Proper c) : Aside (temporary s c) (reportPath s c) :=
  asideNames _ (dotted proper _)

theorem asideTemporaries (proper : Proper c) : Aside (temporaryReport s c) (reportPath s c) :=
  asideNames _ (dotted proper _)

theorem asideOther (proper : Proper c) : Aside (temporaryReport s c) (profileRoot s c) := by
  refine asideNames _ fun same => proper.idPlain ?_
  rw [← same]
  exact List.mem_cons_self

theorem asidePlaces : Aside (profileRoot s c) (reportPath s c) := by
  refine asideNames _ fun same => ?_
  have lengths := congrArg List.length same
  rw [reportName,String.toList_append] at lengths
  simp at lengths

def Standing (s : Setting) (c : Conversion) (start : Disk) (d : Disk) : Prop :=
  ∀ path node, ¬ temporary s c <+: path → ¬ temporaryReport s c <+: path →
    nodeAt start path = some node → nodeAt d path = some node

section
variable {start : Disk} {I : Disk → Prop}

theorem treeFindingsKeeps : Keeps (fun w => I w.disk) (fun _ => True) (treeFindings s c) := by
  refine keepsBind (keepsRead (P := fun _ => True) fun _ _ _ _ => trivial) fun d _ => ?_
  refine keepsBind (keepsForEach fun name _ => ?_) fun _ _ => keepsPure trivial
  exact keepsBind readKeeps fun _ _ => keepsPure trivial

theorem raiseKeeps {α I P} (e : PyError) : Keeps I P (raise e : Act α) :=
  fun _ before => ⟨before,fun _ same => nomatch same⟩

theorem checkTreeKeeps : Keeps (fun w => I w.disk) (fun _ => True) (checkTree s c) := by
  refine keepsBind (keepsRead (P := fun _ => True) fun _ _ _ _ => trivial) fun there _ => ?_
  cases there with
  | false => exact keepsPure trivial
  | true =>
    refine keepsBind treeFindingsKeeps fun findings _ => ?_
    cases empty : findings.isEmpty with
    | true => simpa using keepsPure trivial
    | false => simpa using raiseKeeps _

theorem checkReportKeeps : Keeps (fun w => I w.disk) (fun _ => True) (checkReport s c) := by
  refine keepsBind (keepsRead (P := fun _ => True) fun _ _ _ _ => trivial) fun there _ => ?_
  cases there with
  | false => exact keepsPure trivial
  | true =>
    refine keepsBind readKeeps fun stored _ => ?_
    by_cases same : stored = s.canonicalJson c.report
    · simpa [same] using keepsPure trivial
    · simpa [same] using raiseKeeps _

theorem makeDirectoriesStanding (path : Path) :
    Keeps (fun w => Standing s c start w.disk) (fun _ => True) (makeDirectories path) := by
  refine performKeeps (fun d after kept done => ?_) fun fault d kept => ?_
  · rw [mkdirsOk done]
    exact fun q node outside beside found => makeMissingKeeps (kept q node outside beside found)
  · exact fun q node outside beside found => makeMissingKeeps (kept q node outside beside found)

theorem writeBytesStanding {path data}
    (inside : temporary s c <+: path ∨ temporaryReport s c <+: path) :
    Keeps (fun w => Standing s c start w.disk) (fun _ => True) (writeBytes path data) := by
  have other : ∀ {q}, ¬ temporary s c <+: q → ¬ temporaryReport s c <+: q → q ≠ path := by
    rintro q outside beside rfl
    exact inside.elim outside beside
  refine performKeeps (fun d after kept done => ?_) fun fault d kept => ?_
  · intro q node outside beside found
    rw [storeAt done,if_neg (other outside beside)]
    exact kept q node outside beside found
  · intro q node outside beside found
    rw [storePartAt (other outside beside)]
    exact kept q node outside beside found

theorem replaceStanding {source target} (aside : Aside source target)
    (temporal : source = temporary s c ∨ source = temporaryReport s c)
    (free : ∀ path, target <+: path → nodeAt start path = none) :
    Keeps (fun w => Standing s c start w.disk) (fun _ => True) (replace source target) := by
  refine performKeeps (fun d after kept done => ?_) fun fault d kept => kept
  intro q node outside beside found
  have notSource : ¬ source <+: q := by
    rcases temporal with rfl | rfl
    · exact outside
    · exact beside
  have notTarget : ¬ target <+: q := by
    intro onTarget
    rw [free q onTarget] at found
    cases found
  rw [moveOk done,carryAt aside,if_neg notTarget,if_neg notSource]
  exact kept q node outside beside found

theorem writeTreeStanding (proper : Proper c)
    (free : ∀ path, profileRoot s c <+: path → nodeAt start path = none) :
    Keeps (fun w => Standing s c start w.disk) (fun _ => True) (writeTree s c) := by
  refine keepsBind (P := fun _ => True) ?_ fun _ _ => Stateful.keepsRescue ?_ ?_
  · refine performKeeps (fun d after kept done => ?_) fun fault d kept => kept
    intro q node outside beside found
    rw [(mkdirAt done).2,if_neg]
    · exact kept q node outside beside found
    · rintro rfl
      exact outside (List.prefix_refl _)
  · refine keepsBind (keepsForEach fun p _ => ?_) fun _ _ =>
      replaceStanding (asideRoot proper) (.inl rfl) free
    refine keepsBind (makeDirectoriesStanding _) fun _ _ => writeBytesStanding (.inl ?_)
    exact List.prefix_append _ _
  · intro e handler same
    cases Option.some.inj same
    refine keepsBind (P := fun _ => True) (removeTreeKeeps fun d keep kept => ?_) fun _ _ =>
      raiseKeeps e
    intro q node outside beside found
    have stays : (!below (temporary s c) q || keep q) = true := by
      rw [Bool.eq_false_iff.mpr (mt belowIff.mp outside)]
      rfl
    rw [nodeAtFilter fun q => !below (temporary s c) q || keep q,if_pos stays]
    exact kept q node outside beside found

theorem writeReportStanding (proper : Proper c)
    (free : ∀ path, reportPath s c <+: path → nodeAt start path = none) :
    Keeps (fun w => Standing s c start w.disk) (fun _ => True) (writeReport s c) := by
  refine Stateful.keepsAlways ?_ ?_
  · refine keepsBind (writeBytesStanding (.inr (List.prefix_refl _))) fun _ _ => ?_
    exact replaceStanding (asideTemporaries proper) (.inr rfl) free
  refine keepsBind (keepsRead (P := fun _ => True) fun _ _ _ _ => trivial) fun left _ => ?_
  cases left with
  | false => exact keepsPure trivial
  | true =>
    refine performKeeps (fun d after kept done => ?_) fun fault d kept => kept
    intro q node outside beside found
    rw [removeAt done,if_neg]
    · exact kept q node outside beside found
    · rintro rfl
      exact beside (List.prefix_refl _)

theorem unlessPresentStanding (whole : WellFormed start) {path} (full : path ≠ [])
    (outside : ¬ temporary s c <+: path) (beside : ¬ temporaryReport s c <+: path) {act}
    (acts : (∀ q, path <+: q → nodeAt start q = none) →
      Keeps (fun w => Standing s c start w.disk) (fun _ => True) act) :
    Keeps (fun w => Standing s c start w.disk) (fun _ => True) (unlessPresent path act) := by
  refine keepsBind (P := fun there => there = false → nodeAt start path = none)
    (keepsRead fun w there kept same absent => ?_) fun there absent => ?_
  · cases found : nodeAt start path with
    | none => rfl
    | some node =>
      have shown := Except.ok.inj same
      rw [kept path node outside beside found,absent] at shown
      cases shown
  · cases there with
    | true => exact keepsPure trivial
    | false => exact acts fun q inside => whole.nothingBelow full (absent rfl) inside

theorem materializeStanding (proper : Proper c) (whole : WellFormed start) :
    Keeps (fun w => Standing s c start w.disk) (fun _ => True) (materialize s c) := by
  unfold materialize
  cases c.report.passed with
  | false => exact raiseKeeps _
  | true =>
    refine keepsBind checkTreeKeeps fun _ _ => keepsBind checkReportKeeps fun _ _ => ?_
    refine keepsBind (makeDirectoriesStanding _) fun _ _ => ?_
    refine keepsBind (unlessPresentStanding whole (by simp [profileRoot]) (asideRoot proper).1
      (asideOther proper).1 (writeTreeStanding proper)) fun _ _ => ?_
    refine keepsBind (unlessPresentStanding whole (by simp [reportPath]) (asideReport proper).1
      (asideTemporaries proper).1 (writeReportStanding proper)) fun _ _ => ?_
    exact keepsPure trivial

end

def Prepared (s : Setting) (d : Disk) : Prop :=
  ∀ path, path ≠ [] → path <+: s.output → nodeAt d path = some .directory

structure Settled (s : Setting) (c : Conversion) (d : Disk) : Prop where
  named : WellNamed d
  prepared : Prepared s d
  directory : nodeAt d (profileRoot s c) = some .directory
  holding : Holding (profileRoot s c) d c.payloads
  report : nodeAt d (reportPath s c) = some (.file (s.canonicalJson c.report))

section
variable {w v : World} {d : Disk}

theorem findingsDirectory (none : findingsAt s c d = []) :
    nodeAt d (profileRoot s c) = some .directory := by
  unfold findingsAt at none
  split at none
  · cases none
  · assumption
  all_goals cases none

theorem keptDisk {α} {p : Act α} (keeps : ∀ d, Keeps (fun w => w.disk = d) (fun _ => True) p) :
    (p w).2.disk = w.disk := (keeps w.disk w rfl).1

theorem treeFindingsOk {findings} (done : treeFindings s c w = (.ok findings,v)) :
    findings = findingsAt s c w.disk := by
  obtain ⟨d,u,read,rest⟩ := okOfRun done
  cases read
  obtain ⟨-,u,-,last⟩ := okOfRun rest
  exact (Except.ok.inj (Prod.mk.inj last).1).symm

theorem checkTreeOk (done : checkTree s c w = (.ok (),v)) : v.disk = w.disk ∧
    (nodeAt w.disk (profileRoot s c) ≠ none → findingsAt s c w.disk = []) := by
  have same := keptDisk (w := w) fun d => checkTreeKeeps (s := s) (c := c) (I := (· = d))
  rw [done] at same
  refine ⟨same,fun there => ?_⟩
  obtain ⟨found,u,read,rest⟩ := okOfRun done
  cases read
  rw [if_pos (Option.isSome_iff_ne_none.mpr there)] at rest
  obtain ⟨findings,u,compared,last⟩ := okOfRun rest
  have which := treeFindingsOk compared
  split at last
  · rename_i empty
    rw [← which]
    exact List.isEmpty_iff.mp empty
  · cases last

theorem readBytesOk {path data} (done : readBytes path w = (.ok data,v)) :
    nodeAt w.disk path = some (.file data) := by
  have loaded : load path w.disk = .ok data := by
    unfold readBytes at done
    split at done
    · cases done
    · exact (Prod.mk.inj done).1
    · exact (Prod.mk.inj done).1
  unfold load at loaded
  split at loaded
  · rename_i found
    rw [found,Except.ok.inj loaded]
  all_goals cases loaded

theorem checkReportOk (done : checkReport s c w = (.ok (),v)) : v.disk = w.disk ∧
    (nodeAt w.disk (reportPath s c) ≠ none →
      nodeAt w.disk (reportPath s c) = some (.file (s.canonicalJson c.report))) := by
  have same := keptDisk (w := w) fun d => checkReportKeeps (s := s) (c := c) (I := (· = d))
  rw [done] at same
  refine ⟨same,fun there => ?_⟩
  obtain ⟨found,u,read,rest⟩ := okOfRun done
  cases read
  rw [if_pos (Option.isSome_iff_ne_none.mpr there)] at rest
  obtain ⟨stored,u,loaded,last⟩ := okOfRun rest
  have which := readBytesOk loaded
  split at last
  · rename_i equal
    rw [which,equal]
  · cases last

theorem unlessPresentOk {path act} (done : unlessPresent path act w = (.ok (),v)) :
    (nodeAt w.disk path ≠ none ∧ v = w) ∨ (nodeAt w.disk path = none ∧ act w = (.ok (),v)) := by
  obtain ⟨there,u,read,rest⟩ := okOfRun done
  cases read
  cases found : nodeAt w.disk path with
  | none =>
    rw [found] at rest
    exact .inr ⟨rfl,rest⟩
  | some node =>
    rw [found] at rest
    exact .inl ⟨by simp,(Prod.mk.inj rest).2.symm⟩

structure Written (s : Setting) (c : Conversion) (items : List (String × Bytes)) (before after : Disk) :
    Prop where
  named : WellNamed before → WellNamed after
  root : nodeAt before (temporary s c) = some .directory → nodeAt after (temporary s c) = some .directory
  frame : ∀ path, ¬ temporary s c <+: path → (path = [] ∨ ¬ path <+: s.output) →
    nodeAt after path = nodeAt before path
  prepared : Prepared s before → Prepared s after
  files : ∀ rest data, nodeAt after (temporary s c ++ rest) = some (.file data) ↔
    (∃ p ∈ items, pathOf p.1 = rest ∧ p.2 = data) ∨
      (∀ p ∈ items, pathOf p.1 ≠ rest) ∧ nodeAt before (temporary s c ++ rest) = some (.file data)

theorem temporaryNames (proper : Proper c) : Names (temporary s c) := by
  refine snocNames s.names (isNameIff.mpr ⟨by simp,?_,?_,?_⟩)
  · simp
  · intro same
    have second := (List.cons.inj same).2
    have lengths := congrArg List.length second
    have full := List.length_pos_iff.mpr (isNameIff.mp proper.idName).1
    simp only [List.length_append,List.length_cons,List.length_nil] at lengths
    omega
  · have plain := (isNameIff.mp proper.idName).2.2.2
    simp [plain,s.tokenName]

theorem temporaryReportNames (proper : Proper c) : Names (temporaryReport s c) := by
  refine snocNames s.names (isNameIff.mpr ⟨by simp,?_,?_,?_⟩)
  · simp
  · intro same
    have lengths := congrArg List.length same
    have suffix : ".tmp".toList.length = 4 := rfl
    simp only [List.length_cons,List.length_append,List.length_nil,suffix] at lengths
    omega
  · have plain := (isNameIff.mp proper.idName).2.2.2
    have own : '/' ∉ ".conversion.json".toList := by decide
    have suffix : '/' ∉ ".tmp".toList := by decide
    rw [reportName,String.toList_append]
    simp only [List.mem_cons,List.mem_append,not_or]
    exact ⟨by decide,⟨plain,own⟩,by decide,s.pidName,suffix⟩

theorem reportNames (proper : Proper c) : Names (reportPath s c) := by
  refine snocNames s.names ?_
  obtain ⟨full,-,-,plain⟩ := isNameIff.mp proper.idName
  have own : '/' ∉ ".conversion.json".toList := by decide
  have longer : 16 ≤ ((reportName c).toList).length := by
    rw [reportName,String.toList_append]
    simp
  refine isNameIff.mpr ⟨?_,?_,?_,?_⟩
  · intro none
    simp [none] at longer
  · intro same
    simp [same] at longer
  · intro same
    simp [same] at longer
  · rw [reportName,String.toList_append,List.mem_append,not_or]
    exact ⟨plain,own⟩

theorem writePayloadOk (proper : Proper c) {p} (full : pathOf p.1 ≠ []) (names : Names (pathOf p.1))
    (done : writePayload s c p w = (.ok (),v)) : Written s c [p] w.disk v.disk := by
  obtain ⟨⟨⟩,u,made,stored⟩ := okOfRun done
  have making := performOk made
  have storing := performOk stored
  have whole : ∀ {path}, Names path → Names (temporary s c ++ path) := by
    intro path own t mem
    exact (List.mem_append.mp mem).elim (temporaryNames proper t) (own t)
  have rootFull : temporary s c ≠ [] := by simp [temporary]
  refine ⟨fun named => ?_,fun _ => ?_,fun path outside beyond => ?_,fun _ path some above => ?_,
    fun rest data => ?_⟩
  · have between := mkdirsNamed (whole fun t mem => names t (List.dropLast_subset _ mem)) making named
    exact storeNamed (whole names) storing between
  · have other : temporary s c ≠ temporary s c ++ pathOf p.1 := by simpa using full
    rw [storeAt storing,if_neg other,mkdirsAt making,if_pos ⟨rootFull,List.prefix_append _ _⟩]
  · have other : path ≠ temporary s c ++ pathOf p.1 := by
      rintro rfl
      exact outside (List.prefix_append _ _)
    have offWay : ¬ (path ≠ [] ∧ path <+: temporary s c ++ (pathOf p.1).dropLast) := by
      rintro ⟨some,onWay⟩
      have inside := (List.prefix_or_prefix_of_prefix onWay (List.prefix_append _ _)).resolve_right outside
      rcases List.prefix_concat_iff.mp inside with same | above
      · exact outside (same ▸ List.prefix_refl _)
      · exact beyond.elim some fun below => below above
    rw [storeAt storing,if_neg other,mkdirsAt making,if_neg offWay]
  · have onWay : path <+: temporary s c := above.trans (List.prefix_append _ _)
    have other : path ≠ temporary s c ++ pathOf p.1 := by
      rintro rfl
      exact entryAbove above (List.prefix_append _ _)
    rw [storeAt storing,if_neg other,mkdirsAt making,if_pos ⟨some,onWay.trans (List.prefix_append _ _)⟩]
  · rw [storeAt storing]
    by_cases here : rest = pathOf p.1
    · subst here
      simp
    have other : temporary s c ++ rest ≠ temporary s c ++ pathOf p.1 := by simpa using here
    rw [if_neg other,mkdirsAt making]
    by_cases onWay : temporary s c ++ rest ≠ [] ∧
        temporary s c ++ rest <+: temporary s c ++ (pathOf p.1).dropLast
    · rw [if_pos onWay]
      simp [Ne.symm here,mkdirsFree making onWay]
    · rw [if_neg onWay]
      simp [Ne.symm here]

variable {items : List (String × Bytes)}

theorem Written.trans {p before mid after} (first : Written s c [p] before mid)
    (later : Written s c items mid after) (fresh : ∀ q ∈ items, pathOf q.1 ≠ pathOf p.1) :
    Written s c (p::items) before after := by
  refine ⟨fun named => later.named (first.named named),fun root => later.root (first.root root),
    fun path outside beyond => ?_,fun prepared => later.prepared (first.prepared prepared),
    fun rest data => ?_⟩
  · rw [later.frame path outside beyond,first.frame path outside beyond]
  rw [later.files,first.files]
  have one : (∃ q ∈ [p], pathOf q.1 = rest ∧ q.2 = data) ↔ pathOf p.1 = rest ∧ p.2 = data := by simp
  have alone : (∀ q ∈ [p], pathOf q.1 ≠ rest) ↔ pathOf p.1 ≠ rest := by simp
  rw [one,alone,List.forall_mem_cons,List.exists_mem_cons_iff]
  constructor
  · rintro (inside | ⟨none,here | old⟩)
    · exact .inl (.inr inside)
    · exact .inl (.inl here)
    · exact .inr ⟨⟨old.1,none⟩,old.2⟩
  · rintro ((⟨same,content⟩ | inside) | ⟨⟨other,none⟩,old⟩)
    · exact .inr ⟨fun q mem equal => fresh q mem (equal.trans same.symm),.inl ⟨same,content⟩⟩
    · exact .inl inside
    · exact .inr ⟨none,.inr ⟨other,old⟩⟩

theorem writtenNone (d : Disk) : Written s c [] d d :=
  ⟨id,id,fun _ _ _ => rfl,id,fun _ _ => by simp⟩

theorem writePayloadsOk (proper : Proper c)
    (full : ∀ p ∈ items, pathOf p.1 ≠ []) (names : ∀ p ∈ items, Names (pathOf p.1))
    (apart : items.Pairwise fun p q => pathOf p.1 ≠ pathOf q.1)
    (done : forEach (writePayload s c) items w = (.ok (),v)) : Written s c items w.disk v.disk := by
  induction items generalizing w with
  | nil =>
    cases done
    exact writtenNone _
  | cons p rest ih =>
    obtain ⟨⟨⟩,u,first,later⟩ := okOfRun done
    obtain ⟨different,others⟩ := List.pairwise_cons.mp apart
    have here := writePayloadOk proper (full p List.mem_cons_self) (names p List.mem_cons_self) first
    have tail := ih (fun q mem => full q (List.mem_cons_of_mem p mem))
      (fun q mem => names q (List.mem_cons_of_mem p mem)) others later
    exact here.trans tail fun q mem => (different q mem).symm

theorem itemsApart (proper : Proper c) :
    (sortedItems (· ≤ ·) c.payloads).Pairwise fun p q => pathOf p.1 ≠ pathOf q.1 := by
  have perm : (sortedItems (· ≤ ·) c.payloads).Perm c.payloads := List.perm_insertionSort _ _
  have distinct := (perm.map Prod.fst).nodup_iff.mpr proper.distinct
  have names := List.pairwise_map.mp distinct
  refine List.Pairwise.imp_of_mem (fun {p q} first second different same => different ?_) names
  have left : p.1 ∈ keys c.payloads := List.mem_map_of_mem (memSortedItems.mp first)
  have right : q.1 ∈ keys c.payloads := List.mem_map_of_mem (memSortedItems.mp second)
  rw [← proper.spelled _ left,same,proper.spelled _ right]

theorem writeTreeOk (proper : Proper c) (named : WellNamed w.disk) (prepared : Prepared s w.disk)
    (free : ∀ path, temporary s c <+: path → nodeAt w.disk path = none)
    (done : writeTree s c w = (.ok (),v)) : WellNamed v.disk ∧ Prepared s v.disk ∧
      nodeAt v.disk (profileRoot s c) = some .directory ∧ Holding (profileRoot s c) v.disk c.payloads ∧
      ∀ path, ¬ temporary s c <+: path → ¬ profileRoot s c <+: path → nodeAt v.disk path = nodeAt w.disk path := by
  obtain ⟨⟨⟩,u,made,rest⟩ := okOfRun done
  have making := performOk made
  have wrote : (forEach (writePayload s c) (sortedItems (· ≤ ·) c.payloads) >>= fun _ =>
      replace (temporary s c) (profileRoot s c)) u = (.ok (),v) := by
    unfold rescue at rest
    split at rest
    · rename_i e t failed
      obtain ⟨-,x,-,last⟩ := okOfRun rest
      cases last
    · rename_i a t went
      rw [went]
      exact rest
  obtain ⟨⟨⟩,x,writing,moved⟩ := okOfRun wrote
  have mem : ∀ p ∈ sortedItems (· ≤ ·) c.payloads, p.1 ∈ keys c.payloads :=
    fun p inside => List.mem_map_of_mem (memSortedItems.mp inside)
  have written := writePayloadsOk proper (fun p inside => proper.full _ (mem p inside))
    (fun p inside => proper.names _ (mem p inside)) (itemsApart proper) writing
  have moving := moveOk (performOk moved)
  have directory : nodeAt u.disk (temporary s c) = some .directory := by
    rw [(mkdirAt making).2,if_pos rfl]
  have beside : ∀ {path}, path ≠ temporary s c → nodeAt u.disk path = nodeAt w.disk path := by
    intro path other
    rw [(mkdirAt making).2,if_neg other]
  have ready : Prepared s u.disk := by
    intro path full above
    rw [beside,prepared path full above]
    rintro rfl
    exact entryAbove above (List.prefix_refl _)
  rw [moving]
  refine ⟨?_,fun path full above => ?_,?_,fun rest data full => ?_,fun path outside elsewhere => ?_⟩
  · refine carryNamed (snocNames s.names proper.idName) (written.named ?_)
    exact mkdirNamed (temporaryNames proper) making named
  · have offSource : ¬ temporary s c <+: path := entryAbove above
    have offTarget : ¬ profileRoot s c <+: path := entryAbove above
    rw [carryAt (asideRoot proper),if_neg offTarget,if_neg offSource]
    exact written.prepared ready path full above
  · rw [carryAt (asideRoot proper),if_pos (List.prefix_refl _),List.drop_length,List.append_nil]
    exact written.root directory
  · rw [carryAt (asideRoot proper),if_pos (List.prefix_append _ _),List.drop_left,written.files]
    have nothing : nodeAt u.disk (temporary s c ++ rest) ≠ some (.file data) := by
      rw [beside (by simpa using full),free _ (List.prefix_append _ _)]
      intro same
      cases same
    constructor
    · rintro (⟨p,inside,path,content⟩ | ⟨-,old⟩)
      · refine ⟨p.1,?_,path⟩
        rw [← content]
        exact lookupOfMem proper.distinct (memSortedItems.mp inside)
      · exact absurd old nothing
    · rintro ⟨name,found,path⟩
      exact .inl ⟨(name,data),memSortedItems.mpr (lookupMem found),path,rfl⟩
  · rw [carryAt (asideRoot proper),if_neg elsewhere,if_neg outside]
    by_cases onWay : path ≠ [] ∧ path <+: s.output
    · rw [written.prepared ready path onWay.1 onWay.2,prepared path onWay.1 onWay.2]
    · rw [not_and_or,not_not] at onWay
      rw [written.frame path outside onWay,beside]
      rintro rfl
      exact outside (List.prefix_refl _)

theorem writeReportOk (proper : Proper c) (named : WellNamed w.disk)
    (done : writeReport s c w = (.ok (),v)) : WellNamed v.disk ∧
      nodeAt v.disk (reportPath s c) = some (.file (s.canonicalJson c.report)) ∧
      ∀ path, ¬ temporaryReport s c <+: path → ¬ reportPath s c <+: path →
        nodeAt v.disk path = nodeAt w.disk path := by
  unfold writeReport always at done
  split at done
  · cases done
  rename_i t closed
  obtain ⟨result,rfl⟩ := Prod.mk.inj done
  generalize body : (do
    writeBytes (temporaryReport s c) (s.canonicalJson c.report)
    replace (temporaryReport s c) (reportPath s c)) w = outcome at closed result
  obtain ⟨x,u⟩ := outcome
  cases result
  obtain ⟨⟨⟩,y,stored,moved⟩ := okOfRun body
  have storing := performOk stored
  have moving := moveOk (performOk moved)
  have aside : Aside (temporaryReport s c) (reportPath s c) := asideTemporaries proper
  -- the temporary file is gone, so there is nothing to clean up
  have gone : nodeAt u.disk (temporaryReport s c) = none := by
    rw [moving,carryAt aside,if_neg aside.2,if_pos (List.prefix_refl _)]
  obtain ⟨left,z,looked,last⟩ := okOfRun closed
  cases looked
  rw [gone] at last
  cases last
  rw [moving]
  refine ⟨?_,?_,fun path beside elsewhere => ?_⟩
  · exact carryNamed (reportNames proper) (storeNamed (temporaryReportNames proper) storing named)
  · rw [carryAt aside,if_pos (List.prefix_refl _),List.drop_length,List.append_nil,storeAt storing,if_pos rfl]
  · have other : path ≠ temporaryReport s c := by
      rintro rfl
      exact beside (List.prefix_refl _)
    rw [carryAt aside,if_neg elsewhere,if_neg beside,storeAt storing,if_neg other]

structure TreePlaced (s : Setting) (c : Conversion) (start d : Disk) : Prop where
  named : WellNamed d
  prepared : Prepared s d
  directory : nodeAt d (profileRoot s c) = some .directory
  holding : Holding (profileRoot s c) d c.payloads
  report : nodeAt d (reportPath s c) = nodeAt start (reportPath s c)

theorem treePlaced (proper : Proper c) {start} (whole : WellFormed start)
    (findings : nodeAt start (profileRoot s c) ≠ none → findingsAt s c start = [])
    (making : mkdirs s.output start = .ok w.disk)
    (done : unlessPresent (profileRoot s c) (writeTree s c) w = (.ok (),v)) :
    TreePlaced s c start v.disk := by
  have named : WellNamed w.disk := mkdirsNamed s.names making whole.named
  have prepared : Prepared s w.disk := by
    intro path full above
    rw [mkdirsAt making,if_pos ⟨full,above⟩]
  have entry : ∀ {a path}, s.output ++ [a] <+: path → nodeAt w.disk path = nodeAt start path := by
    intro a path inside
    rw [mkdirsAt making,if_neg]
    rintro ⟨-,above⟩
    exact entryAbove above inside
  have atRoot : ∀ {path}, profileRoot s c <+: path → nodeAt w.disk path = nodeAt start path := entry
  have atReport : nodeAt w.disk (reportPath s c) = nodeAt start (reportPath s c) := entry (List.prefix_refl _)
  rcases unlessPresentOk done with ⟨there,rfl⟩ | ⟨-,wrote⟩
  · rw [atRoot (List.prefix_refl _)] at there
    have none := findings there
    have directory := findingsDirectory none
    have holding := (findingsHolding proper whole.named directory).mp none
    refine ⟨named,prepared,?_,fun rest data full => ?_,atReport⟩
    · rw [atRoot (List.prefix_refl _),directory]
    · rw [atRoot (List.prefix_append _ _)]
      exact holding rest data full
  · have atTemporary : ∀ {path}, temporary s c <+: path → nodeAt w.disk path = nodeAt start path := entry
    have fresh : nodeAt start (temporary s c) = none := by
      obtain ⟨⟨⟩,u,made,-⟩ := okOfRun wrote
      rw [← atTemporary (List.prefix_refl _)]
      exact (mkdirAt (q := temporary s c) (performOk made)).1
    have free : ∀ path, temporary s c <+: path → nodeAt w.disk path = none := by
      intro path inside
      rw [atTemporary inside]
      exact whole.nothingBelow (by simp [temporary]) fresh inside
    obtain ⟨named,ready,directory,holding,outside⟩ := writeTreeOk proper named prepared free wrote
    refine ⟨named,ready,directory,holding,?_⟩
    rw [outside _ (asideReport proper).1 asidePlaces.1,atReport]

theorem reportPlaced (proper : Proper c) {start} (placed : TreePlaced s c start w.disk)
    (content : nodeAt start (reportPath s c) ≠ none →
      nodeAt start (reportPath s c) = some (.file (s.canonicalJson c.report)))
    (done : unlessPresent (reportPath s c) (writeReport s c) w = (.ok (),v)) : Settled s c v.disk := by
  rcases unlessPresentOk done with ⟨there,rfl⟩ | ⟨-,wrote⟩
  · rw [placed.report] at there
    exact ⟨placed.named,placed.prepared,placed.directory,placed.holding,placed.report.trans (content there)⟩
  obtain ⟨named,report,outside⟩ := writeReportOk proper placed.named wrote
  have beside : ∀ {path}, profileRoot s c <+: path → nodeAt v.disk path = nodeAt w.disk path := by
    intro path inside
    exact outside path (fun other => (asideOther proper).apart other inside) (asidePlaces.apart inside)
  refine ⟨named,fun path full above => ?_,?_,fun rest data full => ?_,report⟩
  · rw [outside path (entryAbove above) (entryAbove above)]
    exact placed.prepared path full above
  · rw [beside (List.prefix_refl _),placed.directory]
  · rw [beside (List.prefix_append _ _)]
    exact placed.holding rest data full

theorem materializeOk (proper : Proper c) (whole : WellFormed w.disk) {r}
    (done : materialize s c w = (.ok r,v)) :
    c.report.passed = true ∧ r = c.report ∧ Settled s c v.disk := by
  unfold materialize at done
  split at done
  · cases done
  rename_i plan
  obtain ⟨⟨⟩,w1,checked,done⟩ := okOfRun done
  obtain ⟨⟨⟩,w2,compared,done⟩ := okOfRun done
  obtain ⟨⟨⟩,w3,made,done⟩ := okOfRun done
  obtain ⟨⟨⟩,w4,tree,done⟩ := okOfRun done
  obtain ⟨⟨⟩,w5,stored,done⟩ := okOfRun done
  cases done
  obtain ⟨same,findings⟩ := checkTreeOk checked
  obtain ⟨sameAgain,content⟩ := checkReportOk compared
  rw [same] at content sameAgain
  have making : mkdirs s.output w.disk = .ok w3.disk := by
    have result := performOk made
    rwa [sameAgain] at result
  refine ⟨by simpa using plan,rfl,?_⟩
  exact reportPlaced proper (treePlaced proper whole findings making tree) content stored

theorem nothingMissing (prepared : Prepared s d) : missing d s.output = [] := by
  refine List.filter_eq_nil_iff.mpr fun path mem => ?_
  obtain ⟨full,above⟩ := memSteps.mp mem
  rw [prepared path full above]
  simp

theorem preparedStays (prepared : Prepared s d) (count : Nat) : makeMissing s.output count d = d := by
  rw [makeMissing,nothingMissing prepared]
  simp

theorem settledStays (settled : Settled s c d) :
    Keeps (fun w => w.disk = d) (fun _ => True) (materialize s c) := by
  have skipped : ∀ {path} {act : Act Unit}, nodeAt d path ≠ none →
      Keeps (fun w => w.disk = d) (fun _ => True) (unlessPresent path act) := by
    intro path act there
    refine keepsBind (P := fun found => found = true)
      (keepsRead fun w found same shown => ?_) fun found is => ?_
    · rw [same] at shown
      rw [← Except.ok.inj shown]
      exact Option.isSome_iff_ne_none.mpr there
    · rw [if_pos is]
      exact keepsPure trivial
  unfold materialize
  split
  · exact raiseKeeps _
  refine keepsBind (checkTreeKeeps (I := (· = d))) fun _ _ => ?_
  refine keepsBind (checkReportKeeps (I := (· = d))) fun _ _ => ?_
  refine keepsBind (P := fun _ => True) (performKeeps (I := (· = d)) ?_ ?_) fun _ _ => ?_
  · rintro _ after rfl done
    rw [mkdirsOk done,preparedStays settled.prepared]
  · rintro fault _ rfl
    exact preparedStays settled.prepared _
  refine keepsBind (skipped ?_) fun _ _ => keepsBind (skipped ?_) fun _ _ =>
    keepsPure trivial
  · rw [settled.directory]
    exact nofun
  · rw [settled.report]
    exact nofun

theorem readPlain {path data} (found : nodeAt d path = some (.file data)) :
    readBytes path ⟨d,[]⟩ = (.ok data,⟨d,[]⟩) := by
  unfold readBytes load
  rw [found]

theorem readAllPlain {root names}
    (found : ∀ name ∈ names, ∃ data, nodeAt d (root ++ pathOf name) = some (.file data)) :
    forEach (fun name => do
      let _ ← readBytes (root ++ pathOf name)
      pure ()) names ⟨d,[]⟩ = ((.ok (),⟨d,[]⟩) : Except PyError Unit × World) := by
  induction names with
  | nil => rfl
  | cons name rest ih =>
    obtain ⟨data,there⟩ := found name List.mem_cons_self
    rw [Stateful.forEachOk (t := ⟨d,[]⟩)]
    · exact ih fun other mem => found other (List.mem_cons_of_mem name mem)
    · rw [bindOk (readPlain there)]
      rfl

section
variable {d : Disk}

theorem Settled.findings (settled : Settled s c d) (proper : Proper c) : findingsAt s c d = [] :=
  (findingsHolding proper settled.named settled.directory).mpr settled.holding

theorem Settled.payload (settled : Settled s c d) (proper : Proper c) {name}
    (mem : name ∈ keys c.payloads) :
    ∃ data, nodeAt d (profileRoot s c ++ pathOf name) = some (.file data) := by
  obtain ⟨p,inside,rfl⟩ := List.mem_map.mp mem
  refine ⟨p.2,(settled.holding _ _ (proper.full _ mem)).mpr ⟨p.1,?_,rfl⟩⟩
  exact lookupOfMem proper.distinct inside

theorem Settled.treeFindings (settled : Settled s c d) (proper : Proper c) :
    treeFindings s c ⟨d,[]⟩ = (.ok [],⟨d,[]⟩) := by
  have expected : readExpected s c (filesBelow (profileRoot s c) d) ⟨d,[]⟩ = (.ok (),⟨d,[]⟩) := by
    refine readAllPlain fun name mem => settled.payload proper ?_
    exact (List.mem_filter.mp (memSortedNames.mp mem)).1
  unfold CorpusTree.treeFindings
  rw [bindOk (lookRun _),bindOk expected,settled.findings proper]
  rfl

theorem settledReturns (settled : Settled s c d) (proper : Proper c) (passed : c.report.passed = true) :
    materialize s c ⟨d,[]⟩ = (.ok c.report,⟨d,[]⟩) := by
  have there : ∀ {path} {node : Node}, nodeAt d path = some node →
      present path ⟨d,[]⟩ = (.ok true,⟨d,[]⟩) := by
    intro path node found
    rw [present,Stateful.readRun,found]
    rfl
  have checked : checkTree s c ⟨d,[]⟩ = (.ok (),⟨d,[]⟩) := by
    unfold checkTree
    rw [bindOk (there settled.directory),if_pos rfl, bindOk (settled.treeFindings proper)]
    rfl
  have compared : checkReport s c ⟨d,[]⟩ = (.ok (),⟨d,[]⟩) := by
    unfold checkReport
    rw [bindOk (there settled.report),if_pos rfl,bindOk (readPlain settled.report), if_pos rfl]
    rfl
  have made : makeDirectories s.output ⟨d,[]⟩ = (.ok (),⟨d,[]⟩) := by
    have free : (steps s.output).any (blocks d) = false := by
      refine List.any_eq_false.mpr fun path mem => ?_
      obtain ⟨full,above⟩ := memSteps.mp mem
      simp [blocks,settled.prepared path full above]
    unfold makeDirectories perform FaultyDisk.settle mkdirs
    simp [free,preparedStays settled.prepared]
  have skipped : ∀ {path} {node : Node} {act : Act Unit}, nodeAt d path = some node →
      unlessPresent path act ⟨d,[]⟩ = (.ok (),⟨d,[]⟩) := by
    intro path node act found
    unfold unlessPresent
    rw [bindOk (there found)]
    rfl
  unfold materialize
  rw [passed,if_neg (by simp),bindOk checked,bindOk compared,bindOk made,
    bindOk (skipped settled.directory),bindOk (skipped settled.report)]
  rfl

theorem settledVerified (settled : Settled s c d) (proper : Proper c) (passed : c.report.passed = true) :
    ∃ v, verify s c ⟨d,[]⟩ = (.ok v,⟨d,[]⟩) ∧ v.passed = true := by
  have stored : reportFindings s c ⟨d,[]⟩ = (.ok [],⟨d,[]⟩) := by
    unfold reportFindings
    rw [bindOk (lookRun _)]
    rw [settled.report]
    dsimp only
    rw [bindOk (readPlain settled.report),if_pos rfl]
    rfl
  have observed : ∃ digest, observedTreeSha256 s c ⟨d,[]⟩ = (.ok digest,⟨d,[]⟩) := by
    refine ⟨some (treeSha256 (filesBelow (profileRoot s c) d)),?_⟩
    unfold observedTreeSha256
    rw [bindOk (lookRun _)]
    rw [if_pos settled.directory,bindOk (readAllPlain fun name mem => ?_)]
    · rfl
    have listed : name ∈ keys c.payloads := by
      have same := findingsNone.mp (show existingTreeFindings (filesBelow (profileRoot s c) d) c.payloads = [] by
        have none := settled.findings proper
        unfold findingsAt at none
        rwa [settled.directory] at none) name
      rw [← not_not (a := name ∈ keys c.payloads),← lookupNone,← same,lookupNone,not_not]
      exact memSortedNames.mp mem
    exact settled.payload proper listed
  obtain ⟨digest,observing⟩ := observed
  refine ⟨⟨c.report.profileId,c.report.sourceSha256,c.report.treeSha256,digest,sortedSet [],true⟩,?_,rfl⟩
  unfold verify
  rw [bindOk (settled.treeFindings proper),bindOk stored]
  rw [bindOk observing,passed]
  rfl

end

theorem reportFindingsOk (done : reportFindings s c w = (.ok [],v)) :
    nodeAt w.disk (reportPath s c) = some (.file (s.canonicalJson c.report)) := by
  obtain ⟨d,u,looked,done⟩ := okOfRun done
  cases looked
  cases there : nodeAt w.disk (reportPath s c) with
  | none =>
    rw [there] at done
    cases done
  | some node =>
    rw [there] at done
    cases node with
    | directory => cases done
    | special => cases done
    | file data =>
      obtain ⟨stored,u,read,last⟩ := okOfRun done
      have found := readBytesOk read
      rw [there] at found
      by_cases same : stored = s.canonicalJson c.report
      · rw [found,same]
      · rw [if_neg same] at last
        cases last

theorem verifyFound (proper : Proper c) (named : WellNamed w.disk) {r}
    (done : verify s c w = (.ok r,v)) (passed : r.passed = true) :
    Holding (profileRoot s c) w.disk c.payloads ∧
      nodeAt w.disk (reportPath s c) = some (.file (s.canonicalJson c.report)) := by
  obtain ⟨tree,w1,compared,done⟩ := okOfRun done
  obtain ⟨stored,w2,looked,done⟩ := okOfRun done
  obtain ⟨digest,w3,-,done⟩ := okOfRun done
  cases done
  have same := keptDisk (w := w) fun d => treeFindingsKeeps (s := s) (c := c) (I := (· = d))
  rw [compared] at same
  rw [List.isEmpty_iff,List.append_eq_nil_iff,List.append_eq_nil_iff] at passed
  obtain ⟨⟨rfl,rfl⟩,-⟩ := passed
  have none := (treeFindingsOk compared).symm
  refine ⟨(findingsHolding proper named (findingsDirectory none)).mp none,?_⟩
  rw [← same]
  exact reportFindingsOk looked

end

end

theorem memSplit {sep ch} {text : List Char} (mem : ch ∈ text) :
    ch = sep ∨ ∃ word ∈ text.splitOn sep, ch ∈ word := by
  induction text with
  | nil => cases mem
  | cons first rest ih =>
    rw [List.splitOn_cons_eq_if_modifyHead]
    by_cases cut : first = sep
    · subst cut
      simp only [BEq.rfl,if_true]
      rcases List.mem_cons.mp mem with same | later
      · exact .inl same
      · refine (ih later).imp_right fun ⟨word,inside,found⟩ => ?_
        exact ⟨word,List.mem_cons_of_mem _ inside,found⟩
    · simp only [beq_iff_eq,cut,if_false]
      cases pieces : rest.splitOn sep with
      | nil => exact absurd pieces (List.splitOn_ne_nil _ _)
      | cons word others =>
        rw [pieces] at ih
        rcases List.mem_cons.mp mem with rfl | later
        · exact .inr ⟨_,List.mem_cons_self,List.mem_cons_self⟩
        rcases ih later with same | ⟨found,inside,own⟩
        · exact .inl same
        · rcases List.mem_cons.mp inside with rfl | tail
          · exact .inr ⟨_,List.mem_cons_self,List.mem_cons_of_mem _ own⟩
          · exact .inr ⟨found,List.mem_cons_of_mem _ tail,own⟩

theorem profileIdPlain {id} (ok : profileIdOk id = true) : isName id.toList = true ∧ '.' ∉ id.toList := by
  rw [profileIdOk,List.all_eq_true] at ok
  have letters : ∀ ch ∈ id.toList, ch = '-' ∨
      (PyText.isDigit ch || (97 ≤ ch.toNat && ch.toNat ≤ 122)) = true := by
    intro ch mem
    refine (memSplit mem).imp_right fun ⟨word,inside,own⟩ => ?_
    have checked := ok word inside
    rw [Bool.and_eq_true,List.all_eq_true] at checked
    exact checked.2 ch own
  have plain : ∀ ch, ch = '/' ∨ ch = '.' → ch ∉ id.toList := by
    rintro ch either mem
    rcases letters ch mem with dash | letter
    · rcases either with rfl | rfl <;> cases dash
    · rcases either with rfl | rfl <;> revert letter <;> decide
  have full : id.toList ≠ [] := by
    intro none
    have checked := ok [] (by rw [none]; exact List.mem_singleton_self _)
    cases checked
  refine ⟨isNameIff.mpr ⟨full,?_,?_,plain _ (.inl rfl)⟩,plain _ (.inr rfl)⟩
  · intro same
    exact plain '.' (.inr rfl) (same ▸ List.mem_cons_self)
  · intro same
    exact plain '.' (.inr rfl) (same ▸ List.mem_cons_self)

theorem payloadsDistinct {files} (routes : List (String × String)) :
    Distinct (payloadsOf files routes) :=
  List.foldlRecOn _ _ List.nodup_nil fun _ kept _ _ => distinctInsert kept _ _

theorem builtProper {rt row archive c} (done : buildConversion rt row archive = .ok c) : Proper c := by
  unfold buildConversion at done
  split at done
  · cases done
  rename_i checked
  obtain ⟨files,-,rest⟩ := okOfBind done
  obtain ⟨routeMap,-,rest⟩ := okOfBind rest
  obtain ⟨w,gathering,finished⟩ := okOfBind rest
  have claims := gathered gathering
  have plan := concluded finished
  have routed := (classifyRouted claims.sound).1
  have id : c.report.profileId = profileIdOf rt row := by
    obtain ⟨links,-,last⟩ := okOfBind finished
    cases Except.ok.inj last
    rw [reportOf]
  have ok : profileIdOk c.report.profileId = true := by
    rw [id]
    simpa using checked
  -- every place is a route's segments with the name of the index file
  have shape : ∀ name ∈ keys c.payloads, ∃ path, path ≠ [] ∧ Names path ∧ name = nameOf path := by
    intro name mem
    rw [plan.payloads] at mem
    obtain ⟨p,inside,rfl⟩ := memPayloads.mp mem
    obtain ⟨segments,spelled⟩ := ((routed.routed p inside).segments claims.sound.grounded).1
    refine ⟨_,?_,snocNames spelled.names (terminalName _),spelled.destination _⟩
    simp
  have path : ∀ {path}, Names path → pathOf (nameOf path) = path := by
    intro path names
    rw [pathOf,nameOf,String.toList_ofList,partsRender names]
  refine ⟨(profileIdPlain ok).1,(profileIdPlain ok).2,?_,fun name mem => ?_,fun name mem => ?_,
    fun name mem => ?_⟩
  · rw [plan.payloads]
    exact payloadsDistinct _
  · obtain ⟨path',-,names,rfl⟩ := shape name mem
    rw [path names]
  · obtain ⟨path',-,names,rfl⟩ := shape name mem
    rw [path names]
    exact names
  · obtain ⟨path',full,names,rfl⟩ := shape name mem
    rw [path names]
    exact full

def Owned (s : Setting) (c : Conversion) (path : Path) : Prop :=
  profileRoot s c <+: path ∨ path = reportPath s c

namespace Sample

def setting : Setting :=
  ⟨["out".toList],by decide,"1".toList,by decide,"ab".toList,by decide,fun _ => [7]⟩

def reportDisk : Disk :=
  [(["out".toList],.directory),(["out".toList,"acme-one.conversion.json".toList],.file [7])]

def renameFails : World :=
  ⟨reportDisk,[none,none,none,none,none,none,none,some ⟨.other "OSError" "",0,none,[]⟩]⟩

theorem emptyWhole : WellFormed [] :=
  ⟨List.nodup_nil,fun _ mem => absurd mem List.not_mem_nil,fun mem => absurd mem List.not_mem_nil⟩

theorem reportWhole : WellFormed reportDisk := by
  refine ⟨by decide,by decide,fun {path s} mem => ?_⟩
  have either : path ++ [s] = [] ++ ["out".toList] ∨
      path ++ [s] = ["out".toList] ++ ["acme-one.conversion.json".toList] := by
    simpa [reportDisk,keys] using mem
  rcases either with same | same
  · exact .inl (List.append_inj_left' same rfl)
  · rw [List.append_inj_left' same rfl]
    exact .inr (by decide)

end Sample

end RedfishCtl.CorpusTree
