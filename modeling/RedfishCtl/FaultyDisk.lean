import RedfishCtl.PosixPath
import RedfishCtl.PyText
import RedfishCtl.Stateful

/-! A disk without symbolic links whose operations may fail. A failed operation may have done a part
of its work; only a rename and the removal of one file are done whole or not at all. -/
namespace RedfishCtl.FaultyDisk
open AssocList
open PosixPath (Path Names)

inductive Node where
  | file (data : List UInt8)
  | directory
  | special
  deriving DecidableEq, Repr

abbrev Disk := List (Path × Node)

def get {κ α : Type} [DecidableEq κ] (d : List (κ × α)) (key : κ) : Option α := d.lookup key

def nodeAt (d : Disk) (path : Path) : Option Node := get d path

structure WellFormed (d : Disk) : Prop where
  distinct : Distinct d
  names : ∀ path ∈ keys d, Names path
  rooted : ∀ {path s}, path ++ [s] ∈ keys d → path = [] ∨ nodeAt d path = some .directory

/- How far a failed operation gets: the directories it makes, what it leaves in the file, the
entries it does not remove. -/
structure Fault where
  error : PyError
  made : Nat
  left : Option (List UInt8)
  kept : List Path

structure World where
  disk : Disk
  faults : List (Option Fault)

abbrev Act (α : Type) := Stateful World PyError α

def settle (op : Disk → Except PyError Disk) (d : Disk) (faults : List (Option Fault)) :
    Except PyError Unit × World :=
  match op d with
  | .ok after => (.ok (),⟨after,faults⟩)
  | .error e => (.error e,⟨d,faults⟩)

def perform (op : Disk → Except PyError Disk) (broken : Fault → Disk → Disk) : Act Unit := fun w =>
  match w.faults with
  | some fault::rest => (.error fault.error,⟨broken fault w.disk,rest⟩)
  | none::rest => settle op w.disk rest
  | [] => settle op w.disk []

def osError (kind : String) (path : Path) : PyError := .other kind (String.ofList (PosixPath.render path))

def isDirectory (d : Disk) (path : Path) : Bool := path = [] || nodeAt d path = some .directory

def blocks (d : Disk) (path : Path) : Bool :=
  match nodeAt d path with
  | none | some .directory => false
  | some (.file _) | some .special => true

def steps (path : Path) : List Path := path.inits.filter (· ≠ [])

def missing (d : Disk) (path : Path) : List Path := (steps path).filter fun q => (nodeAt d q).isNone

def makeMissing (path : Path) (count : Nat) (d : Disk) : Disk :=
  d ++ ((missing d path).take count).map fun q => (q,.directory)

def mkdirs (path : Path) (d : Disk) : Except PyError Disk :=
  if (steps path).any (blocks d) then
    .error (osError (if blocks d path then "FileExistsError" else "NotADirectoryError") path)
  else .ok (makeMissing path (missing d path).length d)

def makeDirectories (path : Path) : Act Unit :=
  perform (mkdirs path) fun fault => makeMissing path fault.made

def mkdir (path : Path) (d : Disk) : Except PyError Disk :=
  if (nodeAt d path).isSome then .error (osError "FileExistsError" path)
  else if !isDirectory d path.dropLast then .error (osError "FileNotFoundError" path)
  else .ok (d ++ [(path,.directory)])

def makeNew (path : Path) : Act Unit := perform (mkdir path) fun _ d => d

def store (path : Path) (data : List UInt8) (d : Disk) : Except PyError Disk :=
  if !isDirectory d path.dropLast then .error (osError "FileNotFoundError" path)
  else match nodeAt d path with
  | some .directory => .error (osError "IsADirectoryError" path)
  | some .special => .error (osError "OSError" path)
  | none | some (.file _) => .ok (AssocList.insert path (.file data) d)

/- A write that fails may have emptied the file, or written a part. -/
def storePart (path : Path) (fault : Fault) (d : Disk) : Disk :=
  match fault.left.map fun part => store path part d with
  | some (.ok after) => after
  | some (.error _) | none => d

def writeBytes (path : Path) (data : List UInt8) : Act Unit := perform (store path data) (storePart path)

def below (root path : Path) : Bool := root.isPrefixOf path

def carry (source target : Path) (d : Disk) : Disk :=
  (d.filter fun e => !below target e.1).map fun e =>
    if below source e.1 then (target ++ e.1.drop source.length,e.2) else e

def move (source target : Path) (d : Disk) : Except PyError Disk :=
  if !isDirectory d target.dropLast then .error (osError "FileNotFoundError" target)
  else match nodeAt d source, nodeAt d target with
  | none, _ => .error (osError "FileNotFoundError" source)
  | some _, none => .ok (carry source target d)
  | some .directory, some .directory =>
      if d.any fun e => below target e.1 && e.1 ≠ target then .error (osError "OSError" target)
      else .ok (carry source target d)
  | some .directory, some _ => .error (osError "NotADirectoryError" target)
  | some _, some .directory => .error (osError "IsADirectoryError" target)
  | some _, some _ => .ok (carry source target d)

def replace (source target : Path) : Act Unit := perform (move source target) fun _ d => d

def remove (path : Path) (d : Disk) : Except PyError Disk :=
  match nodeAt d path with
  | none => .error (osError "FileNotFoundError" path)
  | some .directory => .error (osError "IsADirectoryError" path)
  | some _ => .ok (erase path d)

def unlink (path : Path) : Act Unit := perform (remove path) fun _ d => d

def removeTree (root : Path) : Act Unit := fun w =>
  match w.faults with
  | some fault::rest => (.ok (),⟨w.disk.filter fun e => !below root e.1 || fault.kept.contains e.1,rest⟩)
  | none::rest => (.ok (),⟨w.disk.filter fun e => !below root e.1,rest⟩)
  | [] => (.ok (),⟨w.disk.filter fun e => !below root e.1,[]⟩)

def load (path : Path) (d : Disk) : Except PyError (List UInt8) :=
  match nodeAt d path with
  | some (.file data) => .ok data
  | none => .error (osError "FileNotFoundError" path)
  | some .directory => .error (osError "IsADirectoryError" path)
  | some .special => .error (osError "OSError" path)

def readBytes (path : Path) : Act (List UInt8) := fun w =>
  match w.faults with
  | some fault::rest => (.error fault.error,⟨w.disk,rest⟩)
  | none::rest => (load path w.disk,⟨w.disk,rest⟩)
  | [] => (load path w.disk,⟨w.disk,[]⟩)

def present (path : Path) : Act Bool := Stateful.read fun w => .ok (nodeAt w.disk path).isSome

def look : Act Disk := Stateful.read fun w => .ok w.disk

theorem lookRun (w : World) : look w = (.ok w.disk,w) := rfl

section
variable {d after : Disk} {path q : Path} {w v : World}

variable {op : Disk → Except PyError Disk} {broken : Fault → Disk → Disk}

theorem performOk (done : perform op broken w = (.ok (),v)) : op w.disk = .ok v.disk := by
  have settled : ∀ faults, settle op w.disk faults = (.ok (),v) → op w.disk = .ok v.disk := by
    intro faults result
    unfold settle at result
    split at result
    · rename_i after went
      rw [went,← (Prod.mk.inj result).2]
    · cases result
  unfold perform at done
  split at done
  · cases done
  · exact settled _ done
  · exact settled _ done

variable {I : Disk → Prop}

theorem performKeeps
    (whole : ∀ d after, I d → op d = .ok after → I after) (part : ∀ fault d, I d → I (broken fault d)) :
    Stateful.Keeps (fun w => I w.disk) (fun _ => True) (perform op broken) := by
  intro w start
  have settled : ∀ faults, I (settle op w.disk faults).2.disk := by
    intro faults
    unfold settle
    split
    · rename_i after went
      exact whole _ _ start went
    · exact start
  refine ⟨?_,fun _ _ => trivial⟩
  unfold perform
  split
  · exact part _ _ start
  · exact settled _
  · exact settled _

theorem readKeeps : Stateful.Keeps (fun w => I w.disk) (fun _ => True) (readBytes path) := by
  intro w start
  refine ⟨?_,fun _ _ => trivial⟩
  unfold readBytes
  split <;> exact start

theorem memSteps : q ∈ steps path ↔ q ≠ [] ∧ q <+: path := by
  simp [steps,and_comm]

theorem stepsNodup (path : Path) : (steps path).Nodup := by
  refine List.Nodup.filter _ ?_
  induction path with
  | nil => simp
  | cons s rest ih =>
    rw [List.inits_cons,List.nodup_cons]
    refine ⟨by simp,ih.map fun a b same => (List.cons.inj same).2⟩

variable {node : Node}

theorem nodeAtMem (found : nodeAt d path = some node) : (path,node) ∈ d := lookupMem found

theorem nodeAtOfMem (distinct : Distinct d) (mem : (path,node) ∈ d) :
    nodeAt d path = some node := lookupOfMem distinct mem

theorem nodeAtNone : nodeAt d path = none ↔ path ∉ keys d := lookupNone

theorem nodeAtInsert :
    nodeAt (AssocList.insert path node d) q = if q = path then some node else nodeAt d q :=
  lookupInsert q path node d

theorem nodeAtErase : nodeAt (erase path d) q = if q = path then none else nodeAt d q := lookupErase q path d

theorem nodeAtCons : nodeAt ((path,node)::d) q = if q = path then some node else nodeAt d q :=
  lookupCons q path node d

theorem nodeAtAppend {e} : nodeAt (d ++ e) q = (nodeAt d q).or (nodeAt e q) := by
  induction d with
  | nil => rfl
  | cons p rest ih =>
    rw [List.cons_append,nodeAtCons,nodeAtCons,ih]
    split <;> rfl

theorem nodeAtFilter (keep : Path → Bool) :
    nodeAt (d.filter fun e => keep e.1) q = if keep q then nodeAt d q else none := by
  induction d with
  | nil => simp [nodeAt,get]
  | cons p rest ih =>
    obtain ⟨path,node⟩ := p
    rw [List.filter_cons]
    by_cases same : q = path
    · subst same
      cases kept : keep q <;> simp [kept,nodeAtCons,ih]
    · cases kept : keep path <;> simp [same,nodeAtCons,ih]

theorem nodeAtDirectories {paths : List Path} :
    nodeAt (paths.map fun q => (q,Node.directory)) q = if q ∈ paths then some .directory else none := by
  induction paths with
  | nil => rfl
  | cons p rest ih =>
    rw [List.map_cons,nodeAtCons,ih]
    by_cases same : q = p <;> simp [same]

theorem makeMissingKeeps {count} (found : nodeAt d q = some node) :
    nodeAt (makeMissing path count d) q = some node := by
  rw [makeMissing,nodeAtAppend,found]
  rfl

theorem mkdirsOk (done : mkdirs path d = .ok after) : after = makeMissing path (missing d path).length d := by
  unfold mkdirs at done
  split at done
  · cases done
  · exact (Except.ok.inj done).symm

theorem mkdirsAt (done : mkdirs path d = .ok after) :
    nodeAt after q = if q ≠ [] ∧ q <+: path then some .directory else nodeAt d q := by
  unfold mkdirs at done
  split at done
  · cases done
  rename_i free
  cases Except.ok.inj done
  rw [makeMissing,List.take_length,nodeAtAppend,nodeAtDirectories]
  split
  · rename_i inside
    rw [missing,List.mem_filter] at inside
    have none : nodeAt d q = none := by simpa using inside.2
    rw [none,if_pos (memSteps.mp inside.1)]
    rfl
  · rename_i outside
    split
    · rename_i onWay
      have step : q ∈ steps path := memSteps.mpr onWay
      cases found : nodeAt d q with
      | none => exact absurd (List.mem_filter.mpr ⟨step,by simp [found]⟩) outside
      | some node =>
        cases node with
        | directory => rfl
        | file data => exact absurd (List.any_eq_true.mpr ⟨q,step,by simp [blocks,found]⟩) free
        | special => exact absurd (List.any_eq_true.mpr ⟨q,step,by simp [blocks,found]⟩) free
    · rw [Option.or_none]

variable {data : List UInt8}

theorem mkdirsFree (done : mkdirs path d = .ok after) (step : q ≠ [] ∧ q <+: path) :
    nodeAt d q ≠ some (.file data) := by
  intro found
  unfold mkdirs at done
  split at done
  · cases done
  rename_i free
  exact free (List.any_eq_true.mpr ⟨q,memSteps.mpr step,by simp [blocks,found]⟩)

theorem mkdirAt (done : mkdir path d = .ok after) :
    nodeAt d path = none ∧ nodeAt after q = if q = path then some .directory else nodeAt d q := by
  unfold mkdir at done
  split at done
  · cases done
  rename_i fresh
  split at done
  · cases done
  cases Except.ok.inj done
  have none : nodeAt d path = none := by simpa using fresh
  refine ⟨none,?_⟩
  rw [nodeAtAppend,nodeAtCons]
  split
  · rename_i same
    rw [same,none]
    rfl
  · simp [nodeAt,get]

theorem storeAt (done : store path data d = .ok after) :
    nodeAt after q = if q = path then some (.file data) else nodeAt d q := by
  unfold store at done
  split at done
  · cases done
  split at done
  · cases done
  · cases done
  all_goals
    cases Except.ok.inj done
    exact nodeAtInsert

theorem storePartAt {fault} (other : q ≠ path) : nodeAt (storePart path fault d) q = nodeAt d q := by
  unfold storePart
  split
  · rename_i after stored
    obtain ⟨part,-,done⟩ := Option.map_eq_some_iff.mp stored
    rw [storeAt done,if_neg other]
  · rfl
  · rfl

theorem belowIff {root} : below root path = true ↔ root <+: path := List.isPrefixOf_iff_prefix

def Aside (first second : Path) : Prop := ¬ first <+: second ∧ ¬ second <+: first

theorem Aside.apart {first second} (aside : Aside first second) (inside : first <+: q) :
    ¬ second <+: q :=
  fun other => (List.prefix_or_prefix_of_prefix inside other).elim aside.1 aside.2

theorem asideNames (above : Path) {a b} (different : a ≠ b) : Aside (above ++ [a]) (above ++ [b]) := by
  have same : ∀ {x y : List Char}, above ++ [x] <+: above ++ [y] → x = y := by
    intro x y inside
    have equal := inside.eq_of_length (by simp)
    simpa using equal
  exact ⟨fun inside => different (same inside),fun inside => different (same inside).symm⟩

theorem entryAbove {above a} (higher : path <+: above) : ¬ above ++ [a] <+: path := by
  intro inside
  have lengths := (inside.trans higher).length_le
  simp only [List.length_append,List.length_cons,List.length_nil] at lengths
  omega

variable {source target : Path}

theorem carryAt (aside : Aside source target) :
    nodeAt (carry source target d) q = if target <+: q then nodeAt d (source ++ q.drop target.length)
      else if source <+: q then none else nodeAt d q := by
  induction d with
  | nil => simp [carry,nodeAt,get]
  | cons e rest ih =>
    obtain ⟨path,node⟩ := e
    unfold carry at ih ⊢
    rw [List.filter_cons]
    by_cases onTarget : target <+: path
    · -- an entry that is replaced is neither at q nor carried to it
      have gone := belowIff.mpr onTarget
      have elsewhere : ∀ tail, source ++ tail ≠ path := fun tail same =>
        aside.apart (same ▸ List.prefix_append source tail) onTarget
      simp only [gone,Bool.not_true,Bool.false_eq_true,if_false,ih]
      split
      · rw [nodeAtCons,if_neg (elsewhere _)]
      · rename_i outside
        rw [nodeAtCons,if_neg fun same : q = path => outside (same ▸ onTarget)]
    · have stays : below target path = false := by
        rw [Bool.eq_false_iff,ne_eq,belowIff]
        exact onTarget
      simp only [stays,Bool.not_false,if_true,List.map_cons]
      by_cases onSource : source <+: path
      · have carried := belowIff.mpr onSource
        obtain ⟨tail,rfl⟩ := onSource
        simp only [carried,if_true,List.drop_left,nodeAtCons,ih]
        by_cases here : q = target ++ tail
        · subst here
          simp
        rw [if_neg here]
        split
        · rename_i inside
          obtain ⟨more,rfl⟩ := inside
          rw [List.drop_left,if_neg]
          intro same
          exact here (congrArg (target ++ ·) (List.append_cancel_left same))
        · split
          · rfl
          · rename_i outside
            have other : q ≠ source ++ tail := fun same => outside (same ▸ List.prefix_append _ _)
            rw [if_neg other]
      · have kept : below source path = false := by
          rw [Bool.eq_false_iff,ne_eq,belowIff]
          exact onSource
        simp only [kept,Bool.false_eq_true,if_false,nodeAtCons,ih]
        by_cases here : q = path
        · subst here
          simp [onTarget,onSource]
        · rw [if_neg here]
          have elsewhere : ∀ tail, source ++ tail ≠ path :=
            fun tail same => onSource (same ▸ List.prefix_append _ _)
          rw [if_neg (elsewhere _),if_neg here]

theorem moveOk (done : move source target d = .ok after) : after = carry source target d := by
  unfold move at done
  split at done
  · cases done
  split at done
  · cases done
  · exact (Except.ok.inj done).symm
  · split at done
    · cases done
    · exact (Except.ok.inj done).symm
  · cases done
  · cases done
  · exact (Except.ok.inj done).symm

theorem removeAt (done : remove path d = .ok after) :
    nodeAt after q = if q = path then none else nodeAt d q := by
  unfold remove at done
  split at done
  · cases done
  · cases done
  · cases Except.ok.inj done
    exact nodeAtErase

theorem removeTreeKeeps {root}
    (kept : ∀ d (keep : Path → Bool), I d → I (d.filter fun e => !below root e.1 || keep e.1)) :
    Stateful.Keeps (fun w => I w.disk) (fun _ => True) (removeTree root) := by
  intro w start
  have whole := kept w.disk (fun _ => false) start
  simp only [Bool.or_false] at whole
  refine ⟨?_,fun _ _ => trivial⟩
  unfold removeTree
  split
  · exact kept w.disk _ start
  · exact whole
  · exact whole

structure WellNamed (d : Disk) : Prop where
  distinct : Distinct d
  names : ∀ path ∈ keys d, Names path

theorem WellFormed.named (whole : WellFormed d) : WellNamed d := ⟨whole.distinct,whole.names⟩

theorem WellFormed.nothingBelow (whole : WellFormed d) {root} (full : root ≠ [])
    (none : nodeAt d root = none) (inside : root <+: path) : nodeAt d path = .none := by
  obtain ⟨tail,rfl⟩ := inside
  induction tail using List.reverseRecOn with
  | nil => rwa [List.append_nil]
  | append_singleton tail s ih =>
    rw [nodeAtNone]
    intro mem
    rw [← List.append_assoc] at mem
    rcases whole.rooted mem with empty | above
    · exact full (List.append_eq_nil_iff.mp empty).1
    · rw [ih] at above
      cases above

theorem mkdirsNamed (names : Names path) (done : mkdirs path d = .ok after) (named : WellNamed d) :
    WellNamed after := by
  unfold mkdirs at done
  split at done
  · cases done
  cases Except.ok.inj done
  rw [makeMissing,List.take_length]
  have keysOf : keys (d ++ (missing d path).map fun q => (q,Node.directory)) = keys d ++ missing d path := by
    simp [keys,Function.comp_def]
  constructor
  · rw [Distinct,keysOf,List.nodup_append']
    refine ⟨named.distinct,(stepsNodup path).filter _,fun q inside new => ?_⟩
    have none : nodeAt d q = none := by simpa using (List.mem_filter.mp new).2
    exact nodeAtNone.mp none inside
  intro q mem
  rw [keysOf,List.mem_append] at mem
  rcases mem with old | new
  · exact named.names q old
  · obtain ⟨-,onWay⟩ := memSteps.mp (List.mem_filter.mp new).1
    exact fun s inside => names s (onWay.subset inside)

theorem mkdirNamed (names : Names path) (done : mkdir path d = .ok after) (named : WellNamed d) :
    WellNamed after := by
  obtain ⟨fresh,-⟩ := mkdirAt (q := path) done
  unfold mkdir at done
  split at done
  · cases done
  split at done
  · cases done
  cases Except.ok.inj done
  rw [← insertAbsent (nodeAtNone.mp fresh)]
  refine ⟨distinctInsert named.distinct _ _,fun q mem => ?_⟩
  rcases (memKeysInsert _ _ _ _).mp mem with rfl | old
  · exact names
  · exact named.names q old

theorem storeNamed (names : Names path) (done : store path data d = .ok after)
    (named : WellNamed d) : WellNamed after := by
  have inserted : WellNamed (AssocList.insert path (.file data) d) := by
    refine ⟨distinctInsert named.distinct _ _,fun q mem => ?_⟩
    rcases (memKeysInsert _ _ _ _).mp mem with rfl | old
    · exact names
    · exact named.names q old
  unfold store at done
  split at done
  · cases done
  split at done
  · cases done
  · cases done
  all_goals
    cases Except.ok.inj done
    exact inserted

theorem carryNamed (names : Names target) (named : WellNamed d) :
    WellNamed (carry source target d) := by
  have keysOf : keys (carry source target d) = (keys (d.filter fun e => !below target e.1)).map
      fun p => if below source p then target ++ p.drop source.length else p := by
    simp only [keys,carry,List.map_map]
    refine List.map_congr_left fun e _ => ?_
    simp only [Function.comp_apply]
    split <;> rfl
  have kept : ∀ p ∈ keys (d.filter fun e => !below target e.1), p ∈ keys d ∧ ¬ target <+: p := by
    intro p mem
    obtain ⟨e,inside,rfl⟩ := List.mem_map.mp mem
    have filtered := List.mem_filter.mp inside
    refine ⟨List.mem_map_of_mem filtered.1,fun onTarget => ?_⟩
    simp [belowIff.mpr onTarget] at filtered
  constructor
  · rw [Distinct,keysOf]
    refine (named.distinct.sublist ((List.filter_sublist).map _)).map_on fun a first b second same => ?_
    have left := (kept a first).2
    have right := (kept b second).2
    split at same
    · rename_i onSource
      obtain ⟨tail,rfl⟩ := belowIff.mp onSource
      split at same
      · rename_i otherSource
        obtain ⟨more,rfl⟩ := belowIff.mp otherSource
        simp only [List.drop_left] at same
        rw [List.append_cancel_left same]
      · exact absurd (same ▸ List.prefix_append _ _) right
    · split at same
      · exact absurd (same ▸ List.prefix_append _ _) left
      · exact same
  · intro q mem
    rw [keysOf] at mem
    obtain ⟨p,inside,rfl⟩ := List.mem_map.mp mem
    have proper := named.names p (kept p inside).1
    split
    · intro s within
      rcases List.mem_append.mp within with first | later
      · exact names s first
      · exact proper s (List.mem_of_mem_drop later)
    · exact proper

end

end RedfishCtl.FaultyDisk
