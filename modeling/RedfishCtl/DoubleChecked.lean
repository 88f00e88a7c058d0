import RedfishCtl.AssocList
import RedfishCtl.Runs

/-! A table with one object for each key, filled by double-checked locking: a call looks its key up,
takes the lock if nothing is there, looks again and then builds an object, which may fail. -/
namespace RedfishCtl.DoubleChecked
open AssocList (insert lookupInsert)

variable {κ : Type}

inductive Phase where
  | idle
  | missed
  | checking
  | building
  | storing (object : Nat)
  | leaving (object : Option Nat)
  | done (object : Option Nat)
  deriving DecidableEq, Repr

structure State (κ : Type) where
  table : List (κ × Nat)
  next : Nat
  holder : Option Nat
  phase : Nat → Phase

def start : State κ := ⟨[],0,none,fun _ => .idle⟩

def State.move (s : State κ) (i : Nat) (phase : Phase) : State κ :=
  { s with phase := Function.update s.phase i phase }

variable [DecidableEq κ] (key : Nat → κ) (builds : Nat → Bool)

def step (s : State κ) (i : Nat) : State κ :=
  match s.phase i with
  | .idle =>
    match s.table.lookup (key i) with
    | some object => s.move i (.done (some object))
    | none => s.move i .missed
  | .missed => if s.holder = none then { s.move i .checking with holder := some i } else s
  | .checking =>
    match s.table.lookup (key i) with
    | some object => s.move i (.leaving (some object))
    | none => s.move i .building
  | .building =>
    if builds i then { s.move i (.storing s.next) with next := s.next + 1 }
    else s.move i (.leaving none)
  | .storing object =>
    { s.move i (.leaving (some object)) with
      table := insert (key i) object s.table }
  | .leaving object => { s.move i (.done object) with holder := none }
  | .done _ => s

def Settled (s : State κ) (i : Nat) : Option Nat → Prop
  | some object => s.table.lookup (key i) = some object
  | none => builds i = false

def Knows (s : State κ) (i : Nat) : Phase → Prop
  | .idle => True
  | .missed => True
  | .checking => s.holder = some i
  | .building => s.holder = some i ∧ s.table.lookup (key i) = none
  | .storing object => s.holder = some i ∧ s.table.lookup (key i) = none ∧ object < s.next ∧
      (∀ k, s.table.lookup k ≠ some object) ∧ builds i = true
  | .leaving object => s.holder = some i ∧ Settled key builds s i object
  | .done object => Settled key builds s i object

structure Sound (s : State κ) : Prop where
  fresh : ∀ {k n}, s.table.lookup k = some n → n < s.next
  apart : ∀ {k l n}, s.table.lookup k = some n → s.table.lookup l = some n → k = l
  built : ∀ {k n}, s.table.lookup k = some n → ∃ i, key i = k ∧ builds i = true
  knows : ∀ i, Knows key builds s i (s.phase i)

variable {key} {builds} {s : State κ}

theorem soundStart : Sound key builds (start : State κ) where
  fresh := fun found => by cases found
  apart := fun found => by cases found
  built := fun found => by cases found
  knows := fun _ => trivial

variable {phase : Phase} {j : Nat}

theorem knowsMoved (i : Nat) (after : Phase)
    (knows : Knows key builds s j phase) : Knows key builds (s.move i after) j phase := by
  cases phase with
  | idle => trivial
  | missed => trivial
  | checking => exact knows
  | building => exact knows
  | storing => exact knows
  | leaving object => cases object <;> exact knows
  | done object => cases object <;> exact knows

variable {i : Nat}

theorem knowsAll {after} (own : Knows key builds s i after)
    (others : ∀ j, j ≠ i → Knows key builds s j (s.phase j)) (j : Nat) :
    Knows key builds (s.move i after) j ((s.move i after).phase j) := by
  refine knowsMoved i after ?_
  by_cases same : j = i
  · subst same
    simpa [State.move] using own
  · simpa [State.move,same] using others j same

variable {holder : Option Nat}

theorem soundMoved {next} (sound : Sound key builds s) (grows : s.next ≤ next)
    (own : Knows key builds { s with next := next, holder := holder } i phase)
    (others : ∀ j, j ≠ i → Knows key builds s j (s.phase j) →
      Knows key builds { s with next := next, holder := holder } j (s.phase j)) :
    Sound key builds { s.move i phase with next := next, holder := holder } where
  fresh := fun found => Nat.lt_of_lt_of_le (sound.fresh found) grows
  apart := sound.apart
  built := sound.built
  knows := knowsAll own fun j other => others j other (sound.knows j)

theorem soundMove (sound : Sound key builds s)
    (own : Knows key builds s i phase) : Sound key builds (s.move i phase) :=
  soundMoved sound (Nat.le_refl _) own fun _ _ knows => knows

theorem settledNext {next object} (settled : Settled key builds s j object) :
    Settled key builds { s with next := next, holder := holder } j object := by
  cases object <;> exact settled

theorem knowsLock {next} (other : s.holder ≠ some j) (knows : Knows key builds s j phase) :
    Knows key builds { s with next := next, holder := holder } j phase := by
  cases phase with
  | idle => trivial
  | missed => trivial
  | checking => exact absurd knows other
  | building => exact absurd knows.1 other
  | storing => exact absurd knows.1 other
  | leaving => exact absurd knows.1 other
  | done => exact settledNext knows

theorem soundAcquire (sound : Sound key builds s) (free : s.holder = none) :
    Sound key builds { s.move i .checking with holder := some i } :=
  soundMoved sound (Nat.le_refl _) rfl fun _ _ => knowsLock (by simp [free])

theorem soundRelease {object} (sound : Sound key builds s) (now : s.phase i = .leaving object) :
    Sound key builds { s.move i (.done object) with holder := none } := by
  have knows := sound.knows i
  rw [now] at knows
  refine soundMoved sound (Nat.le_refl _) (settledNext knows.2) fun j other => knowsLock ?_
  rw [knows.1]
  exact fun same => other (Option.some.inj same).symm

theorem soundBuild (sound : Sound key builds s) (now : s.phase i = .building)
    (built : builds i = true) :
    Sound key builds { s.move i (.storing s.next) with next := s.next + 1 } := by
  have knows := sound.knows i
  rw [now] at knows
  refine soundMoved sound (Nat.le_succ _) ?_ fun j other => knowsLock ?_
  · exact ⟨knows.1,knows.2,Nat.lt_succ_self _,fun k found => Nat.lt_irrefl _ (sound.fresh found),
      built⟩
  · rw [knows.1]
    exact fun same => other (Option.some.inj same).symm

theorem insertCases {k l n m} {table : List (κ × Nat)}
    (found : (insert k n table).lookup l = some m) :
    (l = k ∧ m = n) ∨ table.lookup l = some m := by
  rw [lookupInsert] at found
  split at found
  · rename_i same
    exact .inl ⟨same,(Option.some.inj found).symm⟩
  · exact .inr found

theorem knowsStore {object} (lock : s.holder = some i) (other : j ≠ i)
    (missing : s.table.lookup (key i) = none) (knows : Knows key builds s j phase) :
    Knows key builds { s with table := insert (key i) object s.table } j phase := by
  have free : s.holder ≠ some j := by
    rw [lock]
    exact fun same => other (Option.some.inj same).symm
  cases phase with
  | idle => trivial
  | missed => trivial
  | checking => exact absurd knows free
  | building => exact absurd knows.1 free
  | storing => exact absurd knows.1 free
  | leaving => exact absurd knows.1 free
  | done returned =>
    cases returned with
    | none => exact knows
    | some n =>
      have old : s.table.lookup (key j) = some n := knows
      have different : key j ≠ key i := by
        intro same
        rw [same,missing] at old
        cases old
      change (insert (key i) object s.table).lookup (key j) = some n
      rw [lookupInsert,if_neg different,old]

theorem soundStore {object} (sound : Sound key builds s) (now : s.phase i = .storing object) :
    Sound key builds { s.move i (.leaving (some object)) with
      table := insert (key i) object s.table } := by
  have knows := sound.knows i
  rw [now] at knows
  obtain ⟨lock,missing,allocated,unused,built⟩ := knows
  refine ⟨?_,?_,?_,?_⟩
  · intro k n found
    rcases insertCases found with ⟨_,rfl⟩ | old
    · exact allocated
    · exact sound.fresh old
  · intro k l n left right
    rcases insertCases left with ⟨rfl,rfl⟩ | old
    · rcases insertCases right with ⟨rfl,_⟩ | old'
      · rfl
      · exact absurd old' (unused l)
    · rcases insertCases right with ⟨_,rfl⟩ | old'
      · exact absurd old (unused k)
      · exact sound.apart old old'
  · intro k n found
    rcases insertCases found with ⟨rfl,_⟩ | old
    · exact ⟨i,rfl,built⟩
    · exact sound.built old
  · have stored : (insert (key i) object s.table).lookup (key i) = some object := by
      rw [lookupInsert,if_pos rfl]
    have own : Knows key builds { s with table := insert (key i) object s.table } i
        (.leaving (some object)) := ⟨lock,stored⟩
    exact knowsAll own fun j other => knowsStore lock other missing (sound.knows j)

theorem soundStep (s : State κ) (i : Nat) (sound : Sound key builds s) :
    Sound key builds (step key builds s i) := by
  have knows := sound.knows i
  unfold step
  cases now : s.phase i with
  | idle =>
    dsimp only
    split
    · rename_i found
      exact soundMove sound found
    · exact soundMove sound trivial
  | missed =>
    dsimp only
    split
    · rename_i free
      exact soundAcquire sound free
    · exact sound
  | checking =>
    rw [now] at knows
    dsimp only
    split
    · rename_i found
      exact soundMove sound ⟨knows,found⟩
    · rename_i missing
      exact soundMove sound ⟨knows,missing⟩
  | building =>
    rw [now] at knows
    dsimp only
    split
    · rename_i built
      exact soundBuild sound now built
    · rename_i failed
      have fails : builds i = false := by simpa using failed
      exact soundMove sound ⟨knows.1,fails⟩
  | storing object => exact soundStore sound now
  | leaving object => exact soundRelease sound now
  | done object => exact sound

theorem soundRun (schedule : List Nat) :
    Sound key builds (Runs.run (step key builds) start schedule) :=
  Runs.invariant soundStep soundStart schedule

theorem sameObject {n m} (sound : Sound key builds s) (first : s.phase i = .done (some n))
    (second : s.phase j = .done (some m)) : n = m ↔ key i = key j := by
  have left := sound.knows i
  have right := sound.knows j
  rw [first] at left
  rw [second] at right
  constructor
  · rintro rfl
    exact sound.apart left right
  · intro same
    have found : s.table.lookup (key i) = some n := left
    rw [same,show s.table.lookup (key j) = some m from right] at found
    exact (Option.some.inj found).symm

theorem returnedBuilt {n} (sound : Sound key builds s) (returned : s.phase i = .done (some n)) :
    ∃ j, key j = key i ∧ builds j = true := by
  have knows := sound.knows i
  rw [returned] at knows
  exact sound.built knows

end RedfishCtl.DoubleChecked
