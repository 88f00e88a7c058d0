import Mathlib.Data.List.Sort
import RedfishCtl.AssocList

/-! Mappings from a key to a list of values, an absent key standing for no values, and the
grouping of a list by a key. -/
namespace RedfishCtl.Buckets
open AssocList
variable {κ α β : Type} [DecidableEq κ]

def bucket (d : List (κ × List α)) (k : κ) : List α := (d.lookup k).getD []

def extend (k : κ) (xs : List α) (d : List (κ × List α)) : List (κ × List α) :=
  AssocList.insert k (bucket d k ++ xs) d

def add (k : κ) (x : α) (d : List (κ × List α)) : List (κ × List α) := extend k [x] d

def group (key : β → κ) (items : List β) : List (κ × List β) :=
  items.foldl (fun d x => add (key x) x d) []

@[simp] theorem bucketExtend (k l : κ) (xs : List α) (d : List (κ × List α)) :
    bucket (extend k xs d) l = if l = k then bucket d k ++ xs else bucket d l := by
  unfold extend
  rw [bucket,lookupInsert]
  split <;> rfl

@[simp] theorem bucketAdd (k l : κ) (x : α) (d : List (κ × List α)) :
    bucket (add k x d) l = if l = k then bucket d k ++ [x] else bucket d l :=
  bucketExtend k l [x] d

theorem extendKeeps {k l xs} {d : List (κ × List α)} {x} (mem : x ∈ bucket d l) :
    x ∈ bucket (extend k xs d) l := by
  rw [bucketExtend]
  split
  · rename_i same
    exact List.mem_append_left _ (same ▸ mem)
  · exact mem

theorem groupFrom (key : β → κ) (items : List β) (d : List (κ × List β)) (k : κ) :
    bucket (items.foldl (fun d x => add (key x) x d) d) k =
      bucket d k ++ items.filter (fun x => key x = k) := by
  induction items generalizing d with
  | nil => simp
  | cons x rest ih =>
    rw [List.foldl_cons,ih]
    by_cases same : key x = k
    · simp [same]
    · simp [same,Ne.symm same]

@[simp] theorem bucketGroup (key : β → κ) (items : List β) (k : κ) :
    bucket (group key items) k = items.filter (fun x => key x = k) := by
  rw [group,groupFrom]
  rfl

theorem groupDistinct (key : β → κ) (items : List β) : Distinct (group key items) := by
  refine List.foldlRecOn items _ List.nodup_nil fun d distinct x _ => ?_
  exact distinctInsert distinct _ _

variable {items : List β}

theorem groupRow {key : β → κ} {x} (mem : x ∈ items) :
    (key x,items.filter (fun y => key y = key x)) ∈ group key items := by
  have inside : x ∈ bucket (group key items) (key x) := by simp [mem]
  unfold bucket at inside
  cases found : (group key items).lookup (key x) with
  | none => simp [found] at inside
  | some row =>
    have whole : bucket (group key items) (key x) = row := by rw [bucket,found]; rfl
    rw [← bucketGroup,whole]
    exact lookupMem found

theorem groupRowEq {key} {k : κ} {row} (mem : (k,row) ∈ group key items) :
    row = items.filter (fun x => key x = k) := by
  have found := lookupOfMem (groupDistinct key items) mem
  rw [← bucketGroup,bucket,found]
  rfl

theorem groupShared (key : β → κ) {x y : β} (first : x ∈ items) (second : y ∈ items)
    (same : key x = key y) (other : x ≠ y) :
    ∃ row, (key x,row) ∈ group key items ∧ 1 < row.length ∧ x ∈ row ∧ y ∈ row := by
  refine ⟨_,groupRow first,?_,by simp [first],by simp [second,same]⟩
  have sub : [x,y] ⊆ items.filter (fun z => key z = key x) := by
    intro z mem
    rcases List.mem_cons.mp mem with rfl | later
    · simp [first]
    · cases List.mem_singleton.mp later
      simp [second,same]
  have distinct : [x,y].Nodup := by simp [other]
  exact (List.subperm_of_subset distinct sub).length_le

theorem insertionSortPerm {γ le} [DecidableRel le] [Std.Total le] [IsTrans γ le] {l m : List γ}
    (antisymm : ∀ a ∈ l, ∀ b ∈ l, le a b → le b a → a = b) (same : l.Perm m) :
    l.insertionSort le = m.insertionSort le := by
  refine List.Perm.eq_of_pairwise ?_ (List.pairwise_insertionSort le l) (List.pairwise_insertionSort le m)
    ((List.perm_insertionSort le l).trans (same.trans (List.perm_insertionSort le m).symm))
  intro a b first second
  exact antisymm a ((List.mem_insertionSort le).mp first) b
    (same.mem_iff.mpr ((List.mem_insertionSort le).mp second))

section
variable {le : κ → κ → Prop} [DecidableRel le]

def sortedItems (le : κ → κ → Prop) [DecidableRel le] (d : List (κ × α)) : List (κ × α) :=
  d.insertionSort (fun a b => le a.1 b.1)

omit [DecidableEq κ] in
@[simp] theorem memSortedItems {d} {row : κ × α} : row ∈ sortedItems le d ↔ row ∈ d :=
  List.mem_insertionSort _

variable (le) in

end

section
variable {γ : Type} {le : γ → γ → Prop} [DecidableRel le] {p : γ → Bool}

theorem filterInsert (trans : ∀ a b c, le a b → le b c → le a c) {a} {l : List γ}
    (sorted : l.Pairwise le) : (l.orderedInsert le a).filter p =
      if p a then (l.filter p).orderedInsert le a else l.filter p := by
  induction l with
  | nil => cases shown : p a <;> simp [shown]
  | cons b rest ih =>
    obtain ⟨above,tail⟩ := List.pairwise_cons.mp sorted
    by_cases before : le a b
    · -- everything that is kept stands behind the new element
      have front : ∀ kept : List γ, (∀ c ∈ kept, c = b ∨ c ∈ rest) →
          kept.orderedInsert le a = a::kept := by
        intro kept known
        cases kept with
        | nil => rfl
        | cons c others =>
          apply List.orderedInsert_cons_of_le
          rcases known c List.mem_cons_self with rfl | later
          · exact before
          · exact trans a b c before (above c later)
      rw [List.orderedInsert_cons_of_le le rest before,
        front _ fun c mem => List.mem_cons.mp (List.mem_of_mem_filter mem)]
      cases shown : p a <;> simp [shown]
    · rw [List.orderedInsert_of_not_le le rest before,List.filter_cons,ih tail]
      cases shown : p a <;> cases own : p b <;> simp [own,before]

theorem filterInsertionSort [Std.Total le] [IsTrans γ le] (l : List γ) :
    (l.insertionSort le).filter p = (l.filter p).insertionSort le := by
  induction l with
  | nil => rfl
  | cons a rest ih =>
    rw [List.insertionSort_cons,
      filterInsert (IsTrans.trans (r := le)) (List.pairwise_insertionSort le rest),ih]
    cases shown : p a <;> simp [shown]

theorem insertionSortCongr {le'} [DecidableRel le'] {l : List γ}
    (same : ∀ a ∈ l, ∀ b ∈ l, le a b ↔ le' a b) : l.insertionSort le = l.insertionSort le' := by
  simpa using List.map_insertionSort le le' id l same

end

end RedfishCtl.Buckets
