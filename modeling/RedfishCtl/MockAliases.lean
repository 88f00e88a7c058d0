import RedfishCtl.MockEngine

/-! Where the dictionaries of a loaded specification stand: without aliases, at the top or under one
key of one other dictionary. -/
namespace RedfishCtl.MockEngine
open MockOverlay
open Entries (refs)

section
variable {spec : Specification}

theorem cellKnown (q : Nat) : ∀ r ∈ refs (spec.heap.cell q), r < spec.heap.size := by
  intro r inside
  unfold Heap.cell at inside
  cases found : spec.heap.cells[q]? with
  | none => simp [found,refs] at inside
  | some m =>
    rw [found] at inside
    exact spec.closed m (List.mem_of_getElem? found) r inside

theorem fieldKnown {rule v key} (found : field spec.heap rule key = some v) :
    ∀ r ∈ v.refs, r < spec.heap.size := by
  intro r inside
  cases rule with
  | dict q => exact cellKnown q r (Entries.refsMem.mpr ⟨_,AssocList.lookupMem found,inside⟩)
  | _ => simp [field] at found

end

/- No dictionary of the specification stands in two places, as in any file without aliases. -/
def Unshared (spec : Specification) : Prop :=
  (spec.entries.flatMap PyVal.refs ++ spec.heap.cells.flatMap refs).Nodup

instance (spec : Specification) : Decidable (Unshared spec) :=
  inferInstanceAs (Decidable (List.Nodup _))

def Occurs (spec : Specification) (q : Nat) (key : String) (r : Nat) : Prop :=
  ∃ v, (key,v) ∈ spec.heap.cell q ∧ r ∈ v.refs

section
variable {spec : Specification} {q r : Nat} {key : String}

theorem occursField {v} (found : field spec.heap (.dict q) key = some v) (inside : r ∈ v.refs) :
    Occurs spec q key r :=
  ⟨v,AssocList.lookupMem found,inside⟩

theorem occursRefs (inside : r ∈ refs (spec.heap.cell q)) : ∃ key, Occurs spec q key r := by
  obtain ⟨⟨key,v⟩,mem,among⟩ := Entries.refsMem.mp inside
  exact ⟨key,v,mem,among⟩

theorem refsOccurs (occurs : Occurs spec q key r) : r ∈ refs (spec.heap.cell q) := by
  obtain ⟨v,mem,among⟩ := occurs
  exact Entries.refsMem.mpr ⟨(key,v),mem,among⟩

theorem occursCell (occurs : Occurs spec q key r) :
    ∃ below : q < spec.heap.cells.length, spec.heap.cells[q] = spec.heap.cell q := by
  have below : q < spec.heap.cells.length := by
    by_contra beyond
    obtain ⟨v,mem,-⟩ := occurs
    simp [Heap.cell,List.getElem?_eq_none (not_lt.mp beyond)] at mem
  exact ⟨below,by simp [Heap.cell,List.getElem?_eq_getElem below]⟩

variable (unshared : Unshared spec)
include unshared

theorem entryOnce {q' key' v v'} (one : (key,v) ∈ spec.heap.cell q) (inside : r ∈ v.refs)
    (other : (key',v') ∈ spec.heap.cell q') (inside' : r ∈ v'.refs) : q = q' ∧ (key,v) = (key',v') := by
  obtain ⟨below,cell⟩ := occursCell ⟨v,one,inside⟩
  obtain ⟨below',cell'⟩ := occursCell ⟨v',other,inside'⟩
  obtain ⟨each,apart⟩ := List.nodup_flatMap.mp (List.nodup_append.mp unshared).2.1
  have separate := List.pairwise_iff_getElem.mp apart
  have here := refsOccurs ⟨v,one,inside⟩
  have there := refsOccurs ⟨v',other,inside'⟩
  rw [← cell] at here
  rw [← cell'] at there
  have same : q = q' := by
    rcases Nat.lt_trichotomy q q' with less | same | more
    · exact absurd there (separate q q' below below' less here)
    · exact same
    · exact absurd here (separate q' q below' below more there)
  subst same
  have once : (refs (spec.heap.cell q)).Nodup := by
    rw [← cell]
    exact each _ (List.getElem_mem below)
  have pairs := (List.nodup_flatMap.mp once).2
  have symmetric : Std.Symm (Function.onFun List.Disjoint fun p : String × PyVal => p.2.refs) :=
    ⟨fun _ _ disjoint => List.Disjoint.symm disjoint⟩
  by_contra different
  simp only [true_and] at different
  exact pairs.forall one other different inside inside'

theorem occursOnce {q' key'} (one : Occurs spec q key r) (other : Occurs spec q' key' r) :
    q = q' ∧ key = key' := by
  obtain ⟨v,mem,among⟩ := one
  obtain ⟨v',mem',among'⟩ := other
  obtain ⟨cell,entry⟩ := entryOnce unshared mem among mem' among'
  exact ⟨cell,(Prod.mk.inj entry).1⟩

theorem occursBelow (occurs : Occurs spec q key r) : .dict r ∉ spec.entries := by
  intro listed
  obtain ⟨below,cell⟩ := occursCell occurs
  have root : r ∈ spec.entries.flatMap PyVal.refs :=
    List.mem_flatMap.mpr ⟨.dict r,listed,by simp [PyVal.refs]⟩
  have deep := List.mem_flatMap.mpr ⟨_,List.getElem_mem below,cell ▸ refsOccurs occurs⟩
  exact (List.nodup_append.mp unshared).2.2 r root r deep rfl

end
end RedfishCtl.MockEngine
