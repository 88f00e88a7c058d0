import RedfishCtl.MockEngine

/-! Stores that differ only in which references their dictionaries have. Every read of
the engines gives the same on both, and every write keeps them linked. -/
namespace RedfishCtl.MockOverlay
open AssocList
open PyUrl (normalizeRequestPath)
open Heap (Renamed)
open PyVal (rename renameItemsMap)

/- Two heaps with the same dictionaries under references that f translates, and so with the next
ones. -/
structure Linked (f : Nat → Nat) (h h' : Heap) : Prop where
  injective : Function.Injective f
  renamed : Renamed f h h'
  next : ∀ i, f (h.size + i) = h'.size + i

section
variable {f : Nat → Nat} {h h' : Heap}

theorem cellRenamed (linked : Linked f h h') (r : Nat) :
    h'.cell (f r) = Entries.rename f (h.cell r) := by
  unfold Heap.cell
  rw [linked.renamed r]
  cases h.cells[r]? <;> rfl

theorem fieldRenamed (linked : Linked f h h') (v : PyVal) (key : String) :
    field h' (v.rename f) key = (field h v key).map (rename f) := by
  cases v with
  | dict r =>
    simp only [rename,field,cellRenamed linked]
    exact Entries.lookupRename f _ _
  | _ => rfl

theorem isDictRenamed (v : PyVal) : isDict (v.rename f) = isDict v := by cases v <;> rfl

theorem truthyRenamed (linked : Linked f h h') (v : PyVal) :
    truthy h' (v.rename f) = truthy h v := by
  cases v with
  | dict r =>
    simp [rename,truthy,cellRenamed linked,Entries.rename]
  | list items =>
    simp [rename,renameItemsMap,truthy]
  | float x => cases x <;> rfl
  | _ => rfl

theorem orElseRenamed (linked : Linked f h h') (v : Option PyVal) (default : PyVal) :
    orElse h' (v.map (rename f)) (default.rename f) = (orElse h v default).rename f := by
  cases v with
  | none => rfl
  | some v =>
    simp only [Option.map_some,orElse,truthyRenamed linked]
    split <;> rfl

theorem iterateRenamed (linked : Linked f h h') (v : PyVal) :
    iterate h' (v.rename f) = (iterate h v).map (List.map (rename f)) := by
  cases v with
  | dict r =>
    simp only [rename,iterate,cellRenamed linked,Entries.rename,List.map_map,Except.map]
    rfl
  | list items => simp only [rename,renameItemsMap,iterate,Except.map]
  | str s =>
    simp only [rename,iterate,Except.map,List.map_map]
    rfl
  | _ => rfl

theorem documentRenamed (linked : Linked f h h') (v : PyVal) :
    document h' (v.rename f) = document h v := by
  simp [document,Heap.viewRenamed linked.renamed]

theorem textRenamed (linked : Linked f h h') (v : PyVal) : text h' (v.rename f) = text h v := by
  simp [text,documentRenamed linked]

theorem stringsRenamed (items : List PyVal) : strings (items.map (rename f)) = strings items := by
  induction items with
  | nil => rfl
  | cons v rest ih => cases v <;> simp [strings,rename,ih]

theorem pathPartsRenamed (keys : Option PyVal) :
    pathParts (keys.map (rename f)) = pathParts keys := by
  cases keys with
  | none => rfl
  | some v =>
    cases v with
    | list items =>
      simp [rename,renameItemsMap,pathParts,stringsRenamed]
    | _ => rfl

theorem keysOfRenamed (linked : Linked f h h') (v : PyVal) :
    keysOf h' (v.rename f) = (keysOf h v).map (rename f) := by
  simp only [keysOf,fieldRenamed linked]
  cases field h v "json_path" <;> rfl

theorem linkedSize (linked : Linked f h h') : f h.size = h'.size := linked.next 0

theorem linkedBound (linked : Linked f h h') (r : Nat) : f r < h'.size ↔ r < h.size := by
  have absent : h'.cells[f r]? = none ↔ h.cells[r]? = none := by
    rw [linked.renamed r,Option.map_eq_none_iff]
  rw [List.getElem?_eq_none_iff,List.getElem?_eq_none_iff] at absent
  exact not_le.symm.trans ((not_congr absent).trans not_le)

theorem linkedStore (linked : Linked f h h') {r m} :
    Linked f ⟨h.cells.set r m⟩ ⟨h'.cells.set (f r) (Entries.rename f m)⟩ := by
  refine ⟨linked.injective,?_,by simpa [Heap.size] using linked.next⟩
  intro q
  have bound := linkedBound linked q
  simp only [Heap.size] at bound
  simp only [List.getElem?_set]
  by_cases same : r = q
  · subst same
    simp only [if_true,bound]
    split <;> rfl
  · have different : f r ≠ f q := fun eq => same (linked.injective eq)
    simp only [same,different,if_false]
    exact linked.renamed q

theorem putRenamed (linked : Linked f h h') (r : Nat) (key : String) (v : PyVal) :
    Linked f (h.put r key v) (h'.put (f r) key (v.rename f)) := by
  simp only [Heap.put,cellRenamed linked,← Entries.insertRename]
  exact linkedStore linked

theorem popRenamed (linked : Linked f h h') (r : Nat) (key : String) :
    Linked f (h.pop r key) (h'.pop (f r) key) := by
  simp only [Heap.pop,cellRenamed linked,← Entries.eraseRename]
  exact linkedStore linked

theorem allocRenamed (linked : Linked f h h') : Linked f h.alloc.2 h'.alloc.2 := by
  refine ⟨linked.injective,?_,?_⟩
  · intro r
    have bound := linkedBound linked r
    have size := linkedSize linked
    simp only [Heap.size] at bound size
    simp only [Heap.alloc,List.getElem?_append,bound]
    split
    · exact linked.renamed r
    by_cases last : r = h.cells.length
    · subst last
      simp [size,Entries.rename]
    have other : f r ≠ h'.cells.length := by
      intro eq
      exact last (linked.injective (eq.trans size.symm))
    rw [List.getElem?_eq_none (by simp; omega),List.getElem?_eq_none (by simp; omega)]
    rfl
  · intro i
    have := linked.next (1 + i)
    simp only [Heap.alloc,Heap.size,List.length_append,List.length_singleton] at this ⊢
    rw [Nat.add_assoc,Nat.add_assoc]
    exact this

theorem setValueRenamed (linked : Linked f h h') (cursor : Nat) (parts : List String) (v : PyVal) :
    Stateful.Agree (Linked f) (setValue h cursor parts v)
      (setValue h' (f cursor) parts (v.rename f)) := by
  induction parts generalizing h h' cursor with
  | nil => rfl
  | cons key rest ih =>
    cases rest with
    | nil => exact putRenamed linked cursor key v
    | cons next rest =>
      simp only [setValue,cellRenamed linked,Entries.lookupRename]
      have created : Stateful.Agree (Linked f)
          (setValue (h.alloc.2.put cursor key (.dict h.alloc.1)) h.alloc.1 (next::rest) v)
          (setValue (h'.alloc.2.put (f cursor) key (.dict h'.alloc.1)) h'.alloc.1 (next::rest)
            (v.rename f)) := by
        have size : f h.alloc.1 = h'.alloc.1 := linkedSize linked
        have put := putRenamed (allocRenamed linked) cursor key (.dict h.alloc.1)
        have step := ih put h.alloc.1
        simpa only [rename,size] using step
      cases found : (h.cell cursor).lookup key with
      | none => exact created
      | some child =>
        cases child with
        | dict r => exact ih linked r
        | _ => exact created

theorem deleteValueRenamed (linked : Linked f h h') (cursor : Nat) (parts : List String) :
    Stateful.Agree (Linked f) (deleteValue h cursor parts) (deleteValue h' (f cursor) parts) := by
  induction parts generalizing cursor with
  | nil => rfl
  | cons key rest ih =>
    cases rest with
    | nil => exact popRenamed linked cursor key
    | cons next rest =>
      simp only [deleteValue,cellRenamed linked,Entries.lookupRename]
      cases found : (h.cell cursor).lookup key with
      | none => exact linked
      | some child =>
        cases child with
        | dict r => exact ih r
        | _ => exact linked

theorem agreeBind {α β γ Q} (x : Except PyError α) {f : α → Except PyError β}
    {g : α → Except PyError γ} (each : ∀ a, Stateful.Agree Q (f a) (g a)) :
    Stateful.Agree Q (x >>= f) (x >>= g) := by
  cases x with
  | error e => rfl
  | ok a => exact each a

theorem changeRenamed (linked : Linked f h h') (v : PyVal) (overlay : Nat) :
    Stateful.Agree (Linked f) (change h v overlay) (change h' (v.rename f) (f overlay)) := by
  have value : (field h' (v.rename f) "value").getD .null =
      ((field h v "value").getD .null).rename f := by
    rw [fieldRenamed linked]
    cases field h v "value" <;> rfl
  have set : Stateful.Agree (Linked f)
      (pathParts (keysOf h v) >>= fun parts =>
        setValue h overlay parts ((field h v "value").getD .null))
      (pathParts (keysOf h' (v.rename f)) >>= fun parts =>
        setValue h' (f overlay) parts ((field h' (v.rename f) "value").getD .null)) := by
    rw [keysOfRenamed linked,pathPartsRenamed,value]
    exact agreeBind _ fun parts => setValueRenamed linked overlay parts _
  have delete : Stateful.Agree (Linked f)
      (pathParts (keysOf h v) >>= deleteValue h overlay)
      (pathParts (keysOf h' (v.rename f)) >>= deleteValue h' (f overlay)) := by
    rw [keysOfRenamed linked,pathPartsRenamed]
    exact agreeBind _ fun parts => deleteValueRenamed linked overlay parts
  unfold change
  rw [fieldRenamed linked]
  cases field h v "op" with
  | none => exact linked
  | some op =>
    cases op with
    | str name =>
      simp only [Option.map_some,rename]
      split
      · exact set
      · exact delete
      · exact linked
    | _ => exact linked

end

structure LinkedStores (f : Nat → Nat) (s t : Store) : Prop where
  heap : Linked f s.heap t.heap
  overlays : t.overlays = s.overlays.map fun p => (p.1,f p.2)

section
variable {f : Nat → Nat} {s t : Store}

theorem overlayRenamed (linked : LinkedStores f s t) (path : String) :
    t.overlays.lookup path = (s.overlays.lookup path).map f := by
  rw [linked.overlays]
  induction s.overlays with
  | nil => rfl
  | cons p rest ih =>
    rw [List.map_cons,lookupCons,lookupCons,ih]
    split <;> rfl

theorem overlayAtRenamed (linked : LinkedStores f s t) (path : String) :
    (overlayAt t path).1 = f (overlayAt s path).1 ∧
      LinkedStores f (overlayAt s path).2 (overlayAt t path).2 := by
  unfold overlayAt
  rw [overlayRenamed linked]
  cases s.overlays.lookup path with
  | some r => exact ⟨rfl,linked⟩
  | none =>
    have size := linkedSize linked.heap
    refine ⟨size.symm,allocRenamed linked.heap,?_⟩
    simp [linked.overlays,size]

theorem applyTransitionInStep (v : PyVal) :
    Stateful.InStep (LinkedStores f) Eq (applyTransition v) (applyTransition (v.rename f)) := by
  intro s t linked
  unfold applyTransition
  rw [fieldRenamed linked.heap]
  cases field s.heap v "path" with
  | none => exact ⟨rfl,linked⟩
  | some path =>
    cases path with
    | str resourcePath =>
      simp only [Option.map_some,rename]
      cases normalizeRequestPath resourcePath with
      | error e => exact ⟨rfl,linked⟩
      | ok path =>
        obtain ⟨overlay,linked⟩ := overlayAtRenamed linked path
        have changed := changeRenamed linked.heap v (overlayAt s path).1
        simp only [overlay]
        generalize change (overlayAt s path).2.heap v (overlayAt s path).1 = left at changed
        generalize change (overlayAt t path).2.heap (v.rename f) (f (overlayAt s path).1) = right
          at changed
        cases left with
        | error e =>
          cases right with
          | error e' => exact ⟨changed,linked⟩
          | ok h' => exact absurd changed id
        | ok h =>
          cases right with
          | error e' => exact absurd changed id
          | ok h' => exact ⟨rfl,changed,linked.overlays⟩
    | _ => exact ⟨rfl,linked⟩

theorem applyTransitionsInStep (transitions : List PyVal) :
    Stateful.InStep (LinkedStores f) Eq (applyTransitions transitions)
      (applyTransitions (transitions.map (rename f))) :=
  Stateful.inStepForEach fun v _ => applyTransitionInStep v

theorem overlayForRenamed (linked : LinkedStores f s t) (path : String) :
    overlayFor t path = overlayFor s path := by
  refine bind_congr fun path => ?_
  rw [overlayRenamed linked]
  cases s.overlays.lookup path with
  | none => rfl
  | some r => exact documentRenamed linked.heap (.dict r)

end
end RedfishCtl.MockOverlay
