import RedfishCtl.MockWrites

/-! Where the engines write: only through overlays and the dictionaries stored in them. A set of
dictionaries that holds the values of the set transitions, what they contain and everything new is
never left. -/
namespace RedfishCtl.MockOverlay
open AssocList
open PyUrl (normalizeRequestPath)
open Stateful (Keeps)
open Heap (alloc cell pop put size)

theorem cellPut (h : Heap) (r : Nat) (key : String) (v : PyVal) (q : Nat) :
    (h.put r key v).cell q = h.cell q ∨
      q = r ∧ (h.put r key v).cell q = AssocList.insert key v (h.cell r) := by
  simp only [put,cell,List.getElem?_set]
  split
  · next same =>
    subst same
    split
    · exact .inr ⟨rfl,rfl⟩
    · next outside => exact .inl (by rw [List.getElem?_eq_none (not_lt.mp outside)])
  · exact .inl rfl

theorem cellPop (h : Heap) (r : Nat) (key : String) (q : Nat) :
    (h.pop r key).cell q = h.cell q ∨ (h.pop r key).cell q = AssocList.erase key (h.cell q) := by
  simp only [pop,cell,List.getElem?_set]
  split
  · next same =>
    subst same
    split
    · exact .inr rfl
    · next outside => exact .inl (by rw [List.getElem?_eq_none (not_lt.mp outside)])
  · exact .inl rfl

theorem cellAlloc (h : Heap) (q : Nat) : h.alloc.2.cell q = h.cell q := by
  simp only [alloc,cell,List.getElem?_append]
  split
  · rfl
  · next outside =>
    rw [List.getElem?_eq_none (not_lt.mp outside)]
    cases q - h.cells.length <;> simp

/- The heap differs from the loaded one inside the set only, which no member leaves. -/
structure ConfinedHeap (loaded : Heap) (S : Nat → Prop) (h : Heap) : Prop where
  frame : ∀ r, ¬ S r → h.cells[r]? = loaded.cells[r]?
  closed : ∀ r key c, S r → (h.cell r).lookup key = some (.dict c) → S c
  fresh : ∀ r, h.size ≤ r → S r

section
variable {loaded h : Heap} {S : Nat → Prop}

theorem confinedPut (confined : ConfinedHeap loaded S h) {r} (inside : S r) (key : String) {v}
    (value : ∀ c, v = .dict c → S c) : ConfinedHeap loaded S (h.put r key v) := by
  refine ⟨?_,?_,?_⟩
  · intro q outside
    have different : r ≠ q := fun same => outside (same ▸ inside)
    simp only [put,List.getElem?_set,different,if_false]
    exact confined.frame q outside
  · intro q k c member found
    obtain same | ⟨rfl,changed⟩ := cellPut h r key v q
    · rw [same] at found
      exact confined.closed q k c member found
    · rw [changed,lookupInsert] at found
      split at found
      · exact value c (Option.some.inj found)
      · exact confined.closed q k c member found
  · intro q beyond
    exact confined.fresh q (by simpa [put,size] using beyond)

theorem confinedPop (confined : ConfinedHeap loaded S h) {r} (inside : S r) (key : String) :
    ConfinedHeap loaded S (h.pop r key) := by
  refine ⟨?_,?_,?_⟩
  · intro q outside
    have different : r ≠ q := fun same => outside (same ▸ inside)
    simp only [pop,List.getElem?_set,different,if_false]
    exact confined.frame q outside
  · intro q k c member found
    obtain same | changed := cellPop h r key q
    · rw [same] at found
      exact confined.closed q k c member found
    · rw [changed,lookupErase] at found
      split at found
      · simp at found
      · exact confined.closed q k c member found
  · intro q beyond
    exact confined.fresh q (by simpa [pop,size] using beyond)

theorem confinedAlloc (confined : ConfinedHeap loaded S h) : ConfinedHeap loaded S h.alloc.2 := by
  refine ⟨?_,?_,?_⟩
  · intro q outside
    have below : q < h.cells.length := by
      by_contra beyond
      exact outside (confined.fresh q (not_lt.mp beyond))
    simp only [alloc,List.getElem?_append,below,if_true]
    exact confined.frame q outside
  · intro q k c member found
    rw [cellAlloc] at found
    exact confined.closed q k c member found
  · intro q beyond
    simp only [alloc,size,List.length_append,List.length_singleton] at beyond
    exact confined.fresh q (by simp [size]; omega)

theorem confinedNew (confined : ConfinedHeap loaded S h) : S h.alloc.1 :=
  confined.fresh h.size le_rfl

theorem confinedSet (confined : ConfinedHeap loaded S h) {cursor} (inside : S cursor)
    (parts : List String) {v} (value : ∀ c, v = .dict c → S c) {h'}
    (done : setValue h cursor parts v = .ok h') : ConfinedHeap loaded S h' := by
  induction parts generalizing h cursor with
  | nil => simp [setValue] at done
  | cons key rest ih =>
    cases rest with
    | nil =>
      cases done
      exact confinedPut confined inside key value
    | cons next rest =>
      have created (made : setValue (h.alloc.2.put cursor key (.dict h.alloc.1)) h.alloc.1
          (next::rest) v = .ok h') : ConfinedHeap loaded S h' := by
        have new := confinedNew confined
        refine ih (confinedPut (confinedAlloc confined) inside key ?_) new made
        intro c same
        exact PyVal.dict.inj same ▸ new
      simp only [setValue] at done
      cases found : (h.cell cursor).lookup key with
      | none => exact created (by simpa only [found] using done)
      | some child =>
        cases child with
        | dict c =>
          simp only [found] at done
          exact ih confined (confined.closed cursor key c inside found) done
        | _ => exact created (by simpa only [found] using done)

theorem confinedDelete (confined : ConfinedHeap loaded S h) {cursor} (inside : S cursor)
    (parts : List String) {h'} (done : deleteValue h cursor parts = .ok h') :
    ConfinedHeap loaded S h' := by
  induction parts generalizing cursor with
  | nil => simp [deleteValue] at done
  | cons key rest ih =>
    cases rest with
    | nil =>
      cases done
      exact confinedPop confined inside key
    | cons next rest =>
      simp only [deleteValue] at done
      cases found : (h.cell cursor).lookup key with
      | none =>
        simp only [found] at done
        cases done
        exact confined
      | some child =>
        cases child with
        | dict c =>
          simp only [found] at done
          exact ih (confined.closed cursor key c inside found) done
        | _ =>
          simp only [found] at done
          cases done
          exact confined

end

structure Confined (loaded : Heap) (S : Nat → Prop) (s : Store) : Prop where
  heap : ConfinedHeap loaded S s.heap
  overlays : ∀ path r, s.overlays.lookup path = some r → S r

def Settles (h : Heap) (S : Nat → Prop) (transition : PyVal) : Prop :=
  ∀ c, field h transition "value" = some (.dict c) → S c

section
variable {loaded : Heap} {S : Nat → Prop} {transition : PyVal}

theorem settlesStill {h} (confined : ConfinedHeap loaded S h)
    (settles : Settles loaded S transition) : Settles h S transition := by
  intro c found
  cases transition with
  | dict r =>
    by_cases inside : S r
    · exact confined.closed r "value" c inside found
    · have same : h.cell r = loaded.cell r := by
        simp [cell,confined.frame r inside]
      simp only [field,same] at found
      exact settles c found
  | _ => simp [field] at found

theorem confinedChange {h h'} (confined : ConfinedHeap loaded S h)
    (settles : Settles loaded S transition) {overlay} (inside : S overlay)
    (done : change h transition overlay = .ok h') : ConfinedHeap loaded S h' := by
  have value : ∀ c, (field h transition "value").getD .null = .dict c → S c := by
    intro c same
    cases found : field h transition "value" with
    | none => simp [found] at same
    | some v =>
      rw [found] at same
      exact settlesStill confined settles c (found.trans (congrArg some same))
  unfold change at done
  split at done
  · obtain ⟨parts,-,done⟩ := Stateful.okOfBind done
    exact confinedSet confined inside parts value done
  · obtain ⟨parts,-,done⟩ := Stateful.okOfBind done
    exact confinedDelete confined inside parts done
  · cases done
    exact confined

theorem confinedOverlayAt {s} (confined : Confined loaded S s) (path : String) :
    S (overlayAt s path).1 ∧ Confined loaded S (overlayAt s path).2 := by
  unfold overlayAt
  cases found : s.overlays.lookup path with
  | some r => exact ⟨confined.overlays path r found,confined⟩
  | none =>
    have new := confinedNew confined.heap
    refine ⟨new,confinedAlloc confined.heap,?_⟩
    intro other r present
    rw [List.lookup_append] at present
    cases before : s.overlays.lookup other with
    | some q =>
      rw [before] at present
      exact confined.overlays other r (before.trans present)
    | none =>
      rw [before,lookupCons] at present
      split at present
      · exact Option.some.inj present ▸ new
      · simp at present

theorem confinedTransition (settles : Settles loaded S transition) :
    Keeps (Confined loaded S) (fun _ => True) (applyTransition transition) := by
  intro s confined
  refine ⟨?_,fun _ _ => trivial⟩
  unfold applyTransition
  split
  · next resourcePath _ =>
    cases normalizeRequestPath resourcePath with
    | error e => exact confined
    | ok path =>
      obtain ⟨inside,after⟩ := confinedOverlayAt confined path
      dsimp only
      cases done : change (overlayAt s path).2.heap transition (overlayAt s path).1 with
      | error e => exact after
      | ok h => exact ⟨confinedChange after.heap settles inside done,after.overlays⟩
  · exact confined

end
end RedfishCtl.MockOverlay

namespace RedfishCtl.MockEngine
open MockOverlay
open Stateful

def transitionsOf (loaded : Heap) (rule : PyVal) : List PyVal :=
  match field loaded rule "state_transitions" with
  | some (.list items) => items
  | _ => []

structure Isolates (loaded : Heap) (S : Nat → Prop) (entries : List PyVal) : Prop where
  outside : ∀ r, .dict r ∈ entries → ¬ S r
  settles : ∀ rule ∈ entries, ∀ t ∈ transitionsOf loaded rule, Settles loaded S t

section
variable {loaded : Heap} {S : Nat → Prop} {entries : List PyVal} {h : Heap}

theorem fieldStill (confined : ConfinedHeap loaded S h) {v} (outside : ∀ r, v = .dict r → ¬ S r)
    (key : String) : field h v key = field loaded v key := by
  cases v with
  | dict r => simp only [field,Heap.cell,confined.frame r (outside r rfl)]
  | _ => rfl

theorem iterateMem {v item items} (listed : iterate h v = .ok items) (mem : item ∈ items) :
    (∃ s, item = .str s) ∨ ∃ all, v = .list all ∧ item ∈ all := by
  cases v with
  | list all =>
    cases listed
    exact .inr ⟨items,rfl,mem⟩
  | dict r =>
    cases listed
    obtain ⟨p,-,same⟩ := List.mem_map.mp mem
    exact .inl ⟨p.1,same.symm⟩
  | str s =>
    cases listed
    obtain ⟨c,-,same⟩ := List.mem_map.mp mem
    exact .inl ⟨_,same.symm⟩
  | _ => simp [iterate] at listed

theorem orElseList {v items item} (same : orElse h v (.list []) = .list items) (mem : item ∈ items) :
    v = some (.list items) := by
  unfold orElse at same
  split at same
  · split at same
    · rw [same]
    · cases same
      simp at mem
  · cases same
    simp at mem

theorem transitionsSettle (isolates : Isolates loaded S entries) {rule} (mem : rule ∈ entries)
    (confined : ConfinedHeap loaded S h) {transitions}
    (listed : iterate h (orElse h (field h rule "state_transitions") (.list [])) = .ok transitions) :
    ∀ t ∈ transitions, Settles loaded S t := by
  intro t inside
  obtain ⟨s,rfl⟩ | ⟨all,same,among⟩ := iterateMem listed inside
  · intro c found
    simp [field] at found
  · have still := fieldStill confined (fun r eq => isolates.outside r (eq ▸ mem)) "state_transitions"
    have loadedList := still.symm.trans (orElseList same among)
    exact isolates.settles rule mem t (by simpa only [transitionsOf,loadedList] using among)

theorem confinedKept (isolates : Isolates loaded S entries) :
    Kept entries (Confined loaded S) (Settles loaded S) :=
  ⟨fun _ mem _ _ confined listed => transitionsSettle isolates mem confined.heap listed,
    fun _ settles => confinedTransition settles⟩

theorem confinedStart (fresh : ∀ r, loaded.size ≤ r → S r)
    (closed : ∀ r key c, S r → (loaded.cell r).lookup key = some (.dict c) → S c) :
    Confined loaded S ⟨loaded,[]⟩ :=
  ⟨⟨fun _ _ => rfl,closed,fresh⟩,fun _ _ absent => by simp at absent⟩

end

end RedfishCtl.MockEngine
