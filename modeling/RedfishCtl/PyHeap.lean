import RedfishCtl.Json

/-! Mutable dictionaries shared by reference; lists are not written to and stay values. The view of
a value is the document it stands for, absent when its dictionaries form a cycle. -/
namespace RedfishCtl

inductive PyVal where
  | null
  | bool (b : Bool)
  | int (n : Int)
  | float (x : Binary64.Datum)
  | str (s : String)
  | list (items : List PyVal)
  | dict (ref : Nat)
  deriving Repr, Inhabited

abbrev Entries := List (String × PyVal)

namespace PyVal

mutual
def decEq : (x y : PyVal) → Decidable (x = y)
  | .null, .null => isTrue rfl
  | .bool a, .bool b => decidable_of_iff (a = b) (by simp)
  | .int a, .int b => decidable_of_iff (a = b) (by simp)
  | .float a, .float b => decidable_of_iff (a = b) (by simp)
  | .str a, .str b => decidable_of_iff (a = b) (by simp)
  | .dict a, .dict b => decidable_of_iff (a = b) (by simp)
  | .list a, .list b => match decEqItems a b with
      | isTrue h => isTrue (by rw [h])
      | isFalse h => isFalse (by simpa using h)
  | .null, .bool _ | .null, .int _ | .null, .float _ | .null, .str _ | .null, .list _
  | .null, .dict _ | .bool _, .null | .bool _, .int _ | .bool _, .float _ | .bool _, .str _
  | .bool _, .list _ | .bool _, .dict _ | .int _, .null | .int _, .bool _ | .int _, .float _
  | .int _, .str _ | .int _, .list _ | .int _, .dict _ | .float _, .null | .float _, .bool _
  | .float _, .int _ | .float _, .str _ | .float _, .list _ | .float _, .dict _ | .str _, .null
  | .str _, .bool _ | .str _, .int _ | .str _, .float _ | .str _, .list _ | .str _, .dict _
  | .list _, .null | .list _, .bool _ | .list _, .int _ | .list _, .float _ | .list _, .str _
  | .list _, .dict _ | .dict _, .null | .dict _, .bool _ | .dict _, .int _ | .dict _, .float _
  | .dict _, .str _ | .dict _, .list _ => isFalse (by simp)
termination_by structural x => x
def decEqItems : (x y : List PyVal) → Decidable (x = y)
  | [], [] => isTrue rfl
  | x::xs, y::ys => match decEq x y, decEqItems xs ys with
      | isTrue h, isTrue t => isTrue (by rw [h,t])
      | isFalse h, _ => isFalse (by simp [h])
      | _, isFalse t => isFalse (by simp [t])
  | [], _::_ | _::_, [] => isFalse (by simp)
termination_by structural x => x
end
instance : DecidableEq PyVal := decEq

mutual
def refs : PyVal → List Nat
  | .list items => refsItems items
  | .dict r => [r]
  | .null => [] | .bool _ => [] | .int _ => [] | .float _ => [] | .str _ => []
termination_by structural v => v
def refsItems : List PyVal → List Nat
  | [] => []
  | v::rest => refs v ++ refsItems rest
termination_by structural l => l
end

mutual
def rename (f : Nat → Nat) : PyVal → PyVal
  | .list items => .list (renameItems f items)
  | .dict r => .dict (f r)
  | .null => .null | .bool b => .bool b | .int n => .int n | .float x => .float x | .str s => .str s
termination_by structural v => v
def renameItems (f : Nat → Nat) : List PyVal → List PyVal
  | [] => []
  | v::rest => rename f v :: renameItems f rest
termination_by structural l => l
end

mutual
def viewWith (cell : Nat → Option Json) : PyVal → Option Json
  | .list items => (viewItems cell items).map .arr
  | .dict r => cell r
  | .null => some .null
  | .bool b => some (.bool b)
  | .int n => some (.int n)
  | .float x => some (.float x)
  | .str s => some (.str s)
termination_by structural v => v
def viewItems (cell : Nat → Option Json) : List PyVal → Option (List Json)
  | [] => some []
  | v::rest => match viewWith cell v, viewItems cell rest with
      | some j, some js => some (j::js)
      | _, _ => none
termination_by structural l => l
end

theorem refsItemsMem {items r} : r ∈ refsItems items ↔ ∃ v ∈ items, r ∈ v.refs := by
  induction items with
  | nil => simp [refsItems]
  | cons v rest ih => simp [refsItems,ih]

theorem renameItemsMap (f : Nat → Nat) (items : List PyVal) :
    renameItems f items = items.map (rename f) := by
  induction items with
  | nil => rfl
  | cons v rest ih => simp [renameItems,ih]

section
variable (f : Nat → Nat) (g g' : Nat → Option Json)

mutual
theorem renameId : (v : PyVal) → (∀ r ∈ v.refs, f r = r) → rename f v = v
  | .list items, h => by simp only [rename,renameItemsId items h]
  | .dict r, h => by simp [rename,h r (by simp [refs])]
  | .null, _ => rfl | .bool _, _ => rfl | .int _, _ => rfl | .float _, _ => rfl | .str _, _ => rfl
termination_by structural v => v
theorem renameItemsId : (items : List PyVal) → (∀ r ∈ refsItems items, f r = r) →
    renameItems f items = items
  | [], _ => rfl
  | v::rest, h => by
      simp only [refsItems,List.mem_append] at h
      simp only [renameItems,renameId v fun r mem => h r (.inl mem),
        renameItemsId rest fun r mem => h r (.inr mem)]
termination_by structural l => l
end

mutual
theorem viewWithRename : (v : PyVal) → viewWith g (rename f v) = viewWith (g ∘ f) v
  | .list items => by simp only [rename,viewWith,viewItemsRename items]
  | .dict r => rfl
  | .null => rfl | .bool _ => rfl | .int _ => rfl | .float _ => rfl | .str _ => rfl
termination_by structural v => v
theorem viewItemsRename : (items : List PyVal) →
    viewItems g (renameItems f items) = viewItems (g ∘ f) items
  | [] => rfl
  | v::rest => by simp only [renameItems,viewItems,viewWithRename v,viewItemsRename rest]
termination_by structural l => l
end

variable {g g'}

mutual
theorem viewWithCongr : (v : PyVal) → (∀ r ∈ v.refs, g r = g' r) → viewWith g v = viewWith g' v
  | .list items, h => by simp only [viewWith,viewItemsCongr items h]
  | .dict r, h => h r (by simp [refs])
  | .null, _ => rfl | .bool _, _ => rfl | .int _, _ => rfl | .float _, _ => rfl | .str _, _ => rfl
termination_by structural v => v
theorem viewItemsCongr : (items : List PyVal) → (∀ r ∈ refsItems items, g r = g' r) →
    viewItems g items = viewItems g' items
  | [], _ => rfl
  | v::rest, h => by
      simp only [refsItems,List.mem_append] at h
      simp only [viewItems,viewWithCongr v fun r mem => h r (.inl mem),
        viewItemsCongr rest fun r mem => h r (.inr mem)]
termination_by structural l => l
end

mutual
theorem viewWithSome : (v : PyVal) →
    ((viewWith g v).isSome = true ↔ ∀ r ∈ v.refs, (g r).isSome = true)
  | .list items => by
      simp only [viewWith,refs,Option.isSome_map]
      exact viewItemsSome items
  | .dict r => by simp [viewWith,refs]
  | .null => by simp [viewWith,refs]
  | .bool _ => by simp [viewWith,refs]
  | .int _ => by simp [viewWith,refs]
  | .float _ => by simp [viewWith,refs]
  | .str _ => by simp [viewWith,refs]
termination_by structural v => v
theorem viewItemsSome : (items : List PyVal) →
    ((viewItems g items).isSome = true ↔ ∀ r ∈ refsItems items, (g r).isSome = true)
  | [] => by simp [viewItems,refsItems]
  | v::rest => by
      have here := viewWithSome v
      have later := viewItemsSome rest
      simp only [refsItems,List.mem_append,or_imp,forall_and,← here,← later,viewItems]
      cases viewWith g v <;> cases viewItems g rest <;> simp
termination_by structural l => l
end

end
end PyVal

namespace Entries
open PyVal

def refs (m : Entries) : List Nat := m.flatMap fun p => p.2.refs

def rename (f : Nat → Nat) (m : Entries) : Entries := m.map fun p => (p.1,p.2.rename f)

def viewWith (cell : Nat → Option Json) : Entries → Option (List (String × Json))
  | [] => some []
  | (k,v)::rest => match PyVal.viewWith cell v, viewWith cell rest with
      | some j, some js => some ((k,j)::js)
      | _, _ => none

variable {g g' : Nat → Option Json}

variable {m : Entries}

theorem refsMem {r} : r ∈ refs m ↔ ∃ p ∈ m, r ∈ p.2.refs := by
  simp [refs]

theorem viewWithCongr (h : ∀ r ∈ refs m, g r = g' r) : viewWith g m = viewWith g' m := by
  induction m with
  | nil => rfl
  | cons p rest ih =>
    simp only [refs,List.flatMap_cons,List.mem_append] at h
    simp [viewWith,PyVal.viewWithCongr p.2 fun r mem => h r (.inl mem),ih fun r mem => h r (.inr mem)]

theorem viewWithSome : (viewWith g m).isSome = true ↔ ∀ r ∈ refs m, (g r).isSome = true := by
  induction m with
  | nil => simp [viewWith,refs]
  | cons p rest ih =>
    have here := PyVal.viewWithSome (g := g) p.2
    have split : (∀ r ∈ refs (p::rest), (g r).isSome = true) ↔
        (∀ r ∈ p.2.refs, (g r).isSome = true) ∧ ∀ r ∈ refs rest, (g r).isSome = true := by
      simp only [refs,List.flatMap_cons,List.mem_append,or_imp,forall_and]
    rw [split,← here,← ih]
    simp only [viewWith]
    cases PyVal.viewWith g p.2 <;> cases viewWith g rest <;> simp

variable {o : List (String × Json)}

theorem viewWithCons {k v rest} (seen : viewWith g ((k,v)::rest) = some o) :
    ∃ j js, PyVal.viewWith g v = some j ∧ viewWith g rest = some js ∧ o = (k,j)::js := by
  simp only [viewWith] at seen
  split at seen
  · rename_i j js here later
    exact ⟨j,js,here,later,(Option.some.inj seen).symm⟩
  · simp at seen

theorem viewWithKeys (seen : viewWith g m = some o) : AssocList.keys o = AssocList.keys m := by
  induction m generalizing o with
  | nil =>
    cases seen
    rfl
  | cons p rest ih =>
    obtain ⟨j,js,-,later,rfl⟩ := viewWithCons seen
    simp only [AssocList.keys,List.map_cons] at ih ⊢
    rw [ih later]

theorem viewWithLookup (seen : viewWith g m = some o)
    (key : String) : o.lookup key = (m.lookup key).bind (PyVal.viewWith g) := by
  induction m generalizing o with
  | nil =>
    cases seen
    rfl
  | cons p rest ih =>
    obtain ⟨j,js,here,later,rfl⟩ := viewWithCons seen
    rw [AssocList.lookupCons,AssocList.lookupCons,ih later]
    split
    · simp [here]
    · rfl

theorem viewWithAgree
    (same : ∀ p ∈ m, PyVal.viewWith g' p.2 = PyVal.viewWith g p.2) : viewWith g' m = viewWith g m := by
  induction m with
  | nil => rfl
  | cons p rest ih =>
    simp [viewWith,same p (by simp),ih fun q mem => same q (by simp [mem])]

theorem viewWithInsert {key v j} (seen : viewWith g m = some o) (distinct : AssocList.Distinct m)
    (others : ∀ p ∈ m, p.1 ≠ key → PyVal.viewWith g' p.2 = PyVal.viewWith g p.2)
    (value : PyVal.viewWith g' v = some j) :
    viewWith g' (AssocList.insert key v m) = some (AssocList.insert key j o) := by
  induction m generalizing o with
  | nil =>
    cases seen
    simp [AssocList.insert,viewWith,value]
  | cons p rest ih =>
    obtain ⟨k,w⟩ := p
    obtain ⟨jw,js,here,later,rfl⟩ := viewWithCons seen
    obtain ⟨fresh,tail⟩ := List.nodup_cons.mp distinct
    have inside := fun p mem => others p (List.mem_cons_of_mem (k,w) mem)
    simp only [AssocList.insert]
    split
    · rename_i same
      have rest' : viewWith g' rest = viewWith g rest := by
        refine viewWithAgree fun p mem => inside p mem ?_
        intro eq
        exact fresh (List.mem_map.mpr ⟨p,mem,eq.trans same.symm⟩)
      simp [viewWith,value,rest',later]
    · rename_i different
      simp [viewWith,ih later tail inside,others (k,w) (by simp) different,here]

theorem viewWithRename (f : Nat → Nat) (g : Nat → Option Json) (m : Entries) :
    viewWith g (rename f m) = viewWith (g ∘ f) m := by
  induction m with
  | nil => rfl
  | cons p rest ih =>
    change viewWith g ((p.1,p.2.rename f)::rename f rest) = _
    simp [viewWith,PyVal.viewWithRename,ih]

theorem renameId {f} (h : ∀ r ∈ refs m, f r = r) : rename f m = m := by
  refine (List.map_congr_left fun p mem => ?_).trans (List.map_id m)
  rw [PyVal.renameId f p.2 fun r inside => h r (refsMem.mpr ⟨p,mem,inside⟩)]
  rfl

theorem lookupRename (f : Nat → Nat) (m : Entries) (key : String) :
    (rename f m).lookup key = (m.lookup key).map (PyVal.rename f) := by
  induction m with
  | nil => rfl
  | cons p rest ih =>
    change List.lookup key ((p.1,p.2.rename f)::rename f rest) = _
    rw [AssocList.lookupCons,AssocList.lookupCons,ih]
    split <;> rfl

theorem insertRename (f : Nat → Nat) (key : String) (v : PyVal) (m : Entries) :
    rename f (AssocList.insert key v m) = AssocList.insert key (v.rename f) (rename f m) := by
  induction m with
  | nil => rfl
  | cons p rest ih =>
    simp only [rename,List.map_cons] at ih ⊢
    simp only [AssocList.insert]
    split
    · rfl
    · simp [ih]

theorem eraseRename (f : Nat → Nat) (key : String) (m : Entries) :
    rename f (AssocList.erase key m) = AssocList.erase key (rename f m) := by
  simp only [rename,AssocList.erase,List.filter_map]
  rfl

end Entries

structure Heap where
  cells : List Entries

namespace Heap

def size (h : Heap) : Nat := h.cells.length

def cell (h : Heap) (r : Nat) : Entries := (h.cells[r]?).getD []

def alloc (h : Heap) : Nat × Heap := (h.size,⟨h.cells ++ [[]]⟩)

def put (h : Heap) (r : Nat) (key : String) (v : PyVal) : Heap :=
  ⟨h.cells.set r (AssocList.insert key v (h.cell r))⟩

def pop (h : Heap) (r : Nat) (key : String) : Heap :=
  ⟨h.cells.set r (AssocList.erase key (h.cell r))⟩

def viewCell (h : Heap) : Nat → Nat → Option Json
  | 0, _ => none
  | fuel+1, r => (h.cells[r]?).bind fun m => (Entries.viewWith (viewCell h fuel) m).map .obj

def view (h : Heap) (v : PyVal) : Option Json := v.viewWith (h.viewCell h.size)

variable {h : Heap}

theorem viewCellSome {fuel r} : (h.viewCell (fuel+1) r).isSome = true ↔
    ∃ m, h.cells[r]? = some m ∧ ∀ q ∈ Entries.refs m, (h.viewCell fuel q).isSome = true := by
  simp only [viewCell]
  cases h.cells[r]? with
  | none => simp
  | some m => simp [Entries.viewWithSome]

theorem viewCellStep {fuel r t} (found : h.viewCell fuel r = some t) :
    h.viewCell (fuel+1) r = some t := by
  induction fuel generalizing r t with
  | zero => simp [viewCell] at found
  | succ fuel ih =>
    have defined : (h.viewCell (fuel+1) r).isSome = true := by simp [found]
    obtain ⟨m,cell,deeper⟩ := viewCellSome.mp defined
    rw [← found]
    simp only [viewCell,cell,Option.bind_some]
    rw [Entries.viewWithCongr]
    intro q mem
    obtain ⟨j,inside⟩ := Option.isSome_iff_exists.mp (deeper q mem)
    exact (ih inside).trans inside.symm

theorem viewCellMono {fuel more r t} (enough : fuel ≤ more) (found : h.viewCell fuel r = some t) :
    h.viewCell more r = some t := by
  induction more, enough using Nat.le_induction with
  | base => exact found
  | succ more _ ih => exact viewCellStep ih

def finite (h : Heap) (fuel : Nat) : Finset Nat :=
  (Finset.range h.size).filter fun r => (h.viewCell fuel r).isSome = true

theorem finiteMem {fuel r} : r ∈ h.finite fuel ↔ (h.viewCell fuel r).isSome = true := by
  simp only [finite,Finset.mem_filter,Finset.mem_range,and_iff_right_iff_imp]
  intro defined
  cases fuel with
  | zero => simp [viewCell] at defined
  | succ fuel =>
    obtain ⟨m,cell,-⟩ := viewCellSome.mp defined
    exact (List.getElem?_eq_some_iff.mp cell).1

theorem finiteMono (h : Heap) : Monotone h.finite := by
  intro fuel more enough r mem
  obtain ⟨t,found⟩ := Option.isSome_iff_exists.mp (finiteMem.mp mem)
  exact finiteMem.mpr (by rw [viewCellMono enough found]; rfl)

theorem finiteNext {fuel} (same : h.finite fuel = h.finite (fuel+1)) :
    h.finite (fuel+1) = h.finite (fuel+2) := by
  ext r
  rw [finiteMem,finiteMem,viewCellSome,viewCellSome]
  have pointwise (q : Nat) : (h.viewCell fuel q).isSome = true ↔
      (h.viewCell (fuel+1) q).isSome = true := by
    rw [← finiteMem,← finiteMem,same]
  simp [pointwise]

theorem finiteStable {fuel} (enough : h.size ≤ fuel) : h.finite fuel = h.finite h.size := by
  have counts : (h.finite fuel).card = (h.finite h.size).card := by
    refine Nat.stabilises_of_monotone (fun _ _ le => Finset.card_le_card (h.finiteMono le)) ?_ ?_
      enough
    · intro m
      exact (Finset.card_filter_le _ _).trans_eq (Finset.card_range _)
    · intro m same
      have equal := Finset.eq_of_subset_of_card_le (h.finiteMono (Nat.le_succ m)) same.ge
      rw [← finiteNext equal]
  exact (Finset.eq_of_subset_of_card_le (h.finiteMono enough) counts.le).symm

theorem viewCellStable {fuel} (enough : h.size ≤ fuel) (r : Nat) :
    h.viewCell fuel r = h.viewCell h.size r := by
  cases found : h.viewCell h.size r with
  | some t => exact viewCellMono enough found
  | none =>
    have outside : r ∉ h.finite fuel := by
      rw [finiteStable enough,finiteMem,found]; simp
    rw [finiteMem] at outside
    simpa using outside

theorem viewStable {fuel} (enough : h.size ≤ fuel) (v : PyVal) :
    v.viewWith (h.viewCell fuel) = h.view v :=
  PyVal.viewWithCongr v fun r _ => viewCellStable enough r

theorem viewDict (h : Heap) (r : Nat) : h.view (.dict r) =
    (h.cells[r]?).bind fun m => (Entries.viewWith (fun c => h.view (.dict c)) m).map .obj := by
  rw [← viewStable (Nat.le_succ h.size)]
  rfl

inductive Reach (h : Heap) (v : PyVal) : Nat → Prop where
  | here {r} (direct : r ∈ v.refs) : Reach h v r
  | there {q r} (before : Reach h v q) (inside : r ∈ Entries.refs (h.cell q)) : Reach h v r

theorem cellOf {r m} (found : h.cells[r]? = some m) : h.cell r = m := by
  simp [cell,found]

theorem viewCellAgree {h h' : Heap} {v} (agree : ∀ r, Reach h v r → h'.cells[r]? = h.cells[r]?)
    (fuel : Nat) {r} (reached : Reach h v r) : h'.viewCell fuel r = h.viewCell fuel r := by
  induction fuel generalizing r with
  | zero => rfl
  | succ fuel ih =>
    simp only [viewCell,agree r reached]
    cases found : h.cells[r]? with
    | none => rfl
    | some m =>
      simp only [Option.bind_some]
      rw [Entries.viewWithCongr]
      intro q mem
      exact ih (.there reached (by rwa [cellOf found]))

theorem viewAgree {h h' : Heap} {v} (agree : ∀ r, Reach h v r → h'.cells[r]? = h.cells[r]?) :
    h'.view v = h.view v := by
  rw [← viewStable (Nat.le_max_left h'.size h.size),← viewStable (Nat.le_max_right h'.size h.size)]
  exact PyVal.viewWithCongr v fun r mem => viewCellAgree agree _ (.here mem)

def Renamed (f : Nat → Nat) (h h' : Heap) : Prop :=
  ∀ r, h'.cells[f r]? = (h.cells[r]?).map (Entries.rename f)

theorem viewCellRenamed {f h h'} (renamed : Renamed f h h') (fuel r : Nat) :
    h'.viewCell fuel (f r) = h.viewCell fuel r := by
  induction fuel generalizing r with
  | zero => rfl
  | succ fuel ih =>
    simp only [viewCell,renamed r]
    cases h.cells[r]? with
    | none => rfl
    | some m =>
      have same : h'.viewCell fuel ∘ f = h.viewCell fuel := funext ih
      simp [Entries.viewWithRename,same]

theorem viewRenamed {f h h'} (renamed : Renamed f h h') (v : PyVal) :
    h'.view (v.rename f) = h.view v := by
  rw [← viewStable (Nat.le_max_left h'.size h.size),← viewStable (Nat.le_max_right h'.size h.size),
    PyVal.viewWithRename]
  exact PyVal.viewWithCongr v fun r _ => viewCellRenamed renamed _ r

end Heap
end RedfishCtl
