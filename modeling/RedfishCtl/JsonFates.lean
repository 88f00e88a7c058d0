import RedfishCtl.JsonMask

/-! What becomes of the string leaves of a document under a masking, leaf by leaf, and when one
masking replaces every leaf that another one replaces. -/
namespace RedfishCtl.Json

mutual
def leaves : Json → List String
  | .obj m => memberLeaves m
  | .arr items => itemLeaves items
  | .str s => [s]
  | .null => [] | .bool _ => [] | .int _ => [] | .float _ => []
termination_by structural j => j
def itemLeaves : List Json → List String
  | [] => []
  | j::rest => leaves j ++ itemLeaves rest
termination_by structural l => l
def memberLeaves : List (String × Json) → List String
  | [] => []
  | (_,j)::rest => leaves j ++ memberLeaves rest
termination_by structural l => l
end

mutual
def entries : Json → List (String × Json)
  | .obj m => memberEntries m
  | .arr items => itemEntries items
  | .str _ => []
  | .null => [] | .bool _ => [] | .int _ => [] | .float _ => []
termination_by structural j => j
def itemEntries : List Json → List (String × Json)
  | [] => []
  | j::rest => entries j ++ itemEntries rest
termination_by structural l => l
def memberEntries : List (String × Json) → List (String × Json)
  | [] => []
  | (key,j)::rest => (key,j) :: (entries j ++ memberEntries rest)
termination_by structural l => l
end

structure Fate where
  before : String
  after : String
  replaced : Bool
  deriving DecidableEq, Repr

def coveredFates (j v : Json) : List Fate := ((leaves j).zip (leaves v)).map fun p => ⟨p.1,p.2,true⟩

section
variable (cover : String → Json → Option Json) (leaf : String → String)

mutual
def fates : Json → List Fate
  | .obj m => memberFates m
  | .arr items => itemFates items
  | .str s => [⟨s,leaf s,false⟩]
  | .null => [] | .bool _ => [] | .int _ => [] | .float _ => []
termination_by structural j => j
def itemFates : List Json → List Fate
  | [] => []
  | j::rest => fates j ++ itemFates rest
termination_by structural l => l
def memberFates : List (String × Json) → List Fate
  | [] => []
  | (key,j)::rest => (match cover key j with
      | some v => coveredFates j v
      | none => fates j) ++ memberFates rest
termination_by structural l => l
end

structure Flat : Prop where
  entries : ∀ {key j v}, cover key j = some v → entries j = []
  leaves : ∀ {key j v}, cover key j = some v → (leaves v).length = (leaves j).length

end

section
variable {cover : String → Json → Option Json} {leaf : String → String}

theorem coveredBefore {j v} (long : (leaves v).length = (leaves j).length) :
    (coveredFates j v).map Fate.before = leaves j := by
  rw [coveredFates,List.map_map]
  exact List.map_fst_zip long.ge

theorem coveredAfter {j v} (long : (leaves v).length = (leaves j).length) :
    (coveredFates j v).map Fate.after = leaves v := by
  rw [coveredFates,List.map_map]
  exact List.map_snd_zip long.le

mutual
theorem fatesBefore (flat : Flat cover) : ∀ j, (fates cover leaf j).map Fate.before = leaves j
  | .obj m => by rw [fates,leaves,memberFatesBefore flat m]
  | .arr items => by rw [fates,leaves,itemFatesBefore flat items]
  | .str s => by rw [fates,leaves,List.map_singleton]
  | .null => by rw [fates,leaves,List.map_nil]
  | .bool b => by rw [fates,leaves,List.map_nil]
  | .int n => by rw [fates,leaves,List.map_nil]
  | .float x => by rw [fates,leaves,List.map_nil]
theorem itemFatesBefore (flat : Flat cover) : ∀ items,
    (itemFates cover leaf items).map Fate.before = itemLeaves items
  | [] => by rw [itemFates,itemLeaves,List.map_nil]
  | j::rest => by
      rw [itemFates,itemLeaves,List.map_append,fatesBefore flat j,itemFatesBefore flat rest]
theorem memberFatesBefore (flat : Flat cover) : ∀ m,
    (memberFates cover leaf m).map Fate.before = memberLeaves m
  | [] => by rw [memberFates,memberLeaves,List.map_nil]
  | (key,j)::rest => by
      rw [memberFates,memberLeaves,List.map_append,memberFatesBefore flat rest]
      cases found : cover key j with
      | some v => dsimp only; rw [coveredBefore (flat.leaves found)]
      | none => dsimp only; rw [fatesBefore flat j]
end

mutual
theorem fatesAfter (flat : Flat cover) : ∀ j,
    (fates cover leaf j).map Fate.after = leaves (mask cover leaf j)
  | .obj m => by rw [fates,mask,leaves,memberFatesAfter flat m]
  | .arr items => by rw [fates,mask,leaves,itemFatesAfter flat items]
  | .str s => by rw [fates,mask,leaves,List.map_singleton]
  | .null => by rw [fates,mask,leaves,List.map_nil]
  | .bool b => by rw [fates,mask,leaves,List.map_nil]
  | .int n => by rw [fates,mask,leaves,List.map_nil]
  | .float x => by rw [fates,mask,leaves,List.map_nil]
theorem itemFatesAfter (flat : Flat cover) : ∀ items,
    (itemFates cover leaf items).map Fate.after = itemLeaves (maskItems cover leaf items)
  | [] => by rw [itemFates,maskItems,itemLeaves,List.map_nil]
  | j::rest => by
      rw [itemFates,maskItems,itemLeaves,List.map_append,fatesAfter flat j,itemFatesAfter flat rest]
theorem memberFatesAfter (flat : Flat cover) : ∀ m,
    (memberFates cover leaf m).map Fate.after = memberLeaves (maskMembers cover leaf m)
  | [] => by rw [memberFates,maskMembers,memberLeaves,List.map_nil]
  | (key,j)::rest => by
      rw [memberFates,maskMembers,memberLeaves,List.map_append,memberFatesAfter flat rest]
      cases found : cover key j with
      | some v => dsimp only; rw [coveredAfter (flat.leaves found)]
      | none => dsimp only; rw [fatesAfter flat j]
end

mutual
theorem fatesKept : ∀ j, entries j = [] → ∀ fate ∈ fates cover leaf j, fate.replaced = false
  | .obj m, bare, fate, mem => by
      rw [entries] at bare
      rw [fates] at mem
      exact memberFatesKept m bare fate mem
  | .arr items, bare, fate, mem => by
      rw [entries] at bare
      rw [fates] at mem
      exact itemFatesKept items bare fate mem
  | .str s, _, fate, mem => by
      rw [fates] at mem
      rw [List.mem_singleton.mp mem]
  | .null, _, fate, mem => by simp [fates] at mem
  | .bool b, _, fate, mem => by simp [fates] at mem
  | .int n, _, fate, mem => by simp [fates] at mem
  | .float x, _, fate, mem => by simp [fates] at mem
theorem itemFatesKept : ∀ items, itemEntries items = [] →
    ∀ fate ∈ itemFates cover leaf items, fate.replaced = false
  | [], _, fate, mem => by simp [itemFates] at mem
  | j::rest, bare, fate, mem => by
      rw [itemEntries,List.append_eq_nil_iff] at bare
      rw [itemFates] at mem
      rcases List.mem_append.mp mem with own | later
      · exact fatesKept j bare.1 fate own
      · exact itemFatesKept rest bare.2 fate later
theorem memberFatesKept : ∀ m, memberEntries m = [] →
    ∀ fate ∈ memberFates cover leaf m, fate.replaced = false
  | [], _, fate, mem => by simp [memberFates] at mem
  | (key,j)::rest, bare, _, _ => by simp [memberEntries] at bare
end

end

/-! Two maskings of one document. -/

def Fate.Below (first second : Fate) : Prop :=
  first.before = second.before ∧ (first.replaced = true → second.replaced = true)

section
variable {weak strong : String → Json → Option Json} {leaf other : String → String}

def Follows (weak strong : String → Json → Option Json) (entry : String × Json) : Prop :=
  (weak entry.1 entry.2).isSome = true → leaves entry.2 ≠ [] → (strong entry.1 entry.2).isSome = true

theorem forallAppend {α β R} {xs xs' : List α} {ys ys' : List β} (long : xs.length = ys.length) :
    List.Forall₂ R (xs ++ xs') (ys ++ ys') ↔ List.Forall₂ R xs ys ∧ List.Forall₂ R xs' ys' := by
  induction xs generalizing ys with
  | nil =>
    cases ys with
    | nil => simp
    | cons y rest => simp at long
  | cons x rest ih =>
    cases ys with
    | nil => simp at long
    | cons y others =>
      have shorter : rest.length = others.length := by simpa using long
      simp [ih shorter,and_assoc]

theorem belowReplaced {xs ys} (same : xs.map Fate.before = ys.map Fate.before)
    (all : ∀ y ∈ ys, y.replaced = true) : List.Forall₂ Fate.Below xs ys := by
  induction xs generalizing ys with
  | nil =>
    cases ys with
    | nil => exact .nil
    | cons y rest => simp at same
  | cons x rest ih =>
    cases ys with
    | nil => simp at same
    | cons y others =>
      rw [List.map_cons,List.map_cons,List.cons.injEq] at same
      exact .cons ⟨same.1,fun _ => all y List.mem_cons_self⟩
        (ih same.2 fun z mem => all z (List.mem_cons_of_mem y mem))

theorem belowKept {xs ys} (long : xs.length = ys.length) (all : ∀ x ∈ xs, x.replaced = true)
    (kept : ∀ y ∈ ys, y.replaced = false) : List.Forall₂ Fate.Below xs ys ↔ xs = [] := by
  constructor
  · intro below
    cases below with
    | nil => rfl
    | cons head tail =>
      have hit := head.2 (all _ List.mem_cons_self)
      rw [kept _ List.mem_cons_self] at hit
      cases hit
  · rintro rfl
    rw [List.eq_nil_of_length_eq_zero long.symm]
    exact .nil

def entryFates (cover : String → Json → Option Json) (leaf : String → String) (key : String)
    (j : Json) : List Fate :=
  match cover key j with
  | some v => coveredFates j v
  | none => fates cover leaf j

theorem entryFatesBefore {cover} (leaf : String → String) (flat : Flat cover) (key : String)
    (j : Json) : (entryFates cover leaf key j).map Fate.before = leaves j := by
  unfold entryFates
  cases found : cover key j with
  | some v => exact coveredBefore (flat.leaves found)
  | none => exact fatesBefore flat j

theorem coveredReplaced {j v} : ∀ fate ∈ coveredFates j v, fate.replaced = true := by
  intro fate mem
  obtain ⟨p,_,rfl⟩ := List.mem_map.mp mem
  rfl

variable (weak strong leaf other) in
theorem entryBelow (first : Flat weak) (second : Flat strong) (key : String) {j}
    (below : List.Forall₂ Fate.Below (fates weak leaf j) (fates strong other j) ↔
      ∀ entry ∈ entries j, Follows weak strong entry) :
    List.Forall₂ Fate.Below (entryFates weak leaf key j) (entryFates strong other key j) ↔
      Follows weak strong (key,j) ∧ ∀ entry ∈ entries j, Follows weak strong entry := by
  have left := entryFatesBefore leaf first key j
  have right := entryFatesBefore other second key j
  cases covers : strong key j with
  | some v =>
    have all : ∀ fate ∈ entryFates strong other key j, fate.replaced = true := by
      rw [entryFates,covers]
      exact coveredReplaced
    have follows : Follows weak strong (key,j) := fun _ _ => by rw [covers]; rfl
    rw [second.entries covers]
    simp [belowReplaced (left.trans right.symm) all,follows]
  | none =>
    have plain : entryFates strong other key j = fates strong other j := by rw [entryFates,covers]
    cases reaches : weak key j with
    | none =>
      have free : Follows weak strong (key,j) := fun hit => by simp [reaches] at hit
      rw [plain,entryFates,reaches]
      simp [below,free]
    | some v =>
      -- the value is flat, so the second masking keeps each of its leaves
      have flat := first.entries reaches
      have all : ∀ fate ∈ entryFates weak leaf key j, fate.replaced = true := by
        rw [entryFates,reaches]
        exact coveredReplaced
      have long : (entryFates weak leaf key j).length = (fates strong other j).length := by
        rw [← List.length_map (f := Fate.before),left,← right,plain,List.length_map]
      rw [plain,belowKept long all (fatesKept j flat),flat]
      have bare : entryFates weak leaf key j = [] ↔ leaves j = [] := by
        rw [← left,List.map_eq_nil_iff]
      rw [bare]
      simp [Follows,reaches,covers]

/- The second masking replaces every leaf that the first does iff, at any depth, it covers the
values with leaves that the first covers. -/
mutual
theorem fatesBelow (first : Flat weak) (second : Flat strong) : ∀ j,
    List.Forall₂ Fate.Below (fates weak leaf j) (fates strong other j) ↔
      ∀ entry ∈ entries j, Follows weak strong entry
  | .obj m => by rw [fates,fates,entries,memberFatesBelow first second m]
  | .arr items => by rw [fates,fates,entries,itemFatesBelow first second items]
  | .str s => by simp [fates,entries,Fate.Below]
  | .null => by simp [fates,entries]
  | .bool b => by simp [fates,entries]
  | .int n => by simp [fates,entries]
  | .float x => by simp [fates,entries]
theorem itemFatesBelow (first : Flat weak) (second : Flat strong) : ∀ items,
    List.Forall₂ Fate.Below (itemFates weak leaf items) (itemFates strong other items) ↔
      ∀ entry ∈ itemEntries items, Follows weak strong entry
  | [] => by simp [itemFates,itemEntries]
  | j::rest => by
      have long : (fates weak leaf j).length = (fates strong other j).length := by
        rw [← List.length_map (f := Fate.before),fatesBefore first j,← fatesBefore second j,
          List.length_map]
      rw [itemFates,itemFates,itemEntries,forallAppend long,List.forall_mem_append,
        fatesBelow first second j,itemFatesBelow first second rest]
theorem memberFatesBelow (first : Flat weak) (second : Flat strong) : ∀ m,
    List.Forall₂ Fate.Below (memberFates weak leaf m) (memberFates strong other m) ↔
      ∀ entry ∈ memberEntries m, Follows weak strong entry
  | [] => by simp [memberFates,memberEntries]
  | (key,j)::rest => by
      have own := entryBelow weak strong leaf other first second key (fatesBelow first second j)
      have long : (entryFates weak leaf key j).length = (entryFates strong other key j).length := by
        rw [← List.length_map (f := Fate.before),entryFatesBefore leaf first,
          ← entryFatesBefore other second,List.length_map]
      rw [memberFates,memberFates,memberEntries,List.forall_mem_cons,List.forall_mem_append,
        ← and_assoc,← own,← memberFatesBelow first second rest]
      exact forallAppend long
end

end

end RedfishCtl.Json
