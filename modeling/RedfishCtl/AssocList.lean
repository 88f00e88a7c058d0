import Mathlib.Data.List.Dedup

/-! Insertion-ordered dictionaries as association lists with distinct keys: assignment to a present
key keeps its position and a new key goes last. -/
namespace RedfishCtl.AssocList

variable {κ α β : Type} [DecidableEq κ]

def keys (d : List (κ × α)) : List κ := d.map Prod.fst

def Distinct (d : List (κ × α)) : Prop := (keys d).Nodup
instance (d : List (κ × α)) : Decidable (Distinct d) := by unfold Distinct; infer_instance

def insert (k : κ) (v : α) : List (κ × α) → List (κ × α)
  | [] => [(k,v)]
  | (k',v')::rest => if k' = k then (k,v)::rest else (k',v')::insert k v rest

def erase (k : κ) (d : List (κ × α)) : List (κ × α) := d.filter (fun p => p.1 ≠ k)

def update (d e : List (κ × α)) : List (κ × α) := e.foldl (fun acc p => insert p.1 p.2 acc) d

@[simp] theorem lookupCons (key k : κ) (v : α) (rest : List (κ × α)) :
    ((k,v)::rest).lookup key = if key = k then some v else rest.lookup key := by
  rw [List.lookup_cons]
  by_cases h : key = k
  · simp [h]
  · have no : (key == k) = false := by simpa using h
    simp [h,no]

@[simp] theorem lookupInsert (key k : κ) (v : α) (d : List (κ × α)) :
    (insert k v d).lookup key = if key = k then some v else d.lookup key := by
  induction d with
  | nil => simp [insert]
  | cons p rest ih =>
    obtain ⟨k',v'⟩ := p
    simp only [insert]
    split
    · rename_i same
      subst same
      by_cases h : key = k' <;> simp [h]
    · rename_i different
      by_cases h : key = k'
      · subst h; simp [different]
      · simp [h,ih]

@[simp] theorem lookupErase (key k : κ) (d : List (κ × α)) :
    (erase k d).lookup key = if key = k then none else d.lookup key := by
  induction d with
  | nil => simp [erase]
  | cons p rest ih =>
    obtain ⟨k',v'⟩ := p
    simp only [erase,List.filter_cons] at ih ⊢
    by_cases h : k' = k
    · subst h
      simp only [ne_eq,not_true_eq_false,decide_false,Bool.false_eq_true,if_false,ih]
      by_cases h' : key = k' <;> simp [h']
    · simp only [ne_eq,h,not_false_eq_true,decide_true,if_true,lookupCons,ih]
      by_cases h' : key = k'
      · subst h'; simp [h]
      · simp [h']

theorem lookupMap (f : α → β) (key : κ) (d : List (κ × α)) :
    (d.map fun p => (p.1,f p.2)).lookup key = (d.lookup key).map f := by
  induction d with
  | nil => rfl
  | cons p rest ih =>
    obtain ⟨k,v⟩ := p
    simp only [List.map_cons,lookupCons,ih]
    split <;> rfl

variable {d : List (κ × α)}

theorem lookupNone {key} : d.lookup key = none ↔ key ∉ keys d := by
  simp only [List.lookup_eq_none_iff,keys,List.mem_map,not_exists,not_and,bne_iff_ne]
  exact ⟨fun h p mem same => h p mem same.symm,fun h p mem same => h p mem same.symm⟩

variable {v : α}

theorem lookupMem {key} (h : d.lookup key = some v) : (key,v) ∈ d := by
  induction d with
  | nil => simp at h
  | cons p rest ih =>
    rw [lookupCons] at h
    split at h
    · rename_i same
      cases h; subst same; simp
    · exact List.mem_cons_of_mem _ (ih h)

theorem lookupOfMem {key} (distinct : Distinct d) (mem : (key,v) ∈ d) : d.lookup key = some v := by
  induction d with
  | nil => simp at mem
  | cons p rest ih =>
    obtain ⟨k',v'⟩ := p
    obtain ⟨fresh,tail⟩ := List.nodup_cons.mp distinct
    rcases List.mem_cons.mp mem with same | inside
    · cases same; simp
    have other : key ≠ k' := by
      intro same
      exact fresh (List.mem_map.mpr ⟨(key,v),inside,same⟩)
    rw [lookupCons,if_neg other]
    exact ih tail inside

theorem lookupPerm {d e : List (κ × α)} (distinct : Distinct d) (perm : d.Perm e) (key : κ) :
    d.lookup key = e.lookup key := by
  have other : Distinct e := (perm.map Prod.fst).nodup_iff.mp distinct
  cases found : d.lookup key with
  | some v => exact (lookupOfMem other (perm.mem_iff.mp (lookupMem found))).symm
  | none =>
    refine (lookupNone.mpr fun mem => lookupNone.mp found ?_).symm
    exact (perm.map Prod.fst).mem_iff.mpr mem

variable {k : κ}

theorem lookupInjective (values : (d.map Prod.snd).Nodup) {l} (first : d.lookup k = some v)
    (second : d.lookup l = some v) : k = l := by
  have same := List.inj_on_of_nodup_map values (lookupMem first) (lookupMem second) rfl
  exact congrArg Prod.fst same

theorem keysInsert (k : κ) (v : α) (d : List (κ × α)) :
    keys (insert k v d) = if k ∈ keys d then keys d else keys d ++ [k] := by
  induction d with
  | nil => simp [insert,keys]
  | cons p rest ih =>
    simp only [insert]
    split
    · rename_i same
      subst same; simp [keys]
    rename_i different
    simp only [keys,List.map_cons] at ih ⊢
    rw [ih]
    by_cases h : k ∈ rest.map Prod.fst
    · simp [h]
    · simp [h,Ne.symm different]

theorem memKeysInsert (k l : κ) (v : α) (d : List (κ × α)) :
    l ∈ keys (insert k v d) ↔ l = k ∨ l ∈ keys d := by
  rw [keysInsert]
  split
  · rename_i present
    exact ⟨.inr,fun either => either.elim (fun same => same ▸ present) id⟩
  · simp [or_comm]

theorem memInsert {p} (mem : p ∈ d) (other : p.1 ≠ k) : p ∈ insert k v d := by
  induction d with
  | nil => simp at mem
  | cons q rest ih =>
    simp only [insert]
    rcases List.mem_cons.mp mem with rfl | later
    · rw [if_neg other]
      exact List.mem_cons_self
    · split
      · exact List.mem_cons_of_mem _ later
      · exact List.mem_cons_of_mem _ (ih later)

theorem insertSame (found : d.lookup k = some v) : insert k v d = d := by
  induction d with
  | nil => simp at found
  | cons p rest ih =>
    obtain ⟨k',v'⟩ := p
    rw [lookupCons] at found
    simp only [insert]
    split
    · rename_i same
      subst same
      simpa using found.symm
    · rename_i different
      rw [if_neg (Ne.symm different)] at found
      rw [ih found]

theorem insertAbsent (absent : k ∉ keys d) : insert k v d = d ++ [(k,v)] := by
  induction d with
  | nil => rfl
  | cons p rest ih =>
    simp only [keys,List.map_cons,List.mem_cons,not_or] at absent
    rw [insert,if_neg (Ne.symm absent.1),ih absent.2,List.cons_append]

theorem insertMem {p} (mem : p ∈ insert k v d) : p = (k,v) ∨ p ∈ d := by
  induction d with
  | nil => exact .inl (by simpa [insert] using mem)
  | cons q rest ih =>
    simp only [insert] at mem
    split at mem
    · exact (List.mem_cons.mp mem).imp_right (List.mem_cons_of_mem q)
    · rcases List.mem_cons.mp mem with same | later
      · exact .inr (same ▸ List.mem_cons_self)
      · exact (ih later).imp_right (List.mem_cons_of_mem q)

@[simp] theorem insertInsert (k : κ) (v w : α) (d : List (κ × α)) :
    insert k w (insert k v d) = insert k w d := by
  induction d with
  | nil => simp [insert]
  | cons p rest ih =>
    simp only [insert]
    split
    · simp [insert]
    · rename_i different
      simp only [insert,if_neg different,ih]

theorem insertComm {l} (v w : α) (different : k ≠ l) (present : k ∈ keys d) :
    insert k v (insert l w d) = insert l w (insert k v d) := by
  induction d with
  | nil => simp [keys] at present
  | cons p rest ih =>
    obtain ⟨k',v'⟩ := p
    by_cases first : k' = k
    · subst first
      simp [insert,different]
    have later : k ∈ keys rest := by
      simpa [keys,Ne.symm first] using present
    by_cases second : k' = l
    · subst second
      simp [insert,first]
    · simp [insert,first,second,ih later]

theorem lookupUpdate {e} (distinct : Distinct e) (d : List (κ × α)) (key : κ) :
    (update d e).lookup key = (e.lookup key).or (d.lookup key) := by
  induction e generalizing d with
  | nil => rfl
  | cons p rest ih =>
    obtain ⟨fresh,tail⟩ := List.nodup_cons.mp distinct
    have step : update d (p::rest) = update (insert p.1 p.2 d) rest := rfl
    rw [step,ih tail,lookupInsert,lookupCons]
    by_cases same : key = p.1
    · rw [if_pos same,if_pos same,same,lookupNone.mpr fresh]
      rfl
    · rw [if_neg same,if_neg same]

theorem distinctInsert (h : Distinct d) (k : κ) (v : α) : Distinct (insert k v d) := by
  unfold Distinct
  rw [keysInsert]
  split
  · exact h
  · rename_i absent
    exact List.nodup_append'.mpr ⟨h,by simp,by simpa using absent⟩

end RedfishCtl.AssocList
