import Mathlib.Data.List.Perm.Subperm

/-! The C3 merge of class precedence lists. The next class is the first head that
stands in no tail; the merge fails when every head stands in some tail. -/
namespace RedfishCtl.Linearization

variable {α : Type} [DecidableEq α]

def candidate (seqs : List (List α)) : Option α :=
  (seqs.filterMap List.head?).find? fun c => seqs.all fun s => c ∉ s.tail

def advance (c : α) (s : List α) : List α := if s.head? = some c then s.tail else s

def advanceAll (c : α) (seqs : List (List α)) : List (List α) := seqs.map (advance c)

def remaining (seqs : List (List α)) : Nat := seqs.flatten.length

variable {c : α} {seqs : List (List α)}

theorem candidateHead (found : candidate seqs = some c) : ∃ s ∈ seqs, s.head? = some c :=
  List.mem_filterMap.mp (List.mem_of_find?_eq_some found)

variable {s : List α}

theorem candidateFree (found : candidate seqs = some c) (mem : s ∈ seqs) : c ∉ s.tail := by
  have free := List.find?_some found
  simp only [List.all_eq_true,decide_eq_true_eq] at free
  exact free s mem

theorem advanceLength (c : α) (s : List α) : (advance c s).length ≤ s.length := by
  unfold advance
  split
  · simp
  · exact Nat.le_refl _

theorem advanceHead (first : s.head? = some c) : (advance c s).length < s.length := by
  obtain ⟨rest,rfl⟩ := List.head?_eq_some_iff.mp first
  simp [advance]

theorem remainingLe (c : α) (seqs : List (List α)) :
    remaining (advanceAll c seqs) ≤ remaining seqs := by
  induction seqs with
  | nil => exact Nat.le_refl _
  | cons s seqs ih =>
    have one := advanceLength c s
    simp only [remaining,advanceAll,List.map_cons,List.flatten_cons,List.length_append] at ih ⊢
    omega

theorem remainingLt (mem : s ∈ seqs)
    (first : s.head? = some c) : remaining (advanceAll c seqs) < remaining seqs := by
  induction seqs with
  | nil => cases mem
  | cons s' seqs ih =>
    have one := advanceLength c s'
    have all := remainingLe c seqs
    simp only [remaining,advanceAll,List.map_cons,List.flatten_cons,List.length_append] at ih all ⊢
    rcases List.mem_cons.mp mem with rfl | later
    · have drop := advanceHead first
      omega
    · have drop := ih later
      omega

def merge (seqs : List (List α)) : Option (List α) :=
  if seqs.all List.isEmpty then some []
  else
    match _found : candidate seqs with
    | none => none
    | some c => (merge (advanceAll c seqs)).map (c :: ·)
termination_by remaining seqs
decreasing_by
  obtain ⟨s,mem,first⟩ := candidateHead _found
  exact remainingLt mem first

theorem advanceSublist {rest} (part : (advance c s).Sublist rest) : s.Sublist (c::rest) := by
  unfold advance at part
  split at part
  · rename_i first
    obtain ⟨tail,rfl⟩ := List.head?_eq_some_iff.mp first
    exact part.cons_cons c
  · exact part.cons c

theorem advanceSubset {c d} (mem : d ∈ advance c s) : d ∈ s := by
  unfold advance at mem
  split at mem
  · exact List.mem_of_mem_tail mem
  · exact mem

theorem advanceFree (free : c ∉ s.tail) : c ∉ advance c s := by
  unfold advance
  split
  · exact free
  rename_i other
  cases s with
  | nil => simp
  | cons d tail =>
    intro mem
    rcases List.mem_cons.mp mem with rfl | inside
    · exact other rfl
    · exact free inside

variable {l : List α}

theorem mergeSublist (done : merge seqs = some l) (mem : s ∈ seqs) : s.Sublist l := by
  fun_induction merge seqs generalizing l s with
  | case1 seqs empty =>
    have none := List.isEmpty_iff.mp (List.all_eq_true.mp empty s mem)
    rw [none]
    exact List.nil_sublist l
  | case2 => cases done
  | case3 seqs more c found ih =>
    obtain ⟨rest,merged,rfl⟩ := Option.map_eq_some_iff.mp done
    exact advanceSublist (ih merged (List.mem_map_of_mem mem))

theorem mergeSource (done : merge seqs = some l)
    (mem : c ∈ l) : ∃ s ∈ seqs, c ∈ s := by
  fun_induction merge seqs generalizing l with
  | case1 => cases done; cases mem
  | case2 => cases done
  | case3 seqs more d found ih =>
    obtain ⟨rest,merged,rfl⟩ := Option.map_eq_some_iff.mp done
    rcases List.mem_cons.mp mem with rfl | inside
    · obtain ⟨s,present,first⟩ := candidateHead found
      exact ⟨s,present,List.mem_of_head? first⟩
    · obtain ⟨s',present,within⟩ := ih merged inside
      obtain ⟨s,original,rfl⟩ := List.mem_map.mp present
      exact ⟨s,original,advanceSubset within⟩

theorem mergeNodup (done : merge seqs = some l) : l.Nodup := by
  fun_induction merge seqs generalizing l with
  | case1 => cases done; exact List.nodup_nil
  | case2 => cases done
  | case3 seqs more c found ih =>
    obtain ⟨rest,merged,rfl⟩ := Option.map_eq_some_iff.mp done
    refine List.nodup_cons.mpr ⟨fun again => ?_,ih merged⟩
    obtain ⟨s',present,within⟩ := mergeSource merged again
    obtain ⟨s,original,rfl⟩ := List.mem_map.mp present
    exact advanceFree (candidateFree found original) within

omit [DecidableEq α] in
variable {p : α → Bool}

theorem filterWhole (part : s.Sublist l) (once : l.Nodup)
    (every : ∀ c ∈ l, p c → c ∈ s) : s.filter p = l.filter p := by
  have fewer : (l.filter p).length ≤ (s.filter p).length := by
    refine (List.subperm_of_subset (once.filter p) fun c mem => ?_).length_le
    obtain ⟨inside,selected⟩ := List.mem_filter.mp mem
    exact List.mem_filter.mpr ⟨every c inside selected,selected⟩
  exact (part.filter p).eq_of_length_le fewer

omit [DecidableEq α] in
theorem firstOfSublist {c o} (part : (c::s).Sublist l) (once : l.Nodup) (first : l.find? p = some o)
    (head : p c) (mem : o ∈ c::s) : o = c := by
  induction l with
  | nil => cases first
  | cons x l ih =>
    obtain ⟨fresh,once⟩ := List.nodup_cons.mp once
    cases part with
    | cons _ later =>
      rw [List.find?_cons] at first
      split at first
      · cases first
        exact absurd (later.subset mem) fresh
      · exact ih later once first
    | cons_cons _ later =>
      rw [List.find?_cons_of_pos head] at first
      exact (Option.some.inj first).symm

omit [DecidableEq α] in
theorem findStronger {q} (first : l.find? p = some c) (implied : ∀ d ∈ l, q d → p d) (holds : q c) :
    l.find? q = some c := by
  obtain ⟨_,pre,post,rfl,before⟩ := List.find?_eq_some_iff_append.mp first
  refine List.find?_eq_some_iff_append.mpr ⟨holds,pre,post,rfl,fun d mem => ?_⟩
  cases no : q d with
  | false => rfl
  | true =>
    have yes := implied d (List.mem_append_left _ mem) no
    have not := before d mem
    simp [yes] at not

end RedfishCtl.Linearization
