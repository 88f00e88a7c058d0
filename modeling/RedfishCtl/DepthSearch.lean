import Mathlib.Data.List.Basic

/-! Depth-first search of a graph down to a limit with one list of visited vertices. A vertex is
visited at the depth where the search first meets it, and not opened if that is the limit. -/
namespace RedfishCtl.DepthSearch
variable {ν : Type} [DecidableEq ν] (links : ν → List ν) (follows : ν → Bool)

def search : Nat → ν → List ν → List ν
  | 0, _, seen => seen
  | levels+1, v, seen =>
      if follows v && !seen.contains v then
        (links v).foldl (fun seen w => search levels w seen) (v::seen)
      else seen

def searchAll (levels : Nat) (vs seen : List ν) : List ν :=
  vs.foldl (fun seen v => search links follows levels v seen) seen

variable {links follows}

@[simp] theorem searchAllNil (levels : Nat) (seen : List ν) :
    searchAll links follows levels [] seen = seen := rfl

@[simp] theorem searchAllCons (levels : Nat) (v : ν) (vs seen : List ν) :
    searchAll links follows levels (v::vs) seen =
      searchAll links follows levels vs (search links follows levels v seen) := rfl

variable {seen : List ν}

theorem searchFresh {levels v} (followed : follows v = true) (fresh : v ∉ seen) :
    search links follows (levels+1) v seen = searchAll links follows levels (links v) (v::seen) := by
  rw [search,if_pos (by simp [followed,fresh])]
  rfl

theorem searchPassed {levels v} (passed : follows v = true → v ∈ seen) :
    search links follows levels v seen = seen := by
  cases levels with
  | zero => rfl
  | succ levels =>
    rw [search,if_neg]
    simpa using passed

theorem searchAllZero (vs seen : List ν) : searchAll links follows 0 vs seen = seen := by
  induction vs with
  | nil => rfl
  | cons v vs ih => exact ih

theorem searchAllMap {μ} [DecidableEq μ] {f} (injective : Function.Injective f) {below}
    (linked : ∀ v, links (f v) = (below v).map f) (followed : ∀ v, follows (f v) = true)
    (levels : Nat) (vs seen : List μ) :
    searchAll links follows levels (vs.map f) (seen.map f) =
      (searchAll below (fun _ => true) levels vs seen).map f := by
  induction levels generalizing vs seen with
  | zero => rw [searchAllZero,searchAllZero]
  | succ levels ih =>
    induction vs generalizing seen with
    | nil => rfl
    | cons v vs rest =>
      rw [List.map_cons,searchAllCons,searchAllCons]
      by_cases visited : v ∈ seen
      · rw [searchPassed fun _ => List.mem_map_of_mem visited,searchPassed fun _ => visited,rest]
      · rw [searchFresh (followed v) (mt (List.mem_map_of_injective injective).mp visited),
          searchFresh rfl visited,linked,← List.map_cons,ih,rest]

theorem searchInduction {motive : List ν → List ν → Prop} (refl : ∀ seen, motive seen seen)
    (trans : ∀ {a b c}, motive a b → motive b c → motive a c)
    (visit : ∀ {v seen}, follows v = true → v ∉ seen → motive seen (v::seen)) (levels : Nat) (vs seen : List ν) :
    motive seen (searchAll links follows levels vs seen) := by
  induction levels generalizing vs seen with
  | zero =>
    rw [searchAllZero]
    exact refl seen
  | succ levels ih =>
    induction vs generalizing seen with
    | nil => exact refl seen
    | cons v vs rest =>
      rw [searchAllCons]
      by_cases fresh : follows v = true ∧ v ∉ seen
      · rw [searchFresh fresh.1 fresh.2]
        exact trans (visit fresh.1 fresh.2) (trans (ih _ _) (rest _))
      · rw [searchPassed (by simpa using fresh)]
        exact rest seen

theorem searchGrows (levels : Nat) (vs : List ν) {u : ν} (mem : u ∈ seen) :
    u ∈ searchAll links follows levels vs seen :=
  searchInduction (motive := fun a b => ∀ u ∈ a, u ∈ b) (fun _ _ mem => mem)
    (fun first second u mem => second u (first u mem)) (fun _ _ _ mem => List.mem_cons_of_mem _ mem)
    levels vs seen u mem

theorem searchOnce (levels : Nat) (vs : List ν) (once : seen.Nodup) :
    (searchAll links follows levels vs seen).Nodup :=
  searchInduction (motive := fun a b => a.Nodup → b.Nodup) (fun _ once => once)
    (fun first second once => second (first once))
    (fun _ fresh once => List.nodup_cons.mpr ⟨fresh,once⟩) levels vs seen once

theorem searchFollowed (levels : Nat) (vs : List ν) {u : ν}
    (mem : u ∈ searchAll links follows levels vs seen) : u ∈ seen ∨ follows u = true := by
  refine searchInduction (motive := fun a b => u ∈ b → u ∈ a ∨ follows u = true) (fun _ mem => .inl mem)
    (fun first second mem => (second mem).elim first .inr) (fun followed _ mem => ?_) levels vs seen mem
  rcases List.mem_cons.mp mem with rfl | old
  · exact .inr followed
  · exact .inl old

section
variable (links follows)
variable (roots : List ν)

def next : List ν → List ν
  | [] => roots
  | u::_ => links u

inductive Trail : List ν → Prop
  | nil : Trail []
  | cons {v : ν} {path : List ν} : Trail path → v ∈ next links roots path → follows v = true →
      v ∉ path → Trail (v::path)

def Late (limit : Nat) (u : ν) : Prop := ∃ path, Trail links follows roots (u::path) ∧ path.length+1 = limit

inductive Early (limit : Nat) : ν → Prop
  | root {v : ν} : v ∈ roots → follows v = true → Early limit v
  | link {u v : ν} : Early limit u → ¬ Late links follows roots limit u → v ∈ links u →
      follows v = true → Early limit v

end

section
variable {roots : List ν} {limit : Nat}

/- The visited vertices: those asked for, and each of the others opened unless met at the limit. -/
structure Explored (links : ν → List ν) (follows : ν → Bool) (roots : List ν) (limit : Nat)
    (vs before after : List ν) : Prop where
  takes : ∀ v ∈ vs, follows v = true → v ∈ after
  opens : ∀ u ∈ after, u ∈ before ∨ Late links follows roots limit u ∨
    ∀ w ∈ links u, follows w = true → w ∈ after

omit [DecidableEq ν] in
theorem Explored.cons {v vs before middle after}
    (first : Explored links follows roots limit [v] before middle) (grows : ∀ u ∈ middle, u ∈ after)
    (second : Explored links follows roots limit vs middle after) :
    Explored links follows roots limit (v::vs) before after := by
  constructor
  · intro w mem followed
    rcases List.mem_cons.mp mem with rfl | later
    · exact grows w (first.takes w List.mem_cons_self followed)
    · exact second.takes w later followed
  intro u mem
  rcases second.opens u mem with old | rest
  · rcases first.opens u old with old | late | opened
    · exact .inl old
    · exact .inr (.inl late)
    · exact .inr (.inr fun w linked followed => grows w (opened w linked followed))
  · exact .inr rest

omit [DecidableEq ν] in
variable {levels : Nat} {path : List ν}

theorem exploredFresh {v before after} (trail : Trail links follows roots (v::path))
    (depth : path.length+(levels+1) = limit) (seen : v ∈ after) (searched : 0 < levels →
      Explored links follows roots limit (links v) (v::before) after)
    (last : levels = 0 → after = v::before) : Explored links follows roots limit [v] before after := by
  refine ⟨fun w mem _ => List.mem_singleton.mp mem ▸ seen,fun u mem => ?_⟩
  cases levels with
  | zero =>
    rw [last rfl] at mem
    rcases List.mem_cons.mp mem with rfl | old
    · exact .inr (.inl ⟨path,trail,depth⟩)
    · exact .inl old
  | succ levels =>
    have below := searched (Nat.succ_pos levels)
    rcases below.opens u mem with here | rest
    · rcases List.mem_cons.mp here with rfl | old
      · exact .inr (.inr below.takes)
      · exact .inl old
    · exact .inr rest

theorem exploredOne {v seen} (trail : Trail links follows roots path)
    (walked : ∀ u ∈ path, u ∈ seen) (below : v ∈ next links roots path)
    (depth : path.length+(levels+1) = limit)
    (deeper : Trail links follows roots (v::path) → 0 < levels →
      Explored links follows roots limit (links v) (v::seen)
        (searchAll links follows levels (links v) (v::seen))) :
    Explored links follows roots limit [v] seen (search links follows (levels+1) v seen) := by
  by_cases fresh : follows v = true ∧ v ∉ seen
  · have longer := Trail.cons trail below fresh.1 (fun mem => fresh.2 (walked v mem))
    rw [searchFresh fresh.1 fresh.2]
    refine exploredFresh longer depth (searchGrows _ _ List.mem_cons_self) (deeper longer) ?_
    rintro rfl
    exact searchAllZero _ _
  · have passed : follows v = true → v ∈ seen := by simpa using fresh
    rw [searchPassed passed]
    refine ⟨fun w mem followed => ?_,fun _ mem => .inl mem⟩
    cases List.mem_singleton.mp mem
    exact passed followed

-- The path down to the vertices that are searched is a trail, because all of it has been visited
-- before them.
theorem explored {vs seen} (trail : Trail links follows roots path) (walked : ∀ u ∈ path, u ∈ seen)
    (below : ∀ v ∈ vs, v ∈ next links roots path) (depth : path.length+levels = limit)
    (positive : 0 < levels) :
    Explored links follows roots limit vs seen (searchAll links follows levels vs seen) := by
  induction levels generalizing path vs seen with
  | zero => omega
  | succ levels ih =>
    induction vs generalizing seen with
    | nil => exact ⟨fun _ mem => absurd mem List.not_mem_nil,fun _ mem => .inl mem⟩
    | cons v vs rest =>
      have first : Explored links follows roots limit [v] seen
          (search links follows (levels+1) v seen) := by
        refine exploredOne trail walked (below v List.mem_cons_self) depth fun longer more => ?_
        refine ih longer (fun u mem => ?_) (fun _ mem => mem) ?_ more
        · rcases List.mem_cons.mp mem with rfl | old
          · exact List.mem_cons_self
          · exact List.mem_cons_of_mem v (walked u old)
        · rw [List.length_cons]
          omega
      have kept : ∀ u ∈ path, u ∈ search links follows (levels+1) v seen :=
        fun u mem => searchGrows (levels+1) [v] (walked u mem)
      exact first.cons (fun u mem => searchGrows (levels+1) vs mem)
        (rest kept fun w mem => below w (List.mem_cons_of_mem v mem))

theorem earlyFound (positive : 0 < limit) {v} (early : Early links follows roots limit v) :
    v ∈ searchAll links follows limit roots [] := by
  have finished : Explored links follows roots limit roots [] (searchAll links follows limit roots []) :=
    explored Trail.nil (fun _ mem => absurd mem List.not_mem_nil) (fun _ mem => mem) (Nat.zero_add limit) positive
  induction early with
  | root mem followed => exact finished.takes _ mem followed
  | link _ notLate linked followed ih =>
    rcases finished.opens _ ih with none | late | opened
    · cases none
    · exact absurd late notLate
    · exact opened _ linked followed

end

end RedfishCtl.DepthSearch
