import Mathlib.Data.List.Basic
import Mathlib.Data.List.TakeWhile

/-! The removal of dot segments from a path (RFC 3986, 5.2.4). A walk of segments ends below a base
exactly when its last stay there begins at the base and never climbs above it. -/
namespace RedfishCtl.DotSegments

abbrev Segments := List (List Char)

def step (stack : Segments) (s : List Char) : Segments :=
  if s = ['.'] then stack else if s = ['.','.'] then stack.dropLast else stack ++ [s]

def walk (stack segments : Segments) : Segments := segments.foldl step stack

def inner : Segments → Segments → Option Segments
  | own, [] => some own
  | own, s::rest =>
      if s = ['.'] then inner own rest
      else if s = ['.','.'] then if own = [] then none else inner own.dropLast rest
      else inner (own ++ [s]) rest

def pathOf (uri : List Char) : List Char := uri.takeWhile fun c => c ≠ '?' && c ≠ '#'

/- The segments without dot segments; the slash that a final dot segment leaves is not kept. -/
def resolved (uri : List Char) : Option Segments :=
  match pathOf uri with
  | [] => some []
  | '/'::rest => some (walk [] (rest.splitOn '/'))
  | _::_ => none

def Below (base target : Segments) : Prop := ∃ rest, target = base ++ rest ∧ ∃ s ∈ rest, s ≠ []

def Stays (base segments : Segments) : Prop :=
  ∃ back stay own, segments = back ++ stay ∧ walk base back = base ∧ inner [] stay = some own ∧
    ∃ s ∈ own, s ≠ []

section
variable {base stack own rest segments : Segments} {s : List Char}

theorem walkCons : walk stack (s::segments) = walk (step stack s) segments := rfl

theorem walkAppend (left right : Segments) :
    walk stack (left ++ right) = walk (walk stack left) right := List.foldl_append

theorem innerWalk (stays : inner own segments = some rest) :
    walk (base ++ own) segments = base ++ rest := by
  induction segments generalizing own with
  | nil =>
    cases Option.some.inj stays
    rfl
  | cons s later ih =>
    rw [walkCons]
    unfold inner at stays
    by_cases dot : s = ['.']
    · rw [if_pos dot] at stays
      rw [step,if_pos dot]
      exact ih stays
    rw [if_neg dot] at stays
    rw [step,if_neg dot]
    by_cases up : s = ['.','.']
    · rw [if_pos up] at stays ⊢
      by_cases none : own = []
      · rw [if_pos none] at stays
        cases stays
      · rw [if_neg none] at stays
        rw [List.dropLast_append_of_ne_nil none]
        exact ih stays
    · rw [if_neg up] at stays ⊢
      rw [List.append_assoc]
      exact ih stays

theorem walkEnters (ends : walk stack segments = base ++ rest) :
    (∃ own, stack = base ++ own ∧ inner own segments = some rest) ∨
      ∃ back stay, segments = back ++ stay ∧ walk stack back = base ∧ inner [] stay = some rest := by
  induction segments generalizing stack with
  | nil => exact .inl ⟨rest,ends,rfl⟩
  | cons s later ih =>
    rcases ih ends with ⟨own,here,stays⟩ | ⟨back,stay,rfl,returns,stays⟩
    · unfold step at here
      by_cases dot : s = ['.']
      · rw [if_pos dot] at here
        refine .inl ⟨own,here,?_⟩
        rw [inner,if_pos dot,stays]
      rw [if_neg dot] at here
      by_cases up : s = ['.','.']
      · rw [if_pos up] at here
        rcases List.eq_nil_or_concat' stack with rfl | ⟨under,top,rfl⟩
        · -- A climb at the root stays at the root.
          obtain ⟨rfl,rfl⟩ := List.append_eq_nil_iff.mp here.symm
          refine .inr ⟨[s],later,rfl,?_,stays⟩
          rw [walkCons,step,if_neg dot,if_pos up]
          rfl
        · rw [List.dropLast_concat] at here
          subst here
          refine .inl ⟨own ++ [top],List.append_assoc _ _ _,?_⟩
          rw [inner,if_neg dot,if_pos up,if_neg (by simp),List.dropLast_concat,stays]
      · rw [if_neg up] at here
        rcases List.eq_nil_or_concat' own with rfl | ⟨entered,last,rfl⟩
        · refine .inr ⟨[s],later,rfl,?_,stays⟩
          rw [walkCons,step,if_neg dot,if_neg up,here]
          exact List.append_nil base
        · rw [← List.append_assoc] at here
          obtain ⟨rfl,same⟩ := List.append_inj' here rfl
          refine .inl ⟨entered,rfl,?_⟩
          rw [inner,if_neg dot,if_neg up,same,stays]
    · exact .inr ⟨s::back,stay,rfl,returns,stays⟩

theorem belowStays : Below base (walk base segments) ↔ Stays base segments := by
  constructor
  · rintro ⟨rest,ends,named⟩
    rcases walkEnters ends with ⟨own,same,stays⟩ | ⟨back,stay,split,returns,stays⟩
    · obtain rfl : own = [] := List.self_eq_append_right.mp same
      exact ⟨[],segments,rest,rfl,rfl,stays,named⟩
    · exact ⟨back,stay,rest,split,returns,stays,named⟩
  · rintro ⟨back,stay,own,rfl,returns,stays,named⟩
    refine ⟨own,?_,named⟩
    have under : walk (base ++ []) stay = base ++ own := innerWalk stays
    rw [List.append_nil] at under
    rw [walkAppend,returns,under]

end

def Plain (text : List Char) : Prop := '?' ∉ text ∧ '#' ∉ text

variable {text rest : List Char}

theorem pathAppend (plain : Plain text) : pathOf (text ++ rest) = text ++ pathOf rest := by
  unfold pathOf
  rw [List.takeWhile_append_of_pos]
  intro c mem
  have query : c ≠ '?' := fun same => plain.1 (same ▸ mem)
  have fragment : c ≠ '#' := fun same => plain.2 (same ▸ mem)
  simp [query,fragment]

theorem pathHidden (hidden : ¬ Plain text) : pathOf (text ++ rest) = pathOf text := by
  unfold pathOf
  rw [List.takeWhile_append,if_neg]
  intro whole
  have all := List.takeWhile_eq_self_iff.mp ((List.takeWhile_sublist _).eq_of_length whole)
  refine hidden ⟨fun mem => ?_,fun mem => ?_⟩
  · exact absurd (all _ mem) (by decide)
  · exact absurd (all _ mem) (by decide)

theorem pathPlain (plain : Plain text) : pathOf text = text := by
  have path : pathOf (text ++ []) = text ++ pathOf [] := pathAppend plain
  rw [List.append_nil] at path
  exact path.trans (List.append_nil text)

theorem resolvedUnder {collection base} (plain : Plain collection)
    (start : resolved collection = some base) :
    resolved (collection ++ '/'::rest) = some (walk base ((pathOf rest).splitOn '/')) := by
  have slash : Plain ['/'] := ⟨by decide,by decide⟩
  unfold resolved at start ⊢
  rw [pathPlain plain] at start
  rw [pathAppend plain]
  cases collection with
  | nil =>
    cases Option.some.inj start
    rfl
  | cons c text =>
    by_cases absolute : c = '/'
    · subst absolute
      cases Option.some.inj start
      change some (walk [] ((text ++ '/'::pathOf rest).splitOn '/')) = _
      rw [List.splitOn_append_cons_self,walkAppend]
    split at start
    · rename_i same
      cases same
    · rename_i same
      exact absurd (List.cons.inj same).1 absolute
    · cases start

end RedfishCtl.DotSegments
