import Mathlib.Data.List.Forall2
import Mathlib.Data.List.Infix

/-! Left-to-right rewriting of a text: where a match begins, its letters are left out, the text
of the rule is written in their place, and the scan goes on behind them. -/
namespace RedfishCtl.TextRewrite
open List

variable {α : Type*}

/- Whether a match begins between the letter before and the text, its length, and what is written
for it. -/
structure Rule (α : Type*) where
  hit : Option α → List α → Bool
  width : ℕ
  text : List α

def rewrite (r : Rule α) : Option α → ℕ → List α → List α
  | _, _, [] => []
  | _, skip+1, c::rest => rewrite r (some c) skip rest
  | last, 0, c::rest =>
      if r.hit last (c::rest) then r.text ++ rewrite r (some c) (r.width - 1) rest
      else c :: rewrite r (some c) 0 rest

def hits (r : Rule α) : Option α → ℕ → List α → ℕ
  | _, _, [] => 0
  | _, skip+1, c::rest => hits r (some c) skip rest
  | last, 0, c::rest =>
      if r.hit last (c::rest) then hits r (some c) (r.width - 1) rest + 1 else hits r (some c) 0 rest

def literal [BEq α] (old new : List α) : Rule α := ⟨fun _ rest => old.isPrefixOf rest,old.length,new⟩

abbrev Marked (α : Type*) := List (α × Bool)

def letters (m : Marked α) : List α := m.map Prod.fst

def plain (text : List α) : Marked α := text.map fun c => (c,false)

def headed (edge : Bool) : List α → Marked α
  | [] => []
  | c::rest => (c,edge) :: plain rest

/- The scan of a marked text: marks stand on the first letter that is written and the first one
behind. -/
def trace (r : Rule α) : Option α → ℕ → Bool → Marked α → Marked α
  | _, _, _, [] => []
  | _, skip+1, _, c::rest => trace r (some c.1) skip true rest
  | last, 0, edge, c::rest =>
      if r.hit last (letters (c::rest)) then
        headed true r.text ++ trace r (some c.1) (r.width - 1) true rest
      else (c.1,c.2 || edge) :: trace r (some c.1) 0 false rest

def stays (r : Rule α) : Option α → ℕ → List α → Marked α
  | _, _, [] => []
  | _, skip+1, c::rest => (c,false) :: stays r (some c) skip rest
  | last, 0, c::rest =>
      if r.hit last (c::rest) then (c,false) :: stays r (some c) (r.width - 1) rest
      else (c,true) :: stays r (some c) 0 rest

def Bridged (w : List α) (m : Marked α) : Prop :=
  ∃ whole, whole <:+: m ∧ letters whole = w ∧ ∃ c ∈ whole.tail, c.2 = true

def Unbroken (w : List α) (m : Marked α) : Prop := ∃ edge, headed edge w <:+: m

@[simp] theorem lettersCons (c : α × Bool) (m : Marked α) : letters (c::m) = c.1 :: letters m := rfl

@[simp] theorem lettersAppend (m n : Marked α) : letters (m ++ n) = letters m ++ letters n :=
  List.map_append

@[simp] theorem lettersPlain (text : List α) : letters (plain text) = text := by
  rw [letters,plain,List.map_map]
  exact List.map_id text

@[simp] theorem lettersHeaded (edge : Bool) (text : List α) : letters (headed edge text) = text := by
  cases text with
  | nil => rfl
  | cons c rest => rw [headed,lettersCons,lettersPlain]

theorem plainLetters {m : Marked α} (bare : ∀ c ∈ m, c.2 = false) : plain (letters m) = m := by
  induction m with
  | nil => rfl
  | cons c rest ih =>
    obtain ⟨own,later⟩ := List.forall_mem_cons.mp bare
    exact congrArg₂ List.cons (Prod.ext rfl own.symm) (ih later)

variable {w : List α}

theorem occursIff {m : Marked α} :
    w <:+: letters m ↔ Bridged w m ∨ Unbroken w m := by
  constructor
  · intro inside
    obtain ⟨whole,found,rfl⟩ := List.infix_map_iff.mp inside
    by_cases crossed : ∃ c ∈ whole.tail, c.2 = true
    · exact .inl ⟨whole,found,rfl,crossed⟩
    cases whole with
    | nil => exact .inr ⟨false,by simp [headed]⟩
    | cons c rest =>
      have bare : ∀ d ∈ rest, d.2 = false := by simpa using crossed
      refine .inr ⟨c.2,?_⟩
      show (c.1,c.2) :: plain (letters rest) <:+: m
      rw [plainLetters bare]
      exact found
  · rintro (⟨whole,found,rfl,-⟩ | ⟨edge,found⟩)
    · exact found.map Prod.fst
    · have inside := found.map Prod.fst
      rwa [← letters,lettersHeaded] at inside

theorem headedNil {edge} (empty : headed edge w = []) : w = [] := by
  cases w with
  | nil => rfl
  | cons c rest => cases empty

theorem unbrokenHeaded {edge text} (kept : Unbroken w (headed edge text)) : w <:+: text := by
  have inside := occursIff.mpr (.inr kept)
  rwa [lettersHeaded] at inside

theorem unbrokenAppend (full : w ≠ []) {a b} (seam : ∀ c more, b = c::more → c.2 = true)
    (kept : Unbroken w (a ++ b)) : Unbroken w a ∨ Unbroken w b := by
  obtain ⟨mark,found⟩ := kept
  rcases List.infix_append_iff.mp found with first | second | ⟨l,k,parts,left,right⟩
  · exact .inl ⟨mark,first⟩
  · exact .inr ⟨mark,second⟩
  cases k with
  | nil =>
    rw [List.append_nil] at parts
    exact .inl ⟨mark,parts ▸ left.isInfix⟩
  | cons e es =>
    obtain ⟨more,out⟩ := right
    have edge : e.2 = true := seam e _ out.symm
    cases l with
    | nil =>
      have start : headed mark w <+: b := by
        rw [parts]
        exact ⟨more,out⟩
      exact .inr ⟨mark,start.isInfix⟩
    | cons d ds =>
      obtain ⟨x,xs,rfl⟩ := List.exists_cons_of_ne_nil full
      have inside : e ∈ plain xs := by
        rw [(List.cons.inj parts).2]
        simp
      obtain ⟨y,-,rfl⟩ := List.mem_map.mp inside
      cases edge

section
variable (r : Rule α)

theorem lettersTrace (last : Option α) (skip : ℕ) (edge : Bool) (m : Marked α) :
    letters (trace r last skip edge m) = rewrite r last skip (letters m) := by
  fun_induction trace r last skip edge m with
  | case1 => rfl
  | case2 last edge skip c rest ih => rw [ih,lettersCons,rewrite]
  | case3 last edge c rest hit ih =>
    rw [lettersAppend,lettersHeaded,ih,lettersCons,rewrite]
    rw [lettersCons] at hit
    rw [if_pos hit]
  | case4 last edge c rest miss ih =>
    rw [lettersCons,ih,lettersCons,rewrite]
    rw [lettersCons] at miss
    rw [if_neg miss]

variable {last : Option α} {skip : ℕ} {m : Marked α}

theorem traceEdge {c more} (out : trace r last skip true m = c::more) : c.2 = true := by
  induction m generalizing last skip with
  | nil => simp [trace] at out
  | cons d rest ih =>
    cases skip with
    | succ skip => exact ih out
    | zero =>
      rw [trace] at out
      split at out
      · cases text : r.text with
        | nil =>
          rw [text] at out
          exact ih out
        | cons x xs =>
          rw [text] at out
          cases out
          rfl
      · cases out
        exact Bool.or_true _

theorem plainTrace {w} (copied : plain w <+: trace r last 0 false m) : plain w <+: m := by
  induction w generalizing last m with
  | nil => exact List.nil_prefix
  | cons x xs ih =>
    obtain ⟨more,out⟩ := copied
    cases m with
    | nil => cases out
    | cons c rest =>
      rw [trace] at out
      split at out
      · exfalso
        cases text : r.text with
        | nil =>
          rw [text] at out
          have edge := traceEdge r out.symm
          cases edge
        | cons y ys =>
          rw [text] at out
          cases out
      · rw [Bool.or_false] at out
        obtain ⟨same,later⟩ := List.cons.inj out
        exact List.cons_prefix_cons.mpr ⟨same,ih ⟨more,later⟩⟩

theorem unbrokenTrace {w} (full : w ≠ []) {edge} (kept : Unbroken w (trace r last skip edge m)) :
    (w <:+: r.text ∧ 0 < hits r last skip (letters m)) ∨
    ∃ before front mark back, m = front ++ (headed mark w ++ back) ∧
      r.hit before (letters (headed mark w ++ back)) = false := by
  fun_induction trace r last skip edge m with
  | case1 =>
    obtain ⟨mark,found⟩ := kept
    exact absurd (headedNil (List.infix_nil.mp found)) full
  | case2 last edge skip c rest ih =>
    rcases ih kept with wrote | ⟨before,front,mark,back,rfl,free⟩
    · exact .inl wrote
    · exact .inr ⟨before,c::front,mark,back,rfl,free⟩
  | case3 last edge c rest hit ih =>
    rw [lettersCons] at hit
    have some : 0 < hits r last 0 (letters (c::rest)) := by
      rw [lettersCons,hits,if_pos hit]
      exact Nat.succ_pos _
    rcases unbrokenAppend full (fun d more out => traceEdge r out) kept with inText | behind
    · exact .inl ⟨unbrokenHeaded inText,some⟩
    · rcases ih behind with wrote | ⟨before,front,mark,back,rfl,free⟩
      · exact .inl ⟨wrote.1,some⟩
      · exact .inr ⟨before,c::front,mark,back,rfl,free⟩
  | case4 last edge c rest miss ih =>
    have counts : hits r last 0 (letters (c::rest)) = hits r (some c.1) 0 (letters rest) := by
      rw [lettersCons] at miss
      rw [lettersCons,hits,if_neg miss]
    rw [counts]
    obtain ⟨mark,found⟩ := kept
    rcases List.infix_cons_iff.mp found with here | behind
    · right
      obtain ⟨x,xs,rfl⟩ := List.exists_cons_of_ne_nil full
      obtain ⟨same,later⟩ := List.cons_prefix_cons.mp here
      obtain ⟨back,whole⟩ := plainTrace r later
      have own : c::rest = headed c.2 (x::xs) ++ back := by
        rw [headed,List.cons_append,whole]
        exact congrArg (· :: rest) (Prod.ext (congrArg Prod.fst same).symm rfl)
      refine ⟨last,[],c.2,back,own,?_⟩
      rw [← own]
      simpa using miss
    · rcases ih ⟨mark,behind⟩ with wrote | ⟨before,front,mark,back,rfl,free⟩
      · exact .inl wrote
      · exact .inr ⟨before,c::front,mark,back,rfl,free⟩

theorem unbrokenKept {w} (full : w ≠ []) {edge} (kept : Unbroken w (trace r last skip edge m)) :
    (w <:+: r.text ∧ 0 < hits r last skip (letters m)) ∨ Unbroken w m := by
  rcases unbrokenTrace r full kept with wrote | ⟨before,front,mark,back,rfl,-⟩
  · exact .inl wrote
  · exact .inr ⟨mark,front,back,by rw [List.append_assoc]⟩

variable {text : List α}

theorem textWritten (some : 0 < hits r last skip text) : r.text <:+: rewrite r last skip text := by
  fun_induction rewrite r last skip text with
  | case1 => simp [hits] at some
  | case2 last skip c rest ih => exact ih some
  | case3 last c rest hit ih => exact (List.prefix_append _ _).isInfix
  | case4 last c rest miss ih =>
    rw [hits,if_neg miss] at some
    exact List.infix_cons (ih some)

theorem skipped (last : Option α) (long : skip ≤ text.length) :
    ∃ before, rewrite r last skip text = rewrite r before 0 (text.drop skip) ∧
      stays r last skip text = plain (text.take skip) ++ stays r before 0 (text.drop skip) := by
  induction skip generalizing last text with
  | zero => exact ⟨last,rfl,rfl⟩
  | succ skip ih =>
    cases text with
    | nil => simp at long
    | cons c rest =>
      obtain ⟨before,out,marks⟩ := ih (some c) (Nat.le_of_succ_le_succ long)
      refine ⟨before,out,?_⟩
      rw [stays,marks]
      rfl

theorem staysRewrite {like} (positive : 0 < r.width)
    (matched : ∀ last text, r.hit last text = true → Forall₂ like (text.take r.width) r.text)
    (size : r.text.length = r.width) (last : Option α) (text : List α) :
    Forall₂ (fun c out => if c.2 then out = c.1 else like c.1 out) (stays r last 0 text)
      (rewrite r last 0 text) := by
  induction length : text.length using Nat.strong_induction_on generalizing last text with
  | _ n ih =>
    cases text with
    | nil => exact .nil
    | cons c rest =>
      rw [stays,rewrite]
      split
      · rename_i hit
        have whole := matched last (c::rest) hit
        obtain ⟨width,wide⟩ := Nat.exists_eq_succ_of_ne_zero positive.ne'
        have long : width ≤ rest.length := by
          have same := whole.length_eq
          rw [List.length_take,List.length_cons] at same
          omega
        obtain ⟨before,out,marks⟩ := skipped r (some c) long
        have behind := ih (rest.drop width).length (by rw [← length,List.length_drop,List.length_cons]; omega) before
          (rest.drop width) rfl
        rw [wide,Nat.succ_sub_one,out,marks,← List.cons_append]
        refine List.rel_append ?_ behind
        rw [wide] at whole
        show Forall₂ _ (plain (c :: rest.take width)) r.text
        rw [plain,List.forall₂_map_left_iff]
        simpa using whole
      · exact .cons (by simp) (ih rest.length (by rw [← length,List.length_cons]; omega) (some c) rest rfl)

theorem rewriteSame (positive : 0 < r.width)
    (same : ∀ last front back, text = front ++ back → r.hit last back = true → back.take r.width = r.text)
    (size : r.text.length = r.width) (last : Option α) : rewrite r last 0 text = text := by
  induction length : text.length using Nat.strong_induction_on generalizing last text with
  | _ n ih =>
    cases text with
    | nil => rfl
    | cons c rest =>
      rw [rewrite]
      split
      · rename_i hit
        have whole := same last [] (c::rest) rfl hit
        obtain ⟨width,wide⟩ := Nat.exists_eq_succ_of_ne_zero positive.ne'
        have long : width ≤ rest.length := by
          have counted := congrArg List.length whole
          rw [List.length_take,List.length_cons] at counted
          omega
        obtain ⟨before,out,-⟩ := skipped r (some c) long
        rw [wide,List.take_succ_cons] at whole
        rw [wide,Nat.succ_sub_one,out,ih (rest.drop width).length (by rw [← length,List.length_drop,List.length_cons]; omega) _ before rfl,
          ← whole,List.cons_append,List.take_append_drop]
        intro before front back parts
        refine same before (c :: rest.take width ++ front) back ?_
        rw [List.append_assoc,← parts,List.cons_append,List.take_append_drop]
      · rw [ih rest.length (by rw [← length,List.length_cons]; omega) _ (some c) rfl]
        intro before front back parts
        exact same before (c::front) back (by rw [parts]; rfl)

end

section
variable [BEq α] [LawfulBEq α]

theorem literalAbsent {old new text} (absent : ¬ old <:+: text) (last : Option α) :
    rewrite (literal old new) last 0 text = text := by
  induction text generalizing last with
  | nil => rfl
  | cons c rest ih =>
    have miss : ¬ (literal old new).hit last (c::rest) = true := by
      intro hit
      exact absent (List.isPrefixOf_iff_prefix.mp hit).isInfix
    rw [rewrite,if_neg miss,ih fun inside => absent (List.infix_cons inside)]

theorem literalUnbroken {old new} (full : old ≠ []) (absent : ¬ old <:+: new) {m : Marked α} :
    ¬ Unbroken old (trace (literal old new) none 0 false m) := by
  intro kept
  rcases unbrokenTrace _ full kept with ⟨wrote,-⟩ | ⟨before,front,mark,back,-,free⟩
  · exact absent wrote
  have hit : (literal old new).hit before (letters (headed mark old ++ back)) = true := by
    rw [lettersAppend,lettersHeaded]
    exact List.isPrefixOf_iff_prefix.mpr (List.prefix_append old _)
  rw [hit] at free
  cases free

end
end RedfishCtl.TextRewrite
