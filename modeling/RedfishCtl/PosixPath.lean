import Mathlib.Data.List.Basic

/-! Relative paths as the list of their parts, and their text with slashes between the parts. -/
namespace RedfishCtl.PosixPath

abbrev Path := List (List Char)

def parts (text : List Char) : Path := (text.splitOn '/').filter fun s => s ≠ [] && s ≠ ['.']

def render : Path → List Char
  | [] => []
  | [s] => s
  | s::t::rest => s ++ '/' :: render (t::rest)

def isName (s : List Char) : Bool := s ≠ [] && s ≠ ['.'] && s ≠ ['.','.'] && !s.contains '/'

abbrev Names (path : Path) : Prop := ∀ s ∈ path, isName s = true

def normal (path : Path) : Path :=
  path.foldl (fun acc s => if s = ['.','.'] then acc.dropLast else acc ++ [s]) []

theorem isNameIff {s} : isName s = true ↔ s ≠ [] ∧ s ≠ ['.'] ∧ s ≠ ['.','.'] ∧ '/' ∉ s := by
  simp [isName,and_assoc]

theorem partsAppend (a b : List Char) : parts (a ++ '/'::b) = parts a ++ parts b := by
  rw [parts,List.splitOn_append_cons_self,List.filter_append]
  rfl

theorem partsName {s} (name : isName s = true) : parts s = [s] := by
  obtain ⟨full,dot,-,slash⟩ := isNameIff.mp name
  rw [parts,List.splitOn_eq_singleton slash,List.filter_cons_of_pos (by simp [full,dot])]
  rfl

variable {path : Path}

theorem partsRender (names : Names path) : parts (render path) = path := by
  fun_induction render path with
  | case1 => rfl
  | case2 s => exact partsName (names s List.mem_cons_self)
  | case3 s t rest ih =>
    rw [partsAppend,partsName (names s List.mem_cons_self),
      ih fun u mem => names u (List.mem_cons_of_mem s mem)]
    rfl

theorem renderInj {path other} (names : Names path) (otherNames : Names other)
    (same : render path = render other) : path = other := by
  rw [← partsRender names,same,partsRender otherNames]

theorem renderSnoc (some : path ≠ []) (s : List Char) :
    render (path ++ [s]) = render path ++ '/'::s := by
  fun_induction render path with
  | case1 => exact absurd rfl some
  | case2 t => rfl
  | case3 t u rest ih =>
    have later := ih (List.cons_ne_nil u rest)
    simp only [List.cons_append] at later ⊢
    rw [render,later,List.append_assoc]
    rfl

theorem normalFrom (plain : ['.','.'] ∉ path) (acc : Path) :
    path.foldl (fun acc s => if s = ['.','.'] then acc.dropLast else acc ++ [s]) acc = acc ++ path := by
  induction path generalizing acc with
  | nil => simp
  | cons s rest ih =>
    have other : s ≠ ['.','.'] := fun same => plain (same ▸ List.mem_cons_self)
    rw [List.foldl_cons,if_neg other,ih fun mem => plain (List.mem_cons_of_mem s mem)]
    simp

theorem normalSame (plain : ['.','.'] ∉ path) : normal path = path := by
  rw [normal,normalFrom plain]
  rfl

def spell (path : Path) : List Char := path.flatMap fun s => '/'::s

theorem spellRender (some : path ≠ []) : spell path = '/' :: render path := by
  fun_induction render path with
  | case1 => exact absurd rfl some
  | case2 s => simp [spell]
  | case3 s t rest ih =>
    have later := ih (List.cons_ne_nil t rest)
    rw [spell] at *
    simp [later]

theorem splitSpelled (text : List Char) :
    spell (text.splitOn '/') = '/' :: text ∧ ∀ s ∈ text.splitOn '/', '/' ∉ s := by
  induction text with
  | nil => simp [spell]
  | cons c rest ih =>
    rw [List.splitOn_cons_eq_if_modifyHead]
    by_cases slash : c = '/'
    · subst slash
      simp only [BEq.rfl,if_true,spell,List.flatMap_cons,List.mem_cons,forall_eq_or_imp]
      exact ⟨by rw [← spell,ih.1]; rfl,List.not_mem_nil,ih.2⟩
    cases pieces : rest.splitOn '/' with
    | nil => exact absurd pieces (List.splitOn_ne_nil _ _)
    | cons s others =>
      rw [pieces] at ih
      obtain ⟨spelled,clean⟩ := ih
      simp only [beq_iff_eq,slash,if_false,List.modifyHead_cons]
      rw [spell] at spelled ⊢
      refine ⟨by simpa using spelled,fun t mem => ?_⟩
      rcases List.mem_cons.mp mem with rfl | later
      · have own := clean s List.mem_cons_self
        simp [Ne.symm slash,own]
      · exact clean t (List.mem_cons_of_mem s later)

theorem renderHead (names : Names path) : (render path).head? ≠ some '/' := by
  fun_induction render path with
  | case1 => simp
  | case2 s =>
    obtain ⟨full,-,-,slash⟩ := isNameIff.mp (names s List.mem_cons_self)
    intro first
    exact slash (List.mem_of_head? first)
  | case3 s t rest ih =>
    obtain ⟨full,-,-,slash⟩ := isNameIff.mp (names s List.mem_cons_self)
    rw [List.head?_append_of_ne_nil _ full]
    intro first
    exact slash (List.mem_of_head? first)

theorem renderLast (names : Names path) : (render path).getLast? ≠ some '/' := by
  fun_induction render path with
  | case1 => simp
  | case2 s =>
    obtain ⟨-,-,-,slash⟩ := isNameIff.mp (names s List.mem_cons_self)
    intro last
    exact slash (List.mem_of_getLast? last)
  | case3 s t rest ih =>
    have later := ih fun u mem => names u (List.mem_cons_of_mem s mem)
    have full : render (t::rest) ≠ [] := by
      intro none
      obtain ⟨tFull,-,-,-⟩ := isNameIff.mp (names t (by simp))
      cases rest with
      | nil => exact tFull none
      | cons u rest => simp [render] at none
    rw [List.getLast?_append_of_ne_nil _ (List.cons_ne_nil _ _),List.getLast?_cons_of_ne_nil full]
    exact later

end RedfishCtl.PosixPath
