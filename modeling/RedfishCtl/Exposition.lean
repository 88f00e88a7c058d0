import Mathlib.Data.List.Sort
import Mathlib.Data.List.Forall2

/-! The Prometheus text format 0.0.4: a reader of its documents, and what a writer needs to be read
back. A line is empty, a comment, or a sample. The reader takes an empty pair of braces for no
labels. -/
namespace RedfishCtl.Exposition

abbrev Text := List Char

structure Series (φ : Type) where
  name : String
  labels : List (String × String)
  value : φ
  deriving DecidableEq, Repr

inductive Entry (φ : Type) where
  | help (name text : String)
  | kind (name kind : String)
  | sample (series : Series φ)
  deriving DecidableEq, Repr

def Entry.isKindOf {φ : Type} (name : String) : Entry φ → Bool
  | kind other _ => other = name
  | _ => false

def Entry.family {φ : Type} : Entry φ → String
  | help name _ => name
  | kind name _ => name
  | sample series => series.name

def seriesOf {φ : Type} (entries : List (Entry φ)) : List (Series φ) :=
  entries.filterMap fun
    | .sample series => some series
    | _ => none

/-! Words. -/

def isBlank (c : Char) : Bool := c = ' ' || c = '\t'

def skip (text : Text) : Text := text.dropWhile isBlank

def word (text : Text) : Text × Text :=
  ((skip text).takeWhile (!isBlank ·),(skip text).dropWhile (!isBlank ·))

def labelStart (c : Char) : Bool := c.isAlpha || c = '_'
def labelChar (c : Char) : Bool := c.isAlphanum || c = '_'
def metricStart (c : Char) : Bool := labelStart c || c = ':'
def metricChar (c : Char) : Bool := labelChar c || c = ':'

def isName (start rest : Char → Bool) : Text → Bool
  | [] => false
  | c::cs => start c && cs.all rest

/- `[a-zA-Z_:][a-zA-Z0-9_:]*` and `[a-zA-Z_][a-zA-Z0-9_]*`. -/
def isMetricName (name : String) : Bool := isName metricStart metricChar name.toList
def isLabelName (name : String) : Bool := isName labelStart labelChar name.toList

/-! Lines. -/

def expect (c : Char) : Text → Option Text
  | [] => none
  | d::rest => if d = c then some rest else none

def unescape (c : Char) : Option Char :=
  if c = '\\' then some '\\' else if c = '"' then some '"' else if c = 'n' then some '\n' else none

def readQuoted : Bool → Text → Option (Text × Text)
  | _,[] => none
  | false,c::rest =>
      if c = '"' then some ([],rest)
      else if c = '\\' then readQuoted true rest
      else (readQuoted false rest).map fun found => (c::found.1,found.2)
  | true,c::rest => match unescape c with
      | some e => (readQuoted false rest).map fun found => (e::found.1,found.2)
      | none => none

def readLabel (text : Text) : Option ((String × String) × Text) :=
  let name := String.ofList (text.takeWhile labelChar)
  if isLabelName name then do
    let rest ← expect '=' (skip (text.dropWhile labelChar))
    let rest ← expect '"' (skip rest)
    let (value,rest) ← readQuoted false rest
    some ((name,String.ofList value),rest)
  else none

def readLabels : ℕ → Text → Option (List (String × String) × Text)
  | 0,text => (expect '\x7d' (skip text)).map fun rest => ([],rest)
  | fuel + 1,text => match expect '\x7d' (skip text) with
      | some rest => some ([],rest)
      | none => match readLabel (skip text) with
          | none => none
          | some (label,rest) => match expect ',' (skip rest) with
              | some rest => (readLabels fuel rest).map fun found => (label::found.1,found.2)
              | none => (expect '\x7d' (skip rest)).map fun rest => ([label],rest)

def isTimestamp (text : Text) : Bool :=
  let digits := (expect '-' text).getD text
  digits ≠ [] && digits.all Char.isDigit

def readHelp : Bool → Text → Option Text
  | false,[] => some []
  | true,[] => none
  | false,c::rest => if c = '\\' then readHelp true rest else (readHelp false rest).map (c :: ·)
  | true,c::rest =>
      if c = '\\' then (readHelp false rest).map ('\\' :: ·)
      else if c = 'n' then (readHelp false rest).map ('\n' :: ·)
      else none

def kinds : List String := ["counter","gauge","histogram","summary","untyped"]

section
variable {φ : Type} (read : String → Option φ)

def readValue (text : Text) : Option φ :=
  let (token,rest) := word text
  let (stamp,rest) := word rest
  if (stamp = [] ∨ isTimestamp stamp = true) ∧ skip rest = [] then read (String.ofList token) else none

def readSample (text : Text) : Option (Series φ) :=
  let name := String.ofList (text.takeWhile metricChar)
  let rest := skip (text.dropWhile metricChar)
  if isMetricName name then
    match expect '\x7b' rest with
    | some inside => match readLabels inside.length inside with
        | some (labels,rest) => (readValue read rest).map fun value => ⟨name,labels,value⟩
        | none => none
    | none => (readValue read rest).map fun value => ⟨name,[],value⟩
  else none

def readComment (text : Text) : Option (List (Entry φ)) :=
  let (keyword,rest) := word text
  let (token,rest) := word rest
  let name := String.ofList token
  if keyword = "HELP".toList then
    if isMetricName name then
      (readHelp false (skip rest)).map fun found => [.help name (String.ofList found)]
    else none
  else if keyword = "TYPE".toList then
    let (kind,rest) := word rest
    if isMetricName name ∧ kinds.contains (String.ofList kind) ∧ skip rest = [] then
      some [.kind name (String.ofList kind)]
    else none
  else some []

def readLine (line : Text) : Option (List (Entry φ)) :=
  if skip line = [] then some []
  else match expect '#' (skip line) with
    | some comment => readComment comment
    | none => (readSample read (skip line)).map fun series => [.sample series]

def readLines : List Text → Option (List (Entry φ))
  | [] => some []
  | line::rest => do
      let entries ← readLine read line
      let others ← readLines rest
      some (entries ++ others)

def readDocument (text : String) : Option (List (Entry φ)) :=
  let lines := text.toList.splitOn '\n'
  if lines.getLast? = some [] then readLines read lines.dropLast else none

end

/-! What a document has to say of a list of series. -/

section
variable {φ : Type}

structure Grouped (entries : List (Entry φ)) : Prop where
  typed : ∀ {before s after}, entries = before ++ .sample s::after →
    (∃ kind, before.filter (Entry.isKindOf s.name) = [.kind s.name kind]) ∧
      after.filter (Entry.isKindOf s.name) = []
  together : ∀ {before s middle t after},
    entries = before ++ .sample s::(middle ++ .sample t::after) → s.name = t.name →
      ∀ e ∈ middle, e.family = s.name

structure Same (found wanted : Series φ) : Prop where
  name : found.name = wanted.name
  labels : found.labels.Perm wanted.labels
  value : found.value = wanted.value

def RoundTrips (read : String → Option φ) (text : String) (wanted : List (Series φ)) : Prop :=
  ∃ entries, readDocument read text = some entries ∧ List.Forall₂ Same (seriesOf entries) wanted ∧
    Grouped entries

end

variable {text : Text}

/-! Names that the reader returns are legal. -/

theorem readLabelLegal {rest label} (found : readLabel text = some (label,rest)) :
    isLabelName label.1 = true := by
  unfold readLabel at found
  dsimp only at found
  split at found
  · rename_i legal
    simp only [bind,Option.bind_eq_some_iff] at found
    obtain ⟨_,_,_,_,_,_,same⟩ := found
    cases same
    exact legal
  · cases found

variable {labels : List (String × String)}

theorem readLabelsLegal {fuel rest} (found : readLabels fuel text = some (labels,rest)) :
    ∀ l ∈ labels, isLabelName l.1 = true := by
  induction fuel generalizing text labels rest with
  | zero =>
    obtain ⟨_,_,same⟩ := Option.map_eq_some_iff.mp found
    cases same
    simp
  | succ fuel ih =>
    unfold readLabels at found
    split at found
    · cases found
      simp
    split at found
    · cases found
    rename_i label more first
    have legal := readLabelLegal first
    split at found
    · obtain ⟨others,later,same⟩ := Option.map_eq_some_iff.mp found
      cases same
      intro l mem
      rcases List.mem_cons.mp mem with rfl | mem
      · exact legal
      · exact ih later l mem
    · obtain ⟨_,_,same⟩ := Option.map_eq_some_iff.mp found
      cases same
      intro l mem
      rw [List.mem_singleton.mp mem]
      exact legal

def Legal {φ : Type} (s : Series φ) : Prop :=
  isMetricName s.name = true ∧ ∀ l ∈ s.labels, isLabelName l.1 = true

section
variable {φ : Type} {read : String → Option φ}

theorem readSampleLegal {text s} (found : readSample read text = some s) : Legal s := by
  unfold readSample at found
  dsimp only at found
  split at found
  · rename_i legal
    split at found
    · split at found
      · rename_i labels
        obtain ⟨value,_,rfl⟩ := Option.map_eq_some_iff.mp found
        exact ⟨legal,readLabelsLegal labels⟩
      · cases found
    · obtain ⟨value,_,rfl⟩ := Option.map_eq_some_iff.mp found
      exact ⟨legal,fun _ mem => absurd mem List.not_mem_nil⟩
  · cases found

variable {entries : List (Entry φ)}

theorem readCommentSeries {text} (found : readComment text = some entries) : seriesOf entries = [] := by
  unfold readComment at found
  dsimp only at found
  split at found
  · split at found
    · obtain ⟨_,_,rfl⟩ := Option.map_eq_some_iff.mp found
      rfl
    · cases found
  split at found
  · split at found
    · cases found
      rfl
    · cases found
  · cases found
    rfl

theorem readLineLegal {line} (found : readLine read line = some entries) :
    ∀ s ∈ seriesOf entries, Legal s := by
  unfold readLine at found
  split at found
  · cases found
    simp [seriesOf]
  split at found
  · rw [readCommentSeries found]
    simp
  · obtain ⟨s,sample,rfl⟩ := Option.map_eq_some_iff.mp found
    intro t mem
    rw [List.mem_singleton.mp mem]
    exact readSampleLegal sample

theorem seriesAppend (a b : List (Entry φ)) : seriesOf (a ++ b) = seriesOf a ++ seriesOf b :=
  List.filterMap_append

theorem readLinesLegal {lines} (found : readLines read lines = some entries) :
    ∀ s ∈ seriesOf entries, Legal s := by
  induction lines generalizing entries with
  | nil =>
    cases found
    simp [seriesOf]
  | cons line rest ih =>
    simp only [readLines,bind,Option.bind_eq_some_iff] at found
    obtain ⟨first,here,others,later,same⟩ := found
    cases same
    intro s mem
    rw [seriesAppend] at mem
    rcases List.mem_append.mp mem with mem | mem
    · exact readLineLegal here s mem
    · exact ih later s mem

theorem readDocumentLegal {text} (found : readDocument read text = some entries) :
    ∀ s ∈ seriesOf entries, Legal s := by
  unfold readDocument at found
  dsimp only at found
  split at found
  · exact readLinesLegal found
  · cases found

end

/-! Lists in which equal elements stand together. -/

section
variable {α : Type}

def Contiguous : List α → Prop
  | [] => True
  | x::rest => (x ∈ rest → rest.head? = some x) ∧ Contiguous rest

instance Contiguous.decide [DecidableEq α] : (l : List α) → Decidable (Contiguous l)
  | [] => .isTrue trivial
  | _::rest => @instDecidableAnd _ _ inferInstance (Contiguous.decide rest)

theorem contiguousMiddle {x} {middle after : List α}
    (together : Contiguous (x::(middle ++ x::after))) : ∀ y ∈ middle, y = x := by
  induction middle with
  | nil => simp
  | cons z rest ih =>
    have same : z = x := Option.some.inj (together.1 (by simp))
    subst same
    intro y mem
    rcases List.mem_cons.mp mem with rfl | mem
    · rfl
    · exact ih together.2 y mem

theorem contiguousDrop {before rest : List α} (together : Contiguous (before ++ rest)) :
    Contiguous rest := by
  induction before with
  | nil => exact together
  | cons x before ih => exact ih together.2

theorem contiguousReplicate {x} {l : List α} (front : x ∈ l → l.head? = some x)
    (together : Contiguous l) (n : ℕ) : Contiguous (List.replicate n x ++ l) := by
  induction n with
  | zero => exact together
  | succ n ih =>
    refine ⟨?_,ih⟩
    intro again
    cases n with
    | zero => exact front again
    | succ n => rfl

theorem contiguousRuns {runs : List (α × ℕ)} (distinct : (runs.map Prod.fst).Nodup) :
    Contiguous (runs.flatMap fun r => List.replicate r.2 r.1) := by
  induction runs with
  | nil => trivial
  | cons r rest ih =>
    obtain ⟨new,others⟩ := List.nodup_cons.mp distinct
    refine contiguousReplicate ?_ (ih others) r.2
    intro again
    obtain ⟨s,mem,inside⟩ := List.mem_flatMap.mp again
    have same := (List.mem_replicate.mp inside).2
    exact absurd (same ▸ List.mem_map_of_mem mem) new

theorem contiguousIff {l : List α} : Contiguous l ↔ ∀ before x middle after,
    l = before ++ x::(middle ++ x::after) → ∀ y ∈ middle, y = x := by
  constructor
  · rintro together before x middle after rfl
    exact contiguousMiddle (contiguousDrop together)
  intro apart
  induction l with
  | nil => trivial
  | cons x rest ih =>
    constructor
    · intro again
      obtain ⟨middle,after,rfl⟩ := List.append_of_mem again
      have same := apart [] x middle after rfl
      cases middle with
      | nil => rfl
      | cons y middle => rw [same y List.mem_cons_self]; rfl
    · exact ih fun before y middle after split =>
        apart (x::before) y middle after (congrArg (x :: ·) split)

end

/-! Groups. -/

section
variable {φ : Type}

theorem seriesCons (e : Entry φ) (rest : List (Entry φ)) :
    seriesOf (e::rest) = (seriesOf [e]) ++ seriesOf rest := seriesAppend [e] rest

variable {entries : List (Entry φ)} {s : Series φ}

theorem seriesSplit {before after} (split : seriesOf entries = before ++ s::after) : ∃ front back,
      entries = front ++ .sample s::back ∧ seriesOf front = before ∧ seriesOf back = after := by
  obtain ⟨front,middle,rfl,first,rest⟩ := List.filterMap_eq_append_iff.mp split
  obtain ⟨skipped,e,back,rfl,none,here,later⟩ := List.filterMap_eq_cons_iff.mp rest
  have sample : e = .sample s := by
    cases e with
    | sample t =>
      cases here
      rfl
    | _ => cases here
  refine ⟨front ++ skipped,back,?_,?_,later⟩
  · rw [sample,List.append_assoc]
  · rw [seriesAppend,show seriesOf skipped = [] from List.filterMap_eq_nil_iff.mpr none,
      List.append_nil]
    exact first

inductive Typed : List String → List (Entry φ) → Prop
  | nil {typed} : Typed typed []
  | help {typed name text rest} : Typed typed rest → Typed typed (.help name text::rest)
  | kind {typed name kind rest} : name ∉ typed → Typed (name::typed) rest →
      Typed typed (.kind name kind::rest)
  | sample {typed s rest} : s.name ∈ typed → Typed typed rest → Typed typed (.sample s::rest)

theorem typedOnce {typed} (once : Typed typed entries) {name} (known : name ∈ typed) :
    entries.filter (Entry.isKindOf name) = [] := by
  induction once with
  | nil => rfl
  | help _ ih =>
    exact ih known
  | @kind _ other _ _ new _ ih =>
    have differs : other ≠ name := by
      rintro rfl
      exact new known
    rw [List.filter_cons_of_neg (by simp [Entry.isKindOf,differs])]
    exact ih (List.mem_cons_of_mem _ known)
  | sample _ _ ih =>
    exact ih known

theorem typedSplit {typed} (once : Typed typed entries) {before after}
    (split : entries = before ++ .sample s::after) :
    (s.name ∉ typed → ∃ kind, before.filter (Entry.isKindOf s.name) = [.kind s.name kind]) ∧
      after.filter (Entry.isKindOf s.name) = [] := by
  induction once generalizing before with
  | nil => simp at split
  | help _ ih => cases before with
    | nil => cases split
    | cons e before =>
      obtain ⟨rfl,rest⟩ := List.cons.inj split
      rw [List.filter_cons_of_neg (by simp [Entry.isKindOf])]
      exact ih rest
  | @kind typed name kind _ new later ih => cases before with
    | nil => cases split
    | cons e before =>
      obtain ⟨rfl,rest⟩ := List.cons.inj split
      change _ = before ++ _ at rest
      obtain ⟨first,last⟩ := ih rest
      refine ⟨fun fresh => ?_,last⟩
      by_cases same : name = s.name
      · subst same
        have none := typedOnce later List.mem_cons_self
        rw [rest,List.filter_append] at none
        refine ⟨kind,?_⟩
        rw [List.filter_cons_of_pos (by simp [Entry.isKindOf]),(List.append_eq_nil_iff.mp none).1]
      · rw [List.filter_cons_of_neg (by simp [Entry.isKindOf,same])]
        exact first (by simp [fresh,Ne.symm same])
  | sample known later ih => cases before with
    | nil =>
      obtain ⟨same,rfl⟩ := List.cons.inj split
      cases same
      exact ⟨fun fresh => absurd known fresh,typedOnce later known⟩
    | cons e before =>
      obtain ⟨rfl,rest⟩ := List.cons.inj split
      rw [List.filter_cons_of_neg (by simp [Entry.isKindOf])]
      exact ih rest

theorem sameNames {found wanted : List (Series φ)} (same : List.Forall₂ Same found wanted) :
    found.map Series.name = wanted.map Series.name := by
  induction same with
  | nil => rfl
  | cons head _ ih => rw [List.map_cons,List.map_cons,head.name,ih]

theorem sameLegal {found wanted : List (Series φ)} (same : List.Forall₂ Same found wanted)
    (legal : ∀ s ∈ found, Legal s) : ∀ s ∈ wanted, Legal s := by
  induction same with
  | nil => exact legal
  | @cons a b _ _ head _ ih =>
    have first := legal a List.mem_cons_self
    intro s mem
    rcases List.mem_cons.mp mem with rfl | mem
    · exact ⟨head.name ▸ first.1,fun l inside => first.2 l (head.labels.mem_iff.mpr inside)⟩
    · exact ih (fun t inside => legal t (List.mem_cons_of_mem a inside)) s mem

theorem groupedContiguous (grouped : Grouped entries) :
    Contiguous ((seriesOf entries).map Series.name) := by
  rw [contiguousIff]
  intro before x middle after split y mem
  obtain ⟨first,rest,series,_,found⟩ := List.map_eq_append_iff.mp split
  obtain ⟨s,rest,rfl,same,found⟩ := List.map_eq_cons_iff.mp found
  obtain ⟨inner,last,rfl,names,found⟩ := List.map_eq_append_iff.mp found
  obtain ⟨t,last,rfl,same',_⟩ := List.map_eq_cons_iff.mp found
  obtain ⟨front,back,rfl,_,later⟩ := seriesSplit series
  obtain ⟨inside,back,rfl,inner',_⟩ := seriesSplit later
  rw [← names] at mem
  obtain ⟨u,chosen,rfl⟩ := List.mem_map.mp mem
  rw [← inner'] at chosen
  obtain ⟨e,line,sample⟩ := List.mem_filterMap.mp chosen
  have family : e.family = u.name := by
    cases e with
    | sample t =>
      cases sample
      rfl
    | _ => cases sample
  rw [← family,← same]
  exact grouped.together rfl (same.trans same'.symm) e line

theorem togetherBehind {headers body : List (Entry φ)} (bare : seriesOf headers = [])
    (contiguous : Contiguous (body.map Entry.family)) {before middle after t}
    (split : headers ++ body = before ++ .sample s::(middle ++ .sample t::after))
    (same : s.name = t.name) : ∀ e ∈ middle, e.family = s.name := by
  have within : ∀ front, body = front ++ .sample s::(middle ++ .sample t::after) →
      ∀ e ∈ middle, e.family = s.name := by
    rintro front rfl e mem
    rw [List.map_append,List.map_cons,List.map_append,List.map_cons] at contiguous
    refine contiguousIff.mp contiguous (front.map Entry.family) s.name (middle.map Entry.family)
      (after.map Entry.family) ?_ e.family (List.mem_map_of_mem mem)
    rw [show (Entry.sample t).family = s.name from same.symm]
    rfl
  rcases List.append_eq_append_iff.mp split with ⟨front,-,rest⟩ | ⟨front,cut,rest⟩
  · exact within front rest
  cases front with
  | nil => exact within [] rest.symm
  | cons e front =>
    -- The series would stand among the headers.
    cases (List.cons.inj rest).1
    rw [cut,seriesAppend] at bare
    simp [seriesOf] at bare

end

/-! Lines that a writer makes. -/

/- How a writer escapes label values, one character at a time, and which characters the reader
takes back. -/
structure Escaping where
  escape : String → String
  char : Char → Text
  good : Char → Bool
  chars : ∀ value, (escape value).toList = value.toList.flatMap char
  reads : ∀ {c}, good c = true → ∀ rest,
    readQuoted false (char c ++ rest) = (readQuoted false rest).map fun found => (c::found.1,found.2)
  fails : ∀ {c}, good c = false → ∀ rest, readQuoted false (char c ++ rest) = none
  oneLine : ∀ c, '\n' ∉ char c

def labelText (escape : String → String) (label : String × String) : String :=
  label.1 ++ "=\"" ++ escape label.2 ++ "\""

def seriesLine (escape : String → String) (name : String) (labels : List (String × String))
    (value : String) : String :=
  name ++ "\x7b" ++ String.intercalate "," (labels.map (labelText escape)) ++ "\x7d " ++ value

def helpLine (name text : String) : String := "# HELP " ++ name ++ " " ++ text
def kindLine (name kind : String) : String := "# TYPE " ++ name ++ " " ++ kind

def document (lines : List String) : String := String.intercalate "\n" lines ++ "\n"

variable {c : Char}

theorem skipSame {rest} (full : isBlank c = false) : skip (c::rest) = c::rest := by
  simp [skip,full]

theorem expectSame (c : Char) (rest : Text) : expect c (c::rest) = some rest := by simp [expect]

theorem expectOther {d} (other : d ≠ c) (rest : Text) : expect c (d::rest) = none := by
  simp [expect,other]

theorem apart {p : Char → Bool} {d} (inside : p c = true) (outside : p d = false) : c ≠ d := by
  rintro rfl
  rw [inside] at outside
  cases outside

theorem notBlank {p : Char → Bool} (inside : p c = true) (space : p ' ' = false)
    (tab : p '\t' = false) : isBlank c = false := by
  simp [isBlank,apart inside space,apart inside tab]

theorem nameHead {start rest} (legal : isName start rest text = true) :
    ∃ c more, text = c::more ∧ start c = true := by
  cases text with
  | nil => cases legal
  | cons c more => exact ⟨c,more,rfl,(Bool.and_eq_true_iff.mp legal).1⟩

theorem runCut {inside run tail} {stop : Char} (all : ∀ c ∈ run, inside c = true)
    (out : inside stop = false) :
    (run ++ stop::tail).takeWhile inside = run ∧ (run ++ stop::tail).dropWhile inside = stop::tail := by
  constructor
  · rw [List.takeWhile_append_of_pos all]
    simp [out]
  · rw [List.dropWhile_append_of_pos all]
    simp [out]

theorem runAll {inside} {run : Text} (all : ∀ c ∈ run, inside c = true) :
    run.takeWhile inside = run ∧ run.dropWhile inside = [] := by
  have taken : (run ++ []).takeWhile inside = run ++ [].takeWhile inside :=
    List.takeWhile_append_of_pos all
  have dropped : (run ++ []).dropWhile inside = [].dropWhile inside := List.dropWhile_append_of_pos all
  exact ⟨by simpa using taken,by simpa using dropped⟩

theorem nameChars {start rest} (within : ∀ c, start c = true → rest c = true)
    (legal : isName start rest text = true) : ∀ c ∈ text, rest c = true := by
  cases text with
  | nil => simp
  | cons first more =>
    obtain ⟨front,others⟩ := Bool.and_eq_true_iff.mp legal
    rw [List.forall_mem_cons]
    exact ⟨within first front,List.all_eq_true.mp others⟩

theorem labelStartChar (c : Char) (start : labelStart c = true) : labelChar c = true := by
  rw [labelStart,Bool.or_eq_true_iff] at start
  rw [labelChar,Char.isAlphanum]
  rcases start with alpha | under
  · simp [alpha]
  · simp [under]

variable {name : String}

theorem labelNameChars (legal : isLabelName name = true) :
    ∀ c ∈ name.toList, labelChar c = true := nameChars labelStartChar legal

theorem metricNameChars (legal : isMetricName name = true) :
    ∀ c ∈ name.toList, metricChar c = true := by
  refine nameChars (fun c start => ?_) legal
  rw [metricStart,Bool.or_eq_true_iff] at start
  rw [metricChar,Bool.or_eq_true_iff]
  exact start.imp_left (labelStartChar c)

section
variable (E : Escaping)

def Escaping.takes (value : String) : Bool := value.toList.all E.good

theorem quotedRead (value rest : Text) : readQuoted false (value.flatMap E.char ++ '"' :: rest) =
    if value.all E.good then some (value,rest) else none := by
  induction value with
  | nil => simp [readQuoted]
  | cons c value ih =>
    rw [List.flatMap_cons,List.append_assoc]
    cases good : E.good c with
    | false => simp [E.fails good,good]
    | true =>
      rw [E.reads good,ih]
      cases all : value.all E.good with
      | false => simp [all]
      | true => simp [all,good]

theorem labelRead {label} (legal : isLabelName label.1 = true) (rest : Text) :
    readLabel ((labelText E.escape label).toList ++ rest) =
      if E.takes label.2 then some (label,rest) else none := by
  have text : (labelText E.escape label).toList ++ rest =
      label.1.toList ++ '=' :: '"' :: (label.2.toList.flatMap E.char ++ '"' :: rest) := by
    simp [labelText,E.chars]
  have stop : labelChar '=' = false := by decide
  rw [text]
  unfold readLabel
  rw [(runCut (labelNameChars legal) stop).1,(runCut (labelNameChars legal) stop).2,
    String.ofList_toList,if_pos legal,skipSame (by decide),expectSame]
  dsimp only [bind,Option.bind]
  rw [skipSame (by decide),expectSame]
  dsimp only
  rw [quotedRead]
  cases taken : E.takes label.2 with
  | true =>
    have all : label.2.toList.all E.good = true := taken
    rw [if_pos all]
    simp
  | false =>
    have some : ¬ label.2.toList.all E.good = true := by
      rw [show label.2.toList.all E.good = false from taken]
      simp
    rw [if_neg some,if_neg (by simp)]

def labelsText (labels : List (String × String)) : Text :=
  List.intercalate [','] (labels.map fun l => (labelText E.escape l).toList)

theorem labelsTextCons (l m : String × String) (labels : List (String × String)) :
    labelsText E (l::m::labels) = (labelText E.escape l).toList ++ ',' :: labelsText E (m::labels) := by
  simp [labelsText]

theorem labelsTextLength (labels : List (String × String)) :
    labels.length ≤ (labelsText E labels).length := by
  induction labels with
  | nil => simp
  | cons l rest ih => cases rest with
    | nil =>
      have long : (labelsText E [l]).length = l.1.toList.length + ((E.escape l.2).toList.length + 3) := by
        simp [labelsText,labelText]
      rw [List.length_singleton]
      omega
    | cons m rest =>
      rw [labelsTextCons,List.length_append,List.length_cons]
      have comma : (',' :: labelsText E (m::rest)).length = (labelsText E (m::rest)).length + 1 :=
        List.length_cons
      omega

theorem labelTextHead {l} (legal : isLabelName l.1 = true) (rest : Text) :
    skip ((labelText E.escape l).toList ++ rest) = (labelText E.escape l).toList ++ rest ∧
      expect '\x7d' ((labelText E.escape l).toList ++ rest) = none := by
  obtain ⟨c,more,chars,start⟩ := nameHead legal
  have text : (labelText E.escape l).toList ++ rest =
      c::(more ++ '=' :: '"' :: ((E.escape l.2).toList ++ '"' :: rest)) := by
    simp [labelText,chars]
  rw [text]
  constructor
  · exact skipSame (notBlank start (by decide) (by decide))
  · exact expectOther (apart start (by decide)) _

theorem labelsRead {labels} (legal : ∀ l ∈ labels, isLabelName l.1 = true) {fuel}
    (enough : labels.length ≤ fuel) (rest : Text) :
    readLabels fuel (labelsText E labels ++ '\x7d' :: rest) =
      if labels.all (fun l => E.takes l.2) then some (labels,rest) else none := by
  have closed : skip ('\x7d' :: rest) = '\x7d' :: rest := skipSame (by decide)
  have close : expect '\x7d' ('\x7d' :: rest) = some rest := expectSame _ rest
  induction labels generalizing fuel with
  | nil =>
    have text : labelsText E [] ++ '\x7d' :: rest = '\x7d' :: rest := rfl
    cases fuel with
    | zero =>
      rfl
    | succ fuel =>
      rfl
  | cons l labels ih =>
    obtain ⟨fuel,rfl⟩ := Nat.exists_eq_succ_of_ne_zero (n := fuel) (by
      rw [List.length_cons] at enough
      omega)
    have here := legal l List.mem_cons_self
    have later : ∀ m ∈ labels, isLabelName m.1 = true :=
      fun m mem => legal m (List.mem_cons_of_mem l mem)
    cases labels with
    | nil =>
      have text : labelsText E [l] ++ '\x7d' :: rest =
          (labelText E.escape l).toList ++ '\x7d' :: rest := by simp [labelsText]
      rw [text]
      unfold readLabels
      rw [(labelTextHead E here _).1,(labelTextHead E here _).2,labelRead E here]
      cases taken : E.takes l.2 with
      | false => simp [taken]
      | true =>
        simp only [if_true]
        rw [closed,close,expectOther (by decide)]
        simp [taken]
    | cons m labels =>
      rw [labelsTextCons,List.append_assoc]
      unfold readLabels
      rw [(labelTextHead E here _).1,(labelTextHead E here _).2,labelRead E here]
      cases taken : E.takes l.2 with
      | false => simp [taken]
      | true =>
        have comma : expect ',' (skip (',' :: labelsText E (m::labels) ++ '\x7d' :: rest)) =
            some (labelsText E (m::labels) ++ '\x7d' :: rest) := by
          exact expectSame _ _
        simp only [if_true]
        rw [comma]
        dsimp only
        rw [ih later (by simpa using enough)]
        cases all : (m::labels).all (fun l => E.takes l.2) with
        | false => simp [all]
        | true => simp [all,taken]

def Plain (text : String) : Prop := ∀ c ∈ text.toList, isBlank c = false ∧ c ≠ '\n'

variable {φ : Type}

theorem valueRead (read : String → Option φ) {value} (plain : Plain value) :
    readValue read (' ' :: value.toList) = read value := by
  have start : skip (' ' :: value.toList) = value.toList := by
    cases chars : value.toList with
    | nil => rfl
    | cons c more => exact skipSame (plain c (by simp [chars])).1
  have all : ∀ c ∈ value.toList, (!isBlank c) = true := by
    intro c mem
    simp [(plain c mem).1]
  have token : word (' ' :: value.toList) = (value.toList,[]) := by
    unfold word
    rw [start,(runAll all).1,(runAll all).2]
  unfold readValue
  rw [token]
  simp [word,skip]

theorem seriesText (name value : String) (labels : List (String × String)) :
    (seriesLine E.escape name labels value).toList =
      name.toList ++ '\x7b' :: (labelsText E labels ++ '\x7d' :: ' ' :: value.toList) := by
  simp [seriesLine,labelsText,Function.comp_def]

variable {name : String}

theorem seriesRead (read : String → Option φ) {value labels} (legal : isMetricName name = true)
    (names : ∀ l ∈ labels, isLabelName l.1 = true) (plain : Plain value) :
    readLine read (seriesLine E.escape name labels value).toList =
      if labels.all (fun l => E.takes l.2) then
        (read value).map fun v => [.sample ⟨name,labels,v⟩] else none := by
  have text := seriesText E name value labels
  obtain ⟨c,more,chars,start⟩ := nameHead legal
  have head : skip (seriesLine E.escape name labels value).toList =
      (seriesLine E.escape name labels value).toList ∧
      expect '#' (seriesLine E.escape name labels value).toList = none := by
    rw [text,chars]
    exact ⟨skipSame (notBlank start (by decide) (by decide)),
      expectOther (apart start (by decide)) _⟩
  have stop : metricChar '\x7b' = false := by decide
  have enough : labels.length ≤ (labelsText E labels ++ '\x7d' :: ' ' :: value.toList).length := by
    have long := labelsTextLength E labels
    rw [List.length_append]
    omega
  have sample : readSample read (seriesLine E.escape name labels value).toList =
      if labels.all (fun l => E.takes l.2) then
        (read value).map fun v => ⟨name,labels,v⟩ else none := by
    unfold readSample
    rw [text,(runCut (metricNameChars legal) stop).1,(runCut (metricNameChars legal) stop).2,
      String.ofList_toList,skipSame (by decide)]
    rw [if_pos legal,expectSame]
    dsimp only
    rw [labelsRead E names enough]
    cases taken : labels.all (fun l => E.takes l.2) with
    | false => simp
    | true => simp [valueRead read plain]
  unfold readLine
  rw [head.1,head.2,if_neg (by simp [text]),sample]
  dsimp only
  split
  · rw [Option.map_map]
    rfl
  · rfl

variable {text : Text}

theorem skipBlank (full : text ≠ []) (plain : ∀ c ∈ text, isBlank c = false) (rest : Text) :
    skip (' ' :: (text ++ rest)) = text ++ rest := by
  obtain ⟨c,more,rfl⟩ := List.exists_cons_of_ne_nil full
  exact skipSame (plain c List.mem_cons_self)

theorem wordRead (full : text ≠ []) (plain : ∀ c ∈ text, isBlank c = false) (rest : Text) :
    word (' ' :: (text ++ ' ' :: rest)) = (text,' ' :: rest) := by
  have all : ∀ c ∈ text, (!isBlank c) = true := by
    intro c mem
    simp [plain c mem]
  have stop : (!isBlank ' ') = false := by decide
  unfold word
  rw [skipBlank full plain,(runCut all stop).1,(runCut all stop).2]

theorem wordLast (full : text ≠ []) (plain : ∀ c ∈ text, isBlank c = false) :
    word (' ' :: text) = (text,[]) := by
  have all : ∀ c ∈ text, (!isBlank c) = true := by
    intro c mem
    simp [plain c mem]
  have whole := skipBlank full plain []
  rw [List.append_nil] at whole
  unfold word
  rw [whole,(runAll all).1,(runAll all).2]

theorem notBlanks (plain : text.all (!isBlank ·) = true) : ∀ c ∈ text, isBlank c = false :=
  fun c mem => Bool.not_eq_true' (isBlank c) ▸ List.all_eq_true.mp plain c mem

theorem metricNamePlain (legal : isMetricName name = true) : Plain name := by
  intro c mem
  have inside := metricNameChars legal c mem
  exact ⟨notBlank inside (by decide) (by decide),apart inside (by decide)⟩

theorem metricNameFull (legal : isMetricName name = true) : name.toList ≠ [] := by
  obtain ⟨c,more,chars,_⟩ := nameHead legal
  simp [chars]

theorem commentRead (read : String → Option φ) (comment : Text) :
    readLine read ('#' :: comment) = readComment comment := by
  unfold readLine
  rw [skipSame (by decide),if_neg (by simp),expectSame]

theorem commentWords {keyword} (full : keyword ≠ []) (plain : keyword.all (!isBlank ·) = true)
    (legal : isMetricName name = true) (rest : Text) :
    word (' ' :: (keyword ++ ' ' :: (name.toList ++ ' ' :: rest))) =
        (keyword,' ' :: (name.toList ++ ' ' :: rest)) ∧
      word (' ' :: (name.toList ++ ' ' :: rest)) = (name.toList,' ' :: rest) :=
  ⟨wordRead full (notBlanks plain) _,
    wordRead (metricNameFull legal) (fun c mem => (metricNamePlain legal c mem).1) _⟩

theorem helpRead (read : String → Option φ) {text found} (legal : isMetricName name = true)
    (doc : readHelp false (skip text.toList) = some found) :
    readLine read (helpLine name text).toList = some [.help name (String.ofList found)] := by
  have chars : (helpLine name text).toList =
      '#' :: ' ' :: ("HELP".toList ++ ' ' :: (name.toList ++ ' ' :: text.toList)) := by
    simp [helpLine]
  obtain ⟨keyword,token⟩ :=
    commentWords (by decide : "HELP".toList ≠ []) (by decide) legal text.toList
  have blank : skip (' ' :: text.toList) = skip text.toList := rfl
  rw [chars,commentRead]
  unfold readComment
  rw [keyword]
  dsimp only
  rw [token]
  rw [String.ofList_toList,if_pos legal,blank,doc]
  rfl

theorem kindRead (read : String → Option φ) {kind} (legal : isMetricName name = true)
    (known : kinds.contains kind = true) :
    readLine read (kindLine name kind).toList = some [.kind name kind] := by
  have chars : (kindLine name kind).toList =
      '#' :: ' ' :: ("TYPE".toList ++ ' ' :: (name.toList ++ ' ' :: kind.toList)) := by
    simp [kindLine]
  have plain : ∀ k ∈ kinds, k.toList ≠ [] ∧ k.toList.all (!isBlank ·) = true := by decide
  obtain ⟨full,whole⟩ := plain kind (by simpa using known)
  obtain ⟨keyword,token⟩ :=
    commentWords (by decide : "TYPE".toList ≠ []) (by decide) legal kind.toList
  have last := wordLast full (notBlanks whole)
  rw [chars,commentRead]
  unfold readComment
  rw [keyword]
  dsimp only
  rw [token]
  rw [if_neg (by decide),if_pos rfl,last]
  rw [String.ofList_toList,String.ofList_toList,if_pos ⟨legal,known,rfl⟩]

end

/-! Documents. -/

theorem readLinesAppend {φ} (read : String → Option φ) (a b : List Text) :
    readLines read (a ++ b) =
      (readLines read a).bind fun first => (readLines read b).map (first ++ ·) := by
  induction a with
  | nil =>
    simp only [List.nil_append,readLines,Option.bind]
    cases readLines read b <;> rfl
  | cons line a ih =>
    simp only [List.cons_append,readLines,ih]
    cases readLine read line with
    | none => rfl
    | some entries => cases readLines read a with
      | none => rfl
      | some first => cases readLines read b with
        | none => rfl
        | some rest => simp

theorem labelNamePlain (legal : isLabelName name = true) : '\n' ∉ name.toList := by
  intro mem
  exact apart (labelNameChars legal _ mem) (show labelChar '\n' = false by decide) rfl

theorem labelTextOne (E : Escaping) {l} (legal : isLabelName l.1 = true) :
    '\n' ∉ (labelText E.escape l).toList := by
  intro inside
  simp only [labelText,String.toList_append,E.chars,List.mem_append,List.mem_flatMap] at inside
  rcases inside with ((inside | inside) | ⟨c,_,inside⟩) | inside
  · exact labelNamePlain legal inside
  · revert inside
    decide
  · exact E.oneLine c inside
  · revert inside
    decide

theorem labelsTextOne (E : Escaping)
    (legal : ∀ l ∈ labels, isLabelName l.1 = true) : '\n' ∉ labelsText E labels := by
  induction labels with
  | nil => exact List.not_mem_nil
  | cons l rest ih =>
    have here := labelTextOne E (legal l List.mem_cons_self)
    have later := ih fun m mem => legal m (List.mem_cons_of_mem l mem)
    cases rest with
    | nil => simpa [labelsText] using here
    | cons m rest =>
      rw [labelsTextCons]
      simp [here,later]

theorem seriesLineOne (E : Escaping) {value} (legal : isMetricName name = true)
    (names : ∀ l ∈ labels, isLabelName l.1 = true) (plain : Plain value) :
    '\n' ∉ (seriesLine E.escape name labels value).toList := by
  have front : '\n' ∉ name.toList := fun mem => (metricNamePlain legal _ mem).2 rfl
  have back : '\n' ∉ value.toList := fun mem => (plain _ mem).2 rfl
  rw [seriesText]
  simp [front,back,labelsTextOne E names]

theorem helpLineOne {text} (legal : isMetricName name = true) (plain : '\n' ∉ text.toList) :
    '\n' ∉ (helpLine name text).toList := by
  have front : '\n' ∉ name.toList := fun mem => (metricNamePlain legal _ mem).2 rfl
  simp [helpLine,front,plain]

theorem kindLineOne {kind} (legal : isMetricName name = true) (plain : '\n' ∉ kind.toList) :
    '\n' ∉ (kindLine name kind).toList := by
  have front : '\n' ∉ name.toList := fun mem => (metricNamePlain legal _ mem).2 rfl
  simp [kindLine,front,plain]

theorem intercalateLast (lines : List Text) (full : lines ≠ []) :
    List.intercalate ['\n'] lines ++ ['\n'] = List.intercalate ['\n'] (lines ++ [[]]) := by
  induction lines with
  | nil => exact absurd rfl full
  | cons line rest ih => cases rest with
    | nil => simp
    | cons next rest =>
      have step : ∀ more, List.intercalate ['\n'] (line::next::more) =
          line ++ '\n' :: List.intercalate ['\n'] (next::more) := by
        simp
      have last := ih (by simp)
      rw [step,List.append_assoc,List.cons_append,last]
      exact (step (rest ++ [[]])).symm

theorem documentLines {lines} (oneLine : ∀ line ∈ lines, '\n' ∉ line.toList) (full : lines ≠ []) :
    (document lines).toList.splitOn '\n' = lines.map String.toList ++ [[]] := by
  have text : (document lines).toList =
      List.intercalate ['\n'] (lines.map String.toList ++ [[]]) := by
    rw [← intercalateLast _ (by simpa using full)]
    simp [document]
  rw [text]
  apply List.splitOn_intercalate
  · intro l mem
    rcases List.mem_append.mp mem with mem | mem
    · obtain ⟨line,inside,rfl⟩ := List.mem_map.mp mem
      exact oneLine line inside
    · rw [List.mem_singleton.mp mem]
      exact List.not_mem_nil
  · simp

theorem documentRead {φ} (read : String → Option φ) {lines}
    (oneLine : ∀ line ∈ lines, '\n' ∉ line.toList) :
    readDocument read (document lines) = readLines read (lines.map String.toList) := by
  unfold readDocument
  by_cases empty : lines = []
  · subst empty
    rfl
  · rw [documentLines oneLine empty]
    simp

/-! Numbers. -/

/- Numbers with their texts: what a text reads as, the shortest text of a number, the number next to
an integer, and the integer a number is. Numbers that compare equal are one. -/
structure Numerals (φ : Type) where
  read : String → Option φ
  repr : φ → String
  ofInt : Int → φ
  whole : φ → Option Int
  readRepr : ∀ x, read (repr x) = some x
  readInt : ∀ n : Int, read (toString n) = some (ofInt n)
  wholeIs : ∀ {x n}, whole x = some n → ofInt n = x
  reprPlain : ∀ x, Plain (repr x)

theorem digitPlain (digit : c.isDigit = true) : isBlank c = false ∧ c ≠ '\n' :=
  ⟨notBlank digit (by decide) (by decide),apart digit (by decide)⟩

theorem intPlain (n : Int) : Plain (toString n) := by
  intro c mem
  rw [Int.toString_eq_repr,Int.repr_eq_if] at mem
  have natural {k : Nat} (mem : c ∈ k.repr.toList) : isBlank c = false ∧ c ≠ '\n' := by
    rw [Nat.repr_eq_ofList_toDigits,String.toList_ofList] at mem
    exact digitPlain (Nat.isDigit_of_mem_toDigits (by decide) (by decide) mem)
  split at mem
  · exact natural mem
  rw [String.toList_append] at mem
  rcases List.mem_append.mp mem with sign | digits
  · cases List.mem_singleton.mp sign
    decide
  · exact natural digits

instance (text : String) : Decidable (Plain text) :=
  inferInstanceAs (Decidable (∀ c ∈ text.toList, isBlank c = false ∧ c ≠ '\n'))

def literals : Numerals {text : String // Plain text} where
  read := fun text => if plain : Plain text then some ⟨text,plain⟩ else none
  repr := Subtype.val
  ofInt := fun n => ⟨toString n,intPlain n⟩
  whole := fun _ => none
  readRepr := fun x => dif_pos x.property
  readInt := fun n => dif_pos (intPlain n)
  wholeIs := fun same => by cases same
  reprPlain := Subtype.property

end RedfishCtl.Exposition
