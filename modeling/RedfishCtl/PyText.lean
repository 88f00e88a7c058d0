import RedfishCtl.Json

/-! str and repr of a JSON value, int of a value, str.strip, and json.dumps with sorted keys and the
compact separators. Code points outside ASCII are taken as printable by repr. -/
namespace RedfishCtl

inductive PyError where
  | valueError (message : String)
  | typeError (message : String)
  | indexError (message : String)
  | overflowError (message : String)
  | recursionError
  | redfishApiError (message : String)
  | other (className message : String)
  deriving DecidableEq, Repr, Inhabited

def PyError.text : PyError → String
  | .valueError m => m
  | .typeError m => m
  | .indexError m => m
  | .overflowError m => m
  | .recursionError => "maximum recursion depth exceeded"
  | .redfishApiError m => m
  | .other _ m => m

namespace PyText

def whitespace : List Nat :=
  [9,10,11,12,13,28,29,30,31,32,133,160,5760,8192,8193,8194,8195,8196,8197,8198,8199,8200,
   8201,8202,8232,8233,8239,8287,12288]

def isSpace (c : Char) : Bool := whitespace.contains c.toNat

def dropEnd (p : Char → Bool) (cs : List Char) : List Char := (cs.reverse.dropWhile p).reverse

variable {p : Char → Bool} {cs : List Char}

theorem dropEndPrefix : dropEnd p cs <+: cs := by
  rw [← List.reverse_suffix,dropEnd,List.reverse_reverse]
  exact List.dropWhile_suffix _

theorem dropEndLast {c} (last : (dropEnd p cs).getLast? = some c) : p c = false := by
  rw [dropEnd,List.getLast?_reverse] at last
  cases left : cs.reverse.dropWhile p with
  | nil => simp [left] at last
  | cons d rest =>
    have stopped := List.head?_dropWhile_not p cs.reverse
    rw [last] at stopped
    simpa using stopped

theorem dropEndSame (last : ∀ c, cs.getLast? = some c → p c = false) : dropEnd p cs = cs := by
  unfold dropEnd
  cases reversed : cs.reverse with
  | nil => simp [List.reverse_eq_nil_iff.mp reversed]
  | cons c rest =>
    have final : p c = false := last c (by rw [← List.head?_reverse,reversed,List.head?_cons])
    rw [List.dropWhile_cons_of_neg (by simp [final]),← reversed,List.reverse_reverse]

def stripChars (p : Char → Bool) (s : String) : String :=
  String.ofList (dropEnd p (s.toList.dropWhile p))

def strip (s : String) : String := stripChars isSpace s

def isDigit (c : Char) : Bool := 48 ≤ c.toNat && c.toNat ≤ 57

def digitsValue (cs : List Char) : Nat := cs.foldl (fun n c => 10*n + (c.toNat - 48)) 0

def digitRun : Bool → List Char → Option (List Char)
  | started, [] => if started then some [] else none
  | started, c::rest =>
      if isDigit c then (digitRun true rest).map (c :: ·)
      else if c = '_' ∧ started then digitRun false rest
      else none

def intOfString (s : String) : Option Int :=
  match (strip s).toList with
  | '-'::rest => (digitRun false rest).map fun ds => -(digitsValue ds : Int)
  | '+'::rest => (digitRun false rest).map fun ds => (digitsValue ds : Int)
  | rest => (digitRun false rest).map fun ds => (digitsValue ds : Int)

def truncate (q : ℚ) : Int := if q < 0 then -(-q).floor else q.floor

def int : Json → Except PyError Int
  | .bool b => .ok (if b then 1 else 0)
  | .int n => .ok n
  | .float (.finite x) => .ok (truncate x.value)
  | .float (.infinity _) => .error (.overflowError "cannot convert float infinity to integer")
  | .float .nan => .error (.valueError "cannot convert float NaN to integer")
  | .str s => match intOfString s with
      | some n => .ok n
      | none => .error (.valueError "invalid literal for int() with base 10")
  | .null => .error (.typeError "int() argument must be a string or a number")
  | .arr _ => .error (.typeError "int() argument must be a string or a number")
  | .obj _ => .error (.typeError "int() argument must be a string or a number")

/- The shortest digits that read back: for each length the two neighbours are tried, the nearer
first. -/
def digitsOfLength (x : Binary64.Finite) (scale : Int) (length : Nat) : Option (Nat × Int) :=
  let unit : ℚ := (10 : ℚ)^(scale - length + 1)
  let low := (x.magnitude / unit).floor
  let back := fun n : Int => Binary64.roundMagnitude x.negative (n * unit) = .finite x
  let first := if x.magnitude - low * unit ≤ (low + 1) * unit - x.magnitude then low else low + 1
  let second := if first = low then low + 1 else low
  if back first then some (first.toNat,scale - length + 1)
  else if back second then some (second.toNat,scale - length + 1)
  else none

def decimalScale (q : ℚ) : Int :=
  let guess := Binary64.floorLog2 q * 30103 / 100000
  if q < (10 : ℚ)^guess then guess - 1 else if (10 : ℚ)^(guess + 1) ≤ q then guess + 1 else guess

def shortest (x : Binary64.Finite) : Nat × Int :=
  let scale := decimalScale x.magnitude
  ((List.range 17).findSome? fun n => digitsOfLength x scale (n + 1)).getD (0,0)

def padLeft (width : Nat) (s : String) : String :=
  String.ofList (List.replicate (width - s.length) '0') ++ s

def floatRepr (x : Binary64.Finite) : String :=
  let sign := if x.negative then "-" else ""
  if x.significand = 0 then sign ++ "0.0" else
    let (n,unit) := shortest x
    let digits := (dropEnd (· = '0') (toString n).toList)
    let point : Int := (toString n).length + unit
    sign ++
    if -4 < point ∧ point ≤ 16 then
      if point ≤ 0 then "0." ++ String.ofList (List.replicate (-point).toNat '0' ++ digits)
      else if (digits.length : Int) ≤ point then
        String.ofList (digits ++ List.replicate (point - digits.length).toNat '0') ++ ".0"
      else String.ofList (digits.take point.toNat) ++ "." ++ String.ofList (digits.drop point.toNat)
    else
      let exponent := point - 1
      let mantissa := String.ofList (digits.take 1) ++
        (if digits.length ≤ 1 then "" else "." ++ String.ofList (digits.drop 1))
      mantissa ++ "e" ++ (if exponent < 0 then "-" else "+") ++ padLeft 2 (toString exponent.natAbs)

def hexDigit (n : Nat) : Char := if n < 10 then Char.ofNat (48 + n) else Char.ofNat (87 + n)

def hex (width n : Nat) : String :=
  String.ofList ((List.range width).reverse.map fun i => hexDigit (n / 16^i % 16))

def quotation : Char := Char.ofNat 34
def apostrophe : Char := Char.ofNat 39

def reprChar (quote c : Char) : String :=
  if c = quote ∨ c = '\\' then "\\" ++ String.singleton c
  else if c = '\n' then "\\n" else if c = '\r' then "\\r" else if c = '\t' then "\\t"
  else if c.toNat < 32 ∨ c.toNat = 127 then "\\x" ++ hex 2 c.toNat
  else String.singleton c

def reprString (s : String) : String :=
  let quote := if s.toList.contains apostrophe && !s.toList.contains quotation then quotation
    else apostrophe
  String.singleton quote ++ String.join (s.toList.map (reprChar quote)) ++ String.singleton quote

mutual
def repr : Json → String
  | .null => "None"
  | .bool b => if b then "True" else "False"
  | .int n => toString n
  | .float (.finite x) => floatRepr x
  | .float (.infinity s) => if s then "-inf" else "inf"
  | .float .nan => "nan"
  | .str s => reprString s
  | .arr items => "[" ++ String.intercalate ", " (reprItems items) ++ "]"
  | .obj m => "\x7b" ++ String.intercalate ", " (reprMembers m) ++ "\x7d"
termination_by structural j => j
def reprItems : List Json → List String
  | [] => []
  | j::rest => repr j :: reprItems rest
termination_by structural l => l
def reprMembers : List (String × Json) → List String
  | [] => []
  | (k,v)::rest => (reprString k ++ ": " ++ repr v) :: reprMembers rest
termination_by structural l => l
end

def str : Json → String
  | .str s => s
  | j => repr j

def escapeUnit (n : Nat) : String := "\\u" ++ hex 4 n

def escapeChar (c : Char) : String :=
  if c = quotation then "\\\"" else if c = '\\' then "\\\\"
  else if c = '\n' then "\\n" else if c = '\r' then "\\r" else if c = '\t' then "\\t"
  else if c.toNat = 12 then "\\f" else if c.toNat = 8 then "\\b"
  else if 32 ≤ c.toNat ∧ c.toNat ≤ 126 then String.singleton c
  else if c.toNat < 65536 then escapeUnit c.toNat
  else escapeUnit (55296 + (c.toNat - 65536) / 1024) ++ escapeUnit (56320 + (c.toNat - 65536) % 1024)

def dumpsString (s : String) : String := "\"" ++ String.join (s.toList.map escapeChar) ++ "\""

mutual
def dumps : Json → String
  | .null => "null"
  | .bool b => if b then "true" else "false"
  | .int n => toString n
  | .float (.finite x) => floatRepr x
  | .float (.infinity s) => if s then "-Infinity" else "Infinity"
  | .float .nan => "NaN"
  | .str s => dumpsString s
  | .arr items => "[" ++ String.intercalate "," (dumpsItems items) ++ "]"
  | .obj m => "\x7b" ++ String.intercalate ","
      (((dumpsMembers m).mergeSort fun a b => decide (a.1 ≤ b.1)).map Prod.snd) ++ "\x7d"
termination_by structural j => j
def dumpsItems : List Json → List String
  | [] => []
  | j::rest => dumps j :: dumpsItems rest
termination_by structural l => l
def dumpsMembers : List (String × Json) → List (String × String)
  | [] => []
  | (k,v)::rest => (k,dumpsString k ++ ":" ++ dumps v) :: dumpsMembers rest
termination_by structural l => l
end

end PyText
end RedfishCtl
