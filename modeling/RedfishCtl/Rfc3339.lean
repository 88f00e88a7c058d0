import RedfishCtl.PyText

/-! Aware UTC datetimes as microseconds since 1970, their second-precision RFC 3339 text and the ISO
text they are read back from, in the proleptic Gregorian calendar without an end. -/
namespace RedfishCtl.Rfc3339
open PyText (isDigit digitsValue padLeft)

abbrev DateTime := Int

def second : Int := 1000000

structure Civil where
  year : Int
  month : Int
  day : Int
  deriving DecidableEq, Repr

/- Days are counted in 400-year eras from 1 March, so a leap day ends its year. -/
def civilOfDays (days : Int) : Civil :=
  let z := days + 719468
  let era := z / 146097
  let doe := z % 146097
  let yoe := (doe - doe/1460 + doe/36524 - doe/146096) / 365
  let doy := doe - (365*yoe + yoe/4 - yoe/100)
  let mp := (5*doy + 2) / 153
  let month := if mp < 10 then mp + 3 else mp - 9
  ⟨yoe + era*400 + (if month ≤ 2 then 1 else 0),month,doy - (153*mp + 2)/5 + 1⟩

def daysOfCivil (c : Civil) : Int :=
  let y := if c.month ≤ 2 then c.year - 1 else c.year
  let era := y / 400
  let yoe := y % 400
  let doy := (153*(if 2 < c.month then c.month - 3 else c.month + 9) + 2)/5 + c.day - 1
  era*146097 + (yoe*365 + yoe/4 - yoe/100 + doy) - 719468

def field (width : Nat) (n : Int) : String := padLeft width (toString n.toNat)

def rfc3339 (value : DateTime) : String :=
  let seconds := value / second
  let c := civilOfDays (seconds / 86400)
  let s := seconds % 86400
  field 4 c.year ++ "-" ++ field 2 c.month ++ "-" ++ field 2 c.day ++ "T" ++
    field 2 (s/3600) ++ ":" ++ field 2 (s/60 % 60) ++ ":" ++ field 2 (s % 60) ++ "Z"

def number (width : Nat) (cs : List Char) : Option (Int × List Char) :=
  let ds := cs.take width
  if ds.length = width ∧ ds.all isDigit then some (digitsValue ds,cs.drop width) else none

def expect (c : Char) : List Char → Option (List Char)
  | [] => none
  | d::rest => if d = c then some rest else none

def leap (y : Int) : Bool := y % 4 = 0 && (y % 100 ≠ 0 || y % 400 = 0)

def daysInMonth (y m : Int) : Int :=
  if m = 2 then (if leap y then 29 else 28)
  else if m = 4 ∨ m = 6 ∨ m = 9 ∨ m = 11 then 30 else 31

def date (cs : List Char) : Option (Int × List Char) := do
  let (y,cs) ← number 4 cs
  let cs ← expect '-' cs
  let (m,cs) ← number 2 cs
  let cs ← expect '-' cs
  let (d,cs) ← number 2 cs
  if 1 ≤ y ∧ 1 ≤ m ∧ m ≤ 12 ∧ 1 ≤ d ∧ d ≤ daysInMonth y m then
    some (daysOfCivil ⟨y,m,d⟩,cs) else none

def fraction (cs : List Char) : Option Int :=
  if cs.all isDigit then
    if cs.length = 3 then some (digitsValue cs * 1000)
    else if cs.length = 6 then some (digitsValue cs) else none
  else none

def clock (cs : List Char) : Option Int := do
  let (h,cs) ← number 2 cs
  if cs.isEmpty then (if h < 24 then some (h*3600*second) else none) else do
    let cs ← expect ':' cs
    let (m,cs) ← number 2 cs
    if cs.isEmpty then (if h < 24 ∧ m < 60 then some ((h*3600 + m*60)*second) else none) else do
      let cs ← expect ':' cs
      let (s,cs) ← number 2 cs
      let micros ← if cs.isEmpty then some 0 else (expect '.' cs).bind fraction
      if h < 24 ∧ m < 60 ∧ s < 60 then some ((h*3600 + m*60 + s)*second + micros) else none

def fromisoformat (s : String) : Option DateTime := do
  let (days,rest) ← date s.toList
  match rest with
  | [] => some (days*86400*second)
  | _::rest => do
      let local_ := rest.takeWhile fun c => c ≠ '+' && c ≠ '-'
      let time ← clock local_
      let base := days*86400*second + time
      match rest.drop local_.length with
      | [] => some base
      | sign::zone => do
          let offset ← clock zone
          some (if sign = '-' then base + offset else base - offset)

def replaceZ (s : String) : String :=
  String.ofList (s.toList.flatMap fun c => if c = 'Z' then "+00:00".toList else [c])

def parseRfc3339 : Json → Option DateTime
  | .str s => if s = "" then none else fromisoformat (replaceZ s)
  | _ => none

example : parseRfc3339 (.str (rfc3339 1783723200654321)) = some 1783723200000000 := by
  decide +kernel

end RedfishCtl.Rfc3339
