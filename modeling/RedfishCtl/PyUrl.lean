import RedfishCtl.PyText

/-! The path of a URL as the mock server reads it: urlsplit, percent-decoding through UTF-8 with
replacement, and the trailing slash dropped. Of the host checks of urlsplit only the pairing of
brackets is kept. -/
namespace RedfishCtl.PyUrl

def isControlOrSpace (c : Char) : Bool := c.toNat ≤ 32

def isUnsafe (c : Char) : Bool := c.toNat = 9 || c.toNat = 10 || c.toNat = 13

def isAsciiAlpha (c : Char) : Bool :=
  (65 ≤ c.toNat && c.toNat ≤ 90) || (97 ≤ c.toNat && c.toNat ≤ 122)

def isSchemeChar (c : Char) : Bool :=
  isAsciiAlpha c || PyText.isDigit c || c = '+' || c = '-' || c = '.'

def dropScheme (url : List Char) : List Char :=
  let scheme := url.takeWhile (· ≠ ':')
  if url.contains ':' && (scheme.head?.map isAsciiAlpha).getD false && scheme.all isSchemeChar then
    url.drop (scheme.length + 1)
  else url

def dropNetloc : List Char → Except PyError (List Char)
  | '/' :: '/'::rest =>
      let netloc := rest.takeWhile fun c => c ≠ '/' && c ≠ '?' && c ≠ '#'
      if netloc.contains '[' = netloc.contains ']' then .ok (rest.drop netloc.length)
      else .error (.valueError "Invalid IPv6 URL")
  | url => .ok url

def urlsplitPath (url : String) : Except PyError (List Char) := do
  let cleaned := (url.toList.dropWhile isControlOrSpace).filter fun c => !isUnsafe c
  let rest ← dropNetloc (dropScheme cleaned)
  .ok ((rest.takeWhile (· ≠ '#')).takeWhile (· ≠ '?'))

structure SplitUrl where
  scheme : List Char
  netloc : List Char
  path : List Char
  query : List Char
  fragment : List Char
  deriving DecidableEq

def splitScheme (url : List Char) : List Char × List Char :=
  let scheme := url.takeWhile (· ≠ ':')
  if url.contains ':' && (scheme.head?.map isAsciiAlpha).getD false && scheme.all isSchemeChar then
    (scheme,url.drop (scheme.length + 1))
  else ([],url)

def splitNetloc : List Char → Except PyError (List Char × List Char)
  | '/' :: '/'::rest =>
      let netloc := rest.takeWhile fun c => c ≠ '/' && c ≠ '?' && c ≠ '#'
      if netloc.contains '[' = netloc.contains ']' then .ok (netloc,rest.drop netloc.length)
      else .error (.valueError "Invalid IPv6 URL")
  | url => .ok ([],url)

def behind (separator : Char) (text : List Char) : List Char := (text.dropWhile (· ≠ separator)).drop 1

def urlsplit (url : String) : Except PyError SplitUrl := do
  let cleaned := (url.toList.dropWhile isControlOrSpace).filter fun c => !isUnsafe c
  let (scheme,rest) := splitScheme cleaned
  let (netloc,rest) ← splitNetloc rest
  let located := rest.takeWhile (· ≠ '#')
  .ok ⟨scheme,netloc,located.takeWhile (· ≠ '?'),behind '?' located,behind '#' rest⟩

theorem splitSchemeRest (url : List Char) : (splitScheme url).2 = dropScheme url := by
  unfold splitScheme dropScheme
  dsimp only
  split
  · rfl
  · rfl

theorem splitNetlocRest (url : List Char) : (splitNetloc url).map Prod.snd = dropNetloc url := by
  unfold splitNetloc dropNetloc
  split
  · dsimp only
    split
    · rfl
    · rfl
  · rfl

theorem urlsplitPathSplit (url : String) : urlsplitPath url = (urlsplit url).map SplitUrl.path := by
  unfold urlsplitPath urlsplit
  simp only [← splitSchemeRest,← splitNetlocRest]
  cases splitNetloc (splitScheme ((url.toList.dropWhile isControlOrSpace).filter
    fun c => !isUnsafe c)).2 with
  | error e => rfl
  | ok parts => rfl

def hexValue (c : Char) : Option Nat :=
  let n := c.toNat
  if 48 ≤ n ∧ n ≤ 57 then some (n - 48)
  else if 65 ≤ n ∧ n ≤ 70 then some (n - 55)
  else if 97 ≤ n ∧ n ≤ 102 then some (n - 87)
  else none

def unquoteToBytes : List Char → List Nat
  | '%'::a::b::rest => match hexValue a, hexValue b with
      | some x, some y => (16*x + y) :: unquoteToBytes rest
      | _, _ => 37 :: unquoteToBytes (a::b::rest)
  | c::rest => c.toNat :: unquoteToBytes rest
  | [] => []

structure Pending where
  need : Nat
  low : Nat
  high : Nat
  value : Nat

def lead (b : Nat) : Option Pending :=
  if 194 ≤ b ∧ b ≤ 223 then some ⟨1,128,191,b % 32⟩
  else if b = 224 then some ⟨2,160,191,0⟩
  else if b = 237 then some ⟨2,128,159,13⟩
  else if 225 ≤ b ∧ b ≤ 239 then some ⟨2,128,191,b % 16⟩
  else if b = 240 then some ⟨3,144,191,0⟩
  else if 241 ≤ b ∧ b ≤ 243 then some ⟨3,128,191,b % 8⟩
  else if b = 244 then some ⟨3,128,143,4⟩
  else none

def replacement : Char := Char.ofNat 65533

/- A sequence that breaks off is replaced as a whole, and the byte that broke it starts
anew. -/
def decodeFrom : Option Pending → List Nat → List Char
  | none, [] => []
  | some _, [] => [replacement]
  | none, b::rest =>
      if b < 128 then Char.ofNat b :: decodeFrom none rest
      else match lead b with
        | none => replacement :: decodeFrom none rest
        | some p => decodeFrom (some p) rest
  | some p, b::rest =>
      if p.low ≤ b ∧ b ≤ p.high then
        if p.need = 1 then Char.ofNat (64*p.value + b % 64) :: decodeFrom none rest
        else decodeFrom (some ⟨p.need - 1,128,191,64*p.value + b % 64⟩) rest
      else replacement ::
        if b < 128 then Char.ofNat b :: decodeFrom none rest
        else match lead b with
          | none => replacement :: decodeFrom none rest
          | some q => decodeFrom (some q) rest

def unquoteRun (run : List Char) : List Char := decodeFrom none (unquoteToBytes run)

def unquoteFrom (run : List Char) : List Char → List Char
  | [] => unquoteRun run.reverse
  | c::rest =>
      if c.toNat < 128 then unquoteFrom (c::run) rest
      else unquoteRun run.reverse ++ c :: unquoteFrom [] rest

def unquote (path : List Char) : List Char := unquoteFrom [] path

def stripTrailing (path : List Char) : List Char :=
  if path = ['/'] then path else PyText.dropEnd (· = '/') path

def normalizeRequestPath (requestPath : String) : Except PyError String := do
  let path ← urlsplitPath requestPath
  .ok (String.ofList (stripTrailing (unquote path)))

theorem stripNothing {path} (last : path.getLast? ≠ some '/') : stripTrailing path = path := by
  unfold stripTrailing
  split
  · rfl
  · refine PyText.dropEndSame fun c final => ?_
    have other : c ≠ '/' := fun same => last (same ▸ final)
    simpa using other

end RedfishCtl.PyUrl
