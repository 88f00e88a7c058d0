import Mathlib.Data.List.TakeWhile

/-! The scheme, host and TCP port an HTTP client reads from an absolute URL: user information ends
at the last at sign, an IPv6 address stands in brackets, and a port is at most five digits below
65536. -/
namespace RedfishCtl.HttpOrigin

structure Origin where
  https : Bool
  host : String
  port : Nat
  deriving DecidableEq, Repr

def delimiter (c : Char) : Bool := ['/', '\\', '?', '#'].contains c

def authority (url : List Char) : List Char := url.takeWhile (!delimiter ·)

def dropUserinfo (authority : List Char) : List Char :=
  (authority.reverse.takeWhile (· ≠ '@')).reverse

def portOf (default : Nat) : List Char → Option Nat
  | [] => some default
  | c::digits =>
    if c ≠ ':' then none
    else if digits = [] then some default
    else if digits.all Char.isDigit ∧ digits.length ≤ 5 ∧ Nat.ofDigitChars 10 digits 0 < 65536 then
      some (Nat.ofDigitChars 10 digits 0)
    else none

def hostPort (default : Nat) (authority : List Char) : Option (String × Nat) :=
  if authority.head? = some '[' then
    let host := authority.tail.takeWhile (· ≠ ']')
    match authority.tail.dropWhile (· ≠ ']') with
    | [] => none
    | _::port => (portOf default port).map (String.ofList host,·)
  else
    let host := authority.takeWhile (· ≠ ':')
    if host = [] then none
    else (portOf default (authority.dropWhile (· ≠ ':'))).map (String.ofList host,·)

def scheme (https : Bool) : String := if https then "https://" else "http://"

def defaultPort (https : Bool) : Nat := if https then 443 else 80

def schemeOf (url : List Char) : Option (Bool × List Char) :=
  if (scheme true).toList.isPrefixOf url then some (true,url.drop 8)
  else if (scheme false).toList.isPrefixOf url then some (false,url.drop 7)
  else none

def origin (url : String) : Option Origin := do
  let (https,rest) ← schemeOf url.toList
  let (host,port) ← hostPort (defaultPort https) (dropUserinfo (authority rest))
  some ⟨https,host,port⟩

def special (c : Char) : Bool := delimiter c || ['@', '[', ']'].contains c

def nameChar (c : Char) : Bool := c.isAlphanum || ['-', '.', '_'].contains c

def Name (host : String) : Prop :=
  host ≠ "" ∧ host.toList.head? ≠ some '.' ∧ host.toList.all nameChar
instance (host : String) : Decidable (Name host) := by unfold Name; infer_instance

def Literal (host : String) : Prop := 2 ≤ host.toList.count ':' ∧ host.toList.all (!special ·)
instance (host : String) : Decidable (Literal host) := by unfold Literal; infer_instance

theorem specialCases {c} (marked : special c = true) : c ∈ ['/', '\\', '?', '#', '@', '[', ']'] := by
  simpa [special,delimiter,or_assoc] using marked

variable {host : String}

theorem Name.clear (name : Name host) :
    ∀ c ∈ host.toList, !special c ∧ c ≠ ':' := by
  intro c mem
  have plain := List.all_eq_true.mp name.2.2 c mem
  constructor
  · have marks : ['/', '\\', '?', '#', '@', '[', ']'].all (!nameChar ·) = true := by decide
    cases marked : special c with
    | false => rfl
    | true =>
      have other := List.all_eq_true.mp marks c (specialCases marked)
      simp [plain] at other
  · rintro rfl
    cases plain

theorem Literal.clear (literal : Literal host) :
    ∀ c ∈ host.toList, !special c := List.all_eq_true.mp literal.2

theorem schemeRead (https : Bool) (rest : List Char) :
    schemeOf ((scheme https).toList ++ rest) = some (https,rest) := by
  cases https <;> simp [schemeOf,scheme]

theorem ordinary {c} (clear : !special c) : delimiter c = false ∧ c ≠ '@' ∧ c ≠ '[' := by
  simp only [special,Bool.not_or,Bool.and_eq_true,Bool.not_eq_true'] at clear
  refine ⟨clear.1,?_,?_⟩
  · rintro rfl
    simp at clear
  · rintro rfl
    simp at clear

theorem originRead (https : Bool) (text path : String)
    (clear : ∀ c ∈ text.toList, !special c) :
    origin (scheme https ++ text ++ ("/" ++ path)) =
      (hostPort (defaultPort https) text.toList).map fun p => ⟨https,p.1,p.2⟩ := by
  have whole : authority (text.toList ++ '/' :: path.toList) = text.toList := by
    rw [authority,List.takeWhile_append_of_pos]
    · simp [delimiter]
    · intro c mem
      simp [(ordinary (clear c mem)).1]
  have user : dropUserinfo text.toList = text.toList := by
    rw [dropUserinfo,List.takeWhile_eq_self_iff.mpr,List.reverse_reverse]
    intro c mem
    simpa using (ordinary (clear c (List.mem_reverse.mp mem))).2.1
  have url : (scheme https ++ text ++ ("/" ++ path)).toList =
      (scheme https).toList ++ (text.toList ++ '/' :: path.toList) := by
    simp
  simp only [origin,url,schemeRead,bind,Option.bind,whole,user]
  cases hostPort (defaultPort https) text.toList <;> rfl

theorem hostPortName (name : Name host) (default : Nat) {port} (mark : ∀ c ∈ port.head?, c = ':') :
    hostPort default (host.toList ++ port) = (portOf default port).map (host,·) := by
  have before : ∀ c ∈ host.toList, decide (c ≠ ':') = true := by
    intro c mem
    simpa using (name.clear c mem).2
  have nonempty : host.toList ≠ [] := by simpa using name.1
  have after : port.takeWhile (· ≠ ':') = [] ∧ port.dropWhile (· ≠ ':') = port := by
    cases port with
    | nil => exact ⟨rfl,rfl⟩
    | cons c rest =>
      cases mark c rfl
      exact ⟨by simp,by simp⟩
  have bracket : (host.toList ++ port).head? ≠ some '[' := by
    obtain ⟨c,rest,chars⟩ := List.exists_cons_of_ne_nil nonempty
    rw [chars]
    have clear := (ordinary (name.clear c (chars ▸ List.mem_cons_self)).1).2.2
    simpa using clear
  rw [hostPort,if_neg bracket]
  simp only [List.takeWhile_append_of_pos before,List.dropWhile_append_of_pos before,after.1,
    after.2,List.append_nil,if_neg nonempty,String.ofList_toList]

theorem portDigits (default n : Nat) : portOf default (':' :: (toString n).toList) =
    if n < 65536 then some n else none := by
  have digits : (toString n).toList = Nat.toDigits 10 n := by
    rw [Nat.toString_eq_ofList_toDigits,String.toList_ofList]
  have all : (Nat.toDigits 10 n).all Char.isDigit = true :=
    List.all_eq_true.mpr fun c mem => Nat.isDigit_of_mem_toDigits (by decide) (by decide) mem
  simp only [portOf,digits,ne_eq,not_true_eq_false,if_false,if_neg Nat.toDigits_ne_nil,all,
    Nat.ofDigitChars_ten_toDigits,true_and]
  have short : (Nat.toDigits 10 n).length ≤ 5 ↔ n < 10^5 :=
    Nat.length_toDigits_le_iff (by decide) (by decide)
  by_cases small : n < 65536
  · rw [if_pos ⟨short.mpr (by omega),small⟩,if_pos small]
  · rw [if_neg fun both => small both.2,if_neg small]

theorem digitOrdinary {c} (digit : c.isDigit) : !special c := by
  have marks : ['/', '\\', '?', '#', '@', '[', ']'].all (!Char.isDigit ·) = true := by decide
  cases marked : special c with
  | false => rfl
  | true =>
    have other := List.all_eq_true.mp marks c (specialCases marked)
    simp [digit] at other

theorem intOrdinary (n : Int) : ∀ c ∈ (toString n).toList, !special c := by
  intro c mem
  rw [Int.toString_eq_repr,Int.repr_eq_if] at mem
  have natural {k : Nat} (mem : c ∈ k.repr.toList) : !special c := by
    rw [Nat.repr_eq_ofList_toDigits,String.toList_ofList] at mem
    exact digitOrdinary (Nat.isDigit_of_mem_toDigits (by decide) (by decide) mem)
  split at mem
  · exact natural mem
  rw [String.toList_append] at mem
  rcases List.mem_append.mp mem with sign | digits
  · cases List.mem_singleton.mp sign
    decide
  · exact natural digits

theorem portInt (default : Nat) (n : Int) : portOf default (':' :: (toString n).toList) =
    if 0 ≤ n ∧ n < 65536 then some n.toNat else none := by
  rw [Int.toString_eq_repr,Int.repr_eq_if]
  by_cases positive : 0 ≤ n
  · rw [if_pos positive,← Nat.toString_eq_repr,portDigits]
    by_cases small : n < 65536
    · rw [if_pos (by omega),if_pos ⟨positive,small⟩]
    · rw [if_neg (by omega),if_neg fun both => small both.2]
  · rw [if_neg positive,if_neg fun both => positive both.1]
    simp [portOf]

theorem portColon {default rest} (mem : ':' ∈ rest) : portOf default (':' :: rest) = none := by
  have digits : ¬ rest.all Char.isDigit = true := by
    intro all
    have digit := List.all_eq_true.mp all ':' mem
    cases digit
  have more : rest ≠ [] := List.ne_nil_of_mem mem
  simp [portOf,more,digits]

theorem hostPortLiteral (literal : Literal host) (default : Nat) :
    hostPort default host.toList = none := by
  have bracket : host.toList.head? ≠ some '[' := by
    intro first
    exact (ordinary (literal.clear _ (List.mem_of_head? first))).2.2 rfl
  have count : 2 ≤ (host.toList.dropWhile (· ≠ ':')).count ':' := by
    have none : (host.toList.takeWhile (· ≠ ':')).count ':' = 0 :=
      List.count_eq_zero.mpr fun mem => by simpa using List.mem_takeWhile_imp mem
    have whole : host.toList.takeWhile (· ≠ ':') ++ host.toList.dropWhile (· ≠ ':') =
        host.toList := List.takeWhile_append_dropWhile
    have twice := literal.1
    rw [← whole,List.count_append,none,Nat.zero_add] at twice
    exact twice
  rw [hostPort,if_neg bracket]
  dsimp only
  split
  · rfl
  cases rest : host.toList.dropWhile (· ≠ ':') with
  | nil =>
    rw [rest] at count
    cases count
  | cons c tail =>
    have mark : c = ':' := by
      have first := List.head?_dropWhile_not (· ≠ ':') host.toList
      rw [rest] at first
      simpa using first
    subst mark
    have again : ':' ∈ tail := by
      rw [rest,List.count_cons_self] at count
      exact List.count_pos_iff.mp (by omega)
    rw [portColon again]
    rfl

end RedfishCtl.HttpOrigin
