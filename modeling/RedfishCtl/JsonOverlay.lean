import RedfishCtl.Json

/-! Documents as the mock server compares and merges them: equality across number types and
regardless of member order, containment of a pattern, and the recursive merge of an overlay. -/
namespace RedfishCtl.Json
open AssocList

inductive Number where
  | rational (q : ℚ)
  | infinite (negative : Bool)
  | nan

def number : Json → Option Number
  | .bool b => some (.rational (if b then 1 else 0))
  | .int n => some (.rational n)
  | .float (.finite x) => some (.rational x.value)
  | .float (.infinity s) => some (.infinite s)
  | .float .nan => some .nan
  | _ => none

def sameNumber : Option Number → Option Number → Bool
  | some (.rational q), some (.rational r) => q = r
  | some (.infinite a), some (.infinite b) => a = b
  | _, _ => false

mutual
def pyEq : Json → Json → Bool
  | .null, .null => true
  | .str a, .str b => a = b
  | .arr a, .arr b => pyEqItems a b
  | .obj a, .obj b => a.length = b.length && pyEqMembers a b
  | .bool a, y => sameNumber (number (.bool a)) (number y)
  | .int a, y => sameNumber (number (.int a)) (number y)
  | .float a, y => sameNumber (number (.float a)) (number y)
  | _, _ => false
termination_by structural x => x
def pyEqItems : List Json → List Json → Bool
  | [], [] => true
  | x::xs, y::ys => pyEq x y && pyEqItems xs ys
  | _, _ => false
termination_by structural x => x
def pyEqMembers : List (String × Json) → List (String × Json) → Bool
  | [], _ => true
  | (k,x)::xs, ys => (match ys.lookup k with
      | some y => pyEq x y
      | none => false) && pyEqMembers xs ys
termination_by structural x => x
end

mutual
def bodyContains (actual : Json) : Json → Bool
  | .obj expected => match actual with
      | .obj m => containsMembers m expected
      | _ => false
  | .arr expected => match actual with
      | .arr items => containsItems items expected
      | _ => false
  | .null => pyEq actual .null
  | .bool b => pyEq actual (.bool b)
  | .int n => pyEq actual (.int n)
  | .float x => pyEq actual (.float x)
  | .str s => pyEq actual (.str s)
termination_by structural expected => expected
def containsMembers (actual : List (String × Json)) : List (String × Json) → Bool
  | [] => true
  | (k,x)::xs => (match actual.lookup k with
      | some y => bodyContains y x
      | none => false) && containsMembers actual xs
termination_by structural expected => expected
def containsItems : List Json → List Json → Bool
  | _, [] => true
  | y::ys, x::xs => bodyContains y x && containsItems ys xs
  | [], _::_ => false
termination_by structural _ expected => expected
end

mutual
def deepUpdate (target : List (String × Json)) : List (String × Json) → List (String × Json)
  | [] => target
  | (k,v)::rest => deepUpdate (insert k (overlaid (target.lookup k) v) target) rest
termination_by structural overlay => overlay
def overlaid (old : Option Json) : Json → Json
  | .obj overlay => match old with
      | some (.obj target) => .obj (deepUpdate target overlay)
      | _ => .obj overlay
  | .null => .null
  | .bool b => .bool b
  | .int n => .int n
  | .float x => .float x
  | .str s => .str s
  | .arr items => .arr items
termination_by structural overlay => overlay
end

end RedfishCtl.Json
