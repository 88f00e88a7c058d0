import RedfishCtl.AssocList
import RedfishCtl.Binary64

/-! Decoded JSON documents: integers are unbounded and kept apart from binary64 numbers, objects
keep insertion order. A merge patch is that of RFC 7386. -/
namespace RedfishCtl

inductive Json where
  | null
  | bool (b : Bool)
  | int (n : Int)
  | float (x : Binary64.Datum)
  | str (s : String)
  | arr (items : List Json)
  | obj (members : List (String × Json))
  deriving Repr, Inhabited

namespace Json
open AssocList

mutual
def decEq : (x y : Json) → Decidable (x = y)
  | .null, .null => isTrue rfl
  | .bool a, .bool b => decidable_of_iff (a = b) (by simp)
  | .int a, .int b => decidable_of_iff (a = b) (by simp)
  | .float a, .float b => decidable_of_iff (a = b) (by simp)
  | .str a, .str b => decidable_of_iff (a = b) (by simp)
  | .arr a, .arr b => match decEqItems a b with
      | isTrue h => isTrue (by rw [h])
      | isFalse h => isFalse (by simpa using h)
  | .obj a, .obj b => match decEqMembers a b with
      | isTrue h => isTrue (by rw [h])
      | isFalse h => isFalse (by simpa using h)
  | .null, .bool _ | .null, .int _ | .null, .float _ | .null, .str _ | .null, .arr _
  | .null, .obj _ | .bool _, .null | .bool _, .int _ | .bool _, .float _ | .bool _, .str _
  | .bool _, .arr _ | .bool _, .obj _ | .int _, .null | .int _, .bool _ | .int _, .float _
  | .int _, .str _ | .int _, .arr _ | .int _, .obj _ | .float _, .null | .float _, .bool _
  | .float _, .int _ | .float _, .str _ | .float _, .arr _ | .float _, .obj _ | .str _, .null
  | .str _, .bool _ | .str _, .int _ | .str _, .float _ | .str _, .arr _ | .str _, .obj _
  | .arr _, .null | .arr _, .bool _ | .arr _, .int _ | .arr _, .float _ | .arr _, .str _
  | .arr _, .obj _ | .obj _, .null | .obj _, .bool _ | .obj _, .int _ | .obj _, .float _
  | .obj _, .str _ | .obj _, .arr _ => isFalse (by simp)
termination_by structural x => x
def decEqItems : (x y : List Json) → Decidable (x = y)
  | [], [] => isTrue rfl
  | x::xs, y::ys => match decEq x y, decEqItems xs ys with
      | isTrue h, isTrue t => isTrue (by rw [h,t])
      | isFalse h, _ => isFalse (by simp [h])
      | _, isFalse t => isFalse (by simp [t])
  | [], _::_ | _::_, [] => isFalse (by simp)
termination_by structural x => x
def decEqMembers : (x y : List (String × Json)) → Decidable (x = y)
  | [], [] => isTrue rfl
  | (k,x)::xs, (l,y)::ys => match instDecidableEqString k l, decEq x y, decEqMembers xs ys with
      | isTrue g, isTrue h, isTrue t => isTrue (by rw [g,h,t])
      | isFalse g, _, _ => isFalse (by simp [g])
      | _, isFalse h, _ => isFalse (by simp [h])
      | _, _, isFalse t => isFalse (by simp [t])
  | [], _::_ | _::_, [] => isFalse (by simp)
termination_by structural x => x
end
instance : DecidableEq Json := decEq

def members : Json → List (String × Json)
  | .obj m => m
  | _ => []

def get? (j : Json) (key : String) : Option Json := j.members.lookup key

def isObj : Json → Bool
  | .obj _ => true
  | _ => false

def truthy : Json → Bool
  | .null => false
  | .bool b => b
  | .int n => n != 0
  | .float (.finite x) => x.significand != 0
  | .float _ => true
  | .str s => s != ""
  | .arr items => !items.isEmpty
  | .obj m => !m.isEmpty

def getD (j : Json) (key : String) : Json := (j.get? key).getD .null

@[simp] theorem membersObj (m) : (obj m).members = m := rfl
@[simp] theorem getObj (m key) : (obj m).get? key = m.lookup key := rfl
@[simp] theorem truthyNull : truthy .null = false := rfl
@[simp] theorem truthyBool (b) : truthy (.bool b) = b := rfl

mutual
def mergePatch (target : Json) : Json → Json
  | .obj patch => .obj (mergeMembers target.members patch)
  | .null => .null
  | .bool b => .bool b
  | .int n => .int n
  | .float x => .float x
  | .str s => .str s
  | .arr items => .arr items
termination_by structural patch => patch
def mergeMembers (target : List (String × Json)) : List (String × Json) → List (String × Json)
  | [] => target
  | (k,.null)::rest => mergeMembers (erase k target) rest
  | (k,v)::rest => mergeMembers (insert k (mergePatch ((target.lookup k).getD .null) v) target) rest
termination_by structural patch => patch
end

def patched (old : Option Json) : Json → Option Json
  | .null => none
  | v => some (mergePatch (old.getD .null) v)

@[simp] theorem patchedNull (old) : patched old .null = none := rfl
@[simp] theorem patchedBool (old b) : patched old (.bool b) = some (.bool b) := rfl
@[simp] theorem patchedInt (old n) : patched old (.int n) = some (.int n) := rfl
@[simp] theorem patchedStr (old s) : patched old (.str s) = some (.str s) := rfl
@[simp] theorem patchedArr (old items) : patched old (.arr items) = some (.arr items) := rfl
@[simp] theorem patchedObj (old patch) : patched old (.obj patch) =
    some (.obj (mergeMembers (old.getD .null).members patch)) := rfl

theorem mergeMembersCons (target : List (String × Json)) (k : String) (v : Json) (rest) :
    ∃ next, mergeMembers target ((k,v)::rest) = mergeMembers next rest ∧
      ∀ key, next.lookup key = if key = k then patched (target.lookup k) v else target.lookup key := by
  cases v with
  | null => exact ⟨erase k target,by simp [mergeMembers],by intro key; simp⟩
  | _ => exact ⟨_,by rw [mergeMembers]; simp,by intro key; simp [patched]⟩

variable {patch : List (String × Json)}

theorem lookupMergeMembers (distinct : Distinct patch)
    (target : List (String × Json)) (key : String) :
    (mergeMembers target patch).lookup key =
      match patch.lookup key with
      | none => target.lookup key
      | some v => patched (target.lookup key) v := by
  induction patch generalizing target with
  | nil => simp [mergeMembers]
  | cons p rest ih =>
    obtain ⟨k,v⟩ := p
    obtain ⟨fresh,tail⟩ := List.nodup_cons.mp distinct
    obtain ⟨next,step,after⟩ := mergeMembersCons target k v rest
    rw [step,ih tail]
    by_cases same : key = k
    · subst same
      have gone : rest.lookup key = none := lookupNone.mpr fresh
      simp [gone,after]
    · simp [same,after]

theorem getMergePatch (distinct : Distinct patch) (target : Json) (key : String) :
    (mergePatch target (.obj patch)).get? key =
      match patch.lookup key with
      | none => target.get? key
      | some v => patched (target.get? key) v := by
  simpa [mergePatch,get?] using lookupMergeMembers distinct target.members key

end Json
end RedfishCtl
