import RedfishCtl.Json

/-! `find_ids`, the search of a document for the values under a key, through the objects and the
elements of the lists among an object's members and no further. -/
namespace RedfishCtl.FindIds

mutual
def findIds (key : String) : Json → List Json
  | .obj m => findMembers key m
  | _ => []
termination_by structural j => j
def findMembers (key : String) : List (String × Json) → List Json
  | [] => []
  | (k,v)::rest => findMember key k v ++ findMembers key rest
termination_by structural l => l
def findMember (key k : String) : Json → List Json
  | .obj m => findMembers key m ++ if k = key then [.obj m] else []
  | .arr items => findItems key items
  | v => if k = key then [v] else []
termination_by structural j => j
def findItems (key : String) : List Json → List Json
  | [] => []
  | j::rest => findIds key j ++ findItems key rest
termination_by structural l => l
end

def isArr : Json → Bool
  | .arr _ => true
  | _ => false

def kept (key k : String) (v : Json) : List Json := if k = key ∧ isArr v = false then [v] else []

mutual
def stored (key : String) : Json → List Json
  | .obj m => storedMembers key m
  | .arr items => storedItems key items
  | _ => []
termination_by structural j => j
def storedMembers (key : String) : List (String × Json) → List Json
  | [] => []
  | (k,v)::rest => stored key v ++ kept key k v ++ storedMembers key rest
termination_by structural l => l
def storedItems (key : String) : List Json → List Json
  | [] => []
  | j::rest => stored key j ++ storedItems key rest
termination_by structural l => l
end

mutual
def hidden (key : String) : Json → List Json
  | .obj m => hiddenMembers key m
  | .arr items => storedItems key items
  | _ => []
termination_by structural j => j
def hiddenMembers (key : String) : List (String × Json) → List Json
  | [] => []
  | (_,v)::rest => hiddenMember key v ++ hiddenMembers key rest
termination_by structural l => l
def hiddenMember (key : String) : Json → List Json
  | .obj m => hiddenMembers key m
  | .arr items => hiddenItems key items
  | _ => []
termination_by structural j => j
def hiddenItems (key : String) : List Json → List Json
  | [] => []
  | j::rest => hidden key j ++ hiddenItems key rest
termination_by structural l => l
end

theorem appendPerm {α} {a b c d e f : List α} (first : a.Perm (b ++ c)) (second : d.Perm (e ++ f)) :
    (a ++ d).Perm (b ++ e ++ (c ++ f)) := by
  refine (first.append second).trans ?_
  rw [List.append_assoc,List.append_assoc,← List.append_assoc c,← List.append_assoc e]
  exact List.Perm.append_left b (List.perm_append_comm.append_right f)

mutual
theorem storedSplit (key : String) : ∀ j, (stored key j).Perm (findIds key j ++ hidden key j)
  | .obj m => by
    rw [stored,findIds,hidden]
    exact storedMembersSplit key m
  | .arr items => by
    rw [stored,findIds,hidden]
    · rfl
    · simp
  | .null | .bool _ | .int _ | .float _ | .str _ => by simp [stored,findIds,hidden]
termination_by structural j => j
theorem storedMembersSplit (key : String) : ∀ m,
    (storedMembers key m).Perm (findMembers key m ++ hiddenMembers key m)
  | [] => .refl _
  | (k,v)::rest => by
    rw [storedMembers,findMembers,hiddenMembers]
    exact appendPerm (storedMemberSplit key k v) (storedMembersSplit key rest)
termination_by structural l => l
theorem storedMemberSplit (key k : String) : ∀ v,
    (stored key v ++ kept key k v).Perm (findMember key k v ++ hiddenMember key v)
  | .obj m => by
    have same : kept key k (.obj m) = if k = key then [.obj m] else [] := by simp [kept,isArr]
    rw [stored,findMember,hiddenMember,same]
    have whole := appendPerm (storedMembersSplit key m)
      (.of_eq (List.append_nil (if k = key then [Json.obj m] else [])).symm)
    rwa [List.append_nil] at whole
  | .arr items => by
    have none : kept key k (.arr items) = [] := by simp [kept,isArr]
    rw [stored,findMember,hiddenMember,none,List.append_nil]
    exact storedItemsSplit key items
  | .null | .bool _ | .int _ | .float _ | .str _ => by
    simp [stored,findMember,hiddenMember,kept,isArr]
termination_by structural j => j
theorem storedItemsSplit (key : String) : ∀ items,
    (storedItems key items).Perm (findItems key items ++ hiddenItems key items)
  | [] => .refl _
  | j::rest => by
    rw [storedItems,findItems,hiddenItems]
    exact appendPerm (storedSplit key j) (storedItemsSplit key rest)
termination_by structural l => l
end

/- The search finds every value exactly if none is below a list in which it does not look. -/
theorem findIdsComplete (key : String) (document : Json) :
    (findIds key document).Perm (stored key document) ↔ hidden key document = [] := by
  have split := storedSplit key document
  constructor
  · intro same
    have lengths := (same.trans split).length_eq
    rw [List.length_append] at lengths
    exact List.eq_nil_of_length_eq_zero (by omega)
  · intro none
    rw [none,List.append_nil] at split
    exact split.symm

theorem nestedListMissed :
    findIds "Id" (.obj [("Rows",.arr [.arr [.obj [("Id",.str "1")]]])]) = [] ∧
    stored "Id" (.obj [("Rows",.arr [.arr [.obj [("Id",.str "1")]]])]) = [.str "1"] ∧
    findIds "Id" (.arr [.obj [("Id",.str "1")]]) = [] := by
  decide

end RedfishCtl.FindIds
