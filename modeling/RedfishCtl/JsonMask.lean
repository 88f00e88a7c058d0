import RedfishCtl.Json

/-! Masking a document: the value of a member is replaced as a whole where the key and the value
call for it, and everything else is walked down to its strings. -/
namespace RedfishCtl.Json
open AssocList

section
variable (cover : String → Json → Option Json) (leaf : String → String)

mutual
def mask : Json → Json
  | .obj m => .obj (maskMembers m)
  | .arr items => .arr (maskItems items)
  | .str s => .str (leaf s)
  | .null => .null
  | .bool b => .bool b
  | .int n => .int n
  | .float x => .float x
termination_by structural j => j
def maskItems : List Json → List Json
  | [] => []
  | j::rest => mask j :: maskItems rest
termination_by structural l => l
def maskMembers : List (String × Json) → List (String × Json)
  | [] => []
  | (key,j)::rest => (key,match cover key j with
      | some v => v
      | none => mask j) :: maskMembers rest
termination_by structural l => l
end
end

section
variable (hidden : String → Json → Json → Prop)

/- Two documents that are equal except for members of one key whose values are hidden. -/
mutual
def EqualBut : Json → Json → Prop
  | .obj m, y => ∃ n, y = .obj n ∧ MembersBut m n
  | .arr items, y => ∃ others, y = .arr others ∧ ItemsBut items others
  | .str s, y => y = .str s
  | .null, y => y = .null
  | .bool b, y => y = .bool b
  | .int n, y => y = .int n
  | .float x, y => y = .float x
termination_by structural j => j
def ItemsBut : List Json → List Json → Prop
  | [], ys => ys = []
  | x::xs, ys => ∃ y rest, ys = y::rest ∧ EqualBut x y ∧ ItemsBut xs rest
termination_by structural l => l
def MembersBut : List (String × Json) → List (String × Json) → Prop
  | [], ys => ys = []
  | (key,x)::xs, ys => ∃ y rest, ys = (key,y)::rest ∧ (hidden key x y ∨ EqualBut x y) ∧ MembersBut xs rest
termination_by structural l => l
end

/- Hidden values are covered alike, and so are values that are equal but for hidden ones. -/
structure Covers (hidden : String → Json → Json → Prop) (cover : String → Json → Option Json) : Prop where
  alike : ∀ {key x y}, hidden key x y → ∃ v, cover key x = some v ∧ cover key y = some v
  agree : ∀ {key x y}, EqualBut hidden x y → cover key x = cover key y

variable {hidden} {cover : String → Json → Option Json} {leaf : String → String}

mutual
theorem maskEqual (covers : Covers hidden cover) :
    ∀ x y, EqualBut hidden x y → mask cover leaf x = mask cover leaf y
  | .obj m, y, same => by
      obtain ⟨n,rfl,members⟩ := same
      rw [mask,mask,maskMembersEqual covers m n members]
  | .arr items, y, same => by
      obtain ⟨others,rfl,each⟩ := same
      rw [mask,mask,maskItemsEqual covers items others each]
  | .str s, y, same => by rw [EqualBut] at same; rw [same]
  | .null, y, same => by rw [EqualBut] at same; rw [same]
  | .bool b, y, same => by rw [EqualBut] at same; rw [same]
  | .int n, y, same => by rw [EqualBut] at same; rw [same]
  | .float x, y, same => by rw [EqualBut] at same; rw [same]
theorem maskItemsEqual (covers : Covers hidden cover) :
    ∀ xs ys, ItemsBut hidden xs ys → maskItems cover leaf xs = maskItems cover leaf ys
  | [], ys, same => by rw [ItemsBut] at same; rw [same]
  | x::xs, ys, same => by
      obtain ⟨y,rest,rfl,head,tail⟩ := same
      rw [maskItems,maskItems,maskEqual covers x y head,maskItemsEqual covers xs rest tail]
theorem maskMembersEqual (covers : Covers hidden cover) :
    ∀ xs ys, MembersBut hidden xs ys → maskMembers cover leaf xs = maskMembers cover leaf ys
  | [], ys, same => by rw [MembersBut] at same; rw [same]
  | (key,x)::xs, ys, same => by
      obtain ⟨y,rest,rfl,head,tail⟩ := same
      rw [maskMembers,maskMembers,maskMembersEqual covers xs rest tail]
      rcases head with shared | below
      · obtain ⟨v,first,second⟩ := covers.alike shared
        rw [first,second]
      · rw [covers.agree below,maskEqual covers x y below]
end
end

mutual
def strings : Json → List String
  | .obj m => memberStrings m
  | .arr items => itemStrings items
  | .str s => [s]
  | .null => [] | .bool _ => [] | .int _ => [] | .float _ => []
termination_by structural j => j
def itemStrings : List Json → List String
  | [] => []
  | j::rest => strings j ++ itemStrings rest
termination_by structural l => l
def memberStrings : List (String × Json) → List String
  | [] => []
  | (key,j)::rest => key :: strings j ++ memberStrings rest
termination_by structural l => l
end

inductive Part where
  | key (k : String)
  | covered (v : Json)
  | leaf (s : String)

section
variable (cover : String → Json → Option Json)

mutual
def parts : Json → List Part
  | .obj m => memberParts m
  | .arr items => itemParts items
  | .str s => [.leaf s]
  | .null => [] | .bool _ => [] | .int _ => [] | .float _ => []
termination_by structural j => j
def itemParts : List Json → List Part
  | [] => []
  | j::rest => parts j ++ itemParts rest
termination_by structural l => l
def memberParts : List (String × Json) → List Part
  | [] => []
  | (key,j)::rest => .key key :: (match cover key j with
      | some v => [.covered v]
      | none => parts j) ++ memberParts rest
termination_by structural l => l
end

def Part.Shown (P : String → Prop) (leaf : String → String) : Part → Prop
  | .key k => P k
  | .covered v => ∀ s ∈ strings v, P s
  | .leaf s => P (leaf s)

variable (P : String → Prop) (leaf : String → String)

mutual
theorem stringsMask : ∀ j,
    (∀ s ∈ strings (mask cover leaf j), P s) ↔ ∀ part ∈ parts cover j, part.Shown P leaf
  | .obj m => by rw [mask,strings,parts,memberStringsMask m]
  | .arr items => by rw [mask,strings,parts,itemStringsMask items]
  | .str s => by rw [mask,strings,parts,List.forall_mem_singleton,List.forall_mem_singleton,Part.Shown]
  | .null => by rw [mask,strings,parts]; simp
  | .bool b => by rw [mask,strings,parts]; simp
  | .int n => by rw [mask,strings,parts]; simp
  | .float x => by rw [mask,strings,parts]; simp
theorem itemStringsMask : ∀ items,
    (∀ s ∈ itemStrings (maskItems cover leaf items), P s) ↔
      ∀ part ∈ itemParts cover items, part.Shown P leaf
  | [] => by rw [maskItems,itemStrings,itemParts]; simp
  | j::rest => by
      rw [maskItems,itemStrings,itemParts,List.forall_mem_append,List.forall_mem_append,stringsMask j,
        itemStringsMask rest]
theorem memberStringsMask : ∀ m,
    (∀ s ∈ memberStrings (maskMembers cover leaf m), P s) ↔
      ∀ part ∈ memberParts cover m, part.Shown P leaf
  | [] => by rw [maskMembers,memberStrings,memberParts]; simp
  | (key,j)::rest => by
      rw [maskMembers,memberStrings,memberParts,List.cons_append,List.cons_append,List.forall_mem_cons,
        List.forall_mem_cons,List.forall_mem_append,List.forall_mem_append,memberStringsMask rest,
        Part.Shown]
      cases cover key j with
      | none => dsimp only; rw [stringsMask j]
      | some v => dsimp only; rw [List.forall_mem_singleton,Part.Shown]
end

mutual
theorem coveredPart : ∀ j {v}, .covered v ∈ parts cover j → ∃ key x, cover key x = some v
  | .obj m, v, mem => by rw [parts] at mem; exact coveredMemberPart m mem
  | .arr items, v, mem => by rw [parts] at mem; exact coveredItemPart items mem
  | .str s, v, mem => by simp [parts] at mem
  | .null, v, mem => by simp [parts] at mem
  | .bool b, v, mem => by simp [parts] at mem
  | .int n, v, mem => by simp [parts] at mem
  | .float x, v, mem => by simp [parts] at mem
theorem coveredItemPart : ∀ items {v}, .covered v ∈ itemParts cover items → ∃ key x, cover key x = some v
  | [], v, mem => by simp [itemParts] at mem
  | j::rest, v, mem => by
      rw [itemParts] at mem
      rcases List.mem_append.mp mem with own | later
      · exact coveredPart j own
      · exact coveredItemPart rest later
theorem coveredMemberPart : ∀ m {v}, .covered v ∈ memberParts cover m → ∃ key x, cover key x = some v
  | [], v, mem => by simp [memberParts] at mem
  | (key,j)::rest, v, mem => by
      rw [memberParts,List.cons_append,List.mem_cons] at mem
      rcases mem with same | mem
      · cases same
      rcases List.mem_append.mp mem with own | later
      · cases found : cover key j with
        | some u =>
          rw [found] at own
          cases List.mem_singleton.mp own
          exact ⟨key,j,found⟩
        | none =>
          rw [found] at own
          exact coveredPart j own
      · exact coveredMemberPart rest later
end

structure Settled : Prop where
  covered : ∀ {key j v}, cover key j = some v → cover key v = some v
  plain : ∀ {key j}, cover key j = none → cover key (mask cover leaf j) = none

variable {cover leaf}

/- Masking again changes nothing when the strings that were walked down to stay as they are. -/
mutual
theorem maskTwice (settled : Settled cover leaf) : ∀ j,
    (∀ s, .leaf s ∈ parts cover j → leaf (leaf s) = leaf s) →
      mask cover leaf (mask cover leaf j) = mask cover leaf j
  | .obj m, fixed => by
      rw [parts] at fixed
      rw [mask,mask,maskMembersTwice settled m fixed]
  | .arr items, fixed => by
      rw [parts] at fixed
      rw [mask,mask,maskItemsTwice settled items fixed]
  | .str s, fixed => by
      rw [mask,mask,fixed s (by rw [parts]; exact List.mem_singleton_self _)]
  | .null, _ => by rw [mask,mask]
  | .bool b, _ => by rw [mask,mask]
  | .int n, _ => by rw [mask,mask]
  | .float x, _ => by rw [mask,mask]
theorem maskItemsTwice (settled : Settled cover leaf) : ∀ items,
    (∀ s, .leaf s ∈ itemParts cover items → leaf (leaf s) = leaf s) →
      maskItems cover leaf (maskItems cover leaf items) = maskItems cover leaf items
  | [], _ => by rw [maskItems,maskItems]
  | j::rest, fixed => by
      rw [itemParts] at fixed
      rw [maskItems,maskItems,maskTwice settled j fun s mem => fixed s (List.mem_append_left _ mem),
        maskItemsTwice settled rest fun s mem => fixed s (List.mem_append_right _ mem)]
theorem maskMembersTwice (settled : Settled cover leaf) : ∀ m,
    (∀ s, .leaf s ∈ memberParts cover m → leaf (leaf s) = leaf s) →
      maskMembers cover leaf (maskMembers cover leaf m) = maskMembers cover leaf m
  | [], _ => by rw [maskMembers,maskMembers]
  | (key,j)::rest, fixed => by
      rw [memberParts] at fixed
      have later := maskMembersTwice settled rest fun s mem =>
        fixed s (List.mem_cons_of_mem _ (List.mem_append_right _ mem))
      rw [maskMembers,maskMembers,later]
      cases found : cover key j with
      | some v => dsimp only; rw [settled.covered found]
      | none =>
        rw [found] at fixed
        dsimp only
        rw [settled.plain found]
        dsimp only
        rw [maskTwice settled j fun s mem =>
          fixed s (List.mem_cons_of_mem _ (List.mem_append_left _ mem))]
end
end

end RedfishCtl.Json
