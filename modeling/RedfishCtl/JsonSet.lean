import RedfishCtl.JsonOverlay

/-! Setting a value at a path of a document, and how far it can be done in an overlay that is
merged into the document later. -/
namespace RedfishCtl.Json
open AssocList

/- Replace the value at the path; what is no object on the way becomes one. -/
def setAt (target : Json) : List String → Json → Json
  | [], v => v
  | key::rest, v =>
      .obj (insert key (setAt ((target.get? key).getD (.obj [])) rest v) target.members)

theorem setAtCons (target : Json) (key : String) (rest : List String) (v : Json) :
    setAt target (key::rest) v =
      .obj (insert key (setAt ((target.get? key).getD (.obj [])) rest v) target.members) := rfl

def merged (f : Option Json) : Option Json → Option Json
  | none => f
  | some o => some (overlaid f o)

theorem overlaidObj (f : List (String × Json)) (o : List (String × Json)) :
    overlaid (some (.obj f)) (.obj o) = .obj (deepUpdate f o) := by rw [overlaid]

variable {f : Option Json}

theorem overlaidPlain (plain : ∀ m, f ≠ some (.obj m)) (v : Json) : overlaid f v = v := by
  cases v with
  | obj m =>
    rw [overlaid]
    exact fun target same => plain target same
  | _ => rw [overlaid]

theorem overlaidValue (f : Option Json) {v} (plain : v.isObj = false) : overlaid f v = v := by
  cases v with
  | obj m => simp [isObj] at plain
  | _ => rw [overlaid]

theorem deepUpdateCons (target : List (String × Json)) (key : String) (v : Json) (rest) :
    deepUpdate target ((key,v)::rest) =
      deepUpdate (insert key (overlaid (target.lookup key) v) target) rest := by rw [deepUpdate]

theorem deepUpdateNil (target : List (String × Json)) : deepUpdate target [] = target := by
  rw [deepUpdate]

variable {overlay : List (String × Json)}

theorem deepUpdateLookup (distinct : Distinct overlay)
    (target : List (String × Json)) (key : String) :
    (deepUpdate target overlay).lookup key = merged (target.lookup key) (overlay.lookup key) := by
  induction overlay generalizing target with
  | nil => simp [deepUpdateNil,merged]
  | cons p rest ih =>
    obtain ⟨k,v⟩ := p
    obtain ⟨fresh,tail⟩ := List.nodup_cons.mp distinct
    rw [deepUpdateCons,ih tail]
    by_cases same : key = k
    · subst same
      have gone : rest.lookup key = none := lookupNone.mpr fresh
      simp [gone,merged]
    · simp [same]

theorem insertDeepUpdate {key target} (present : key ∈ keys target) (absent : key ∉ keys overlay)
    (v : Json) : insert key v (deepUpdate target overlay) = deepUpdate (insert key v target) overlay := by
  induction overlay generalizing target with
  | nil => simp only [deepUpdateNil]
  | cons p rest ih =>
    obtain ⟨k,w⟩ := p
    have different : key ≠ k := fun same => absent (by simp [keys,same])
    have later : key ∉ keys rest := fun mem => absent (List.mem_cons_of_mem k mem)
    have still : key ∈ keys (insert k (overlaid (target.lookup k) w) target) :=
      (memKeysInsert k key _ target).mpr (.inr present)
    rw [deepUpdateCons,deepUpdateCons,ih still later,insertComm v _ different present,lookupInsert,
      if_neg (Ne.symm different)]

theorem deepUpdateInsert (distinct : Distinct overlay)
    (target : List (String × Json)) (key : String) (v : Json) :
    deepUpdate target (insert key v overlay) =
      insert key (overlaid (target.lookup key) v) (deepUpdate target overlay) := by
  induction overlay generalizing target with
  | nil => simp only [AssocList.insert,deepUpdateCons,deepUpdateNil]
  | cons p rest ih =>
    obtain ⟨k,w⟩ := p
    obtain ⟨fresh,tail⟩ := List.nodup_cons.mp distinct
    by_cases same : k = key
    · subst same
      have present : k ∈ keys (insert k (overlaid (target.lookup k) w) target) :=
        (memKeysInsert k k _ target).mpr (.inl rfl)
      rw [AssocList.insert,if_pos rfl,deepUpdateCons,deepUpdateCons,insertDeepUpdate present fresh,insertInsert]
    · rw [AssocList.insert,if_neg same,deepUpdateCons,deepUpdateCons,ih tail,lookupInsert,
        if_neg (Ne.symm same)]

def DistinctAlong (o : Option Json) : List String → Prop
  | [] => True
  | key::rest => match o with
      | some (.obj m) => Distinct m ∧ DistinctAlong (m.lookup key) rest
      | _ => True

/- Whether a set through the overlay replaces what is read: not when an object is set over an object
of the fixture, nor when the path goes through an overlay value that hides an object of the fixture. -/
def replaces (f o : Option Json) : List String → Json → Bool
  | [], v => overlaid f v = v
  | key::rest, v => match f, o with
      | some (.obj target), some (.obj m) => replaces (target.lookup key) (m.lookup key) rest v
      | some (.obj target), none => replaces (target.lookup key) none rest v
      | some (.obj _), some _ => overlaid f (setAt (.obj []) (key::rest) v) = setAt (.obj []) (key::rest) v
      | _, _ => true

theorem setAtPlain {target} (plain : target.isObj = false) (key : String) (rest : List String)
    (v : Json) : setAt target (key::rest) v = setAt (.obj []) (key::rest) v := by
  cases target with
  | obj m => simp [isObj] at plain
  | _ => rfl

theorem setAtFixture (plain : ∀ m, f ≠ some (.obj m)) (key : String)
    (rest : List String) (v : Json) :
    setAt (f.getD (.obj [])) (key::rest) v = setAt (.obj []) (key::rest) v := by
  cases f with
  | none => rfl
  | some j =>
    cases j with
    | obj m => exact absurd rfl (plain m)
    | _ => rfl

theorem mergedSet {o parts v} (distinct : DistinctAlong o parts)
    (direct : replaces f o parts v = true) :
    overlaid f (setAt (o.getD (.obj [])) parts v) =
      setAt ((merged f o).getD (.obj [])) parts v := by
  induction parts generalizing f o with
  | nil => simpa [replaces,setAt] using direct
  | cons key rest ih =>
    by_cases plain : ∀ m, f ≠ some (.obj m)
    · rw [overlaidPlain plain]
      cases o with
      | none => exact (setAtFixture plain key rest v).symm
      | some j => simp only [merged,overlaidPlain plain,Option.getD_some]
    push Not at plain
    obtain ⟨target,rfl⟩ := plain
    cases o with
    | none =>
      have below := ih (f := target.lookup key) (o := none) (by cases rest <;> trivial)
        (by simpa only [replaces] using direct)
      simp only [Option.getD_none,merged] at below
      simp [merged,setAt,getObj,membersObj,AssocList.insert,overlaidObj,deepUpdateCons,deepUpdateNil,below]
    | some j =>
      by_cases object : j.isObj = true
      · cases j with
        | obj m =>
          obtain ⟨here,deeper⟩ := distinct
          have below := ih (f := target.lookup key) (o := m.lookup key) deeper
            (by simpa only [replaces] using direct)
          have whole : merged (some (.obj target)) (some (.obj m)) =
              some (.obj (deepUpdate target m)) := by rw [merged,overlaidObj]
          rw [whole]
          simp only [Option.getD_some,setAt,getObj,membersObj,overlaidObj]
          rw [deepUpdateInsert here,below,deepUpdateLookup here]
        | _ => simp [isObj] at object
      · have plain : j.isObj = false := by simpa using object
        simp only [Option.getD_some,merged,overlaidValue _ plain]
        rw [setAtPlain plain]
        cases j with
        | obj m => simp [isObj] at plain
        | _ => simpa [replaces] using direct

end RedfishCtl.Json
