import RedfishCtl.JsonSet

/-! Containment of a pattern in a request body as a preorder, and bodies that have grown. -/
namespace RedfishCtl.Json
open AssocList

/- A value as json.loads gives it, without NaN. -/
inductive Proper : Json → Prop where
  | null : Proper .null
  | bool (b) : Proper (.bool b)
  | int (n) : Proper (.int n)
  | float {x} (number : x ≠ .nan) : Proper (.float x)
  | str (s) : Proper (.str s)
  | arr {items : List Json} (each : ∀ j ∈ items, Proper j) : Proper (.arr items)
  | obj {m : List (String × Json)} (distinct : Distinct m) (each : ∀ p ∈ m, Proper p.2) : Proper (.obj m)

/- The second value is the first with members added to objects and elements appended to lists, at any
depth: what the first has is there under the same key or index, grown itself. -/
inductive Grown : Json → Json → Prop where
  | same (j) : Grown j j
  | arr {xs ys : List Json} (into : Nat → Json) (found : ∀ i x, xs[i]? = some x → ys[i]? = some (into i))
      (each : ∀ i x, xs[i]? = some x → Grown x (into i)) : Grown (.arr xs) (.arr ys)
  | obj {m n : List (String × Json)} (into : String → Json)
      (found : ∀ p ∈ m, n.lookup p.1 = some (into p.1))
      (each : ∀ p ∈ m, Grown p.2 (into p.1)) : Grown (.obj m) (.obj n)

/- What decides about the equality of two values that are no containers. -/
inductive Scalar where
  | null
  | text (s : String)
  | rational (q : ℚ)
  | infinite (negative : Bool)

def scalar : Json → Option Scalar
  | .null => some .null
  | .str s => some (.text s)
  | .bool b => some (.rational (if b then 1 else 0))
  | .int n => some (.rational n)
  | .float (.finite x) => some (.rational x.value)
  | .float (.infinity s) => some (.infinite s)
  | .float .nan => none
  | .arr _ => none
  | .obj _ => none

def container : Json → Bool
  | .arr _ => true
  | .obj _ => true
  | _ => false

theorem pyEqScalar {a c} (plain : container c = false) :
    pyEq a c = true ↔ ∃ k, scalar a = some k ∧ scalar c = some k := by
  cases c with
  | arr _ => cases plain
  | obj _ => cases plain
  | float y =>
    cases y <;> cases a with
    | float x => cases x <;> simp [pyEq,scalar,number,sameNumber,eq_comm]
    | _ => simp [pyEq,scalar,number,sameNumber,eq_comm]
  | _ =>
    cases a with
    | float x => cases x <;> simp [pyEq,scalar,number,sameNumber,eq_comm]
    | _ => simp [pyEq,scalar,number,sameNumber,eq_comm]

theorem containsScalar {a c} (plain : container c = false) : bodyContains a c = pyEq a c := by
  cases c with
  | arr _ => cases plain
  | obj _ => cases plain
  | _ => rfl

theorem containsObj {a m} : bodyContains a (.obj m) = true ↔
    ∃ n, a = .obj n ∧ ∀ p ∈ m, ∃ y, n.lookup p.1 = some y ∧ bodyContains y p.2 = true := by
  have members (n) : containsMembers n m = true ↔
      ∀ p ∈ m, ∃ y, n.lookup p.1 = some y ∧ bodyContains y p.2 = true := by
    induction m with
    | nil => simp [containsMembers]
    | cons p rest ih =>
      rw [containsMembers,Bool.and_eq_true,ih,List.forall_mem_cons]
      cases n.lookup p.1 <;> simp
  cases a with
  | obj n => simp [bodyContains,members]
  | _ => simp [bodyContains]

theorem containsArr {a xs} : bodyContains a (.arr xs) = true ↔ ∃ ys, a = .arr ys ∧
    ∀ (i : ℕ) x, xs[i]? = some x → ∃ y, ys[i]? = some y ∧ bodyContains y x = true := by
  have items (ys) : containsItems ys xs = true ↔
      ∀ (i : ℕ) x, xs[i]? = some x → ∃ y, ys[i]? = some y ∧ bodyContains y x = true := by
    induction xs generalizing ys with
    | nil => simp [containsItems]
    | cons x xs ih =>
      cases ys with
      | nil =>
        refine ⟨(by cases ·),fun all => ?_⟩
        obtain ⟨y,absent,-⟩ := all 0 x rfl
        cases absent
      | cons y ys =>
        rw [containsItems,Bool.and_eq_true,ih]
        refine ⟨fun ⟨head,tail⟩ i => ?_,fun all => ⟨?_,fun i => all (i+1)⟩⟩
        · cases i with
          | zero => simpa using head
          | succ i => exact tail i
        · simpa using all 0 x rfl
  cases a with
  | arr ys => simp [bodyContains,items]
  | _ => simp [bodyContains]

theorem containsRefl {j} (proper : Proper j) : bodyContains j j = true := by
  induction proper with
  | arr each ih => exact containsArr.mpr ⟨_,rfl,fun i x at_ => ⟨x,at_,ih x (List.mem_of_getElem? at_)⟩⟩
  | obj distinct each ih =>
    exact containsObj.mpr ⟨_,rfl,fun p mem => ⟨p.2,lookupOfMem distinct mem,ih p mem⟩⟩
  | @float x number =>
    rw [containsScalar rfl,pyEqScalar rfl]
    cases x with
    | nan => exact absurd rfl number
    | _ => exact ⟨_,rfl,rfl⟩
  | _ =>
    rw [containsScalar rfl,pyEqScalar rfl]
    exact ⟨_,rfl,rfl⟩

theorem scalarPlain {j k} (some : scalar j = some k) : container j = false := by
  cases j with
  | arr _ => cases some
  | obj _ => cases some
  | _ => rfl

theorem containsTrans {a b c} (proper : Proper c) (first : bodyContains a b = true)
    (second : bodyContains b c = true) : bodyContains a c = true := by
  induction proper generalizing a b with
  | arr each ih =>
    obtain ⟨ys,rfl,inner⟩ := containsArr.mp second
    obtain ⟨zs,rfl,outer⟩ := containsArr.mp first
    refine containsArr.mpr ⟨zs,rfl,fun i x at_ => ?_⟩
    obtain ⟨y,there,holds⟩ := inner i x at_
    obtain ⟨z,found,contains⟩ := outer i y there
    exact ⟨z,found,ih x (List.mem_of_getElem? at_) contains holds⟩
  | obj distinct each ih =>
    obtain ⟨n,rfl,inner⟩ := containsObj.mp second
    obtain ⟨o,rfl,outer⟩ := containsObj.mp first
    refine containsObj.mpr ⟨o,rfl,fun p mem => ?_⟩
    obtain ⟨y,there,holds⟩ := inner p mem
    obtain ⟨z,found,contains⟩ := outer _ (lookupMem there)
    exact ⟨z,found,ih p mem contains holds⟩
  | _ =>
    rw [containsScalar rfl,pyEqScalar rfl] at second ⊢
    obtain ⟨k,middle,last⟩ := second
    have plain := scalarPlain middle
    rw [containsScalar plain,pyEqScalar plain] at first
    obtain ⟨k',start,same⟩ := first
    exact ⟨k',start,by rw [last,← middle,same]⟩

theorem grownContains {a b} (proper : Proper a) (grown : Grown a b) : bodyContains b a = true := by
  induction grown with
  | same j => exact containsRefl proper
  | arr into found each ih =>
    cases proper with
    | arr all =>
      refine containsArr.mpr ⟨_,rfl,fun i x at_ => ⟨into i,found i x at_,?_⟩⟩
      exact ih i x at_ (all x (List.mem_of_getElem? at_))
  | obj into found each ih =>
    cases proper with
    | obj distinct all =>
      exact containsObj.mpr ⟨_,rfl,fun p mem => ⟨into p.1,found p mem,ih p mem (all p mem)⟩⟩

theorem bodyMatching : (∀ j, Proper j → bodyContains j j = true) ∧
    (∀ a b c, Proper c → bodyContains a b = true → bodyContains b c = true →
      bodyContains a c = true) ∧
    ∀ body grown pattern, Proper body → Proper pattern → bodyContains body pattern = true →
      Grown body grown → bodyContains grown pattern = true :=
  ⟨fun _ => containsRefl,fun _ _ _ => containsTrans,
    fun _ _ _ proper patternProper contains grown =>
      containsTrans patternProper (grownContains proper grown) contains⟩

theorem powerMatching : bodyContains (.obj [("Reset",.str "On"),("Delay",.int 3)])
    (.obj [("Reset",.str "On")]) = true := by
  have proper : Proper (.obj [("Reset",.str "On")]) :=
    .obj (by decide) fun p mem => by
      rw [List.mem_singleton.mp mem]
      exact .str _
  refine bodyMatching.2.2 _ _ _ proper proper (bodyMatching.1 _ proper) (.obj (fun _ => .str "On") ?_ ?_)
  · decide
  · intro p mem
    rw [List.mem_singleton.mp mem]
    exact .same _

variable {target overlay : List (String × Json)}

theorem overlaidContains (f : Option Json) {v} (proper : Proper v) : bodyContains (overlaid f v) v = true := by
  have whole := containsRefl proper
  induction proper generalizing f with
  | @obj overlay distinct each ih =>
    rcases f with _ | (_ | _ | _ | _ | _ | _ | target)
    case some.obj =>
      rw [overlaidObj,containsObj]
      refine ⟨_,rfl,fun p mem => ⟨_,?_,ih p mem (target.lookup p.1) (containsRefl (each p mem))⟩⟩
      rw [deepUpdateLookup distinct,lookupOfMem distinct mem]
      rfl
    all_goals exact whole
  | _ => exact whole

theorem deepUpdateSame
    (same : ∀ p ∈ overlay, ∃ x, target.lookup p.1 = some x ∧ overlaid (some x) p.2 = x) :
    deepUpdate target overlay = target := by
  induction overlay with
  | nil => rw [deepUpdateNil]
  | cons p rest ih =>
    obtain ⟨x,found,fixed⟩ := same p List.mem_cons_self
    rw [deepUpdateCons,found,fixed,insertSame found,ih fun q mem => same q (List.mem_cons_of_mem _ mem)]

theorem overlaidTwice (f : Option Json) {v} (proper : Proper v) :
    overlaid (some (overlaid f v)) v = overlaid f v := by
  induction proper generalizing f with
  | @obj overlay distinct each ih =>
    have self : overlaid (some (.obj overlay)) (.obj overlay) = .obj overlay := by
      rw [overlaidObj,deepUpdateSame fun p mem => ⟨p.2,lookupOfMem distinct mem,?_⟩]
      have plain : overlaid none p.2 = p.2 := overlaidPlain (fun _ same => by cases same) _
      have own := ih p mem none
      rwa [plain] at own
    rcases f with _ | (_ | _ | _ | _ | _ | _ | target)
    case some.obj =>
      rw [overlaidObj,overlaidObj,deepUpdateSame fun p mem => ⟨_,?_,ih p mem (target.lookup p.1)⟩]
      rw [deepUpdateLookup distinct,lookupOfMem distinct mem]
      rfl
    all_goals exact self
  | _ => rfl

/- What a GET serves contains the overlay, and everything that the overlay contains; merging the
overlay once more changes nothing. -/
theorem overlayServed (target : List (String × Json)) (proper : Proper (.obj overlay)) :
    bodyContains (.obj (deepUpdate target overlay)) (.obj overlay) = true ∧
    (∀ pattern, Proper pattern → bodyContains (.obj overlay) pattern = true →
      bodyContains (.obj (deepUpdate target overlay)) pattern = true) ∧
    deepUpdate (deepUpdate target overlay) overlay = deepUpdate target overlay := by
  have contains := overlaidContains (some (.obj target)) proper
  have twice := overlaidTwice (some (.obj target)) proper
  simp only [overlaidObj,obj.injEq] at contains twice
  exact ⟨contains,fun pattern other => containsTrans other contains,twice⟩

theorem resetServed : bodyContains (.obj (deepUpdate [("Reset",.str "Off")] [("Reset",.str "On")]))
    (.obj [("Reset",.str "On")]) = true :=
  (overlayServed _ (.obj (by decide) fun p mem => List.mem_singleton.mp mem ▸ .str _)).1

end RedfishCtl.Json
