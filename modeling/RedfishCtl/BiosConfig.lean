import RedfishCtl.Reconcile
import RedfishCtl.Stateful

/-! The BIOS attributes that `bios-change` builds from its arguments and the attribute registry. -/
namespace RedfishCtl.BiosConfig
open AssocList
open PyText (strip)

def argumentList : Option String → List String
  | none => []
  | some text =>
      if text.length = 0 then []
      else if text.toList.contains ',' then Reconcile.splitComma text
      else [text]

section
variable (int : String → Option Int)

/- `int` is the conversion of the language, with nothing for a ValueError. -/
def registryType (k v : String) (value : Json) : Json → Except PyError Json
  | .obj currentData =>
      if .str k ∈ currentData.map Prod.snd then
        match currentData.lookup "Type" with
        | none => .error (.other "KeyError" "'Type'")
        | some type =>
            if type = .str "Integer" then
              match int v with
              | none => .error (.valueError "invalid literal for int() with base 10")
              | some n => .ok (.int n)
            else .ok value
      else .ok value
  | _ => .error (.other "AttributeError" "object has no attribute 'values'")

def typed (currentConfig : List Json) (p : String × String) : Except PyError (String × Json) := do
  let value ← currentConfig.foldlM (registryType int p.1 p.2) (.str p.2)
  pure (p.1,value)

def creteBiosConfig (currentConfig : List Json) (attrName attrVal : Option String) :
    Except PyError (List (String × Json)) :=
  if (argumentList attrName).length ≠ (argumentList attrVal).length then
    .error (.other "InvalidArgument" "Number of attribute and values mismatched.")
  else
    (((argumentList attrName).zip (argumentList attrVal)).foldl
      (fun payload p => insert (strip p.1) (strip p.2) payload) []).mapM (typed int currentConfig)

def IsInteger (entry : Json) : Prop := entry.get? "Type" = some (.str "Integer")
instance (entry : Json) : Decidable (IsInteger entry) := inferInstanceAs (Decidable (_ = _))

def IntegerEntry (registry : List Json) (name : String) : Prop :=
  ∃ entry ∈ registry, entry.get? "AttributeName" = some (.str name) ∧ IsInteger entry

def IntegerNamed (registry : List Json) (name : String) : Prop :=
  ∃ entry ∈ registry, .str name ∈ entry.members.map Prod.snd ∧ IsInteger entry

def Typed (registry : List Json) (attrName attrVal : Option String) (payload : List (String × Json)) :
    Prop :=
  keys payload = (argumentList attrName).map strip ∧
    ∀ p ∈ (argumentList attrName).zip (argumentList attrVal),
      IntegerEntry registry (strip p.1) ∧
          (∃ n, int (strip p.2) = some n ∧ payload.lookup (strip p.1) = some (.int n)) ∨
        ¬IntegerEntry registry (strip p.1) ∧ payload.lookup (strip p.1) = some (.str (strip p.2))

end

variable {int : String → Option Int} {registry : List Json}

theorem registryTypeOk {k v value after entry} (done : registryType int k v value entry = .ok after) :
    (.str k ∈ entry.members.map Prod.snd ∧ IsInteger entry ∧ ∃ n, int v = some n ∧ after = .int n) ∨
      ¬(.str k ∈ entry.members.map Prod.snd ∧ IsInteger entry) ∧ after = value := by
  unfold registryType at done
  split at done
  · next d =>
    split at done
    · next named =>
      split at done
      · cases done
      next type found =>
      split at done
      · next integer =>
        split at done
        · cases done
        · next n read =>
          exact .inl ⟨named,found.trans (congrArg some integer),n,read,(Except.ok.inj done).symm⟩
      · next other =>
        refine .inr ⟨fun both => other ?_,(Except.ok.inj done).symm⟩
        exact Option.some.inj (found.symm.trans both.2)
    · next unnamed => exact .inr ⟨fun both => unnamed both.1,(Except.ok.inj done).symm⟩
  · cases done

theorem typedFrom {k v value after}
    (done : registry.foldlM (registryType int k v) value = .ok after) :
    (IntegerNamed registry k ∧ ∃ n, int v = some n ∧ after = .int n) ∨
      ¬IntegerNamed registry k ∧ after = value := by
  by_cases known : IntegerNamed registry k
  · obtain ⟨entry,mem,named,integer⟩ := known
    refine .inl ⟨⟨entry,mem,named,integer⟩,?_⟩
    refine Stateful.foldlMEach (P := fun e t => (.str k ∈ e.members.map Prod.snd ∧ IsInteger e) →
      ∃ n, int v = some n ∧ t = .int n) (fun s e t _ step both => ?_) (fun s e t b step kept both => ?_)
      done entry mem ⟨named,integer⟩
    · obtain ⟨_,_,read⟩ | ⟨not,_⟩ := registryTypeOk step
      · exact read
      · exact absurd both not
    · obtain ⟨_,_,read⟩ | ⟨_,rfl⟩ := registryTypeOk step
      · exact read
      · exact kept both
  · refine .inr ⟨known,Stateful.foldlMKeeps (I := (· = value)) (fun s e t mem same step => ?_) rfl done⟩
    obtain ⟨named,integer,_⟩ | ⟨_,stays⟩ := registryTypeOk step
    · exact absurd ⟨e,mem,named,integer⟩ known
    · exact stays.trans same

variable {pairs : List (String × String)}

theorem typedAll {payload} (distinct : Distinct pairs)
    (done : pairs.mapM (typed int registry) = .ok payload) :
    keys payload = keys pairs ∧ ∀ p ∈ pairs,
      (IntegerNamed registry p.1 ∧ ∃ n, int p.2 = some n ∧ payload.lookup p.1 = some (.int n)) ∨
        ¬IntegerNamed registry p.1 ∧ payload.lookup p.1 = some (.str p.2) := by
  induction pairs generalizing payload with
  | nil =>
    cases Except.ok.inj done
    exact ⟨rfl,fun p mem => absurd mem List.not_mem_nil⟩
  | cons p rest ih =>
    obtain ⟨fresh,tail⟩ := List.nodup_cons.mp distinct
    rw [List.mapM_cons] at done
    obtain ⟨q,first,later⟩ := Stateful.okOfBind done
    obtain ⟨others,mapped,last⟩ := Stateful.okOfBind later
    obtain ⟨value,converted,built⟩ := Stateful.okOfBind first
    cases Except.ok.inj built
    cases Except.ok.inj last
    obtain ⟨same,each⟩ := ih tail mapped
    refine ⟨congrArg (p.1 :: ·) same,fun other mem => ?_⟩
    rw [lookupCons]
    obtain rfl | later := List.mem_cons.mp mem
    · rw [if_pos rfl]
      obtain ⟨known,n,read,rfl⟩ | ⟨not,rfl⟩ := typedFrom converted
      · exact .inl ⟨known,n,read,rfl⟩
      · exact .inr ⟨not,rfl⟩
    · have apart : other.1 ≠ p.1 := fun equal => fresh (equal ▸ List.mem_map_of_mem later)
      rw [if_neg apart]
      exact each other later

theorem trimmedDict (before : List (String × String))
    (distinct : Distinct (before ++ pairs.map fun p => (strip p.1,strip p.2))) :
    pairs.foldl (fun payload p => insert (strip p.1) (strip p.2) payload) before =
      before ++ pairs.map fun p => (strip p.1,strip p.2) := by
  induction pairs generalizing before with
  | nil => exact (List.append_nil _).symm
  | cons p rest ih =>
    have absent : strip p.1 ∉ keys before := by
      rw [Distinct,keys,List.map_append] at distinct
      exact fun mem => (List.nodup_append.mp distinct).2.2 _ mem _ List.mem_cons_self rfl
    rw [List.map_cons,List.append_cons] at distinct ⊢
    rw [List.foldl_cons,insertAbsent absent,ih _ distinct]

def countRegistry : List Json :=
  [.obj [("AttributeName",.str "NumLock"),("Type",.str "Enumeration")],
   .obj [("AttributeName",.str "Count"),("DisplayName",.str "NumLock"),("Type",.str "Integer")]]

end RedfishCtl.BiosConfig
