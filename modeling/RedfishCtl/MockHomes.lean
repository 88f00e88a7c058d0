import RedfishCtl.MockAliases
import RedfishCtl.MockPlaces

/-! Where set transitions put dictionaries. In a specification without aliases each
dictionary that a set transition stores has one place in the overlay of one resource. -/
namespace RedfishCtl.MockEngine
open MockOverlay
open AssocList (Distinct lookupMem)
open PyUrl (normalizeRequestPath)
open Json (deepUpdate overlaid setAt replaces)

structure SetStep where
  resource : String
  parts : List String
  value : PyVal

def setOf (h : Heap) (transition : PyVal) : Option SetStep :=
  match field h transition "op", field h transition "path" with
  | some (.str "set"), some (.str resourcePath) =>
      match normalizeRequestPath resourcePath, pathParts (keysOf h transition) with
      | .ok resource, .ok (key::rest) =>
          some ⟨resource,key::rest,(field h transition "value").getD .null⟩
      | _, _ => none
  | _, _ => none

def Listed (spec : Specification) (transition : PyVal) : Prop :=
  ∃ rule ∈ spec.entries, transition ∈ transitionsOf spec.heap rule

inductive Home (spec : Specification) : Nat → String → List String → Prop where
  | value {t set c} (listed : Listed spec t) (sets : setOf spec.heap t = some set)
      (stored : set.value = .dict c) : Home spec c set.resource set.parts
  | member {r resource keys key c} (above : Home spec r resource keys)
      (mem : (key,.dict c) ∈ spec.heap.cell r) : Home spec c resource (keys ++ [key])

inductive Inside (spec : Specification) : Nat → Prop where
  | value {t set r} (listed : Listed spec t) (sets : setOf spec.heap t = some set)
      (plain : ∀ c, set.value ≠ .dict c) (among : r ∈ set.value.refs) : Inside spec r
  | member {r resource keys key v c} (above : Home spec r resource keys)
      (mem : (key,v) ∈ spec.heap.cell r) (plain : ∀ c, v ≠ .dict c) (among : c ∈ v.refs) :
      Inside spec c
  | deeper {r c} (above : Inside spec r) (among : c ∈ Entries.refs (spec.heap.cell r)) :
      Inside spec c

section
variable {spec : Specification} {set : SetStep}

theorem setOfDict {h t} (sets : setOf h t = some set) : ∃ q, t = .dict q := by
  cases t with
  | dict q => exact ⟨q,rfl⟩
  | _ => simp [setOf,field] at sets

theorem setOfParts {h t} (sets : setOf h t = some set) : set.parts ≠ [] := by
  unfold setOf at sets
  split at sets
  · split at sets
    · cases sets
      simp
    · simp at sets
  · simp at sets

theorem setOfValue {h q} (sets : setOf h (.dict q) = some set) {r} (among : r ∈ set.value.refs) :
    ("value",set.value) ∈ h.cell q := by
  have value : set.value = (field h (.dict q) "value").getD .null := by
    unfold setOf at sets
    split at sets
    · split at sets
      · cases sets
        rfl
      · simp at sets
    · simp at sets
  cases found : field h (.dict q) "value" with
  | none => simp [value,found,PyVal.refs] at among
  | some v =>
    rw [value,found]
    exact lookupMem found

theorem listedPlace {q} (listed : Listed spec (.dict q)) :
    ∃ p items, .dict p ∈ spec.entries ∧ ("state_transitions",.list items) ∈ spec.heap.cell p ∧
      q ∈ (PyVal.list items).refs := by
  obtain ⟨rule,mem,transition⟩ := listed
  unfold transitionsOf at transition
  split at transition
  · rename_i items all
    cases rule with
    | dict p =>
      refine ⟨p,items,mem,lookupMem all,?_⟩
      exact PyVal.refsItemsMem.mpr ⟨_,transition,by simp [PyVal.refs]⟩
    | _ => simp [field] at all
  · simp at transition

theorem dictRefs (c : Nat) : c ∈ (PyVal.dict c).refs := by simp [PyVal.refs]

variable {c : Nat} {resource : String} {keys : List String}

theorem homeEntry (home : Home spec c resource keys) :
    ∃ r key, (key,.dict c) ∈ spec.heap.cell r ∧
      ((key = "value" ∧ Listed spec (.dict r) ∧
          ∃ set, setOf spec.heap (.dict r) = some set ∧ resource = set.resource ∧ keys = set.parts) ∨
        ∃ above, Home spec r resource above ∧ keys = above ++ [key]) := by
  cases home with
  | @value t set _ listed sets stored =>
    obtain ⟨q,rfl⟩ := setOfDict sets
    have entry := setOfValue sets (stored ▸ dictRefs c)
    rw [stored] at entry
    exact ⟨q,"value",entry,.inl ⟨rfl,listed,set,sets,rfl,rfl⟩⟩
  | @member r _ above key _ before mem => exact ⟨r,key,mem,.inr ⟨above,before,rfl⟩⟩

theorem insideEntry (inside : Inside spec c) :
    ∃ r key v, (key,v) ∈ spec.heap.cell r ∧ c ∈ v.refs ∧
      ((key = "value" ∧ Listed spec (.dict r) ∧ ∀ q, v ≠ .dict q) ∨
        (∃ resource above, Home spec r resource above ∧ ∀ q, v ≠ .dict q) ∨ Inside spec r) := by
  cases inside with
  | @value t set _ listed sets plain among =>
    obtain ⟨q,rfl⟩ := setOfDict sets
    exact ⟨q,"value",_,setOfValue sets among,among,.inl ⟨rfl,listed,plain⟩⟩
  | @member r resource keys key v _ above mem plain among =>
    exact ⟨r,key,v,mem,among,.inr (.inl ⟨resource,keys,above,plain⟩)⟩
  | @deeper r _ above among =>
    obtain ⟨⟨key,v⟩,mem,inner⟩ := Entries.refsMem.mp among
    exact ⟨r,key,v,mem,inner,.inr (.inr above)⟩

variable (unshared : Unshared spec)
include unshared

theorem homeBelow (home : Home spec c resource keys) : .dict c ∉ spec.entries := by
  obtain ⟨r,key,mem,-⟩ := homeEntry home
  exact occursBelow unshared ⟨_,mem,dictRefs c⟩

theorem insideBelow (inside : Inside spec c) : .dict c ∉ spec.entries := by
  obtain ⟨r,key,v,mem,among,-⟩ := insideEntry inside
  exact occursBelow unshared ⟨v,mem,among⟩

theorem listedAway {q} (listed : Listed spec (.dict q)) :
    (∀ resource keys, ¬ Home spec q resource keys) ∧ ¬ Inside spec q := by
  obtain ⟨p,items,top,entry,inList⟩ := listedPlace listed
  refine ⟨fun resource keys home => ?_,fun inside => ?_⟩
  · obtain ⟨r,key,mem,-⟩ := homeEntry home
    have same := (entryOnce unshared mem (dictRefs q) entry inList).2
    simp at same
  obtain ⟨r,key,v,mem,among,source⟩ := insideEntry inside
  obtain ⟨rfl,same⟩ := entryOnce unshared mem among entry inList
  rcases source with ⟨value,-,-⟩ | ⟨resource,above,home,-⟩ | above
  · simp [value] at same
  · exact homeBelow unshared home top
  · exact insideBelow unshared above top

theorem homeUnique {resource' keys'} (one : Home spec c resource keys)
    (other : Home spec c resource' keys') : resource = resource' ∧ keys = keys' := by
  induction one generalizing resource' keys' with
  | @value t set c listed sets stored =>
    obtain ⟨q,rfl⟩ := setOfDict sets
    have entry := setOfValue sets (stored ▸ dictRefs c)
    obtain ⟨r,key,mem,source⟩ := homeEntry other
    obtain ⟨rfl,same⟩ := entryOnce unshared mem (dictRefs c) entry (stored ▸ dictRefs c)
    rcases source with ⟨-,-,set',sets',rfl,rfl⟩ | ⟨above,home,-⟩
    · cases Option.some.inj (sets.symm.trans sets')
      exact ⟨rfl,rfl⟩
    · exact absurd home ((listedAway unshared listed).1 _ _)
  | @member r resource keys key c above mem ih =>
    obtain ⟨r',key',mem',source⟩ := homeEntry other
    obtain ⟨rfl,same⟩ := entryOnce unshared mem (dictRefs c) mem' (dictRefs c)
    rcases source with ⟨-,listed,-⟩ | ⟨above',home,rfl⟩
    · exact absurd above ((listedAway unshared listed).1 _ _)
    · obtain ⟨rfl,rfl⟩ := ih home
      exact ⟨rfl,by rw [(Prod.mk.inj same).1]⟩

theorem insideAway (inside : Inside spec c) : ∀ resource keys, ¬ Home spec c resource keys := by
  induction inside with
  | @value t set c listed sets plain among =>
    intro resource keys home
    obtain ⟨q,rfl⟩ := setOfDict sets
    obtain ⟨r,key,mem,-⟩ := homeEntry home
    have same := (entryOnce unshared (setOfValue sets among) among mem (dictRefs c)).2
    exact plain c (Prod.mk.inj same).2
  | @member r resource keys key v c above mem plain among =>
    intro resource' keys' home
    obtain ⟨r',key',mem',-⟩ := homeEntry home
    have same := (entryOnce unshared mem among mem' (dictRefs c)).2
    exact plain c (Prod.mk.inj same).2
  | @deeper r c above among ih =>
    intro resource keys home
    obtain ⟨⟨key,v⟩,mem,inner⟩ := Entries.refsMem.mp among
    obtain ⟨r',key',mem',source⟩ := homeEntry home
    obtain ⟨rfl,-⟩ := entryOnce unshared mem inner mem' (dictRefs c)
    rcases source with ⟨-,listed,-⟩ | ⟨above',home,-⟩
    · exact (listedAway unshared listed).2 above
    · exact ih _ _ home

end

open Classical in
noncomputable def home (spec : Specification) (r : Nat) : Place :=
  if found : ∃ place : String × List String, Home spec r place.1 place.2 then
    .overlay found.choose.1 found.choose.2
  else if Inside spec r then .list
  else .outside

section
variable {spec : Specification} {r : Nat}

theorem homeOf {resource keys} (stands : home spec r = .overlay resource keys) :
    Home spec r resource keys := by
  unfold home at stands
  split at stands
  · rename_i found
    cases stands
    exact found.choose_spec
  · split at stands <;> simp at stands

theorem insideOf (stands : home spec r = .list) : Inside spec r := by
  unfold home at stands
  split at stands
  · simp at stands
  · split at stands
    · assumption
    · simp at stands

variable (unshared : Unshared spec)
include unshared

theorem homeAt {resource keys} (place : Home spec r resource keys) :
    home spec r = .overlay resource keys := by
  have found : ∃ place : String × List String, Home spec r place.1 place.2 := ⟨(resource,keys),place⟩
  obtain ⟨same,same'⟩ := homeUnique unshared found.choose_spec place
  rw [home,dif_pos found,same,same']

theorem homeList (inside : Inside spec r) : home spec r = .list := by
  have away : ¬ ∃ place : String × List String, Home spec r place.1 place.2 :=
    fun ⟨place,stands⟩ => insideAway unshared inside _ _ stands
  rw [home,dif_neg away,if_pos inside]

theorem homeTransition {q} (listed : Listed spec (.dict q)) (resource : String) (keys : List String) :
    home spec q ≠ .overlay resource keys :=
  fun stands => (listedAway unshared listed).1 _ _ (homeOf stands)

theorem placedSpecification : Placed (home spec) spec.heap := by
  refine ⟨?_,?_,fun r => cellKnown r,?_⟩
  · intro r resource keys stands p mem
    obtain ⟨key,v⟩ := p
    have above := homeOf stands
    by_cases dict : ∃ c, v = .dict c
    · obtain ⟨c,rfl⟩ := dict
      exact homeAt unshared (.member above mem)
    · have plain : ∀ c, v ≠ .dict c := not_exists.mp dict
      exact fitsPlain plain fun c among => homeList unshared (.member above mem plain among)
  · intro r stands c among
    exact homeList unshared (.deeper (insideOf stands) among)
  · intro r
    unfold Heap.cell
    cases found : spec.heap.cells[r]? with
    | none => exact List.nodup_nil
    | some m => exact spec.distinct m (List.mem_of_getElem? found)

theorem setFits {t set} (listed : Listed spec t) (sets : setOf spec.heap t = some set) :
    Fits (home spec) set.resource set.parts set.value := by
  by_cases dict : ∃ c, set.value = .dict c
  · obtain ⟨c,stored⟩ := dict
    rw [stored]
    exact homeAt unshared (.value listed sets stored)
  · have plain := not_exists.mp dict
    exact fitsPlain plain fun r among => homeList unshared (.value listed sets plain among)

end
end RedfishCtl.MockEngine
