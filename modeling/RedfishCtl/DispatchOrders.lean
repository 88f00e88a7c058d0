import Mathlib.Data.List.Find
import RedfishCtl.Dispatch

/-! What class statements keep of a package: the precedence orders agree, a manager with the marker
has a registry of its own, and a command is registered with the first registry of its order. -/
namespace RedfishCtl.Dispatch.Package
open AssocList (lookupInsert)

variable {κ : Type} {p : Package κ}

variable {c : String} {m : List String}

theorem orderOfLookup (found : p.orders.lookup c = some m) : p.order c = m := by
  rw [order,found]
  rfl

theorem composedOk {manager command R} (done : p.composeRuntimeCommand manager command = .ok R) :
    (R = .plain command ∧ manager ∈ p.order command) ∨
    (R = .composed manager command ∧ p.Merged [command,manager] (p.ancestors R)) := by
  unfold composeRuntimeCommand at done
  split at done
  · rename_i derived
    cases done
    exact .inl ⟨rfl,derived⟩
  obtain ⟨l,merged,done⟩ := Stateful.okOfBind done
  cases done
  refine .inr ⟨rfl,?_⟩
  rw [ancestors,merged]
  exact precedenceOk merged

theorem composeExact {manager command} :
    p.composeRuntimeCommand manager command = .ok (.plain command) ↔
      manager ∈ p.order command := by
  constructor
  · intro done
    rcases composedOk done with ⟨_,derived⟩ | ⟨other,_⟩
    · exact derived
    · cases other
  · intro derived
    rw [composeRuntimeCommand,if_pos derived]

/- Orders start with their class, repeat nothing, contain the orders of their classes and reach
`RedfishManager`. -/
structure Ordered (p : Package κ) : Prop where
  start : p.orders.lookup root = some [root]
  own : ∀ {c m}, p.orders.lookup c = some m → m.head? = some c
  once : ∀ {c m}, p.orders.lookup c = some m → m.Nodup
  inherits : ∀ {c d m}, p.orders.lookup c = some m → d ∈ m →
    ∃ n, p.orders.lookup d = some n ∧ n.Sublist m
  rooted : ∀ {c m}, p.orders.lookup c = some m → root ∈ m

variable {order : List String}

theorem mergedSource {bases} (ordered : p.Ordered) (merged : p.Merged bases order) (mem : c ∈ order) :
    ∃ b ∈ bases, ∃ m, p.orders.lookup b = some m ∧ c ∈ m := by
  rcases merged.source mem with direct | inherited
  · obtain ⟨m,found,_⟩ := merged.keeps direct
    exact ⟨c,direct,m,found,List.mem_of_head? (ordered.own found)⟩
  · exact inherited

theorem mergedInherits {bases} (ordered : p.Ordered) (merged : p.Merged bases order)
    (mem : c ∈ order) : ∃ n, p.orders.lookup c = some n ∧ n.Sublist order := by
  obtain ⟨b,base,m,found,inside⟩ := mergedSource ordered merged mem
  obtain ⟨n,known,part⟩ := ordered.inherits found inside
  obtain ⟨m',found',whole⟩ := merged.keeps base
  cases Option.some.inj (found.symm.trans found')
  exact ⟨n,known,part.trans whole⟩

theorem initialOrder
    (found : (initial : Package κ).orders.lookup c = some m) : c = root ∧ m = [root] := by
  obtain ⟨rfl,rfl⟩ : c = root ∧ [root] = m := by simpa [initial] using found
  exact ⟨rfl,rfl⟩

theorem orderedInitial : (initial : Package κ).Ordered where
  start := rfl
  own := by
    intro c m found
    obtain ⟨rfl,rfl⟩ := initialOrder found
    rfl
  once := by
    intro c m found
    obtain ⟨rfl,rfl⟩ := initialOrder found
    exact List.nodup_singleton root
  inherits := by
    intro c d m found mem
    obtain ⟨rfl,rfl⟩ := initialOrder found
    cases List.mem_singleton.mp mem
    exact ⟨_,found,List.Sublist.refl _⟩
  rooted := by
    intro c m found
    obtain ⟨rfl,rfl⟩ := initialOrder found
    exact List.mem_singleton.mpr rfl

section Created

variable {p : Package κ} {s : Statement κ} {order : List String}

theorem createdLookup (c : String) : (p.created s order).orders.lookup c =
    if c = s.name then some order else p.orders.lookup c :=
  lookupInsert c s.name order p.orders

variable {m : List String}

theorem createdKeeps {c} (fresh : p.orders.lookup s.name = none)
    (found : p.orders.lookup c = some m) : (p.created s order).orders.lookup c = some m := by
  have other : c ≠ s.name := by
    rintro rfl
    rw [fresh] at found
    cases found
  rw [createdLookup,if_neg other,found]

theorem createdCases {c} (found : (p.created s order).orders.lookup c = some m) :
    (c = s.name ∧ m = order) ∨ p.orders.lookup c = some m := by
  rw [createdLookup] at found
  split at found
  · rename_i same
    exact .inl ⟨same,(Option.some.inj found).symm⟩
  · exact .inr found

theorem createdOrdered (ordered : p.Ordered) (fresh : p.orders.lookup s.name = none)
    (derived : s.bases ≠ []) (merged : p.Merged s.bases order) :
    (p.created s (s.name::order)).Ordered where
  start := createdKeeps fresh ordered.start
  own := by
    intro c m found
    rcases createdCases found with ⟨rfl,rfl⟩ | old
    · rfl
    · exact ordered.own old
  once := by
    intro c m found
    rcases createdCases found with ⟨rfl,rfl⟩ | old
    · refine List.nodup_cons.mpr ⟨fun again => ?_,merged.once⟩
      obtain ⟨n,known,_⟩ := mergedInherits ordered merged again
      rw [fresh] at known
      cases known
    · exact ordered.once old
  inherits := by
    intro c d m found mem
    rcases createdCases found with ⟨rfl,rfl⟩ | old
    · rcases List.mem_cons.mp mem with rfl | inside
      · exact ⟨_,found,List.Sublist.refl _⟩
      · obtain ⟨n,known,part⟩ := mergedInherits ordered merged inside
        exact ⟨n,createdKeeps fresh known,part.cons s.name⟩
    · obtain ⟨n,known,part⟩ := ordered.inherits old mem
      exact ⟨n,createdKeeps fresh known,part⟩
  rooted := by
    intro c m found
    rcases createdCases found with ⟨rfl,rfl⟩ | old
    · obtain ⟨b,base⟩ := List.exists_mem_of_ne_nil _ derived
      obtain ⟨n,known,part⟩ := merged.keeps base
      exact List.mem_cons_of_mem _ (part.subset (ordered.rooted known))
    · exact ordered.rooted old

theorem createdOwns (c : String) :
    (p.created s order).owns c = (p.owns c || (s.ownsRegistry && c == s.name)) := by
  unfold owns created
  cases s.ownsRegistry with
  | false => simp
  | true =>
    by_cases same : c = s.name <;> simp [same]

theorem createdFirst {c} (ordered : p.Ordered) (fresh : p.orders.lookup s.name = none)
    (found : p.orders.lookup c = some m) : m.find? (p.created s order).owns = m.find? p.owns := by
  refine List.find?_congr fun d mem => ?_
  obtain ⟨n,known,_⟩ := ordered.inherits found mem
  have other : d ≠ s.name := by
    rintro rfl
    rw [fresh] at known
    cases known
  simp [createdOwns,other]

end Created

variable [DecidableEq κ]

structure Sound (p : Package κ) : Prop extends p.Ordered where
  marks : ∀ {c}, c ∈ p.marked → p.owns c ∧ c ≠ root
  owners : ∀ {c}, p.owns c → ∃ m, p.orders.lookup c = some m
  registered : ∀ {o r key d}, p.registries.lookup o = some r → r.lookup key = some d →
    ∃ m, p.orders.lookup d = some m ∧ m.find? p.owns = some o

theorem soundInitial : (initial : Package κ).Sound where
  toOrdered := orderedInitial
  marks := by simp [initial]
  owners := by
    intro c owned
    have same : c = root := by
      by_contra other
      simp [initial,owns,other] at owned
    exact ⟨[root],by simp [initial,same]⟩
  registered := by
    intro o r key d found registered
    obtain ⟨rfl,rfl⟩ : o = root ∧ [] = r := by simpa [initial] using found
    cases registered

variable {s : Statement κ}

theorem soundCreated (sound : p.Sound)
    (fresh : p.orders.lookup s.name = none) (derived : s.bases ≠ [])
    (merged : p.Merged s.bases order) : (p.created s (s.name::order)).Sound where
  toOrdered := createdOrdered sound.toOrdered fresh derived merged
  marks := by
    intro c marked
    obtain ⟨owned,other⟩ := sound.marks marked
    exact ⟨by simp [createdOwns,owned],other⟩
  owners := by
    intro c owned
    rw [createdOwns] at owned
    by_cases same : c = s.name
    · exact ⟨_,by rw [createdLookup,if_pos same]⟩
    · obtain ⟨m,found⟩ := sound.owners (c := c) (by simpa [same] using owned)
      exact ⟨m,createdKeeps fresh found⟩
  registered := by
    intro o r key d found registered
    have old : p.registries.lookup o = some r := by
      unfold created at found
      cases owned : s.ownsRegistry with
      | false => simpa [owned] using found
      | true =>
        simp only [owned,if_true,lookupInsert] at found
        split at found
        · cases found
          cases registered
        · exact found
    obtain ⟨m,known,first⟩ := sound.registered old registered
    exact ⟨m,createdKeeps fresh known,(createdFirst sound.toOrdered fresh known).trans first⟩

theorem registerOwns {owner name key} (owned : p.owns owner) :
    (p.register owner key name).owns = p.owns := by
  funext c
  simp only [owns,register,lookupInsert] at owned ⊢
  split
  · rename_i same
    rw [same,owned]
    rfl
  · rfl

theorem soundRegister {owner name key} (sound : p.Sound) (known : p.orders.lookup name = some m)
    (first : m.find? p.owns = some owner) : (p.register owner key name).Sound := by
  have same : (p.register owner key name).owns = p.owns := registerOwns (List.find?_some first)
  refine ⟨⟨sound.start,sound.own,sound.once,sound.inherits,sound.rooted⟩,?_,?_,?_⟩
  · rw [same]
    exact sound.marks
  · rw [same]
    exact sound.owners
  intro o r key' d found registered
  rw [same]
  simp only [register,lookupInsert] at found
  split at found
  · rename_i equal
    subst equal
    cases found
    rw [lookupInsert] at registered
    split at registered
    · cases registered
      exact ⟨m,known,first⟩
    cases before : p.registries.lookup o with
    | none =>
      rw [before] at registered
      cases registered
    | some r =>
      rw [before] at registered
      exact sound.registered before registered
  · exact sound.registered found registered

theorem soundInit (sound : p.Sound)
    (known : (p.orders.lookup s.name).isSome) (body : s.ownsRegistry → p.owns s.name)
    (other : s.name ≠ root) : (p.initSubclass s).Sound := by
  unfold initSubclass
  split
  · split
    · rename_i owned
      refine { sound with marks := fun {c} mem => ?_ }
      rcases List.mem_cons.mp mem with rfl | old
      · exact ⟨body owned,other⟩
      · exact sound.marks old
    · exact sound
  · obtain ⟨m,found⟩ := Option.isSome_iff_exists.mp known
    split
    · exact sound
    · rename_i owner first
      rw [order,found] at first
      exact soundRegister sound found first

theorem soundDeclare {p p' : Package κ} (sound : p.Sound)
    (fresh : p.orders.lookup s.name = none) (derived : s.bases ≠ [])
    (done : p.declare s = .ok p') : p'.Sound := by
  obtain ⟨order,merged,done⟩ := Stateful.okOfBind done
  cases done
  have other : s.name ≠ root := by
    intro same
    rw [same,sound.start] at fresh
    cases fresh
  refine soundInit (soundCreated sound fresh derived (precedenceOk merged)) ?_ ?_ other
  · rw [createdLookup,if_pos rfl]
    rfl
  · intro owned
    simp [createdOwns,owned]

theorem loadedSound (loaded : Loaded p) : p.Sound := by
  induction loaded with
  | initial => exact soundInitial
  | declared before fresh derived done ih => exact soundDeclare ih fresh derived done

end RedfishCtl.Dispatch.Package
