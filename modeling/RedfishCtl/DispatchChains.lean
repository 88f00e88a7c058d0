import RedfishCtl.DispatchOrders

/-! Chains of nested `sync_invoke` calls. A dispatch depends on the dispatch manager of the class
and the registries in its order, which stay those of a manager with the marker; under the neutral
manager a command takes itself for the manager. -/
namespace RedfishCtl.Dispatch.Package

variable {κ : Type} [DecidableEq κ] {p : Package κ}

def view (p : Package κ) (cls : Runtime) : List String := (p.ancestors cls).filter p.owns

def Separate (p : Package κ) (manager : String) : Prop :=
  ∀ owner ∈ p.order manager, ∀ entry ∈ (p.registries.lookup owner).getD [],
    ∀ c ∈ p.order entry.2, p.owns c → c ∈ p.order manager
instance (manager : String) : Decidable (p.Separate manager) := by
  unfold Separate; infer_instance

def Inherits (p : Package κ) (command : String) : Runtime → Prop
  | .plain caller => caller ∈ p.order command
  | .composed _ _ => False

/- The dispatch from `running` is the manager's own: same class or error, and nothing inherited that
neither the registered command nor the manager has. -/
def Independent (p : Package κ) (manager : String) (running : Runtime) (key : Key κ) : Prop :=
  p.invoke running key = p.invoke (.plain manager) key ∧
  ∀ cls command, p.invoke running key = .ok cls →
    p.resolveCommand (.plain manager) key = .ok command →
    ∀ c ∈ p.ancestors cls, c ∈ p.order command ∨ c ∈ p.order manager

def Direct (p : Package κ) (manager : String) (running : Runtime) (key : Key κ) : Prop :=
  manager ∈ p.marked ∨ running = .plain manager ∨
  ∀ command, p.resolveCommand (.plain manager) key = .ok command → p.Inherits command running

variable {key : Key κ}

theorem findOwned {c d} (found : p.find key c = some d) : p.owns c := by
  obtain ⟨r,known,_⟩ := Option.bind_eq_some_iff.mp found
  rw [owns,known]
  rfl

theorem findSomeOwned (key : Key κ) (l : List String) :
    (l.filter p.owns).findSome? (p.find key) = l.findSome? (p.find key) := by
  induction l with
  | nil => rfl
  | cons c l ih =>
    cases owned : p.owns c with
    | true => rw [List.filter_cons_of_pos owned,List.findSome?_cons,List.findSome?_cons,ih]
    | false =>
      have missing : p.find key c = none := by
        cases found : p.find key c with
        | none => rfl
        | some d =>
          rw [findOwned found] at owned
          cases owned
      rw [List.filter_cons_of_neg (by simp [owned]),List.findSome?_cons,missing,ih]

variable {R : Runtime}

theorem resolveView {R'} (same : p.view R = p.view R') (key : Key κ) :
    p.resolveCommand R key = p.resolveCommand R' key := by
  have owners : (p.ancestors R).filter p.owns = (p.ancestors R').filter p.owns := same
  rw [resolveCommand,resolveCommand,← findSomeOwned,owners,findSomeOwned]

theorem resolvedOwner {d} (done : p.resolveCommand R key = .ok d) :
    ∃ o ∈ p.ancestors R, ∃ r, p.registries.lookup o = some r ∧ r.lookup key = some d := by
  unfold resolveCommand at done
  split at done
  · rename_i found
    cases done
    obtain ⟨o,mem,here⟩ := List.exists_of_findSome?_eq_some found
    obtain ⟨r,known,registered⟩ := Option.bind_eq_some_iff.mp here
    exact ⟨o,mem,r,known,registered⟩
  · cases done

theorem resolvedOrder {M d} (sound : p.Sound) (separate : p.Separate M)
    (done : p.resolveCommand (.plain M) key = .ok d) :
    ∃ m o, p.orders.lookup d = some m ∧ m.find? p.owns = some o ∧ o ∈ p.order M ∧
      ∀ c ∈ m, p.owns c → c ∈ p.order M := by
  obtain ⟨o,mem,r,known,registered⟩ := resolvedOwner done
  obtain ⟨m,found,first⟩ := sound.registered known registered
  refine ⟨m,o,found,first,mem,fun c inside owned => ?_⟩
  refine separate o mem (key,d) ?_ c (orderOfLookup found ▸ inside) owned
  rw [known]
  exact AssocList.lookupMem registered

theorem composedSource {manager command c} (sound : p.Sound)
    (done : p.composeRuntimeCommand manager command = .ok R) (mem : c ∈ p.ancestors R) :
    c ∈ p.order command ∨ c ∈ p.order manager := by
  rcases composedOk done with ⟨rfl,_⟩ | ⟨rfl,merged⟩
  · exact .inl mem
  obtain ⟨b,base,m,found,inside⟩ := mergedSource sound.toOrdered merged mem
  rw [← orderOfLookup found] at inside
  simp only [List.mem_cons,List.not_mem_nil,or_false] at base
  rcases base with rfl | rfl
  · exact .inl inside
  · exact .inr inside

section Marked

variable {M : String} (sound : p.Sound) (marked : M ∈ p.marked)
include sound marked

theorem markedOrder : ∃ rest, p.orders.lookup M = some (M::rest) := by
  obtain ⟨m,found⟩ := sound.owners (sound.marks marked).1
  obtain ⟨rest,rfl⟩ := List.head?_eq_some_iff.mp (sound.own found)
  exact ⟨rest,found⟩

theorem markedManager : p.dispatchManager (.plain M) = M := by
  obtain ⟨rest,found⟩ := markedOrder sound marked
  rw [dispatchManager,orderOfLookup found,List.find?_cons_of_pos (by simpa using marked)]
  rfl

theorem derivedMarked {m d o} (found : p.orders.lookup d = some m) (first : m.find? p.owns = some o)
    (known : o ∈ p.order M) (derived : M ∈ m) (within : ∀ c ∈ m, p.owns c → c ∈ p.order M) :
    p.dispatchManager (.plain d) = M ∧ p.view (.plain d) = p.view (.plain M) := by
  obtain ⟨rest,own⟩ := markedOrder sound marked
  obtain ⟨n,own',part⟩ := sound.inherits found derived
  cases Option.some.inj (own.symm.trans own')
  rw [orderOfLookup own] at known within
  have once := sound.once found
  cases Linearization.firstOfSublist part once first (sound.marks marked).1 known
  constructor
  · have mark : m.find? (· ∈ p.marked) = some M :=
      Linearization.findStronger first (fun c _ mem => (sound.marks (by simpa using mem)).1)
        (by simpa using marked)
    rw [dispatchManager,orderOfLookup found,mark]
    rfl
  · rw [view,view,ancestors,ancestors,orderOfLookup found,orderOfLookup own]
    exact (Linearization.filterWhole part once within).symm

theorem composedMarked {m d} (found : p.orders.lookup d = some m)
    (within : ∀ c ∈ m, p.owns c → c ∈ p.order M)
    (merged : p.Merged [d,M] (p.ancestors (.composed M d))) :
    p.view (.composed M d) = p.view (.plain M) := by
  obtain ⟨rest,own⟩ := markedOrder sound marked
  obtain ⟨n,own',part⟩ := merged.keeps (List.mem_cons_of_mem d (List.mem_singleton_self M))
  cases Option.some.inj (own.symm.trans own')
  rw [view,view,show p.ancestors (.plain M) = M::rest from orderOfLookup own]
  refine (Linearization.filterWhole part merged.once ?_).symm
  intro c mem owned
  obtain ⟨b,base,n,known,inside⟩ := mergedSource sound.toOrdered merged mem
  simp only [List.mem_cons,List.not_mem_nil,or_false] at base
  rcases base with rfl | rfl
  · cases Option.some.inj (found.symm.trans known)
    exact orderOfLookup own ▸ within c inside owned
  · cases Option.some.inj (own.symm.trans known)
    exact inside

theorem markedReached {R key} (separate : p.Separate M) (done : p.invoke (.plain M) key = .ok R) :
    p.dispatchManager R = M ∧ p.view R = p.view (.plain M) := by
  obtain ⟨d,resolved,composed⟩ := Stateful.okOfBind done
  obtain ⟨m,o,found,first,known,within⟩ := resolvedOrder sound separate resolved
  rw [runtimeCommandClass,markedManager sound marked] at composed
  rcases composedOk composed with ⟨rfl,derived⟩ | ⟨rfl,merged⟩
  · rw [orderOfLookup found] at derived
    exact derivedMarked sound marked found first known derived within
  · exact ⟨rfl,composedMarked sound marked found within merged⟩

end Marked

section Neutral

variable (sound : p.Sound)
include sound

theorem rootOrder : p.order root = [root] := orderOfLookup sound.start

theorem unmarked {m d} (found : p.orders.lookup d = some m)
    (within : ∀ c ∈ m, p.owns c → c ∈ p.order root) : p.dispatchManager (.plain d) = d := by
  have none : m.find? (· ∈ p.marked) = none := by
    refine List.find?_eq_none.mpr fun c mem marked => ?_
    obtain ⟨owned,other⟩ := sound.marks (by simpa using marked)
    have same := within c mem owned
    rw [rootOrder sound] at same
    exact other (List.mem_singleton.mp same)
  rw [dispatchManager,orderOfLookup found,none]
  rfl

theorem neutralManager : p.dispatchManager (.plain root) = root :=
  unmarked sound sound.start fun _ mem _ => (rootOrder sound).symm ▸ mem

theorem composeRoot {m d} (found : p.orders.lookup d = some m) :
    p.composeRuntimeCommand root d = .ok (.plain d) := by
  rw [composeRuntimeCommand,orderOfLookup found,if_pos (sound.rooted found)]

theorem neutralReached {R key} (separate : p.Separate root)
    (done : p.invoke (.plain root) key = .ok R) :
    ∃ d, R = .plain d ∧ p.dispatchManager R = d ∧ p.view R = p.view (.plain root) := by
  obtain ⟨d,resolved,composed⟩ := Stateful.okOfBind done
  obtain ⟨m,o,found,first,known,within⟩ := resolvedOrder sound separate resolved
  rw [runtimeCommandClass,neutralManager sound,composeRoot sound found] at composed
  cases composed
  refine ⟨d,rfl,unmarked sound found within,?_⟩
  have part : [root].Sublist m := List.singleton_sublist.mpr (sound.rooted found)
  rw [view,view,ancestors,ancestors,orderOfLookup found,rootOrder sound]
  rw [rootOrder sound] at within
  exact (Linearization.filterWhole part (sound.once found) within).symm

end Neutral

theorem invokeSame {R'} (manager : p.dispatchManager R = p.dispatchManager R')
    (same : p.view R = p.view R') (key : Key κ) : p.invoke R key = p.invoke R' key := by
  simp only [invoke,runtimeCommandClass]
  rw [manager,resolveView same]

theorem neutralExact {c} (sound : p.Sound) (separate : p.Separate root)
    (manager : p.dispatchManager (.plain c) = c) (same : p.view (.plain c) = p.view (.plain root)) :
    p.invoke (.plain c) key = p.invoke (.plain root) key ↔
      ∀ command, p.resolveCommand (.plain root) key = .ok command → c ∈ p.order command := by
  simp only [invoke,runtimeCommandClass]
  rw [manager,neutralManager sound,resolveView same]
  cases resolved : p.resolveCommand (.plain root) key with
  | error e => simp [bind,Except.bind]
  | ok command =>
    obtain ⟨m,o,found,_⟩ := resolvedOrder sound separate resolved
    have direct := composeRoot sound found
    simp only [bind,Except.bind,direct,composeExact]
    constructor
    · rintro derived _ ⟨⟩
      exact derived
    · intro derived
      exact derived command rfl

def Reached (p : Package κ) (manager : String) (R : Runtime) : Prop :=
  R = .plain manager ∨ ∃ key, p.invoke (.plain manager) key = .ok R

section Chains

variable {M : String} (sound : p.Sound) (managed : M = root ∨ M ∈ p.marked)
include sound managed

theorem ownManager : p.dispatchManager (.plain M) = M := by
  rcases managed with rfl | marked
  · exact neutralManager sound
  · exact markedManager sound marked

theorem independentSame {R key} : p.Independent M R key ↔ p.invoke R key = p.invoke (.plain M) key := by
  refine ⟨And.left,fun same => ⟨same,fun cls command done resolved c mem => ?_⟩⟩
  rw [same] at done
  obtain ⟨d,resolved',composed⟩ := Stateful.okOfBind done
  cases resolved.symm.trans resolved'
  rw [runtimeCommandClass,ownManager sound managed] at composed
  exact composedSource sound composed mem

theorem independentDirect {R key} (separate : p.Separate M) (reached : p.Reached M R) :
    p.Independent M R key ↔ p.Direct M R key := by
  rw [independentSame sound managed]
  rcases reached with rfl | ⟨first,done⟩
  · exact iff_of_true rfl (.inr (.inl rfl))
  rcases managed with rfl | marked
  · obtain ⟨c,rfl,manager,same⟩ := neutralReached sound separate done
    rw [neutralExact sound separate manager same]
    constructor
    · exact fun derived => .inr (.inr derived)
    rintro (marked | same | derived)
    · exact absurd rfl (sound.marks marked).2
    · cases same
      exact fun command resolved => by
        obtain ⟨m,_,found,_⟩ := resolvedOrder sound separate resolved
        exact orderOfLookup found ▸ sound.rooted found
    · exact derived
  · obtain ⟨manager,same⟩ := markedReached sound marked separate done
    have own := markedManager sound marked
    exact iff_of_true (invokeSame (manager.trans own.symm) same key) (.inl marked)

end Chains

/- Along every chain from the neutral manager or a manager with a registry of its own, the
dispatches are the manager's own exactly when each is made under a marker, by the manager itself, or
for a command that derives from its caller. -/
theorem nestedDispatchDirect {M : String} (loaded : Loaded p)
    (managed : M = root ∨ M ∈ p.marked) (separate : p.Separate M) (keys : List (Key κ)) :
    Runs.Guarded p.syncInvoke (fun s key => ∀ R, s = .ok R → p.Independent M R key)
        (.ok (.plain M)) keys ↔
      Runs.Guarded p.syncInvoke (fun s key => ∀ R, s = .ok R → p.Direct M R key)
        (.ok (.plain M)) keys := by
  have sound := loadedSound loaded
  -- Every class of the chain is one the manager dispatches itself.
  refine Runs.guardedCongr (fun s => ∀ R, s = .ok R → p.Reached M R)
    (fun s key reached => ?_) (fun s key reached now R done => ?_) ?_
  · exact forall₂_congr fun R running =>
      independentDirect sound managed separate (reached R running)
  · obtain ⟨R',rfl,done⟩ := Stateful.okOfBind done
    exact .inr ⟨key,(now R' rfl).1.symm.trans done⟩
  · rintro R ⟨⟩
    exact .inl rfl

namespace Sample

def next (p : Package String) (s : Statement String) : Package String :=
  (p.declare s).toOption.getD p

theorem loadedNext {p} (loaded : Loaded p) (s : Statement String)
    (fresh : p.orders.lookup s.name = none) (derived : s.bases ≠ [])
    (done : p.declare s = .ok (next p s)) : Loaded (next p s) :=
  .declared loaded fresh derived done

def reset : Key String := ⟨"ChassisReset","reboot"⟩
def query : Key String := ⟨"ChassisQuery","chassis_service_query"⟩

def dell : Statement String := ⟨"IDracManager",[root],none,true⟩
def chassisQuery : Statement String := ⟨"ChassisQuery",[root],some query,false⟩
def chassisReset : Statement String := ⟨"ChassisReset",[root],some reset,false⟩

def package : Package String := next (next (next initial dell) chassisQuery) chassisReset

theorem loaded : Loaded package := by
  have one := loadedNext .initial dell (by decide +kernel) (by decide) (by decide +kernel)
  have two := loadedNext one chassisQuery (by decide +kernel) (by decide) (by decide +kernel)
  exact loadedNext two chassisReset (by decide +kernel) (by decide) (by decide +kernel)

end Sample

theorem nestedDispatchDell : Runs.Guarded Sample.package.syncInvoke
    (fun s key => ∀ R, s = .ok R → Sample.package.Independent "IDracManager" R key)
    (.ok (.plain "IDracManager")) [Sample.reset,Sample.query] := by
  have marked : "IDracManager" ∈ Sample.package.marked := by decide +kernel
  refine (nestedDispatchDirect Sample.loaded (.inr marked) (by decide +kernel) _).mpr ?_
  exact ⟨fun R _ => .inl marked,fun R _ => .inl marked,trivial⟩

theorem nestedInheritsCaller :
    Sample.package.syncInvoke (.ok (.plain root)) Sample.reset = .ok (.plain "ChassisReset") ∧
    Sample.package.syncInvoke (.ok (.plain "ChassisReset")) Sample.query =
      .ok (.composed "ChassisReset" "ChassisQuery") ∧
    Sample.package.invoke (.plain root) Sample.query = .ok (.plain "ChassisQuery") ∧
    "ChassisReset" ∈ Sample.package.ancestors (.composed "ChassisReset" "ChassisQuery") := by
  decide +kernel

end RedfishCtl.Dispatch.Package
