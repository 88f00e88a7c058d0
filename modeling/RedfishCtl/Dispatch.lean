import RedfishCtl.Linearization
import RedfishCtl.PyText
import RedfishCtl.Stateful

/-! The command registries of `RedfishManager` and its descendants, and the class that `invoke`
instantiates. A class has a precedence order, its own `_registry` if it declares one, the marker if
it is a manager, and a place in the first registry of its order if it is a command. -/
namespace RedfishCtl.Dispatch
open AssocList (insert)

variable {κ : Type}

structure Key (κ : Type) where
  apiCall : κ
  name : String
  deriving DecidableEq, Repr

structure Statement (κ : Type) where
  name : String
  bases : List String
  scmType : Option (Key κ)
  ownsRegistry : Bool
  deriving DecidableEq, Repr

structure Package (κ : Type) where
  orders : List (String × List String)
  registries : List (String × List (Key κ × String))
  marked : List String
  deriving DecidableEq, Repr

def root : String := "RedfishManager"

def initial : Package κ := ⟨[(root,[root])],[(root,[])],[]⟩

namespace Package

def order (p : Package κ) (name : String) : List String := (p.orders.lookup name).getD []

def owns (p : Package κ) (name : String) : Bool := (p.registries.lookup name).isSome

def orderOf (p : Package κ) (name : String) : Except PyError (List String) :=
  match p.orders.lookup name with
  | some order => .ok order
  | none => .error (.other "NameError" s!"name '{name}' is not defined")

def precedence (p : Package κ) (bases : List String) : Except PyError (List String) := do
  let orders ← bases.mapM p.orderOf
  match Linearization.merge (orders ++ [bases]) with
  | some order => .ok order
  | none => .error (.typeError "Cannot create a consistent method resolution order (MRO)")

structure Merged (p : Package κ) (bases order : List String) : Prop where
  keeps : ∀ {b}, b ∈ bases → ∃ m, p.orders.lookup b = some m ∧ m.Sublist order
  once : order.Nodup
  source : ∀ {c}, c ∈ order → c ∈ bases ∨ ∃ b ∈ bases, ∃ m, p.orders.lookup b = some m ∧ c ∈ m

variable {p : Package κ}

theorem orderOfOk {name m} : p.orderOf name = .ok m ↔ p.orders.lookup name = some m := by
  unfold orderOf
  cases p.orders.lookup name <;> simp

theorem ordersOf {bases : List String} {orders} (done : bases.mapM p.orderOf = .ok orders) :
    bases.map (fun b => p.orders.lookup b) = orders.map some := by
  induction bases generalizing orders with
  | nil => cases done; rfl
  | cons b bases ih =>
    rw [List.mapM_cons] at done
    obtain ⟨m,found,done⟩ := Stateful.okOfBind done
    obtain ⟨rest,tail,done⟩ := Stateful.okOfBind done
    cases done
    rw [List.map_cons,List.map_cons,orderOfOk.mp found,ih tail]

theorem precedenceOk {bases order : List String}
    (done : p.precedence bases = .ok order) : p.Merged bases order := by
  obtain ⟨orders,found,done⟩ := Stateful.okOfBind done
  have each := ordersOf found
  split at done
  · rename_i merged
    cases done
    refine ⟨fun {b} mem => ?_,Linearization.mergeNodup merged,fun {c} mem => ?_⟩
    · have found : p.orders.lookup b ∈ orders.map some := each ▸ List.mem_map_of_mem mem
      obtain ⟨m,listed,same⟩ := List.mem_map.mp found
      exact ⟨m,same.symm,Linearization.mergeSublist merged (List.mem_append_left _ listed)⟩
    obtain ⟨s,listed,inside⟩ := Linearization.mergeSource merged mem
    rcases List.mem_append.mp listed with ofBase | direct
    · have found : some s ∈ bases.map (fun b => p.orders.lookup b) :=
        each ▸ List.mem_map_of_mem ofBase
      obtain ⟨b,base,same⟩ := List.mem_map.mp found
      exact .inr ⟨b,base,s,same,inside⟩
    · exact .inl (List.mem_singleton.mp direct ▸ inside)
  · cases done

def created (p : Package κ) (s : Statement κ) (order : List String) : Package κ :=
  { p with
    orders := insert s.name order p.orders
    registries := if s.ownsRegistry then insert s.name [] p.registries else p.registries }

variable [DecidableEq κ]

def register (p : Package κ) (owner : String) (key : Key κ) (name : String) : Package κ :=
  let registry := (p.registries.lookup owner).getD []
  { p with registries := insert owner (insert key name registry) p.registries }

def initSubclass (p : Package κ) (s : Statement κ) : Package κ :=
  match s.scmType with
  | none => if s.ownsRegistry then { p with marked := s.name::p.marked } else p
  | some key =>
    match (p.order s.name).find? p.owns with
    | none => p
    | some owner => p.register owner key s.name

def declare (p : Package κ) (s : Statement κ) : Except PyError (Package κ) := do
  let order ← p.precedence s.bases
  .ok ((p.created s (s.name::order)).initSubclass s)

end Package

variable [DecidableEq κ]

/- Each statement makes a new class that derives from `RedfishManager`. -/
inductive Loaded : Package κ → Prop where
  | initial : Loaded initial
  | declared {p p' : Package κ} {s : Statement κ} (before : Loaded p)
      (fresh : p.orders.lookup s.name = none) (derived : s.bases ≠ [])
      (done : p.declare s = .ok p') : Loaded p'

inductive Runtime where
  | plain (name : String)
  | composed (manager command : String)
  deriving DecidableEq, Repr

namespace Package

def ancestors (p : Package κ) : Runtime → List String
  | .plain name => p.order name
  | .composed manager command => (p.precedence [command,manager]).toOption.getD []

def find (p : Package κ) (key : Key κ) (klass : String) : Option String :=
  (p.registries.lookup klass).bind (·.lookup key)

def resolveCommand (p : Package κ) (cls : Runtime) (key : Key κ) : Except PyError String :=
  match (p.ancestors cls).findSome? (p.find key) with
  | some command => .ok command
  | none => .error (.other "UnsupportedAction" s!"Unknown {key.name} command.")

def composeRuntimeCommand (p : Package κ) (manager command : String) : Except PyError Runtime :=
  if manager ∈ p.order command then .ok (.plain command)
  else do
    let _ ← p.precedence [command,manager]
    .ok (.composed manager command)

/- `getattr(cls, "_dispatch_manager_class", cls)`; a composed class has its own marker. -/
def dispatchManager (p : Package κ) : Runtime → String
  | .plain name => ((p.order name).find? (· ∈ p.marked)).getD name
  | .composed manager _ => manager

def runtimeCommandClass (p : Package κ) (cls : Runtime) (command : String) :
    Except PyError Runtime :=
  p.composeRuntimeCommand (p.dispatchManager cls) command

def invoke (p : Package κ) (cls : Runtime) (key : Key κ) : Except PyError Runtime := do
  let command ← p.resolveCommand cls key
  p.runtimeCommandClass cls command

def syncInvoke (p : Package κ) (running : Except PyError Runtime) (key : Key κ) :
    Except PyError Runtime := do
  let cls ← running
  p.invoke cls key

end Package

end RedfishCtl.Dispatch
