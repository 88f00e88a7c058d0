import RedfishCtl.AssocList
import RedfishCtl.Runs

/-! The response cache of one operation. Stored results and the keys being loaded are under one
condition variable; a loader runs outside the lock. The cache keeps and hands out copies of heap
objects, and whoever holds one may write to it. -/
namespace RedfishCtl.ResponseCache

variable {ι κ α ε : Type}

/- Where a caller stands. `checking`, `testing`, `claimed`, `woken`, `discarding`,
`publishing` and `returning` are inside the lock. -/
inductive Phase (α ε : Type) where
  | calling
  | checking
  | testing
  | waiting
  | notified
  | woken
  | claimed
  | loading
  | failing (e : ε)
  | discarding (e : ε)
  | copying (value : Nat)
  | storing (stored : Nat)
  | publishing (stored : Nat)
  | returning (copy : Nat)
  | returned (copy : Nat) (value : α)
  | raised (e : ε)
  deriving DecidableEq, Repr

/- Who can reach an object: the cache, one caller that has not returned yet, or anybody. -/
inductive Owner (ι : Type) where
  | cache
  | caller (i : ι)
  | shared
  deriving DecidableEq, Repr

structure Cell (ι α : Type) where
  value : α
  owner : Owner ι
  deriving DecidableEq, Repr

structure State (ι κ α ε : Type) where
  values : List (κ × Nat)
  inflight : List κ
  holder : Option ι
  phase : ι → Phase α ε
  heap : Nat → Option (Cell ι α)
  next : Nat

/- A loader returns an object that somebody outside the cache can reach, or raises. -/
inductive Event (ι α ε : Type) where
  | step (i : ι)
  | finish (i : ι) (outcome : Except ε Nat)
  | create (value : α)
  | write (object : Nat) (value : α)
  deriving Repr

def start : State ι κ α ε := ⟨[],[],none,fun _ => .calling,fun _ => none,0⟩

def Phase.wake : Phase α ε → Phase α ε
  | .waiting => .notified
  | phase => phase

section
variable [DecidableEq ι]

def State.move (s : State ι κ α ε) (i : ι) (phase : Phase α ε) : State ι κ α ε :=
  { s with phase := Function.update s.phase i phase }

def State.acquire (s : State ι κ α ε) (i : ι) (phase : Phase α ε) : State ι κ α ε :=
  if s.holder.isNone then { s.move i phase with holder := some i } else s

def State.release (s : State ι κ α ε) (i : ι) (phase : Phase α ε) : State ι κ α ε :=
  { s.move i phase with holder := none }

end

def State.notifyAll (s : State ι κ α ε) : State ι κ α ε :=
  { s with phase := fun j => (s.phase j).wake }

def State.alloc (s : State ι κ α ε) (cell : Cell ι α) : State ι κ α ε :=
  { s with heap := Function.update s.heap s.next (some cell), next := s.next + 1 }

def State.clone (s : State ι κ α ε) (object : Nat) (owner : Owner ι) : Option (State ι κ α ε) :=
  (s.heap object).map fun cell => s.alloc ⟨cell.value,owner⟩

section
variable [DecidableEq ι] [DecidableEq κ] (key : ι → κ)

def State.answer (s : State ι κ α ε) (i : ι) (stored : Nat) : State ι κ α ε :=
  match s.clone stored (.caller i) with
  | some t => t.move i (.returning s.next)
  | none => s

def State.check (s : State ι κ α ε) (i : ι) : State ι κ α ε :=
  match s.values.lookup (key i) with
  | some stored => s.answer i stored
  | none => s.move i .testing

def State.discard (s : State ι κ α ε) (k : κ) : State ι κ α ε :=
  { s with inflight := s.inflight.filter (· ≠ k) }

def State.store (s : State ι κ α ε) (k : κ) (stored : Nat) : State ι κ α ε :=
  { s with values := AssocList.insert k stored s.values }

def State.handOver (s : State ι κ α ε) (i : ι) (copy : Nat) : State ι κ α ε :=
  match s.heap copy with
  | some cell =>
      { s.release i (.returned copy cell.value) with
        heap := Function.update s.heap copy (some { cell with owner := .shared }) }
  | none => s

def advance (s : State ι κ α ε) (i : ι) : State ι κ α ε :=
  match s.phase i with
  | .calling => s.acquire i .checking
  | .checking => s.check key i
  | .testing =>
      if key i ∈ s.inflight then s.release i .waiting
      else { s.move i .claimed with inflight := key i :: s.inflight }
  | .waiting => s
  | .notified => s.acquire i .woken
  | .woken => s.check key i
  | .claimed => s.release i .loading
  | .loading => s
  | .failing e => s.acquire i (.discarding e)
  | .discarding e => (s.discard (key i)).notifyAll.release i (.raised e)
  | .copying value =>
      match s.clone value .cache with
      | some t => t.move i (.storing s.next)
      | none => s
  | .storing stored => s.acquire i (.publishing stored)
  | .publishing stored => (((s.store (key i) stored).discard (key i)).notifyAll).answer i stored
  | .returning copy => s.handOver i copy
  | .returned _ _ => s
  | .raised _ => s

def State.reachable (s : State ι κ α ε) (object : Nat) : Bool :=
  (s.heap object).any fun cell => cell.owner = .shared

def step (s : State ι κ α ε) : Event ι α ε → State ι κ α ε
  | .step i => advance key s i
  | .finish i outcome =>
      match s.phase i, outcome with
      | .loading, .error e => s.move i (.failing e)
      | .loading, .ok value => if s.reachable value then s.move i (.copying value) else s
      | _, _ => s
  | .create value => s.alloc ⟨value,.shared⟩
  | .write object value =>
      if s.reachable object then
        { s with heap := Function.update s.heap object (some ⟨value,.shared⟩) }
      else s

end

end RedfishCtl.ResponseCache
