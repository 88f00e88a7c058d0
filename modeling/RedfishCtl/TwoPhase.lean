import RedfishCtl.AssocList
import RedfishCtl.Stateful

/-! Calls in two phases on a shared object: one that only reads, without the lock, and one under the
lock. If what is read cannot change, every interleaving is the sequence of whole calls in the order
of their locks. -/
namespace RedfishCtl.TwoPhase
open AssocList (erase lookupMem)
open Stateful (Keeps)

structure Object (σ κ π ο ε β : Type) where
  prepare : κ → σ → Except ε π
  locked : π → Stateful σ ε β
  atomic : ο → Stateful σ ε β

inductive Call (κ ο : Type) where
  | split (call : κ)
  | atomic (operation : ο)

variable {σ κ π ο ε β : Type}

def Object.whole (object : Object σ κ π ο ε β) : Call κ ο → Stateful σ ε β
  | .split call => do
      let prepared ← Stateful.read (object.prepare call)
      object.locked prepared
  | .atomic operation => object.atomic operation

def Object.serve (object : Object σ κ π ο ε β) : σ → List (Call κ ο) → List (Except ε β) × σ
  | s, [] => ([],s)
  | s, call::rest =>
      ((object.whole call s).1 :: (object.serve (object.whole call s).2 rest).1,
        (object.serve (object.whole call s).2 rest).2)

structure System (σ κ π ο ε β : Type) where
  shared : σ
  waiting : List (Nat × κ × π)
  history : List (Call κ ο × Except ε β)

inductive Event (κ ο : Type) where
  | enter (id : Nat) (call : κ)
  | lock (id : Nat)
  | atomic (operation : ο)

def System.done (sys : System σ κ π ο ε β) (call : Call κ ο) (result : Except ε β × σ) :
    System σ κ π ο ε β :=
  { sys with shared := result.2, history := sys.history ++ [(call,result.1)] }

def Object.step (object : Object σ κ π ο ε β) (sys : System σ κ π ο ε β) :
    Event κ ο → System σ κ π ο ε β
  | .enter id call =>
      if (sys.waiting.lookup id).isSome then sys
      else match object.prepare call sys.shared with
        | .error e => sys.done (.split call) (.error e,sys.shared)
        | .ok prepared => { sys with waiting := (id,call,prepared)::sys.waiting }
  | .lock id => match sys.waiting.lookup id with
      | none => sys
      | some (call,prepared) =>
          { sys with waiting := erase id sys.waiting }.done (.split call)
            (object.locked prepared sys.shared)
  | .atomic operation => sys.done (.atomic operation) (object.atomic operation sys.shared)

def Object.interleaved (object : Object σ κ π ο ε β) (s : σ) (schedule : List (Event κ ο)) :
    System σ κ π ο ε β := Runs.run object.step ⟨s,[],[]⟩ schedule

section
variable {object : Object σ κ π ο ε β}

theorem serveAppend (s : σ) (calls : List (Call κ ο)) (call : Call κ ο) :
    object.serve s (calls ++ [call]) =
      ((object.serve s calls).1 ++ [(object.whole call (object.serve s calls).2).1],
        (object.whole call (object.serve s calls).2).2) := by
  induction calls generalizing s with
  | nil => rfl
  | cons first rest ih => simp only [List.cons_append,Object.serve,ih]

theorem wholeOk {call s prepared} (read : object.prepare call s = .ok prepared) :
    object.whole (.split call) s = object.locked prepared s :=
  Stateful.bindOk (Prod.ext read rfl)

theorem wholeError {call s e} (read : object.prepare call s = .error e) :
    object.whole (.split call) s = (.error e,s) :=
  Stateful.bindError (Prod.ext read rfl)

def Served (object : Object σ κ π ο ε β) (start : σ) (sys : System σ κ π ο ε β) : Prop :=
  object.serve start (sys.history.map Prod.fst) = (sys.history.map Prod.snd,sys.shared)

theorem servedDone {start sys} (served : Served object start sys) {call result}
    (same : object.whole call sys.shared = result) : Served object start (sys.done call result) := by
  unfold Served at served ⊢
  simp [System.done,serveAppend,served,same]

/- The shared state keeps the invariant, and a waiting call has read what it would have read at the
start. -/
structure Steady (object : Object σ κ π ο ε β) (I : σ → Prop) (start : σ)
    (sys : System σ κ π ο ε β) : Prop where
  kept : I sys.shared
  read : ∀ id call prepared, sys.waiting.lookup id = some (call,prepared) →
    object.prepare call start = .ok prepared
  served : Served object start sys

variable {I : σ → Prop} {start : σ}

theorem steadyStep (stable : ∀ s call, I s → object.prepare call s = object.prepare call start)
    (locked : ∀ call prepared, object.prepare call start = .ok prepared →
      Keeps I (fun _ => True) (object.locked prepared))
    (atomic : ∀ operation, Keeps I (fun _ => True) (object.atomic operation))
    (sys : System σ κ π ο ε β) (event : Event κ ο) (steady : Steady object I start sys) :
    Steady object I start (object.step sys event) := by
  cases event with
  | enter id call =>
    simp only [Object.step]
    split
    · exact steady
    have same := stable sys.shared call steady.kept
    cases read : object.prepare call sys.shared with
    | error e => exact ⟨steady.kept,steady.read,servedDone steady.served (wholeError read)⟩
    | ok prepared =>
      refine ⟨steady.kept,?_,steady.served⟩
      intro other call' prepared' found
      rw [AssocList.lookupCons] at found
      split at found
      · cases found
        exact same.symm.trans read
      · exact steady.read other call' prepared' found
  | lock id =>
    simp only [Object.step]
    cases found : sys.waiting.lookup id with
    | none => exact steady
    | some pair =>
      obtain ⟨call,prepared⟩ := pair
      have read := steady.read id call prepared found
      refine ⟨(locked call prepared read sys.shared steady.kept).1,?_,?_⟩
      · intro other call' prepared' still
        simp only [System.done,AssocList.lookupErase] at still
        split at still
        · simp at still
        · exact steady.read other call' prepared' still
      · have now : object.prepare call sys.shared = .ok prepared :=
          (stable sys.shared call steady.kept).trans read
        exact @servedDone _ _ _ _ _ _ object start
          { sys with waiting := erase id sys.waiting } steady.served _ _ (wholeOk now)
  | atomic operation =>
    exact ⟨(atomic operation sys.shared steady.kept).1,steady.read,servedDone steady.served rfl⟩

theorem interleavedServed (first : I start)
    (stable : ∀ s call, I s → object.prepare call s = object.prepare call start)
    (locked : ∀ call prepared, object.prepare call start = .ok prepared →
      Keeps I (fun _ => True) (object.locked prepared))
    (atomic : ∀ operation, Keeps I (fun _ => True) (object.atomic operation))
    (schedule : List (Event κ ο)) : Served object start (object.interleaved start schedule) := by
  have begin : Steady object I start ⟨start,[],[]⟩ :=
    ⟨first,fun id call prepared found => by simp at found,rfl⟩
  exact (Runs.invariant (steadyStep stable locked atomic) begin schedule).served

end
end RedfishCtl.TwoPhase
