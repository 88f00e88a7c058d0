import RedfishCtl.Stateful

/-! Programs that read one resource after the other and never recover from a failed read, save that
a read may name a second request. A run logs at most one failure, which ends it. -/
namespace RedfishCtl

inductive Walk (ρ δ ε α : Type) where
  | done (a : α)
  | raise (e : ε)
  | read (request : ρ) (fallback : Option ρ) (next : δ → Walk ρ δ ε α)

namespace Walk
variable {ρ δ ε κ σ α β : Type}

def andThen : Walk ρ δ ε α → (α → Walk ρ δ ε β) → Walk ρ δ ε β
  | done a,f => f a
  | raise e,_ => raise e
  | read request fallback next,f => read request fallback fun d => (next d).andThen f

instance : Monad (Walk ρ δ ε) where
  pure := done
  bind := andThen

def ofExcept : Except ε α → Walk ρ δ ε α
  | .ok a => done a
  | .error e => raise e

def gather (f : α → Walk ρ δ ε (List β)) : List α → Walk ρ δ ε (List β)
  | [] => pure []
  | a::rest => do
      let own ← f a
      let others ← gather f rest
      pure (own ++ others)

def fold (f : β → α → Walk ρ δ ε β) : β → List α → Walk ρ δ ε β
  | b,[] => pure b
  | b,a::rest => do
      let next ← f b a
      fold f next rest

def attempt (fetch : ρ → Stateful σ κ δ) (request : ρ) (fallback : Option ρ) : Stateful σ κ δ :=
  fun s => match fetch request s with
    | (.ok d,t) => (.ok d,t)
    | (.error c,t) => match fallback with
        | some other => fetch other t
        | none => (.error c,t)

structure Run (κ ε α σ : Type) where
  failures : List κ
  result : Except ε α
  state : σ

/- `raised` is the exception that a failed read becomes. -/
def run (fetch : ρ → Stateful σ κ δ) (raised : κ → ε) : Walk ρ δ ε α → σ → Run κ ε α σ
  | done a,s => ⟨[],.ok a,s⟩
  | raise e,s => ⟨[],.error e,s⟩
  | read request fallback next,s => match attempt fetch request fallback s with
      | (.ok d,t) => run fetch raised (next d) t
      | (.error c,t) => ⟨[c],.error (raised c),t⟩

theorem runFails {fetch raised} {w : Walk ρ δ ε α} {s : σ} {c : κ}
    (failed : c ∈ (run fetch raised w s).failures) :
    (run fetch raised w s).result = .error (raised c) := by
  induction w generalizing s with
  | done a => exact absurd failed List.not_mem_nil
  | raise e => exact absurd failed List.not_mem_nil
  | read request fallback next ih =>
    unfold run at failed ⊢
    cases tried : attempt fetch request fallback s with
    | mk answer t =>
      rw [tried] at failed
      cases answer with
      | ok d => exact ih d failed
      | error last => rw [List.mem_singleton.mp failed]

end Walk

end RedfishCtl
