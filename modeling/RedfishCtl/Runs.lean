import Mathlib.Data.List.Basic

/-! Runs of a deterministic step function over a list of events. A guard is a
condition on each step in the state it is taken from. -/
namespace RedfishCtl.Runs

variable {σ ε : Type} (step : σ → ε → σ)

def run (s : σ) (events : List ε) : σ := events.foldl step s

def Guarded (ok : σ → ε → Prop) : σ → List ε → Prop
  | _, [] => True
  | s, e::rest => ok s e ∧ Guarded ok (step s e) rest

instance decidableGuarded (ok : σ → ε → Prop) [∀ s e, Decidable (ok s e)] :
    (s : σ) → (events : List ε) → Decidable (Guarded step ok s events)
  | _, [] => isTrue trivial
  | s, e::rest =>
      have := decidableGuarded ok (step s e) rest
      inferInstanceAs (Decidable (ok s e ∧ Guarded step ok (step s e) rest))

variable {step}

@[simp] theorem runNil (s : σ) : run step s [] = s := rfl
@[simp] theorem runCons (s : σ) (e : ε) (rest : List ε) :
    run step s (e::rest) = run step (step s e) rest := rfl

theorem runAppend (s : σ) (xs ys : List ε) :
    run step s (xs ++ ys) = run step (run step s xs) ys := List.foldl_append

variable {ok : σ → ε → Prop} {s : σ}

theorem guardedAppend {xs ys} :
    Guarded step ok s (xs ++ ys) ↔ Guarded step ok s xs ∧ Guarded step ok (run step s xs) ys := by
  induction xs generalizing s with
  | nil => simp [Guarded]
  | cons e rest ih => simp [Guarded,ih,and_assoc]

theorem runMap {τ} {f : σ → τ} {step'} (same : ∀ s e, f (step s e) = step' (f s) e) (s : σ)
    (events : List ε) : f (run step s events) = run step' (f s) events := by
  induction events generalizing s with
  | nil => rfl
  | cons e rest ih => rw [runCons,ih,same,runCons]

variable {events : List ε}

theorem guardedMap {τ} {f : σ → τ} {step' ok'} (same : ∀ s e, f (step s e) = step' (f s) e)
    (guard : ∀ s e, ok s e ↔ ok' (f s) e) :
    Guarded step ok s events ↔ Guarded step' ok' (f s) events := by
  induction events generalizing s with
  | nil => exact Iff.rfl
  | cons e rest ih => simp only [Guarded,guard,ih,same]

theorem guardedCongr {ok ok'} (inv : σ → Prop) (same : ∀ s e, inv s → (ok s e ↔ ok' s e))
    (kept : ∀ s e, inv s → ok s e → inv (step s e)) (start : inv s) :
    Guarded step ok s events ↔ Guarded step ok' s events := by
  induction events generalizing s with
  | nil => exact Iff.rfl
  | cons e rest ih =>
    simp only [Guarded,← same s e start]
    exact and_congr_right fun now => ih (kept s e start now)

variable {inv : σ → Prop}

theorem invariant (kept : ∀ s e, inv s → inv (step s e))
    (start : inv s) (events : List ε) : inv (run step s events) := by
  induction events generalizing s with
  | nil => exact start
  | cons e rest ih => exact ih (kept s e start)

theorem guardedInvariant (kept : ∀ s e, inv s → ok s e → inv (step s e))
    (start : inv s) (guarded : Guarded step ok s events) : inv (run step s events) := by
  induction events generalizing s with
  | nil => exact start
  | cons e rest ih => exact ih (kept s e start guarded.1) guarded.2

theorem guardedPrefix {pre} (guarded : Guarded step ok s events) (part : pre <+: events) :
    Guarded step ok s pre := by
  obtain ⟨post,rfl⟩ := part
  exact (guardedAppend.mp guarded).1

theorem throughoutGuarded (exact : ∀ s e, inv s → (inv (step s e) ↔ ok s e)) (start : inv s) :
    (∀ pre, pre <+: events → inv (run step s pre)) ↔ Guarded step ok s events := by
  induction events generalizing s with
  | nil => simpa [Guarded] using start
  | cons e rest ih =>
    constructor
    · intro throughout
      have first : inv (step s e) := throughout [e] (by simp)
      refine ⟨(exact s e start).mp first,(ih first).mp fun pre part => ?_⟩
      exact throughout (e::pre) ((List.prefix_cons_inj e).mpr part)
    rintro ⟨now,later⟩ pre part
    cases pre with
    | nil => exact start
    | cons e' pre =>
      obtain ⟨rfl,inside⟩ := List.cons_prefix_cons.mp part
      exact (ih ((exact s e' start).mpr now)).mpr later pre inside

end RedfishCtl.Runs
