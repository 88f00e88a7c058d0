import Mathlib.Order.OrderIsoNat
import RedfishCtl.Runs

/-! Infinite schedules of a step function. A view of the state that changes only together
with a measure going down stands still from some time on. -/
namespace RedfishCtl.Schedules

variable {σ ε τ : Type} {step : σ → ε → σ}

def after (step : σ → ε → σ) (s : σ) (schedule : Nat → ε) (n : Nat) : σ :=
  Runs.run step s ((List.range n).map schedule)

variable {s : σ} {schedule : Nat → ε}

theorem afterSucc (n : Nat) :
    after step s schedule (n+1) = step (after step s schedule n) (schedule n) := by
  rw [after,List.range_succ,List.map_append,Runs.runAppend]
  rfl

theorem afterInvariant {inv : σ → Prop} (kept : ∀ s e, inv s → inv (step s e)) (start : inv s)
    (n : Nat) : inv (after step s schedule n) := Runs.invariant kept start _

theorem standsStill (view : σ → τ) (measure : τ → Nat)
    (moves : ∀ n, view (after step s schedule (n+1)) = view (after step s schedule n) ∨
      measure (view (after step s schedule (n+1))) < measure (view (after step s schedule n))) :
    ∃ time, ∀ n, time ≤ n → view (after step s schedule n) = view (after step s schedule time) := by
  have down : Antitone fun n => measure (view (after step s schedule n)) := by
    refine antitone_nat_of_succ_le fun n => ?_
    rcases moves n with same | less
    · rw [same]
    · exact Nat.le_of_lt less
  obtain ⟨time,constant⟩ := WellFoundedLT.antitone_chain_condition down
  refine ⟨time,fun n later => ?_⟩
  induction n, later using Nat.le_induction with
  | base => rfl
  | succ n later ih =>
    rcases moves n with same | less
    · rw [same,ih]
    · have now := constant n later
      have next := constant (n+1) (Nat.le_succ_of_le later)
      omega

end RedfishCtl.Schedules
