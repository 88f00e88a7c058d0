import Mathlib.Algebra.BigOperators.Fin
import Mathlib.Algebra.Order.BigOperators.Group.Finset
import RedfishCtl.Schedules

/-! Callers of a monitor. If every step uses up some of a measure of the phases, whoever holds the
lock moves, and a caller that waits has somebody to wait for, then every call ends. -/
namespace RedfishCtl.Monitors
open Schedules (after afterSucc)

/-! What the callers have still to do. -/

section
variable {ι π : Type} [Fintype ι]

def effort (weight : π → ℕ) (phases : ι → π) : ℕ := ∑ i, weight (phases i)

variable [DecidableEq ι] {weight : π → ℕ} {i : ι} {phase : π} {phases : ι → π}

theorem effortMoved (less : weight phase < weight (phases i)) :
    effort weight (Function.update phases i phase) < effort weight phases := by
  refine Finset.sum_lt_sum (fun j _ => ?_) ⟨i,Finset.mem_univ i,?_⟩
  · by_cases own : j = i
    · subst own
      rw [Function.update_self]
      exact Nat.le_of_lt less
    · rw [Function.update_of_ne own]
  · rw [Function.update_self]
    exact less

theorem effortWoken {wake : π → π} {cost} (each : ∀ p, weight (wake p) ≤ weight p + cost)
    (less : weight phase + cost * Fintype.card ι < weight (phases i)) :
    effort weight (Function.update (fun j => wake (phases j)) i phase) < effort weight phases := by
  have others : ∑ j ∈ Finset.univ.erase i,
      weight (Function.update (fun j => wake (phases j)) i phase j) ≤
      ∑ j ∈ Finset.univ.erase i, (weight (phases j) + cost) := by
    refine Finset.sum_le_sum fun j mem => ?_
    rw [Function.update_of_ne (Finset.ne_of_mem_erase mem)]
    exact each _
  rw [Finset.sum_add_distrib,Finset.sum_const,smul_eq_mul,Nat.mul_comm] at others
  have count : cost * (Finset.univ.erase i).card ≤ cost * Fintype.card ι :=
    Nat.mul_le_mul_left cost (Finset.card_le_univ _)
  have total := Finset.add_sum_erase Finset.univ (fun j => weight (phases j)) (Finset.mem_univ i)
  have moved := Finset.add_sum_erase Finset.univ
    (fun j => weight (Function.update (fun j => wake (phases j)) i phase j)) (Finset.mem_univ i)
  simp only [Function.update_self] at moved
  unfold effort
  omega

end

/-! Rest. -/

structure Monitor (σ ι π ε : Type) where
  step : σ → ε → σ
  act : ι → ε
  phase : σ → ι → π
  holder : σ → Option ι
  inside : π → Bool
  waiting : π → Prop
  outside : π → Prop
  ended : π → Prop

section
variable {σ ι π ε : Type} (m : Monitor σ ι π ε)

/- `outside` are the phases that only something other than the caller can end. -/
structure Lawful (inv : σ → Prop) (measure : (ι → π) → ℕ) : Prop where
  kept : ∀ s e, inv s → inv (m.step s e)
  lock : ∀ {s}, inv s → ∀ i, m.inside (m.phase s i) = true ↔ m.holder s = some i
  spends : ∀ {s}, inv s → ∀ e, m.phase (m.step s e) = m.phase s ∨
    measure (m.phase (m.step s e)) < measure (m.phase s)
  moves : ∀ {s i}, inv s → m.holder s = some i → m.phase (m.step s (m.act i)) i ≠ m.phase s i
  stuck : ∀ {s i}, inv s → m.phase (m.step s (m.act i)) i = m.phase s i →
    m.waiting (m.phase s i) ∨ m.outside (m.phase s i) ∨ m.ended (m.phase s i) ∨ m.holder s ≠ none
  waits : ∀ {s i}, inv s → m.waiting (m.phase s i) →
    ∃ j, ¬ m.waiting (m.phase s j) ∧ ¬ m.ended (m.phase s j)

structure Fair (start : σ) (schedule : ℕ → ε) : Prop where
  scheduled : ∀ i n, ∃ k, n ≤ k ∧ schedule k = m.act i
  finishes : ∀ i n, m.outside (m.phase (after m.step start schedule n) i) →
    ∃ k, n ≤ k ∧ ¬ m.outside (m.phase (after m.step start schedule k) i)

variable {m} {inv : σ → Prop} {measure : (ι → π) → ℕ} {start : σ} {schedule : ℕ → ε}

theorem callsEnd (lawful : Lawful m inv measure) (initial : inv start) (fair : Fair m start schedule)
    (i : ι) : ∃ n, m.ended (m.phase (after m.step start schedule n) i) := by
  have sound : ∀ n, inv (after m.step start schedule n) :=
    Schedules.afterInvariant lawful.kept initial
  have spends : ∀ n, m.phase (after m.step start schedule (n+1)) =
      m.phase (after m.step start schedule n) ∨
      measure (m.phase (after m.step start schedule (n+1))) <
        measure (m.phase (after m.step start schedule n)) := by
    intro n
    rw [afterSucc]
    exact lawful.spends (sound n) (schedule n)
  obtain ⟨time,still⟩ := Schedules.standsStill m.phase measure spends
  -- From then on a scheduled step moves nobody.
  have stuck : ∀ j, ∃ n, time ≤ n ∧ m.phase (m.step (after m.step start schedule n) (m.act j)) j =
      m.phase (after m.step start schedule n) j := by
    intro j
    obtain ⟨n,later,now⟩ := fair.scheduled j time
    refine ⟨n,later,?_⟩
    have next := still (n+1) (Nat.le_succ_of_le later)
    rw [afterSucc,now] at next
    exact (congrFun next j).trans (congrFun (still n later) j).symm
  have free : ∀ n, time ≤ n → m.holder (after m.step start schedule n) = none := by
    intro n later
    by_contra held
    obtain ⟨j,held⟩ := Option.ne_none_iff_exists'.mp held
    obtain ⟨k,after,same⟩ := stuck j
    have inside := (lawful.lock (sound n) j).mpr held
    rw [still n later,← still k after] at inside
    exact lawful.moves (sound k) ((lawful.lock (sound k) j).mp inside) same
  have rests : ∀ j, m.waiting (m.phase (after m.step start schedule time) j) ∨
      m.ended (m.phase (after m.step start schedule time) j) := by
    intro j
    obtain ⟨n,later,same⟩ := stuck j
    have cases := lawful.stuck (sound n) same
    rw [free n later,still n later] at cases
    rcases cases with waiting | outside | ended | locked
    · exact .inl waiting
    · obtain ⟨k,after,moved⟩ := fair.finishes j time outside
      rw [still k after] at moved
      exact absurd outside moved
    · exact .inr ended
    · exact absurd rfl locked
  -- A caller that waited would wait for somebody who neither waits nor has ended.
  refine ⟨time,(rests i).resolve_left fun waiting => ?_⟩
  obtain ⟨j,active,busy⟩ := lawful.waits (sound time) waiting
  exact (rests j).elim active busy

end

end RedfishCtl.Monitors
