import Mathlib.Algebra.Order.Floor.Semiring
import Mathlib.Algebra.Order.Floor.Ring
import Mathlib.Data.Rat.Floor
import Mathlib.Tactic.Linarith
import RedfishCtl.RebootWait

/-! How often `wait_for` probes. Both loops read one clock against one deadline, and a reading that
is not late is followed by a sleep before the next one. -/
namespace RedfishCtl.RebootWait
open Polling

def probeOf (predicate : ℕ → Except PyError Bool) (i : ℕ) : Bool := (predicate i).toOption.getD false

section
variable {w : World ℚ} {timeout interval : ℚ}

theorem lateLater (mono : Monotone w.clock) {i j} (below : i ≤ j)
    (now : late w (some timeout) i = true) : late w (some timeout) j = true := by
  simp only [late,decide_eq_true_eq] at now ⊢
  exact now.trans (mono below)

theorem clockAdvances (mono : Monotone w.clock)
    (advances : ∀ j, 1 ≤ j → late w (some timeout) j = false → w.clock j + interval ≤ w.clock (j+1))
    (n : ℕ) (early : late w (some timeout) n = false) :
    w.clock 0 + n * interval ≤ w.clock (n+1) := by
  induction n with
  | zero => simpa using mono (Nat.zero_le 1)
  | succ n ih =>
    have before : late w (some timeout) n = false := by
      cases now : late w (some timeout) n with
      | false => rfl
      | true => rw [lateLater mono (Nat.le_succ n) now] at early; cases early
    have step := advances (n+1) (Nat.le_add_left 1 n) early
    have sofar := ih before
    push_cast
    linarith

theorem lateReached (nonneg : 0 ≤ timeout) (positive : 0 < interval) (mono : Monotone w.clock)
    (advances : ∀ j, 1 ≤ j → late w (some timeout) j = false → w.clock j + interval ≤ w.clock (j+1)) :
    late w (some timeout) (⌈timeout / interval⌉₊ + 1) = true := by
  cases now : late w (some timeout) ⌈timeout / interval⌉₊ with
  | true => exact lateLater mono (Nat.le_succ _) now
  | false =>
    have passed := clockAdvances mono advances _ now
    have enough : timeout ≤ ⌈timeout / interval⌉₊ * interval := by
      have rounded := Nat.le_ceil (timeout / interval)
      rwa [div_le_iff₀ positive] at rounded
    have same : nonnegative (some timeout) = timeout := by
      unfold nonnegative
      dsimp only
      split
      · rfl
      · linarith
    simp only [late,deadline,same,decide_eq_true_eq]
    linarith

end

theorem waitBounded (w : World ℚ) (predicate : ℕ → Except PyError Bool) (description : String)
    {timeout interval : ℚ} (nonneg : 0 ≤ timeout) (positive : 0 < interval) (mono : Monotone w.clock)
    (advances : ∀ j, 1 ≤ j → late w (some timeout) j = false → w.clock j + interval ≤ w.clock (j+1))
    (invertFirst : Bool) :
    ∃ res, res.probes ≤ ⌈timeout / interval⌉₊ + 2 ∧ ∀ fuel, ⌈timeout / interval⌉₊ < fuel →
      waitFor w (probeOf predicate) description (some timeout) invertFirst fuel = some res := by
  have reached := lateReached nonneg positive mono advances
  generalize ⌈timeout / interval⌉₊ = n at reached
  cases invertFirst with
  | false =>
    obtain ⟨k,answer,inside,stops⟩ := stopsBefore (probeOf predicate) reached 0 (by omega : 1 ≤ n + 1)
    refine ⟨⟨description,answer.1,w.rounded (w.clock answer.2.2 - w.clock 0),none,answer.2.1⟩,?_,?_⟩
    · have probes := stops.probes
      dsimp only
      omega
    · intro fuel more
      have looped : poll (probeOf predicate) (late w (some timeout)) fuel 0 1 = some answer :=
        pollStops.mpr ⟨k,by omega,stops⟩
      simp [waitFor,looped]
  | true =>
    obtain ⟨k,down,inside,first⟩ :=
      stopsBefore (fun i => !probeOf predicate i) reached 0 (by omega : 1 ≤ n + 1)
    -- the second loop goes on with the readings; where the first one was late it is so at once
    have rest : ∃ m up, k + m ≤ n ∧ Stops (probeOf predicate) (late w (some timeout)) (k+1) down.2.2 m up := by
      cases first with
      | hit goes now =>
        obtain ⟨m,up,within,second⟩ := stopsBefore (probeOf predicate) reached (k+1) inside
        exact ⟨m,up,by omega,second⟩
      | late goes miss now =>
        have again := lateLater mono (Nat.le_succ (1+k)) now
        obtain ⟨m,up,within,second⟩ := stopsBefore (probeOf predicate) again (k+1) (Nat.le_refl _)
        exact ⟨m,up,by omega,second⟩
    obtain ⟨m,up,within,second⟩ := rest
    have probes : down.2.1 = k + 1 := by
      have := first.probes
      omega
    refine ⟨⟨description,up.1,w.rounded (w.clock up.2.2 - w.clock 0),some down.1,up.2.1⟩,?_,?_⟩
    · have := second.probes
      dsimp only
      omega
    intro fuel more
    rw [← probes] at second
    have looped : poll (fun i => !probeOf predicate i) (late w (some timeout)) fuel 0 1 = some down :=
      pollStops.mpr ⟨k,by omega,first⟩
    have again : poll (probeOf predicate) (late w (some timeout)) fuel down.2.1 down.2.2 = some up :=
      pollStops.mpr ⟨m,by omega,second⟩
    simp [waitFor,looped,again]

def risingWorld : World ℚ := ⟨fun _ _ => false,fun j => j,fun _ => .null,fun _ => ""⟩

theorem threeSecondsBounded : ∃ res, res.probes ≤ ⌈(3 : ℚ) / 1⌉₊ + 2 ∧ ∀ fuel, ⌈(3 : ℚ) / 1⌉₊ < fuel →
    waitFor risingWorld (probeOf fun _ => .ok true) "power" (some 3) true fuel = some res :=
  waitBounded risingWorld _ "power" (by norm_num) (by norm_num) (fun _ _ below => Nat.cast_le.mpr below)
    (fun j _ _ => le_of_eq (Nat.cast_succ j).symm) true

end RedfishCtl.RebootWait
