import Mathlib.Order.Basic

/-! A polling loop over a sequence of probes and one of clock tests: probe, stop on a hit, stop when
the clock is late, sleep, go on. There is at least one probe. -/
namespace RedfishCtl.Polling

/- Whether the loop was hit, and the next probe and clock reading. Out of fuel there is no
answer. -/
def poll (hit late : ℕ → Bool) : ℕ → ℕ → ℕ → Option (Bool × ℕ × ℕ)
  | 0, _, _ => none
  | fuel + 1, i, j =>
      if hit i then some (true,i + 1,j)
      else if late j then some (false,i + 1,j + 1)
      else poll hit late fuel (i + 1) (j + 1)

variable {hit late : ℕ → Bool}

def Goes (hit late : ℕ → Bool) (i j k : ℕ) : Prop :=
  ∀ m < k, hit (i + m) = false ∧ late (j + m) = false

inductive Stops (hit late : ℕ → Bool) (i j k : ℕ) : Bool × ℕ × ℕ → Prop where
  | hit (goes : Goes hit late i j k) (now : hit (i + k) = true) :
      Stops hit late i j k (true,i + k + 1,j + k)
  | late (goes : Goes hit late i j k) (miss : hit (i + k) = false) (now : late (j + k) = true) :
      Stops hit late i j k (false,i + k + 1,j + k + 1)

theorem goesSucc {i j k} :
    Goes hit late i j (k + 1) ↔
      (hit i = false ∧ late j = false) ∧ Goes hit late (i + 1) (j + 1) k := by
  constructor
  · intro goes
    refine ⟨goes 0 (Nat.succ_pos k),fun m below => ?_⟩
    have next := goes (m + 1) (Nat.succ_lt_succ below)
    rw [Nat.add_right_comm i,Nat.add_right_comm j]
    exact next
  · rintro ⟨first,rest⟩ m below
    cases m with
    | zero => exact first
    | succ m =>
      have next := rest m (Nat.lt_of_succ_lt_succ below)
      rw [Nat.add_right_comm i,Nat.add_right_comm j] at next
      exact next

variable {answer : Bool × ℕ × ℕ}

theorem stopsSucc {i j k} :
    Stops hit late i j (k + 1) answer ↔
      (hit i = false ∧ late j = false) ∧ Stops hit late (i + 1) (j + 1) k answer := by
  have probe : i + (k + 1) = i + 1 + k := by omega
  have clock : j + (k + 1) = j + 1 + k := by omega
  constructor
  · intro stops
    cases stops with
    | hit goes now =>
      obtain ⟨first,rest⟩ := goesSucc.mp goes
      rw [probe] at now ⊢
      rw [clock]
      exact ⟨first,.hit rest now⟩
    | late goes miss now =>
      obtain ⟨first,rest⟩ := goesSucc.mp goes
      rw [probe] at miss ⊢
      rw [clock] at now ⊢
      exact ⟨first,.late rest miss now⟩
  · rintro ⟨first,stops⟩
    cases stops with
    | hit goes now =>
      rw [← probe] at now ⊢
      rw [← clock]
      exact .hit (goesSucc.mpr ⟨first,goes⟩) now
    | late goes miss now =>
      rw [← probe] at miss ⊢
      rw [← clock] at now ⊢
      exact .late (goesSucc.mpr ⟨first,goes⟩) miss now

theorem stopsZero {i j} :
    Stops hit late i j 0 answer ↔
      (hit i = true ∧ answer = (true,i + 1,j)) ∨
        (hit i = false ∧ late j = true ∧ answer = (false,i + 1,j + 1)) := by
  have none : Goes hit late i j 0 := fun m below => absurd below (Nat.not_lt_zero m)
  constructor
  · intro stops
    cases stops with
    | hit _ now => exact .inl ⟨now,rfl⟩
    | late _ miss now => exact .inr ⟨miss,now,rfl⟩
  · rintro (⟨now,rfl⟩ | ⟨miss,now,rfl⟩)
    · exact .hit none now
    · exact .late none miss now

theorem pollStops {fuel i j} :
    poll hit late fuel i j = some answer ↔ ∃ k < fuel, Stops hit late i j k answer := by
  induction fuel generalizing i j with
  | zero => simp [poll]
  | succ fuel ih =>
    -- Round zero decides, or the answer is the one of the rest of the loop.
    rw [Nat.exists_lt_succ_left]
    unfold poll
    cases probe : hit i with
    | true => simpa [stopsZero,stopsSucc,probe] using eq_comm
    | false =>
      cases clock : late j with
      | true => simpa [stopsZero,stopsSucc,probe,clock] using eq_comm
      | false => simp [stopsZero,stopsSucc,probe,clock,ih]

theorem Stops.probes {i j k} (stops : Stops hit late i j k answer) : answer.2.1 = i + k + 1 := by
  cases stops with
  | hit => rfl
  | late => rfl

variable (hit) in
theorem stopsBefore {bound j} (now : late bound = true) (i : ℕ) (before : j ≤ bound) :
    ∃ k answer, j + k ≤ bound ∧ Stops hit late i j k answer := by
  cases probe : hit i with
  | true => exact ⟨0,_,before,stopsZero.mpr (.inl ⟨probe,rfl⟩)⟩
  | false =>
    cases clock : late j with
    | true => exact ⟨0,_,before,stopsZero.mpr (.inr ⟨probe,clock,rfl⟩)⟩
    | false =>
      have other : j ≠ bound := by
        rintro rfl
        exact absurd now (by simp [clock])
      obtain ⟨k,answer,inside,stops⟩ := stopsBefore now (i+1) (by omega : j+1 ≤ bound)
      exact ⟨k+1,answer,by omega,stopsSucc.mpr ⟨⟨probe,clock⟩,stops⟩⟩
termination_by bound - j

end RedfishCtl.Polling
