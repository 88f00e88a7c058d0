import RedfishCtl.EndpointStatus

/-! The failure path of the endpoint handler. The delay is computed as a product before it is
capped, so the power of two has to be representable: the path raises after 1023 earlier failures. -/
namespace RedfishCtl.EndpointStatus
open Binary64 (Datum Nonnegative)
open Rfc3339 (DateTime rfc3339)
open Rfc3339 (second)

theorem maxBackoffValue : (⟨false,600*2^43,-43,by decide⟩ : Binary64.Finite).value = 600 := by
  simp only [Binary64.Finite.value,Binary64.Finite.magnitude,Binary64.pow2Zpow]
  norm_num

theorem cappedFinite {delay} (h : Nonnegative delay) :
    ∃ x, pyMin delay maxBackoffSeconds = .finite x ∧ 0 ≤ x.value ∧ x.value ≤ 600 := by
  unfold pyMin
  split
  · exact ⟨_,rfl,by rw [maxBackoffValue]; norm_num,by rw [maxBackoffValue]⟩
  rename_i small
  cases delay with
  | nan => exact absurd h id
  | infinity s =>
    simp only [Nonnegative] at h
    simp [h,maxBackoffSeconds,Binary64.lt] at small
  | finite x =>
    simp only [maxBackoffSeconds,Binary64.lt,decide_eq_true_eq,maxBackoffValue,not_lt] at small
    exact ⟨x,rfl,Binary64.valueNonneg h,small⟩

theorem timedeltaCapped {x} (low : 0 ≤ x.value) (high : x.value ≤ 600) :
    ∃ wait, timedelta (.finite x) = .ok wait ∧ 0 ≤ wait ∧ wait ≤ 600*second := by
  have upper : x.value * 1000000 ≤ ((600000000 : Int) : ℚ) := by push_cast; linarith
  have lower : 0 ≤ x.value * 1000000 := by linarith
  have micros := Binary64.roundHalfEvenMono upper
  have nonneg := Binary64.roundHalfEvenNonneg lower
  refine ⟨Binary64.roundHalfEven (x.value * 1000000),?_,nonneg,by simpa [second] using micros⟩
  simp only [timedelta]
  rw [if_pos ⟨by omega,by omega⟩]

variable {failures : Nat}

theorem backoffCompletes (base : Interval) (few : failures ≤ 1023) :
    ∃ delay wait, backoffSeconds ((failures : Int) + 1) base.seconds maxBackoffSeconds = .ok delay ∧
      timedelta delay = .ok wait ∧ 0 ≤ wait ∧ wait ≤ 600*second := by
  obtain ⟨factor,converted,sign,significand⟩ := Binary64.ofIntPow few
  have product :=
    Binary64.mulNonnegative (Binary64.positiveNonnegative base.positive) sign
      (by rw [significand]; decide)
  obtain ⟨x,capped,low,high⟩ := cappedFinite product
  obtain ⟨wait,delta,nonneg,bound⟩ := timedeltaCapped low high
  refine ⟨.finite x,wait,?_,delta,nonneg,bound⟩
  have positive : ¬ (failures : Int) + 1 < 1 := by omega
  have exponent : ((failures : Int) + 1 - 1).toNat = failures := by omega
  rw [backoffSeconds,if_neg positive,exponent,converted]
  simp [capped]

theorem backoffOverflows (base cap : Datum) (many : 1023 < failures) :
    backoffSeconds ((failures : Int) + 1) base cap =
      .error (.overflowError "int too large to convert to float") := by
  have positive : ¬ (failures : Int) + 1 < 1 := by omega
  have exponent : ((failures : Int) + 1 - 1).toNat = failures := by omega
  rw [backoffSeconds,if_neg positive,exponent,Binary64.ofIntPowOverflow many]

def ConditionsListed (status : Json) (items : List Json) : Prop :=
  (status.get? "conditions").getD (.arr []) = .arr items

theorem mergeConditionsListed {status items} (listed : ConditionsListed status items)
    (desired : List Desired) (now : DateTime) :
    mergeConditions status desired now = .ok (desired.map fun d =>
      condition d (transitionTime (previousConditions items) d now)) := by
  unfold ConditionsListed at listed
  simp [mergeConditions,listed,iterate,bind,Except.bind]

theorem errorStatusCompletes {status items} (listed : ConditionsListed status items)
    (count : int (status.getD "consecutiveFailures") = .ok (failures : Int))
    (few : failures ≤ 1023) (base : Interval) (exc : PyException) (now : DateTime) :
    ∃ wait, 0 ≤ wait ∧ wait ≤ 600*second ∧
      buildErrorStatus status exc now base.seconds = .ok
        [("conditions",.arr ((errorConditions (classifyPollError exc).1 (classifyPollError exc).2).map
            fun d => condition d (transitionTime (previousConditions items) d now))),
         ("consecutiveFailures",.int ((failures : Int) + 1)),
         ("lastError",.str (classifyPollError exc).2),
         ("nextPollAfter",.str (rfc3339 (now + wait)))] := by
  obtain ⟨delay,wait,backoff,delta,low,high⟩ := backoffCompletes base few
  refine ⟨wait,low,high,?_⟩
  simp only [buildErrorStatus,count,bind,Except.bind,backoff,delta, mergeConditionsListed listed]

theorem errorStatusOverflows {status}
    (count : int (status.getD "consecutiveFailures") = .ok (failures : Int))
    (many : 1023 < failures) (base : Interval) (exc : PyException) (now : DateTime) :
    buildErrorStatus status exc now base.seconds =
      .error (.overflowError "int too large to convert to float") := by
  simp only [buildErrorStatus,count,bind,Except.bind,backoffOverflows _ _ many]

/- The exception a failed poll records: a caught one, or the handler's own when the reads return
nothing. -/
def failure : Outcome → Option PyException
  | .readings _ => none
  | .noReadings => some noReadingsError
  | .raised exc => if isinstance exc pollErrors then some exc else none

theorem failedPoll {config status force now outcome exc}
    (polls : force = true ∨ pollDue config status now = true) (failed : failure outcome = some exc) :
    pollRedfishEndpoint config status force now outcome =
      (buildErrorStatus status exc now config.base.seconds).map some := by
  have due : (!force && !pollDue config status now) = false := by
    rcases polls with h | h <;> simp [h]
  unfold pollRedfishEndpoint
  rw [due]
  cases outcome with
  | readings r => simp [failure] at failed
  | noReadings => cases failed; rfl
  | raised exc' =>
    simp only [failure] at failed
    split at failed
    · rename_i caught
      cases failed
      simp [caught]
    · contradiction

def BacksOff (config : Config) (status : Json) (force : Bool) (now : DateTime) (outcome : Outcome)
    (failures : Nat) : Prop :=
  ∃ patch, pollRedfishEndpoint config status force now outcome = .ok (some patch) ∧
    patch.lookup "consecutiveFailures" = some (.int ((failures : Int) + 1)) ∧
    ∃ next : DateTime, patch.lookup "nextPollAfter" = some (.str (rfc3339 next)) ∧
      next ≤ now + 600*second

theorem failedPollBacksOff (config : Config) (status : Json) (items : List Json) (force : Bool)
    (now : DateTime) (outcome : Outcome) (exc : PyException) (failures : Nat)
    (listed : ConditionsListed status items)
    (count : int (status.getD "consecutiveFailures") = .ok (failures : Int))
    (polls : force = true ∨ pollDue config status now = true) (failed : failure outcome = some exc) :
    BacksOff config status force now outcome failures ↔ failures ≤ 1023 := by
  constructor
  · rintro ⟨patch,written,-⟩
    by_contra many
    rw [failedPoll polls failed,errorStatusOverflows count (by omega)] at written
    simp [Except.map] at written
  · intro few
    obtain ⟨wait,-,high,patch⟩ := errorStatusCompletes listed count few config.base exc now
    exact ⟨_,by rw [failedPoll polls failed,patch]; rfl,by simp,now + wait,by simp,
      Int.add_le_add_left high now⟩

def halfMinute : Interval := ⟨.finite ⟨false,15*2^49,-48,by decide⟩,by decide +kernel⟩

def unreachable : PyException := ⟨.connectTimeout,"ConnectTimeout",""⟩

theorem failedPollBacksOffFourth :
    BacksOff ⟨halfMinute,halfMinute⟩ (.obj [("consecutiveFailures",.int 3)]) true 0
      (.raised unreachable) 3 :=
  (failedPollBacksOff _ _ [] _ _ _ unreachable 3 (by rfl) rfl (.inl rfl) rfl).mpr (by decide)

theorem failedPollOverflows :
    pollRedfishEndpoint ⟨halfMinute,halfMinute⟩ (.obj [("consecutiveFailures",.int 1024)]) true 0
      (.raised unreachable) = .error (.overflowError "int too large to convert to float") := by
  have count : int (Json.getD (.obj [("consecutiveFailures",.int 1024)]) "consecutiveFailures") =
      .ok ((1024 : Nat) : Int) := rfl
  have failed : failure (.raised unreachable) = some unreachable := rfl
  rw [failedPoll (.inl rfl) failed,errorStatusOverflows count (by decide)]
  rfl

end RedfishCtl.EndpointStatus
