import Mathlib.Algebra.Group.Action.Defs
import RedfishCtl.Actions
import RedfishCtl.Polling

/-! Waiting for the service to go down and come back: `wait_for`, the `wait` command over it, and a
host reboot that waits through that command. Nothing is assumed of the operations on time. -/
namespace RedfishCtl.RebootWait
open AssocList Polling
open Actions (CommandResult)

/- The probes, the readings of the clock, and how numbers of seconds are shown. -/
structure World (τ : Type) where
  probe : τ → ℕ → Bool
  clock : ℕ → τ
  rounded : τ → Json
  text : Option τ → String

structure Waited where
  waitingFor : String
  satisfied : Bool
  waitedS : Json
  preconditionMet : Option Bool
  probes : ℕ
  deriving DecidableEq

section
variable {τ : Type} [Zero τ] [Add τ] [Sub τ] [LE τ] [DecidableLE τ] [LT τ] [DecidableLT τ]

def nonnegative (seconds : Option τ) : τ :=
  match seconds with
  | none => 0
  | some s => if 0 < s then s else 0

def deadline (w : World τ) (timeout : Option τ) : τ := w.clock 0 + nonnegative timeout

def late (w : World τ) (timeout : Option τ) (reading : ℕ) : Bool :=
  decide (deadline w timeout ≤ w.clock reading)

/- `probes` counts the probes made; sleeping is not observed. -/
def waitFor (w : World τ) (probe : ℕ → Bool) (description : String) (timeout : Option τ)
    (invertFirst : Bool) (fuel : ℕ) : Option Waited := do
  let (precondition,probed,read) ←
    if invertFirst then
      (poll (fun i => !probe i) (late w timeout) fuel 0 1).map fun p => (some p.1,p.2)
    else some (none,0,1)
  let (satisfied,probed,read) ← poll probe (late w timeout) fuel probed read
  some ⟨description,satisfied,w.rounded (w.clock read - w.clock 0),precondition,probed⟩

variable [DecidableEq τ] [OfNat τ 1] [OfNat τ 5]

/- `max(1.0, min(interval or 5.0, 5.0))`. -/
def probeTimeout (interval : Option τ) : τ :=
  let seconds := match interval with
    | none => 5
    | some s => if s = 0 then 5 else s
  let bounded := if 5 < seconds then 5 else seconds
  if 1 < bounded then bounded else 1

structure Target where
  isHttp : Bool
  redfishIp : String
  port : String

def Target.url (target : Target) : String :=
  (if target.isHttp then "http" else "https") ++ "://" ++ target.redfishIp ++ ":" ++ target.port ++
    "/redfish/v1/"

def document (target : Target) (res : Waited) : Json :=
  .obj ([("waiting_for",.str res.waitingFor),("reachable",.bool res.satisfied),
    ("waited_s",res.waitedS)] ++ (res.preconditionMet.map fun met => ("went_down",.bool met)).toList ++
    [("target",.str target.redfishIp)])

def waitReachable (w : World τ) (target : Target) (timeout interval : Option τ) (rebootCycle : Bool)
    (fuel : ℕ) : Option Waited :=
  waitFor w (w.probe (probeTimeout interval)) ("BMC reachable at " ++ target.url) timeout
    rebootCycle fuel

def waitReady (w : World τ) (target : Target) (timeout interval : Option τ) (rebootCycle : Bool)
    (fuel : ℕ) : Option (CommandResult × ℕ) :=
  (waitReachable w target timeout interval rebootCycle fuel).map fun res =>
    (⟨document target res,none,
      if res.satisfied then .null else .str ("BMC not reachable within " ++ w.text timeout ++ "s")⟩,
      res.probes)

def fired (reset : CommandResult) : Bool :=
  reset.error = .null && !(reset.data.getD "dry_run").truthy

def withTaskState (fetchTask : Json → Except PyError Json) (reset : CommandResult) :
    Except PyError CommandResult :=
  let task := reset.data.getD "task_id"
  if fired reset && task.truthy then do
    let state ← fetchTask task
    .ok { reset with
      data := .obj (insert "task_id" task (insert "task_state" state reset.data.members)) }
  else .ok reset

def withWait (reset : CommandResult) (wait : CommandResult) : CommandResult :=
  let members := insert "wait" wait.data reset.data.members
  if wait.error = .null then
    -- The result of the reset is returned; its data was extended in place if it is a mapping.
    { reset with data := if reset.data.isObj then .obj members else reset.data }
  else ⟨.obj members,reset.discovered,wait.error⟩

variable [SMul ℤ τ]

def rebootHost (w : World τ) (target : Target) (fetchTask : Json → Except PyError Json)
    (doWait : Bool) (sleepTime : τ) (maxRetry : ℤ) (reset : CommandResult) (fuel : ℕ) :
    Option (Except PyError CommandResult × ℕ) :=
  match withTaskState fetchTask reset with
  | .error e => some (.error e,0)
  | .ok result =>
      if doWait && fired reset then
        (waitReady w target (some (maxRetry • sleepTime)) (some sleepTime) true fuel).map
          fun wait => (.ok (withWait result wait.1),wait.2)
      else some (.ok result,0)

end

def Cycled (probe : ℕ → Bool) (probes : ℕ) : Prop :=
  ∃ down up, down < up ∧ up < probes ∧ probe down = false ∧ probe up = true

/- The service answers every probe up to the first late reading of the clock, and the next
one. -/
def StaysUp (probe late : ℕ → Bool) : Prop :=
  ∃ k, (∀ m ≤ k + 1, probe m = true) ∧ (∀ m < k, late (1 + m) = false) ∧ late (1 + k) = true

section
variable {τ : Type} [Zero τ] [Add τ] [Sub τ] [LE τ] [DecidableLE τ] [LT τ] [DecidableLT τ]
variable {w : World τ} {probe : ℕ → Bool} {description : String} {timeout : Option τ}

theorem waitForInverted {fuel res} :
    waitFor w probe description timeout true fuel = some res ↔
      ∃ down up : Bool × ℕ × ℕ, poll (fun i => !probe i) (late w timeout) fuel 0 1 = some down ∧
        poll probe (late w timeout) fuel down.2.1 down.2.2 = some up ∧
        res = ⟨description,up.1,w.rounded (w.clock up.2.2 - w.clock 0),some down.1,up.2.1⟩ := by
  unfold waitFor
  rw [if_pos rfl]
  cases first : poll (fun i => !probe i) (late w timeout) fuel 0 1 with
  | none => simp
  | some down =>
    obtain ⟨met,probed,read⟩ := down
    cases second : poll probe (late w timeout) fuel probed read with
    | none => simp [second]
    | some up =>
      simp only [Option.map_some,Option.bind_eq_bind,Option.bind_some,second,Option.some.injEq]
      constructor
      · rintro rfl
        exact ⟨_,up,rfl,second,rfl⟩
      · rintro ⟨_,other,rfl,again,rfl⟩
        cases Option.some.inj (second.symm.trans again)
        rfl

theorem satisfiedCycled {fuel res}
    (returned : waitFor w probe description timeout true fuel = some res)
    (satisfied : res.satisfied = true) : Cycled probe res.probes ∨ StaysUp probe (late w timeout) := by
  obtain ⟨down,up,first,second,rfl⟩ := waitForInverted.mp returned
  obtain ⟨k,-,downStops⟩ := pollStops.mp first
  obtain ⟨l,-,upStops⟩ := pollStops.mp second
  cases upStops with
  | late _ _ _ => cases satisfied
  | hit upGoes upNow =>
    cases downStops with
    | hit _ downNow =>
      refine .inl ⟨0 + k,0 + k + 1 + l,by omega,by simp,?_,upNow⟩
      simpa using downNow
    | late downGoes miss now =>
      cases l with
      | zero =>
        refine .inr ⟨k,fun m below => ?_,fun m before => (downGoes m before).2,now⟩
        rcases Nat.lt_trichotomy m k with before | rfl | after
        · simpa using (downGoes m before).1
        · simpa using miss
        · have last : m = 0 + k + 1 + 0 := by omega
          rw [last]
          exact upNow
      | succ l =>
        -- The first probe of the second loop failed.
        exact .inl ⟨0 + k + 1,0 + k + 1 + (l + 1),by omega,by simp,(upGoes 0 (by omega)).1,upNow⟩

theorem staysUpSatisfied (description : String) (up : StaysUp probe (late w timeout)) :
    ∃ fuel res, waitFor w probe description timeout true fuel = some res ∧ res.satisfied = true ∧
      ¬ Cycled probe res.probes := by
  obtain ⟨k,answered,early,now⟩ := up
  have misses : ∀ m ≤ k + 1, (!probe (0 + m)) = false := fun m below => by
    rw [Nat.zero_add,answered m below]
    rfl
  have down : Stops (fun i => !probe i) (late w timeout) 0 1 k (false,0 + k + 1,1 + k + 1) :=
    .late (fun m before => ⟨misses m (by omega),early m before⟩) (misses k (by omega)) now
  have next : Stops probe (late w timeout) (0 + k + 1) (1 + k + 1) 0
      (true,0 + k + 1 + 0 + 1,1 + k + 1 + 0) :=
    .hit (fun m before => absurd before (Nat.not_lt_zero m)) (answered _ (by omega))
  refine ⟨k + 1,_,waitForInverted.mpr ⟨_,_,pollStops.mpr ⟨k,by omega,down⟩,
    pollStops.mpr ⟨0,by omega,next⟩,rfl⟩,rfl,?_⟩
  rintro ⟨d,u,order,made,failed,-⟩
  dsimp only at made
  rw [answered d (by omega)] at failed
  cases failed

def Sound (probe : ℕ → Bool) (command : ℕ → Option (CommandResult × ℕ)) : Prop :=
  ∀ fuel result probes, command fuel = some (result,probes) → result.error = .null →
    Cycled probe probes

end

section
variable {τ : Type} [Zero τ] [Add τ] [Sub τ] [LE τ] [DecidableLE τ] [LT τ] [DecidableLT τ]
variable [DecidableEq τ] [OfNat τ 1] [OfNat τ 5]
variable (w : World τ) (target : Target) (timeout interval : Option τ)

theorem waitReadySound :
    Sound (w.probe (probeTimeout interval)) (waitReady w target timeout interval true) ↔
      ¬ StaysUp (w.probe (probeTimeout interval)) (late w timeout) := by
  constructor
  · intro sound up
    obtain ⟨fuel,res,returned,satisfied,uncycled⟩ :=
      staysUpSatisfied ("BMC reachable at " ++ target.url) up
    refine uncycled (sound fuel _ res.probes (congrArg (Option.map _) returned) ?_)
    exact if_pos satisfied
  · intro staysDown fuel result probes returned noError
    obtain ⟨res,reached,same⟩ := Option.map_eq_some_iff.mp returned
    cases same
    have satisfied : res.satisfied = true := by
      by_contra unsatisfied
      rw [if_neg unsatisfied] at noError
      cases noError
    exact (satisfiedCycled reached satisfied).resolve_right staysDown

def TaskLost (fetchTask : Json → Except PyError Json) (reset : CommandResult) : Prop :=
  (reset.data.getD "task_id").truthy = true ∧ ∃ e, fetchTask (reset.data.getD "task_id") = .error e

theorem taskStateRaises {fetchTask reset} (sent : fired reset = true)
    (lost : TaskLost fetchTask reset) : ∃ e, withTaskState fetchTask reset = .error e := by
  obtain ⟨task,e,failed⟩ := lost
  refine ⟨e,?_⟩
  simp only [withTaskState,sent,task,failed]
  rfl

theorem taskStateRead {fetchTask reset} (kept : ¬ TaskLost fetchTask reset) :
    ∃ result, withTaskState fetchTask reset = .ok result ∧ result.error = reset.error := by
  unfold withTaskState
  by_cases task : (fired reset && (reset.data.getD "task_id").truthy) = true
  · rw [if_pos task]
    cases state : fetchTask (reset.data.getD "task_id") with
    | error e => exact absurd ⟨(Bool.and_eq_true_iff.mp task).2,e,state⟩ kept
    | ok j => exact ⟨_,rfl,rfl⟩
  · rw [if_neg task]
    exact ⟨reset,rfl,rfl⟩

theorem firedNoError {reset} (sent : fired reset = true) : reset.error = .null := by
  simpa using (Bool.and_eq_true_iff.mp sent).1

theorem withWaitError {reset wait} (noError : reset.error = .null) :
    (withWait reset wait).error = wait.error := by
  unfold withWait
  by_cases done : wait.error = .null
  · rw [done]
    exact noError
  · rw [if_neg done]

variable [SMul ℤ τ] (fetchTask : Json → Except PyError Json) (sleepTime : τ) (maxRetry : ℤ)
variable {reset : CommandResult}

theorem rebootHostWaits (sent : fired reset = true) (kept : ¬ TaskLost fetchTask reset) (fuel : ℕ) :
    ∃ result : CommandResult, result.error = .null ∧
      rebootHost w target fetchTask true sleepTime maxRetry reset fuel =
        (waitReady w target (some (maxRetry • sleepTime)) (some sleepTime) true fuel).map
          fun wait => (.ok (withWait result wait.1),wait.2) := by
  obtain ⟨result,read,same⟩ := taskStateRead kept
  refine ⟨result,same.trans (firedNoError sent),?_⟩
  unfold rebootHost
  rw [read,sent]
  rfl

def returned (command : ℕ → Option (Except PyError CommandResult × ℕ)) (fuel : ℕ) :
    Option (CommandResult × ℕ) :=
  (command fuel).bind fun answer => answer.1.toOption.map fun result => (result,answer.2)

theorem rebootHostSound (sent : fired reset = true) :
    Sound (w.probe (probeTimeout (some sleepTime)))
        (returned (rebootHost w target fetchTask true sleepTime maxRetry reset)) ↔
      TaskLost fetchTask reset ∨
        ¬ StaysUp (w.probe (probeTimeout (some sleepTime))) (late w (some (maxRetry • sleepTime))) := by
  by_cases lost : TaskLost fetchTask reset
  · refine ⟨fun _ => .inl lost,fun _ fuel result probes run => ?_⟩
    obtain ⟨e,raises⟩ := taskStateRaises sent lost
    simp only [returned,rebootHost,raises,Option.bind_some,Except.toOption,Option.map_none] at run
    cases run
  rw [or_iff_right lost,← waitReadySound w target]
  constructor
  · intro sound fuel result probes run noError
    obtain ⟨extended,empty,waits⟩ :=
      rebootHostWaits w target fetchTask sleepTime maxRetry sent lost fuel
    refine sound fuel (withWait extended result) probes ?_ ((withWaitError empty).trans noError)
    rw [returned,waits,run]
    rfl
  · intro sound fuel result probes run noError
    obtain ⟨extended,empty,waits⟩ :=
      rebootHostWaits w target fetchTask sleepTime maxRetry sent lost fuel
    rw [returned,waits] at run
    cases waited : waitReady w target (some (maxRetry • sleepTime)) (some sleepTime) true fuel with
    | none =>
      rw [waited] at run
      cases run
    | some wait =>
      rw [waited] at run
      cases Option.some.inj run
      exact sound fuel wait.1 wait.2 waited ((withWaitError empty).symm.trans noError)

theorem rebootHostUnsent (unsent : fired reset = false) (probe : ℕ → Bool) :
    Sound probe (returned (rebootHost w target fetchTask true sleepTime maxRetry reset)) ↔
      reset.error ≠ .null := by
  have runs : ∀ fuel, returned (rebootHost w target fetchTask true sleepTime maxRetry reset) fuel =
      some (reset,0) := fun fuel => by
    simp [returned,rebootHost,withTaskState,unsent,Except.toOption]
  constructor
  · intro sound noError
    obtain ⟨down,up,-,made,-⟩ := sound 0 reset 0 (runs 0) noError
    exact absurd made (Nat.not_lt_zero up)
  · intro failed fuel result probes run noError
    cases Option.some.inj ((runs fuel).symm.trans run)
    exact absurd noError failed

/- Both end without an error only after a cycle exactly when the service does not stay up past the
deadline; for the reboot the reset has to be sent, or to report an error. -/
theorem rebootCycleSeen (reset : CommandResult) :
    (Sound (w.probe (probeTimeout interval)) (waitReady w target timeout interval true) ↔
      ¬ StaysUp (w.probe (probeTimeout interval)) (late w timeout)) ∧
    (Sound (w.probe (probeTimeout (some sleepTime)))
        (returned (rebootHost w target fetchTask true sleepTime maxRetry reset)) ↔
      reset.error ≠ .null ∨ (fired reset = true ∧
        (TaskLost fetchTask reset ∨ ¬ StaysUp (w.probe (probeTimeout (some sleepTime)))
          (late w (some (maxRetry • sleepTime)))))) := by
  refine ⟨waitReadySound w target timeout interval,?_⟩
  cases sent : fired reset with
  | false =>
    rw [rebootHostUnsent w target fetchTask sleepTime maxRetry sent]
    simp
  | true =>
    rw [rebootHostSound w target fetchTask sleepTime maxRetry sent]
    simp [firedNoError sent]

end

def sampleWorld : World ℤ where
  probe _ _ := true
  clock reading := reading
  rounded := .int
  text seconds := (seconds.map toString).getD "None"

def sampleTarget : Target := ⟨false,"192.0.2.1","443"⟩

def sampleReset : CommandResult := ⟨.obj [("executed",.bool true)],none,.null⟩

theorem rebootCycleMissed :
    waitReady sampleWorld sampleTarget (some 1) (some 1) true 5 =
      some (⟨.obj [("waiting_for",.str "BMC reachable at https://192.0.2.1:443/redfish/v1/"),
        ("reachable",.bool true),("waited_s",.int 2),("went_down",.bool false),
        ("target",.str "192.0.2.1")],none,.null⟩,2) ∧
    (returned (rebootHost sampleWorld sampleTarget .ok true 1 1 sampleReset) 5).map
      (fun answer => (answer.1.error,answer.2)) = some (.null,2) := by
  decide +kernel

end RedfishCtl.RebootWait
