import RedfishCtl.Polling
import RedfishCtl.PyText

/-! Waiting for a task of the generic `TaskService`: the task monitor is polled until a response or
the clock ends the wait. Time is any type with the operations the code uses. -/
namespace RedfishCtl.TaskWait
open Polling

inductive TaskState where
  | new | starting | running | suspended | interrupted | pending | stopping
  | completed | killed | exception | service | cancelling | cancelled
  deriving DecidableEq

def taskStates : List (String × TaskState) :=
  [("New",.new),("Starting",.starting),("Running",.running),("Suspended",.suspended),
   ("Interrupted",.interrupted),("Pending",.pending),("Stopping",.stopping),("Completed",.completed),
   ("Killed",.killed),("Exception",.exception),("Service",.service),("Cancelling",.cancelling),
   ("Cancelled",.cancelled)]

def terminalTaskStates : List TaskState := [.completed,.killed,.cancelled,.exception]

/- A body that is not JSON is absent. -/
structure Response where
  statusCode : Int
  retryAfter : Option String
  body : Option Json

def getTaskState (r : Response) : Option TaskState :=
  match r.body with
  | some (.obj m) => match m.lookup "TaskState" with
      | some (.str value) => taskStates.lookup value
      | _ => none
  | _ => none

def retryAfter (r : Response) : Int := ((r.retryAfter.filter (· ≠ "")).bind PyText.intOfString).getD 0

structure Wait (τ : Type) where
  response : ℕ → Response
  clock : ℕ → τ
  started : τ
  sleepTime : Option Int
  waitForState : Option TaskState
  timeout : Option τ

section
variable {τ : Type} [Sub τ] [LE τ] [DecidableLE τ] (w : Wait τ)

def delay (r : Response) : Int := max (w.sleepTime.getD 0) (retryAfter r)

def late (i : ℕ) : Bool := w.timeout.any fun budget => decide (budget ≤ w.clock i - w.started)

/- The poll from the i-th GET on, with the state so far: what it returns or raises, and the number of
GETs made. Out of fuel there is no answer. -/
def pollFrom : ℕ → ℕ → Option TaskState → Option (Except PyError (Option TaskState) × ℕ)
  | 0, _, _ => none
  | fuel + 1, i, state =>
      let r := w.response i
      if r.statusCode = 401 then
        some (.error (.other "AuthenticationFailed" "task service returned 401."),i + 1)
      else if r.statusCode = 404 ∨ r.statusCode = 410 ∨ 500 ≤ r.statusCode then some (.ok state,i + 1)
      else
        let state := (getTaskState r).or state
        if w.waitForState.isSome ∧ state = w.waitForState then some (.ok state,i + 1)
        else if state.any terminalTaskStates.contains then some (.ok state,i + 1)
        else if late w i then some (.ok state,i + 1)
        else if delay w r < 0 then some (.error (.valueError "sleep length must be non-negative"),i + 1)
        else pollFrom fuel (i + 1) state

def fetchTask (fuel : ℕ) : Option (Except PyError (Option TaskState) × ℕ) := pollFrom w fuel 0 none

/- The state that the last of the first responses with a recognised state has reported. -/
def reported : ℕ → Option TaskState
  | 0 => none
  | n + 1 => (getTaskState (w.response n)).or (reported n)

def gone (r : Response) : Bool := r.statusCode = 404 || r.statusCode = 410 || 500 ≤ r.statusCode

def arrived (state : Option TaskState) : Bool :=
  (w.waitForState.isSome && state = w.waitForState) || state.any terminalTaskStates.contains

/- Whether the wait ends with the i-th response, or with the reading of the clock behind it. -/
def stops (i : ℕ) : Bool :=
  (w.response i).statusCode = 401 || gone (w.response i) || arrived w (reported w (i + 1)) ||
    late w i || delay w (w.response i) < 0

def answer (i : ℕ) : Except PyError (Option TaskState) :=
  if (w.response i).statusCode = 401 then
    .error (.other "AuthenticationFailed" "task service returned 401.")
  else if gone (w.response i) then .ok (reported w i)
  else if arrived w (reported w (i + 1)) || late w i then .ok (reported w (i + 1))
  else .error (.valueError "sleep length must be non-negative")

theorem pollFromRound (fuel i : ℕ) : pollFrom w (fuel + 1) i (reported w i) =
    if stops w i then some (answer w i,i + 1) else pollFrom w fuel (i + 1) (reported w (i + 1)) := by
  rw [pollFrom,stops,answer,arrived,gone,reported]
  grind

theorem pollFromPolls (fuel i : ℕ) : pollFrom w fuel i (reported w i) =
    (poll (stops w) (fun _ => false) fuel i i).map fun a => (answer w (a.2.1 - 1),a.2.1) := by
  induction fuel generalizing i with
  | zero => rfl
  | succ fuel ih =>
    rw [pollFromRound,poll,ih]
    split
    · rfl
    · rfl

theorem fetchTaskEnds {fuel result n} : fetchTask w fuel = some (result,n) ↔ ∃ k < fuel,
    (∀ m < k, stops w m = false) ∧ stops w k = true ∧ n = k + 1 ∧ result = answer w k := by
  have polls := pollFromPolls w fuel 0
  rw [reported] at polls
  rw [fetchTask,polls,Option.map_eq_some_iff]
  constructor
  · rintro ⟨a,polled,same⟩
    obtain ⟨k,inside,stopped⟩ := pollStops.mp polled
    cases stopped with
    | hit goes now =>
      refine ⟨k,inside,fun m below => ?_,?_,?_,?_⟩ <;> simp_all [Goes]
    | late _ _ now => cases now
  · rintro ⟨k,inside,goes,now,rfl,rfl⟩
    refine ⟨(true,0 + k + 1,0 + k),pollStops.mpr ⟨k,inside,.hit (fun m below => ?_) ?_⟩,by simp⟩
    · simpa using goes m below
    · simpa using now

end

end RedfishCtl.TaskWait
