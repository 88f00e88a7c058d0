import RedfishCtl.Rfc3339

/-! The status patches of the endpoint controller: from the stored status, the clock and the outcome
of its BMC reads, one handler call makes a patch, none when the poll is not due, or an exception. -/
namespace RedfishCtl.EndpointStatus
open Binary64 (Datum)
open Rfc3339 (DateTime rfc3339 parseRfc3339)
open AssocList
open Binary64 (add le lt mul ofInt ofRat zero)

def maxBackoffSeconds : Datum := .finite ⟨false,600*2^43,-43,by decide⟩
def pollDueToleranceSeconds : Datum := .finite ⟨false,2^52,-52,by decide⟩

/- A cadence of parse_interval_seconds, which is always positive. -/
structure Interval where
  seconds : Datum
  positive : lt zero seconds = true

structure Config where
  base : Interval
  pollInterval : Interval

def pyMin (x y : Datum) : Datum := if lt y x then y else x

def backoffSeconds (failures : Int) (base cap : Datum) : Except PyError Datum :=
  if failures < 1 then .ok base
  else match ofInt (2^(failures - 1).toNat) with
    | none => .error (.overflowError "int too large to convert to float")
    | some factor => .ok (pyMin (mul base factor) cap)

def timedelta : Datum → Except PyError Int
  | .finite x =>
      let micros := Binary64.roundHalfEven (x.value * 1000000)
      if -86399999913600000000 ≤ micros ∧ micros < 86400000000000000000 then .ok micros
      else .error (.overflowError "days out of range")
  | .infinity _ => .error (.overflowError "cannot convert float infinity to integer")
  | .nan => .error (.valueError "cannot convert float NaN to integer")

inductive ErrorClass where
  | redfishApiError
  | redfishException
  | redfishUnauthorized
  | redfishForbidden
  | authenticationFailed
  | resourceNotFound
  | requestException
  | requestsConnectionError
  | connectTimeout
  | readTimeout
  | connectionError
  | timeoutError
  | osError
  | runtimeError
  deriving DecidableEq, Repr

def ErrorClass.bases : ErrorClass → List ErrorClass
  | .redfishUnauthorized => [.redfishUnauthorized,.redfishException]
  | .redfishForbidden => [.redfishForbidden,.redfishException]
  | .requestException => [.requestException,.osError]
  | .requestsConnectionError => [.requestsConnectionError,.requestException,.osError]
  | .connectTimeout => [.connectTimeout,.requestsConnectionError,.requestException,.osError]
  | .readTimeout => [.readTimeout,.requestException,.osError]
  | .connectionError => [.connectionError,.osError]
  | .timeoutError => [.timeoutError,.osError]
  | c => [c]

structure PyException where
  errorClass : ErrorClass
  className : String
  text : String
  deriving DecidableEq, Repr

def isinstance (exc : PyException) (classes : List ErrorClass) : Bool :=
  classes.any fun c => exc.errorClass.bases.contains c

def pollErrors : List ErrorClass :=
  [.redfishApiError,.redfishException,.authenticationFailed,.resourceNotFound,
   .requestException,.connectionError,.timeoutError,.osError]

inductive PollReason where
  | authenticationFailed
  | resourceNotFound
  | timeout
  | bmcUnreachable
  | pollFailed
  deriving DecidableEq, Repr

def PollReason.name : PollReason → String
  | .authenticationFailed => "AuthenticationFailed"
  | .resourceNotFound => "ResourceNotFound"
  | .timeout => "Timeout"
  | .bmcUnreachable => "BMCUnreachable"
  | .pollFailed => "PollFailed"

def classifyPollError (exc : PyException) : PollReason × String :=
  let message := if exc.text ≠ "" then exc.text else exc.className
  if isinstance exc [.redfishUnauthorized,.redfishForbidden,.authenticationFailed] then
    (.authenticationFailed,message)
  else if isinstance exc [.resourceNotFound] then (.resourceNotFound,message)
  else if isinstance exc [.connectTimeout,.readTimeout,.timeoutError] then (.timeout,message)
  else if isinstance exc [.requestsConnectionError,.connectionError,.osError] then
    (.bmcUnreachable,message)
  else (.pollFailed,message)

inductive ConditionType where
  | reachable
  | authenticated
  | profileResolved
  | ready
  deriving DecidableEq, Repr

def ConditionType.name : ConditionType → String
  | .reachable => "Reachable"
  | .authenticated => "Authenticated"
  | .profileResolved => "ProfileResolved"
  | .ready => "Ready"

inductive ConditionStatus where
  | true
  | false
  | unknown
  deriving DecidableEq, Repr

def ConditionStatus.name : ConditionStatus → String
  | .true => "True"
  | .false => "False"
  | .unknown => "Unknown"

structure Desired where
  type : ConditionType
  status : ConditionStatus
  reason : String
  message : String
  deriving DecidableEq, Repr

/- The condition entry; the source sets the transition time to the poll time and restores the prior
one when the status is kept. -/
def condition (d : Desired) (transition : Json) : Json :=
  .obj ([("type",.str d.type.name),("status",.str d.status.name),("reason",.str d.reason),
    ("lastTransitionTime",transition)] ++
    (if d.message ≠ "" then [("message",.str d.message)] else []))

def iterate : Json → Except PyError (List Json)
  | .arr items => .ok items
  | .obj m => .ok (m.map fun p => .str p.1)
  | .str s => .ok (s.toList.map fun c => .str (String.singleton c))
  | _ => .error (.typeError "object is not iterable")

def previousConditions (items : List Json) : List (String × Json) :=
  items.foldl (fun acc item =>
    if item.isObj && (item.getD "type").truthy then insert (PyText.str (item.getD "type")) item acc
    else acc) []

def transitionTime (previous : List (String × Json)) (d : Desired) (changedAt : DateTime) : Json :=
  match previous.lookup d.type.name with
  | some prior =>
      match prior.getD "lastTransitionTime" with
      | .str t => if prior.getD "status" = .str d.status.name then .str t
          else .str (rfc3339 changedAt)
      | _ => .str (rfc3339 changedAt)
  | none => .str (rfc3339 changedAt)

def mergeConditions (previousStatus : Json) (desired : List Desired) (changedAt : DateTime) :
    Except PyError (List Json) := do
  let items ← iterate ((previousStatus.get? "conditions").getD (.arr []))
  .ok (desired.map fun d => condition d (transitionTime (previousConditions items) d changedAt))

def errorConditions (reason : PollReason) (message : String) : List Desired :=
  let (reachable,authenticated,authenticationReason) :
      ConditionStatus × ConditionStatus × String :=
    match reason with
    | .authenticationFailed => (.true,.false,"AuthenticationFailed")
    | .bmcUnreachable => (.false,.unknown,"AuthenticationNotAttempted")
    | .timeout => (.false,.unknown,"AuthenticationNotAttempted")
    | _ => (.true,.true,"CredentialsAccepted")
  [⟨.reachable,reachable,if reachable = .true then "RedfishServiceResponding" else reason.name,
      if reachable = .true then "" else message⟩,
   ⟨.authenticated,authenticated,authenticationReason,
      if authenticated = .false then message else ""⟩,
   ⟨.profileResolved,.unknown,"ProfileNotResolved",message⟩,
   ⟨.ready,.false,reason.name,message⟩]

def successConditions : List Desired :=
  [⟨.reachable,.true,"RedfishServiceResponding",""⟩,
   ⟨.authenticated,.true,"CredentialsAccepted",""⟩,
   ⟨.profileResolved,.true,"DmtfProfileSelected",""⟩,
   ⟨.ready,.true,"PollSucceeded",""⟩]

def int (value : Json) : Except PyError Int :=
  match PyText.int value with
  | .ok n => .ok n
  | .error (.typeError _) => .ok 0
  | .error (.valueError _) => .ok 0
  | .error e => .error e

def buildErrorStatus (prevStatus : Json) (exc : PyException) (now : DateTime) (baseInterval : Datum) :
    Except PyError (List (String × Json)) := do
  let failures := (← int (prevStatus.getD "consecutiveFailures")) + 1
  let (reason,message) := classifyPollError exc
  let delay ← backoffSeconds failures baseInterval maxBackoffSeconds
  let conditions ← mergeConditions prevStatus (errorConditions reason message) now
  let wait ← timedelta delay
  .ok [("conditions",.arr conditions),("consecutiveFailures",.int failures),
    ("lastError",.str message),("nextPollAfter",.str (rfc3339 (now + wait)))]

/- The readings of one successful poll; no network firmware block when that read failed. -/
structure Readings where
  powerState : Option String
  health : Option String
  count : Nat
  maxCelsius : Option Datum
  networkFirmware : Option (List (String × Json))
  deriving Repr

def optional (f : α → Json) (value : Option α) : Json := (value.map f).getD .null

def buildStatus (r : Readings) (polledAt : DateTime) : List (String × Json) :=
  [("powerState",optional .str r.powerState),("health",optional .str r.health),
   ("temperature",.obj [("count",.int r.count),("maxCelsius",optional .float r.maxCelsius)]),
   ("lastPolled",.str (rfc3339 polledAt))] ++
  (r.networkFirmware.map fun block => [("networkFirmware",.obj block)]).getD []

def buildSuccessStatus (readings : List (String × Json)) (now : DateTime) (prevStatus : Json) :
    Except PyError (List (String × Json)) := do
  let conditions ← mergeConditions prevStatus successConditions now
  .ok (readings ++ [("conditions",.arr conditions),("consecutiveFailures",.int 0),
    ("lastError",.null),("nextPollAfter",.null)])

def pollDue (config : Config) (status : Json) (now : DateTime) : Bool :=
  match parseRfc3339 (status.getD "nextPollAfter") with
  | some next => if now < next then false else due
  | none => due
where
  due : Bool := match parseRfc3339 (status.getD "lastPolled") with
    | none => true
    | some last =>
        let elapsed := ofRat (mkRat (now - last) 1000000)
        le config.pollInterval.seconds (add elapsed pollDueToleranceSeconds)

inductive Outcome where
  | readings (r : Readings)
  | noReadings
  | raised (exc : PyException)
  deriving Repr

def noReadingsError : PyException :=
  ⟨.runtimeError,"RuntimeError","poll returned no status readings"⟩

def pollRedfishEndpoint (config : Config) (status : Json) (force : Bool) (now : DateTime)
    (outcome : Outcome) : Except PyError (Option (List (String × Json))) :=
  if !force && !pollDue config status now then .ok none
  else match outcome with
    | .readings r => (buildSuccessStatus (buildStatus r now) now status).map some
    | .noReadings => (buildErrorStatus status noReadingsError now config.base.seconds).map some
    | .raised exc =>
        if isinstance exc pollErrors then
          (buildErrorStatus status exc now config.base.seconds).map some
        else .error (.other exc.className exc.text)

end RedfishCtl.EndpointStatus
