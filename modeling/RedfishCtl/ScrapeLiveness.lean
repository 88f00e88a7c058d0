import RedfishCtl.Collectors

/-! One scrape of the exporter: each collector's outcome is classified by the class of the exception
that ended it, and the health samples follow from the outcomes. -/
namespace RedfishCtl.ScrapeLiveness
open AssocList
open Collectors
open DellWrite (Raised Response)

inductive Cause where
  | transport (e : Exc)
  | status (r : Response)
  | undecodable

def raisedName : Raised → String
  | .redfishException _ => "RedfishException"
  | .redfishUnauthorized _ => "RedfishUnauthorized"
  | .redfishForbidden _ => "RedfishForbidden"
  | .resourceNotFound _ => "ResourceNotFound"
  | .taskIdUnavailable _ => "TaskIdUnavailable"
  | .keyError _ => "KeyError"
  | .typeError _ => "TypeError"

def Cause.exception : Cause → Exc
  | .transport e => e
  | .status r => match GenericWrite.defaultErrorHandler r with
      | .error e => ⟨raisedName e,false⟩
      | .ok _ => ⟨"ResourceNotFound",false⟩
  | .undecodable => ⟨"JSONDecodeError",false⟩

structure Session where
  cache : List (Request × Json)
  sent : ℕ

abbrev Bmc := ℕ → Request → Except Exc Response

def fetch (bmc : Bmc) (doAsync : Bool) (request : Request) : Stateful Session Cause Json := fun s =>
  match (if doAsync then none else s.cache.lookup request) with
  | some data => (.ok data,s)
  | none => match bmc s.sent request with
      | .error e => (.error (.transport e),⟨s.cache,s.sent + 1⟩)
      | .ok r => match GenericWrite.defaultErrorHandler r with
          | .error _ => (.error (.status r),⟨s.cache,s.sent + 1⟩)
          | .ok _ => match r.json with
              | .error _ => (.error .undecodable,⟨s.cache,s.sent + 1⟩)
              | .ok data =>
                  (.ok data,⟨if doAsync then s.cache else insert request data s.cache,s.sent + 1⟩)

def unsupportedCollectorErrors : List String :=
  ["FailedDiscoverAction","MissingResource","RedfishMethodNotAllowed","RedfishNotFound",
   "ResourceNotFound","UnsupportedAction"]

def authenticationErrors : List String :=
  ["AuthenticationFailed","RedfishForbidden","RedfishUnauthorized"]

def isUnsupportedCollectorError (e : Exc) : Bool := unsupportedCollectorErrors.contains e.name

inductive ErrorKind where
  | timeout
  | authentication
  | decodeError
  | invalidPayload
  | httpError
  | internal
  deriving DecidableEq, Repr

def collectorErrorKind (e : Exc) : ErrorKind :=
  if e.isTimeout || mentions e.name "timeout" then .timeout
  else if authenticationErrors.contains e.name || mentions e.name "unauthoriz" then .authentication
  else if mentions e.name "jsondecode" || mentions e.name "decode" then .decodeError
  else if ["TypeError","ValueError","KeyError","UnexpectedResponse"].contains e.name then .invalidPayload
  else if ["http","redfish","requestfailed"].any (mentions e.name) then .httpError
  else .internal

structure CollectorResult where
  name : String
  supported : Bool
  success : Bool
  rows : List Json
  errorKind : Option ErrorKind
  deriving DecidableEq

def notList : PyError := .valueError "collector returned a non-list payload"

def extractListRows : Json → Except PyError (List Json)
  | .arr rows => .ok rows
  | _ => .error notList

def extractEnvironmentRows (data : Json) : Except PyError (List Json) :=
  match data.getD "metrics",data with
  | .arr rows,_ => .ok rows
  | _,.arr rows => .ok rows
  | _,_ => .error (.valueError "environment-metrics returned an unexpected payload")

def extractLeakDetectorRows (data : Json) : Except PyError (List Json) :=
  match data.getD "detectors" with
  | .arr rows => .ok rows
  | _ => .error (.valueError "leak-detectors returned an unexpected payload")

def extractThermalRows (data : Json) : Except PyError (List Json) :=
  match data.getD "temperature_readings" with
  | .arr rows => .ok rows
  | _ => .error (.valueError "thermal returned an unexpected payload")

def validateCollectorRows (rows : List Json) : Except PyError (List Json) :=
  if rows.all Json.isObj then .ok rows
  else .error (.valueError "collector returned a non-mapping row")

structure Collector where
  name : String
  call : Scan Json
  extractRows : Json → Except PyError (List Json)

def collectors (doExpanded : Bool) : List Collector :=
  [⟨"environment-metrics",environmentMetrics,extractEnvironmentRows⟩,
   ⟨"thermal",thermal,extractThermalRows⟩,
   ⟨"sensors",sensors doExpanded,extractListRows⟩,
   ⟨"nvlink-ports",nvlinkPorts,extractListRows⟩,
   ⟨"metric-reports",metricReports doExpanded,extractListRows⟩,
   ⟨"leak-detectors",leakDetectors,extractLeakDetectorRows⟩,
   ⟨"network-adapters",networkAdapters doExpanded,extractListRows⟩,
   ⟨"component-integrity",componentIntegrity doExpanded,extractListRows⟩]

def failedResult (name : String) (e : Exc) : CollectorResult :=
  ⟨name,true,false,[],some (collectorErrorKind e)⟩

def collectResult (c : Collector) (called : Except Exc Json) : CollectorResult :=
  match called with
  | .error e =>
      if isUnsupportedCollectorError e then ⟨c.name,false,true,[],none⟩ else failedResult c.name e
  | .ok data => match c.extractRows data >>= validateCollectorRows with
      | .error e => failedResult c.name ⟨className e,false⟩
      | .ok rows => ⟨c.name,true,true,rows,none⟩

structure Outcome where
  result : CollectorResult
  failures : List Cause

def invokeCollectors (bmc : Bmc) (doAsync : Bool) : List Collector → Session → List Outcome × Session
  | [],s => ([],s)
  | c::rest,s =>
      let ran := Walk.run (fetch bmc doAsync) Cause.exception c.call s
      let (others,t) := invokeCollectors bmc doAsync rest ran.state
      (⟨collectResult c ran.result,ran.failures⟩::others,t)

def collectorScrapeStatus (results : List CollectorResult) : Bool × Bool :=
  let failed := results.any fun r => r.supported && !r.success
  (!failed,failed && results.any fun r => r.supported && r.success)

structure Reader (τ : Type) where
  errorTotals : List ((String × ErrorKind) × ℕ)
  lastSuccess : τ

structure Health (τ : Type) where
  scrapeSuccess : ℕ
  scrapePartial : ℕ
  lastSuccess : τ
  scrapeOk : ℕ
  bmcUp : ℕ
  collectors : List (String × ℕ × ℕ × ℕ)
  collectionErrors : List ((String × ErrorKind) × ℕ)

def gauge (b : Bool) : ℕ := if b then 1 else 0

def scrapeHealthSamples {τ : Type} (ok : Bool) (results : List CollectorResult) (scrapePartial : Bool)
    (reader : Reader τ) : Health τ :=
  ⟨gauge ok,gauge scrapePartial,reader.lastSuccess,gauge ok,gauge ok,
    results.map fun r => (r.name,gauge r.success,gauge r.supported,r.rows.length),reader.errorTotals⟩

def countError (totals : List ((String × ErrorKind) × ℕ)) (r : CollectorResult) :
    List ((String × ErrorKind) × ℕ) :=
  match r.errorKind with
  | none => totals
  | some kind => insert (r.name,kind) ((totals.lookup (r.name,kind)).getD 0 + 1) totals

/- `read` behind the identity of the exporter: `build` makes the other samples, and `now` is the
time after. -/
def read {τ μ : Type} (bmc : Bmc) (doAsync doExpanded : Bool)
    (build : List (String × List Json) → Except Exc μ) (now : τ) (s : Session) (reader : Reader τ) :
    List Outcome × Reader τ × Except Exc (μ × Health τ) :=
  let outcomes := (invokeCollectors bmc doAsync (collectors doExpanded) s).1
  let results := outcomes.map Outcome.result
  match build (results.map fun r => (r.name,r.rows)) with
  | .error e => (outcomes,reader,.error e)
  | .ok samples =>
      let (ok,scrapePartial) := collectorScrapeStatus results
      let counted : Reader τ := ⟨results.foldl countError reader.errorTotals,
        if ok then now else reader.lastSuccess⟩
      (outcomes,counted,.ok (samples,scrapeHealthSamples ok results scrapePartial counted))

/- An error that is not an absent or unsupported resource; `absent` has the statuses below 500
that say so. -/
def Cause.Failing (absent : Int → Bool) : Cause → Prop
  | .status r => (500 ≤ r.statusCode ∧ r.statusCode < 600) ∨
      (400 ≤ r.statusCode ∧ absent r.statusCode = false)
  | .transport _ | .undecodable => True

/- The collector is a supported one that failed, the gauge is down, and the time of the last
success stays. -/
structure Reported {τ μ : Type} (result : CollectorResult) (before after : Reader τ)
    (samples : Except Exc (μ × Health τ)) : Prop where
  supported : result.supported = true
  failed : result.success = false
  down : ∀ made, samples = .ok made → made.2.bmcUp = 0
  kept : after.lastSuccess = before.lastSuccess

def Honest {τ μ : Type} (absent : Int → Bool) (before : Reader τ)
    (scrape : List Outcome × Reader τ × Except Exc (μ × Health τ)) : Prop :=
  ∀ o ∈ scrape.1, ∀ c ∈ o.failures, c.Failing absent →
    Reported o.result before scrape.2.1 scrape.2.2

def Cause.Shown : Cause → Prop
  | .status r => r.statusCode = 401 ∨ r.statusCode = 403
  | .transport e => e.name ∉ unsupportedCollectorErrors
  | .undecodable => True

def requiredFailures (bmc : Bmc) (doAsync doExpanded : Bool) (s : Session) : List Cause :=
  (invokeCollectors bmc doAsync (collectors doExpanded) s).1.flatMap Outcome.failures

theorem invokeFailed {bmc doAsync cs s o c} (mem : o ∈ (invokeCollectors bmc doAsync cs s).1)
    (failed : c ∈ o.failures) :
    ∃ collector : Collector, o.result = collectResult collector (.error c.exception) := by
  induction cs generalizing s with
  | nil => exact absurd mem List.not_mem_nil
  | cons first rest ih =>
    rcases List.mem_cons.mp mem with rfl | later
    · refine ⟨first,?_⟩
      rw [Walk.runFails failed]
    · exact ih later

theorem statusException {r} (error : 400 ≤ r.statusCode) :
    (Cause.status r).exception =
      ⟨if r.statusCode = 401 then "RedfishUnauthorized"
        else if r.statusCode = 403 then "RedfishForbidden" else "ResourceNotFound",false⟩ := by
  have handled : GenericWrite.defaultErrorHandler r =
      if r.statusCode = 401 then .error (.redfishUnauthorized (DellWrite.parseError r))
      else if r.statusCode = 403 then .error (.redfishForbidden (DellWrite.parseError r))
      else .error (.resourceNotFound (DellWrite.parseError r)) := by
    unfold GenericWrite.defaultErrorHandler
    rw [if_neg (by omega),if_neg (by omega),if_neg (by omega),if_neg (by omega)]
  unfold Cause.exception
  dsimp only
  rw [handled]
  by_cases unauthorized : r.statusCode = 401
  · simp [unauthorized,raisedName]
  · by_cases forbidden : r.statusCode = 403
    · simp [forbidden,raisedName]
    · simp [unauthorized,forbidden,raisedName]

theorem supportedShown {absent} {c : Cause} (failing : c.Failing absent) :
    isUnsupportedCollectorError c.exception = false ↔ c.Shown := by
  cases c with
  | transport e => simp [isUnsupportedCollectorError,Cause.exception,Cause.Shown]
  | undecodable => exact ⟨fun _ => trivial,fun _ => by decide⟩
  | status r =>
    have error : 400 ≤ r.statusCode := failing.elim (fun server => by omega) And.left
    rw [statusException error,Cause.Shown]
    by_cases unauthorized : r.statusCode = 401
    · simp [unauthorized,isUnsupportedCollectorError,unsupportedCollectorErrors]
    · by_cases forbidden : r.statusCode = 403
      · simp [forbidden,isUnsupportedCollectorError,unsupportedCollectorErrors]
      · simp [unauthorized,forbidden,isUnsupportedCollectorError,unsupportedCollectorErrors]

theorem collectRaised (c : Collector) (e : Exc) :
    (collectResult c (.error e)).supported = !isUnsupportedCollectorError e ∧
      (collectResult c (.error e)).success = isUnsupportedCollectorError e := by
  unfold collectResult
  dsimp only
  split
  · rename_i unsupported
    simp [unsupported]
  · rename_i supported
    simp [supported,failedResult]

theorem statusDown {results r} (mem : r ∈ results) (supported : r.supported = true)
    (failed : r.success = false) : (collectorScrapeStatus results).1 = false := by
  unfold collectorScrapeStatus
  have any : results.any (fun r => r.supported && !r.success) = true :=
    List.any_eq_true.mpr ⟨r,mem,by simp [supported,failed]⟩
  simp [any]

section
variable {τ μ : Type} (absent : Int → Bool) (bmc : Bmc) (doAsync doExpanded : Bool)
variable (build : List (String × List Json) → Except Exc μ) (now : τ) (s : Session) (reader : Reader τ)

theorem readOutcomes : (read bmc doAsync doExpanded build now s reader).1 =
    (invokeCollectors bmc doAsync (collectors doExpanded) s).1 := by
  unfold read
  dsimp only
  split
  · rfl
  · rfl

theorem readDown {o} (mem : o ∈ (read bmc doAsync doExpanded build now s reader).1)
    (supported : o.result.supported = true) (failed : o.result.success = false) :
    Reported o.result reader (read bmc doAsync doExpanded build now s reader).2.1
      (read bmc doAsync doExpanded build now s reader).2.2 := by
  rw [readOutcomes] at mem
  have down := statusDown (List.mem_map_of_mem mem) supported failed
  unfold read
  dsimp only
  split
  · refine ⟨supported,failed,fun made same => ?_,rfl⟩
    cases same
  refine ⟨supported,failed,fun made same => ?_,?_⟩
  · cases Except.ok.inj same
    rw [down]
    rfl
  · dsimp only
    rw [down]
    rfl

/- A scrape is honest exactly if every failure of a read that a collector needs ends in an exception
that is not taken for an unsupported resource. -/
theorem livenessHonest :
    Honest absent reader (read bmc doAsync doExpanded build now s reader) ↔
      ∀ c ∈ requiredFailures bmc doAsync doExpanded s, c.Failing absent → c.Shown := by
  constructor
  · intro honest c mem failing
    obtain ⟨o,inside,failed⟩ := List.mem_flatMap.mp mem
    obtain ⟨collector,result⟩ := invokeFailed inside failed
    rw [← readOutcomes bmc doAsync doExpanded build now s reader] at inside
    have reported := (honest o inside c failed failing).supported
    rw [result,(collectRaised collector c.exception).1] at reported
    rw [← supportedShown failing]
    simpa using reported
  · intro shown o inside c failed failing
    have listed := inside
    rw [readOutcomes] at listed
    obtain ⟨collector,result⟩ := invokeFailed listed failed
    have raised := (supportedShown failing).mpr
      (shown c (List.mem_flatMap.mpr ⟨o,listed,failed⟩) failing)
    obtain ⟨supported,success⟩ := collectRaised collector c.exception
    rw [← result,raised] at supported success
    exact readDown bmc doAsync doExpanded build now s reader inside supported success

end

theorem unavailableReportsUp :
    let scrape := read (fun _ _ => .ok ⟨503,none,.ok (.obj []),""⟩) false false
      (fun _ => .ok ()) 100 ⟨[],0⟩ ⟨[],0⟩
    scrape.1.map (fun o => (o.result.supported,o.result.success)) = List.replicate 8 (false,true) ∧
    scrape.2.2.toOption.map (fun made => made.2.bmcUp) = some 1 ∧ scrape.2.1.lastSuccess = 100 := by
  decide +kernel

end RedfishCtl.ScrapeLiveness
