import RedfishCtl.CommandArguments
import RedfishCtl.RedfishQuery

/-! One command of the CLI from the parsed arguments to the exit status. `_run` prints some
exception classes, `main` marks the root span for the others, and the entry point prints three more. -/
namespace RedfishCtl.CommandExit
open AssocList
open CommandArguments (Value Keywords)
open Stateful (bindOk bindError rescueOk rescueError)
open Stateful (forEach ofExcept zoom)

/- The exception classes that a handler or the interpreter tests for. -/
inductive ExceptClass where
  | redfishException
  | taskIdUnavailable
  | missingResource
  | invalidJsonSpec
  | resourceNotFound
  | invalidArgument
  | failedDiscoverAction
  | unsupportedAction
  | missingMandatoryArguments
  | fileNotFoundError
  | uncommittedPendingChanges
  | authenticationFailed
  | connectionError
  | sslCertVerificationError
  | attributeError
  | requestsJsonDecodeError
  | jsonDecodeError
  | jsonHttpError
  | systemExit
  | keyboardInterrupt
  deriving DecidableEq, Repr

inductive ExitCode where
  | none
  | int (n : Int)
  | object
  deriving DecidableEq, Repr

/- `classes` are those the exception is an instance of; `code` and `jsonError` are those of
`SystemExit` and `JsonHttpError`. -/
structure PyException where
  text : String
  classes : List ExceptClass
  code : ExitCode
  jsonError : Json
  deriving DecidableEq, Repr

def PyException.isinstance (e : PyException) (c : ExceptClass) : Bool := e.classes.contains c

def raised (c : ExceptClass) (text : String) : PyException := ⟨text,[c],.none,.null⟩

inductive ErrorValue where
  | data (j : Json)
  | exception (e : PyException)
  deriving DecidableEq, Repr

namespace ErrorValue

def isNone : ErrorValue → Bool
  | .data .null => true
  | _ => false

def truthy : ErrorValue → Bool
  | .data j => j.truthy
  | .exception _ => true

theorem falsyNone {error : ErrorValue} (none : error.isNone = true) : error.truthy = false := by
  unfold isNone at none
  split at none
  · rfl
  · cases none

end ErrorValue

inductive Payload where
  | value (v : Value)
  | sections (entries : List (String × Payload))

def Payload.ofKeywords (kwargs : Keywords) : Payload :=
  .sections (kwargs.map fun p => (p.1,.value p.2))

inductive Found where
  | action (name : String) (action : Value)
  | other (v : Value)

inductive Discovered where
  | mapping (entries : List (String × Found))
  | other (v : Value)

structure CommandResult where
  data : Value
  discovered : Option Discovered
  extra : Value
  error : ErrorValue

structure Command (κ : Type) where
  type : κ
  name : String
  deriving DecidableEq, Repr

/- The parsed command line. `vars` is the whole namespace, `doSave` is absent from most
commands. -/
structure Namespace where
  subcommand : String
  vars : Keywords
  redfishHost : Option String
  redfishUsername : Option String
  redfishPassword : Option String
  redfishPort : Connection.Port
  verifySsl : Bool
  useHttp : Bool
  otlpTraces : Bool
  verbose : Bool
  noStdout : Bool
  dataOnly : Bool
  noExtra : Bool
  noAction : Bool
  json : Bool
  nocolor : Bool
  doSave : Option Bool
  scanNetwork : Option String
  action : Option String
  query : RedfishQuery

structure VendorCapabilities where
  vendor : String
  querySelect : Bool
  queryFilter : Bool
  queryExpand : Bool
  queryTop : Bool
  queryOnly : Bool
  oneQueryParamPerUri : Bool

/- The manager and its surroundings; `render` serializes and writes. -/
structure Environment (κ σ : Type) where
  setupOtlp : Except PyException Unit
  construct : Namespace → Bool → Stateful σ PyException Unit
  checkApiVersion : Stateful σ PyException Unit
  redfishVendor : Stateful σ PyException Json
  getVendor : Json → Except PyException VendorCapabilities
  invoke : Command κ → Keywords → Stateful σ PyException CommandResult
  syncInvoke : Command κ → Keywords → Stateful σ PyException CommandResult
  idracManagerVersion : Stateful σ PyException Json
  redfishVersion : Stateful σ PyException Json
  render : Namespace → Payload → Stateful σ PyException Unit
  saveIfNeeded : String → Json → Stateful σ PyException Unit

namespace Namespace

def isNetworkScan (args : Namespace) : Bool :=
  args.subcommand = "bmc-scan" || (args.subcommand = "discovery" && args.scanNetwork.any (· ≠ ""))

def localCommands : List String := ["bios-profile","capability-report"]

def isLocalCommand (args : Namespace) : Bool :=
  if args.subcommand = "bios-profile" then ["list","show"].contains (args.action.getD "list")
  else localCommands.contains args.subcommand

def fleetCommands : List String := ["fleet"]

def isFleetCommand (args : Namespace) : Bool := fleetCommands.contains args.subcommand

def connectionless (args : Namespace) : Bool :=
  args.isNetworkScan || args.isLocalCommand || args.isFleetCommand

def insecure (args : Namespace) : Bool := !args.verifySsl

def startsTracing (args : Namespace) : Bool := args.otlpTraces && args.subcommand != "exporter"

def rootConnectionArgs : List String :=
  ["message_type","redfish_host","redfish_username","redfish_password","redfish_port"]

def argDict (args : Namespace) : Keywords :=
  args.vars.filter fun p => !rootConnectionArgs.contains p.1

def invokeKwargs (args : Namespace) (argDict : Keywords) : Keywords :=
  update argDict [("_redfish_host",.data (.str (args.redfishHost.getD ""))),
    ("_redfish_username",.data (.str (args.redfishUsername.getD ""))),
    ("_redfish_password",.data (.str (args.redfishPassword.getD ""))),
    ("_redfish_port",.ofPort args.redfishPort),("insecure",.data (.bool args.insecure)),
    ("is_http",.data (.bool args.useHttp))]

end Namespace

def unsupported (query : RedfishQuery) (caps : VendorCapabilities) : List String :=
  (if query.selects.isSome && !caps.querySelect then ["$select"] else []) ++
  (if query.filters.isSome && !caps.queryFilter then ["$filter"] else []) ++
  (if query.expands.isSome && !caps.queryExpand then ["$expand"] else []) ++
  (if query.top.isSome && !caps.queryTop then ["$top"] else []) ++
  (if query.only && !caps.queryOnly then ["only"] else [])

def validateRedfishQueryForVendor (query : RedfishQuery) (caps : VendorCapabilities) :
    Except PyException Unit :=
  match unsupported query caps with
  | [] => match query.toQueryString caps.oneQueryParamPerUri with
      | .ok _ => .ok ()
      | .error e => .error (raised .invalidArgument e.text)
  | names => .error (raised .invalidArgument
      (caps.vendor ++ " does not declare support for " ++ ", ".intercalate names))

section
variable {κ σ : Type} (env : Environment κ σ) (args : Namespace)

def printerHandles (e : PyException) : Bool :=
  e.isinstance .attributeError || e.isinstance .requestsJsonDecodeError ||
    e.isinstance .jsonDecodeError

def jsonPrinter (payload : Payload) : Stateful σ PyException Unit :=
  if args.noStdout then pure ()
  else (env.render args payload).rescue fun e => if printerHandles e then some (pure ()) else none

def saveExtra (extra : Value) : Stateful σ PyException Unit :=
  match extra with
  | .data (.obj sections) =>
      forEach (fun p => env.saveIfNeeded (p.1 ++ ".json") p.2) sections
  | _ => .ofExcept (.error (raised .attributeError "object has no attribute 'keys'"))

def foundSections (entries : List (String × Found)) : List (String × Payload) :=
  entries.map fun p => match p.2 with
    | .action name action => (name,.value action)
    | .other v => (p.1,.value v)

def text (s : String) : Payload := .value (.data (.str s))

def actionSections (discovered : Discovered) : List (String × Payload) :=
  match discovered with
  | .mapping [] => [("actions",.sections [])]
  | .mapping entries => [("actions",.sections (foundSections entries)),
      ("actions-description",text "# Redfish actions:")]
  | .other v => [("actions",.value v)]

def processRespond (result : CommandResult) : Stateful σ PyException Payload :=
  if args.dataOnly then pure (.value result.data)
  else do
    let data := if result.data = .null then [] else [("data",.value result.data),
      ("idrac-data-description",text "# idrac respond data for the command:")]
    let extra := if result.extra = .null ∨ args.noExtra then [] else [("extra",.value result.extra),
      ("idrac-extra-description",text "# idrac respond extra data for the command:")]
    if extra ≠ [] ∧ args.doSave = some true then saveExtra env result.extra
    let actions := match result.discovered with
      | some discovered =>
          if args.noAction || !args.json then [] else actionSections discovered
      | none => []
    pure (.sections (data ++ extra ++ actions))

def opening : Stateful σ PyException Unit := do
  env.construct args args.insecure
  if args.connectionless then pure () else env.checkApiVersion

def queryArguments : Stateful σ PyException Keywords := do
  if !args.connectionless && !args.query.isEmpty then
    let vendor ← env.redfishVendor
    let caps ← ofExcept (env.getVendor vendor)
    ofExcept (validateRedfishQueryForVendor args.query caps)
    pure (update args.argDict [("redfish_query",.object 0),
      ("redfish_query_one_param_per_uri",.data (.bool caps.oneQueryParamPerUri))])
  else pure args.argDict

def addVersions (result : CommandResult) : Stateful σ PyException CommandResult :=
  match result.data with
  | .data (.obj members) => do
      let idrac ← env.idracManagerVersion
      let redfish ← env.redfishVersion
      let members := insert "redfish_version" redfish (insert "idrac_version" idrac members)
      pure ⟨.data (.obj members),result.discovered,result.extra,result.error⟩
  | _ => pure result

def withVersions (result : CommandResult) : Stateful σ PyException CommandResult :=
  if args.connectionless then pure result
  else do
    let vendor ← env.redfishVendor
    if vendor = .str "Dell" then addVersions env result else pure result

def dispatch (cmd : Command κ) : Stateful σ PyException CommandResult := do
  let argDict ← queryArguments env args
  if args.verbose then jsonPrinter env args (.ofKeywords argDict)
  let result ←
    if args.connectionless then env.invoke cmd (args.invokeKwargs argDict)
    else env.syncInvoke cmd argDict
  withVersions env args result

def postprocess (result : CommandResult) : Stateful σ PyException Unit :=
  if result.error.isNone then do
    let processed ← processRespond env args result
    jsonPrinter env args processed
  else jsonPrinter env args (.value result.data)

end

inductive StatusCode where
  | unset
  | ok
  | error
  deriving DecidableEq, Repr

/- `set_status` of a span: a status of OK is final. -/
def StatusCode.set (current new : StatusCode) : StatusCode :=
  if current = .ok ∨ new = .unset then current else new

structure Process (σ : Type) where
  manager : σ
  tracer : Bool
  rootSpan : Option StatusCode
  printed : List String

section
variable {κ σ : Type}

def setStatus (new : StatusCode) : Stateful (Process σ) PyException Unit :=
  .modify fun p => { p with rootSpan := p.rootSpan.map fun current => current.set new }

def recordException : Stateful (Process σ) PyException Unit := setStatus .error

def recordResult (result : CommandResult) : Stateful (Process σ) PyException Unit :=
  setStatus (if result.error.truthy then .error else .ok)

def consoleErrorPrinter (line : String) : Stateful (Process σ) PyException Unit :=
  .modify fun p => { p with printed := p.printed ++ [line] }

def within {α : Type} (p : Stateful σ PyException α) : Stateful (Process σ) PyException α :=
  zoom Process.manager (fun s process => { process with manager := s }) p

/- The `except` clauses of `_run`, with the text each prints first. -/
def runClauses : List (ExceptClass × String) :=
  [(.redfishException,"Error: "),(.taskIdUnavailable,"Error: "),(.missingResource,"Error: "),
   (.invalidJsonSpec,"Error: "),(.resourceNotFound,"Error: "),(.invalidArgument,"Error: "),
   (.failedDiscoverAction,"Error: "),(.unsupportedAction,"Error:"),
   (.missingMandatoryArguments,"Error:"),(.fileNotFoundError,"Error:"),
   (.uncommittedPendingChanges,"Error:")]

def mainClauses : List (ExceptClass × String) :=
  [(.authenticationFailed,"Error: "),(.connectionError,"Error: "),(.sslCertVerificationError,"Error: ")]

def clauseFor (clauses : List (ExceptClass × String)) (e : PyException) :
    Option (ExceptClass × String) :=
  clauses.find? fun clause => e.isinstance clause.1

def runHandler (e : PyException) : Option (Stateful (Process σ) PyException Unit) :=
  (clauseFor runClauses e).map fun clause => do
    recordException
    consoleErrorPrinter (clause.2 ++ e.text)

def mainHandler (e : PyException) : Option (Stateful (Process σ) PyException Unit) :=
  (clauseFor mainClauses e).map fun clause => consoleErrorPrinter (clause.2 ++ e.text)

variable (env : Environment κ σ) (args : Namespace)

def printHttpError : ErrorValue → Stateful (Process σ) PyException Unit
  | .exception e =>
      if e.isinstance .jsonHttpError then consoleErrorPrinter (PyText.str e.jsonError) else pure ()
  | .data _ => pure ()

def attempt (cmd : Command κ) : Stateful (Process σ) PyException Unit := do
  let result ← within (dispatch env args cmd)
  recordResult result
  within (postprocess env args result)
  printHttpError result.error

def run (cmd : Command κ) : Stateful (Process σ) PyException Unit := do
  within (opening env args)
  (attempt env args cmd).rescue runHandler

def traced (p : Stateful (Process σ) PyException Unit) : Stateful (Process σ) PyException Unit := do
  .modify fun process => { process with rootSpan := if process.tracer then some .unset else none }
  p.rescue fun e => some (do
    recordException
    .ofExcept (.error e))

def shutdown (p : Stateful (Process σ) PyException Unit) : Stateful (Process σ) PyException Unit :=
  fun process => ((p process).1,{ (p process).2 with tracer := false })

def setupTracing : Stateful (Process σ) PyException Unit :=
  if args.startsTracing then do
    ofExcept env.setupOtlp
    .modify fun process => { process with tracer := true }
  else pure ()

def main (commands : List (String × Command κ)) : Stateful (Process σ) PyException Unit := do
  setupTracing env args
  match commands.lookup args.subcommand with
  | none => consoleErrorPrinter "Error: Unknown command."
  | some cmd => shutdown (traced (run env args cmd))

def redfishMainCtl (commands : List (String × Command κ)) : Stateful (Process σ) PyException Unit :=
  (main env args commands).rescue mainHandler

end

/- The status of the process: codes that do not fit a C long read as -1, and an interrupt is 128 and
the signal. -/
def exitStatus : Except PyException Unit → Nat
  | .ok _ => 0
  | .error e =>
      if e.isinstance .systemExit then match e.code with
        | .none => 0
        | .int n => if -2 ^ 63 ≤ n ∧ n < 2 ^ 63 then (n % 256).toNat else 255
        | .object => 1
      else if e.isinstance .keyboardInterrupt then 130
      else 1

/- The first exception of a phase, or the result with what printing it raised. -/
inductive Outcome where
  | unconfigured (e : PyException)
  | unknown
  | opening (e : PyException)
  | dispatch (e : PyException)
  | result (r : CommandResult) (printing : Option PyException)

def Outcome.Failure : Outcome → Prop
  | .unknown => False
  | .unconfigured _ | .opening _ | .dispatch _ | .result _ (some _) => True
  | .result r none => r.error.isNone = false

instance (o : Outcome) : Decidable o.Failure := by
  unfold Outcome.Failure
  split <;> infer_instance

section
variable {κ σ : Type} (env : Environment κ σ) (args : Namespace) (commands : List (String × Command κ))

def commandOutcome (cmd : Command κ) (s : σ) : Outcome :=
  match opening env args s with
  | (.error e,_) => .opening e
  | (.ok _,opened) => match dispatch env args cmd opened with
      | (.error e,_) => .dispatch e
      | (.ok r,dispatched) => match (postprocess env args r dispatched).1 with
          | .error e => .result r (some e)
          | .ok _ => .result r none

def outcome (s : σ) : Outcome :=
  match (if args.startsTracing then env.setupOtlp else .ok ()) with
  | .error e => .unconfigured e
  | .ok _ => match commands.lookup args.subcommand with
      | none => .unknown
      | some cmd => commandOutcome env args cmd s

def Process.start (s : σ) (tracer : Bool) : Process σ := ⟨s,tracer,none,[]⟩

end

def Uncaught (clauses : List (ExceptClass × String)) (e : PyException) : Prop :=
  ∀ clause ∈ clauses, e.isinstance clause.1 = false

instance (clauses : List (ExceptClass × String)) (e : PyException) : Decidable (Uncaught clauses e) := by
  unfold Uncaught
  infer_instance

namespace Outcome

def leaves : Outcome → Except PyException Unit
  | .unknown | .result _ none => .ok ()
  | .unconfigured e | .opening e => .error e
  | .dispatch e | .result _ (some e) => if Uncaught runClauses e then .error e else .ok ()

/- The status of the root span; the first record of a result with a falsy error is final. -/
def marked : Outcome → Option StatusCode
  | .unknown | .unconfigured _ => none
  | .opening _ | .dispatch _ => some .error
  | .result r _ => some (if r.error.truthy then .error else .ok)

def Escapes (e : PyException) : Prop := Uncaught mainClauses e ∧ exitStatus (.error e) ≠ 0

/- The outcomes that show as they are: successes, and uncaught exceptions that are not raised while
a recorded success is printed. -/
def Shows (tracing : Bool) : Outcome → Prop
  | .unknown => True
  | .unconfigured e | .opening e => Escapes e
  | .dispatch e => Uncaught runClauses e ∧ Escapes e
  | .result r (some e) =>
      (Uncaught runClauses e ∧ Escapes e) ∧ (tracing = true → r.error.truthy = true)
  | .result r none => r.error.isNone = true

end Outcome

theorem clauseForNone {clauses e} : clauseFor clauses e = none ↔ Uncaught clauses e := by
  simp [clauseFor,Uncaught]

section
variable {κ σ : Type} {env : Environment κ σ} {args : Namespace} {cmd : Command κ}
variable {process : Process σ} {e : PyException} {r : CommandResult}

theorem withinRun {α p} {x : Except PyException α} {s} (ran : p process.manager = (x,s)) :
    within p process = (x,{ process with manager := s }) := by
  unfold within zoom
  rw [ran]

theorem printHttpErrorRun (error : ErrorValue) :
    (printHttpError error process).1 = .ok () ∧
      (printHttpError error process).2.rootSpan = process.rootSpan := by
  cases error with
  | data j => exact ⟨rfl,rfl⟩
  | exception e =>
    dsimp only [printHttpError]
    split
    · exact ⟨rfl,rfl⟩
    · exact ⟨rfl,rfl⟩

structure Acts (p : Stateful (Process σ) PyException Unit) (process : Process σ)
    (result : Except PyException Unit) (marks : StatusCode → StatusCode) : Prop where
  result : (p process).1 = result
  span : (p process).2.rootSpan = process.rootSpan.map marks

def recorded (r : CommandResult) : StatusCode := if r.error.truthy then .error else .ok

theorem attemptUndispatched {s} (failed : dispatch env args cmd process.manager = (.error e,s)) :
    Acts (attempt env args cmd) process (.error e) id := by
  have ran : attempt env args cmd process = (.error e,{ process with manager := s }) :=
    bindError (withinRun failed)
  exact ⟨congrArg Prod.fst ran,by rw [ran,Option.map_id]; rfl⟩

theorem attemptDispatched {s} (done : dispatch env args cmd process.manager = (.ok r,s)) :
    Acts (attempt env args cmd) process (postprocess env args r s).1 (·.set (recorded r)) := by
  have ran : attempt env args cmd process = (do
      within (postprocess env args r)
      printHttpError r.error : Stateful (Process σ) PyException Unit)
        { process with manager := s, rootSpan := process.rootSpan.map (·.set (recorded r)) } :=
    (bindOk (withinRun done)).trans (bindOk rfl)
  cases printing : postprocess env args r s with
  | mk x t =>
    cases x with
    | error e =>
      have raises := ran.trans (bindError (withinRun printing))
      exact ⟨congrArg Prod.fst raises,congrArg (fun y => y.2.rootSpan) raises⟩
    | ok u =>
      have returns := ran.trans (bindOk (withinRun printing))
      obtain ⟨ok,span⟩ := printHttpErrorRun r.error
      exact ⟨(congrArg Prod.fst returns).trans ok,
        (congrArg (fun y => y.2.rootSpan) returns).trans span⟩

theorem rescueRaises {p marks} (acts : Acts p process (.error e) marks) :
    Acts (p.rescue runHandler) process (if Uncaught runClauses e then .error e else .ok ())
      fun current => if Uncaught runClauses e then marks current else (marks current).set .error := by
  have failed : p process = (.error e,(p process).2) := Prod.ext acts.result rfl
  have rescued : p.rescue runHandler process = _ := rescueError failed
  by_cases uncaught : Uncaught runClauses e
  · rw [runHandler,clauseForNone.mpr uncaught] at rescued
    simp only [if_pos uncaught]
    exact ⟨congrArg Prod.fst rescued,(congrArg (fun y => y.2.rootSpan) rescued).trans acts.span⟩
  obtain ⟨clause,found⟩ := Option.ne_none_iff_exists'.mp (mt clauseForNone.mp uncaught)
  rw [runHandler,found] at rescued
  simp only [if_neg uncaught]
  refine ⟨congrArg Prod.fst rescued,(congrArg (fun y => y.2.rootSpan) rescued).trans ?_⟩
  exact (congrArg (Option.map _) acts.span).trans (Option.map_map _ _ _)

theorem rescueReturns {p marks} (acts : Acts p process (.ok ()) marks) :
    Acts (p.rescue runHandler) process (.ok ()) marks := by
  have ran : p process = (.ok (),(p process).2) := Prod.ext acts.result rfl
  have rescued : p.rescue runHandler process = _ := rescueOk ran
  exact ⟨congrArg Prod.fst rescued,(congrArg (fun y => y.2.rootSpan) rescued).trans acts.span⟩

namespace Outcome

def marks : Outcome → StatusCode → StatusCode
  | .unknown | .unconfigured _ | .opening _ => id
  | .dispatch e => fun current => if Uncaught runClauses e then current else current.set .error
  | .result r none => (·.set (recorded r))
  | .result r (some e) => fun current =>
      if Uncaught runClauses e then current.set (recorded r)
      else (current.set (recorded r)).set .error

end Outcome

theorem runActs (process : Process σ) :
    Acts (run env args cmd) process (commandOutcome env args cmd process.manager).leaves
      (commandOutcome env args cmd process.manager).marks := by
  unfold commandOutcome
  cases opened : opening env args process.manager with
  | mk x s =>
    cases x with
    | error e =>
      have ran : run env args cmd process = _ := bindError (withinRun opened)
      exact ⟨congrArg Prod.fst ran,by rw [ran]; exact congrFun Option.map_id.symm process.rootSpan⟩
    | ok u =>
      have ran : run env args cmd process = _ := bindOk (withinRun opened)
      have tail : ∀ {x marks},
          Acts ((attempt env args cmd).rescue runHandler) { process with manager := s } x marks →
          Acts (run env args cmd) process x marks :=
        fun acts => ⟨by rw [ran]; exact acts.result,by rw [ran]; exact acts.span⟩
      dsimp only
      cases dispatched : dispatch env args cmd s with
      | mk y t =>
        cases y with
        | error e => exact tail (rescueRaises (attemptUndispatched dispatched))
        | ok r =>
          have acts : Acts (attempt env args cmd) { process with manager := s } _ _ :=
            attemptDispatched dispatched
          dsimp only
          cases printing : (postprocess env args r t).1 with
          | error e =>
            rw [printing] at acts
            exact tail (rescueRaises acts)
          | ok u =>
            rw [printing] at acts
            exact tail (rescueReturns acts)

theorem tracedActs {p x marks} (acts : ∀ span, Acts p { process with rootSpan := span } x marks) :
    (shutdown (traced p) process).1 = x ∧
      (shutdown (traced p) process).2.rootSpan =
        if process.tracer then
          some (if x = .ok () then marks .unset else (marks .unset).set .error)
        else none := by
  have inside := acts (if process.tracer then some .unset else none)
  have opened : traced p process = p.rescue (fun e => some (do
      recordException
      .ofExcept (.error e))) { process with rootSpan := if process.tracer then some .unset else none } :=
    bindOk rfl
  have span := inside.span
  unfold shutdown
  rw [opened]
  cases x with
  | ok u =>
    rw [rescueOk (Prod.ext inside.result rfl),span]
    refine ⟨rfl,?_⟩
    cases process.tracer with
    | false => rfl
    | true => rfl
  | error e =>
    rw [rescueError (Prod.ext inside.result rfl)]
    refine ⟨rfl,?_⟩
    change Option.map (fun current => current.set .error) (p _).2.rootSpan = _
    rw [span]
    cases process.tracer with
    | false => rfl
    | true => rfl

def Outcome.OpensSpan : Outcome → Prop
  | .unknown | .unconfigured _ => False
  | .opening _ | .dispatch _ | .result _ _ => True

theorem commandOpensSpan (s : σ) : (commandOutcome env args cmd s).OpensSpan := by
  unfold commandOutcome
  cases opening env args s with
  | mk x s =>
    cases x with
    | error e => trivial
    | ok u =>
      dsimp only
      cases dispatch env args cmd s with
      | mk y t =>
        cases y with
        | error e => trivial
        | ok r =>
          dsimp only
          cases (postprocess env args r t).1 with
          | error e => trivial
          | ok u => trivial

theorem marksMarked {o : Outcome} (opens : o.OpensSpan) :
    some (if o.leaves = .ok () then o.marks .unset else (o.marks .unset).set .error) = o.marked := by
  cases o with
  | unknown => exact absurd opens id
  | unconfigured e => exact absurd opens id
  | opening e => rfl
  | dispatch e =>
    by_cases uncaught : Uncaught runClauses e
    · simp only [Outcome.leaves,Outcome.marks,Outcome.marked,if_pos uncaught]
      rfl
    · simp only [Outcome.leaves,Outcome.marks,Outcome.marked,if_neg uncaught]
      rfl
  | result r printing =>
    cases printing with
    | none =>
      simp only [Outcome.leaves,Outcome.marks,Outcome.marked,recorded]
      cases r.error.truthy with
      | false => rfl
      | true => rfl
    | some e =>
      by_cases uncaught : Uncaught runClauses e
      · simp only [Outcome.leaves,Outcome.marks,Outcome.marked,recorded,if_pos uncaught]
        cases r.error.truthy with
        | false => rfl
        | true => rfl
      · simp only [Outcome.leaves,Outcome.marks,Outcome.marked,recorded,if_neg uncaught]
        cases r.error.truthy with
        | false => rfl
        | true => rfl

end

section
variable {κ σ : Type} (env : Environment κ σ) (args : Namespace) (commands : List (String × Command κ))

theorem commandMain {cmd : Command κ} (process : Process σ) :
    (shutdown (traced (run env args cmd)) process).1 =
        (commandOutcome env args cmd process.manager).leaves ∧
      (shutdown (traced (run env args cmd)) process).2.rootSpan =
        if process.tracer then (commandOutcome env args cmd process.manager).marked else none := by
  have acts : ∀ span, Acts (run env args cmd) { process with rootSpan := span }
      (commandOutcome env args cmd process.manager).leaves
      (commandOutcome env args cmd process.manager).marks :=
    fun span => runActs { process with rootSpan := span }
  obtain ⟨result,span⟩ := tracedActs acts
  refine ⟨result,span.trans ?_⟩
  exact if_congr Iff.rfl (marksMarked (commandOpensSpan process.manager)) rfl

theorem setupTracingRun (process : Process σ) :
    setupTracing env args process =
      match (if args.startsTracing then env.setupOtlp else .ok ()) with
      | .error e => (.error e,process)
      | .ok _ => (.ok (),{ process with tracer := process.tracer || args.startsTracing }) := by
  unfold setupTracing
  cases starts : args.startsTracing with
  | false =>
    rw [if_neg (by simp),Bool.or_false]
    rfl
  | true =>
    rw [if_pos rfl,Bool.or_true]
    cases env.setupOtlp with
    | error e => rfl
    | ok u => rfl

theorem mainActs (s : σ) (tracer : Bool) :
    (main env args commands (.start s tracer)).1 = (outcome env args commands s).leaves ∧
      (main env args commands (.start s tracer)).2.rootSpan =
        if tracer || args.startsTracing then (outcome env args commands s).marked else none := by
  have setup := setupTracingRun env args (.start s tracer)
  unfold outcome
  cases started : (if args.startsTracing then env.setupOtlp else .ok ()) with
  | error e =>
    rw [started] at setup
    have ran : main env args commands (.start s tracer) = _ := bindError setup
    rw [ran]
    exact ⟨rfl,(ite_self none).symm⟩
  | ok u =>
    rw [started] at setup
    have ran : main env args commands (.start s tracer) = _ := bindOk setup
    rw [ran]
    cases commands.lookup args.subcommand with
    | none => exact ⟨rfl,(ite_self none).symm⟩
    | some cmd => exact commandMain env args _

theorem exitNonzero (s : σ) (tracer : Bool) :
    exitStatus (redfishMainCtl env args commands (.start s tracer)).1 ≠ 0 ↔
      ∃ e, (outcome env args commands s).leaves = .error e ∧ Outcome.Escapes e := by
  have result := (mainActs env args commands s tracer).1
  unfold redfishMainCtl
  cases left : (outcome env args commands s).leaves with
  | ok u =>
    rw [left] at result
    rw [rescueOk (Prod.ext result rfl)]
    simp [exitStatus]
  | error e =>
    rw [left] at result
    rw [rescueError (Prod.ext result rfl),mainHandler]
    simp only [Except.error.injEq,exists_eq_left',Outcome.Escapes,← clauseForNone]
    cases clauseFor mainClauses e with
    | none => exact ⟨fun nonzero => ⟨rfl,nonzero⟩,And.right⟩
    | some clause => exact ⟨fun nonzero => absurd rfl nonzero,fun caught => by cases caught.1⟩

theorem mainHandlerSpan {e} {process : Process σ} :
    (((mainHandler e).getD fun t => (.error e,t)) process).2.rootSpan = process.rootSpan := by
  unfold mainHandler
  cases clauseFor mainClauses e with
  | none => rfl
  | some clause => rfl

theorem entrySpan (s : σ) (tracer : Bool) :
    (redfishMainCtl env args commands (.start s tracer)).2.rootSpan =
      if tracer || args.startsTracing then (outcome env args commands s).marked else none := by
  obtain ⟨-,span⟩ := mainActs env args commands s tracer
  unfold redfishMainCtl
  cases ran : main env args commands (.start s tracer) with
  | mk x after =>
    rw [ran] at span
    cases x with
    | ok u =>
      rw [rescueOk ran]
      exact span
    | error e =>
      rw [rescueError ran,mainHandlerSpan]
      exact span

/- The shell and the root span both show every outcome as it is exactly for these outcomes. -/
theorem failuresReachShell (s : σ) (tracer : Bool) :
    ((exitStatus (redfishMainCtl env args commands (.start s tracer)).1 ≠ 0 ↔
        (outcome env args commands s).Failure) ∧
      ∀ status, (redfishMainCtl env args commands (.start s tracer)).2.rootSpan = some status →
        (status = .error ↔ (outcome env args commands s).Failure)) ↔
    (outcome env args commands s).Shows (tracer || args.startsTracing) := by
  rw [exitNonzero,entrySpan]
  cases outcome env args commands s with
  | unknown => simp [Outcome.leaves,Outcome.marked,Outcome.Failure,Outcome.Shows]
  | unconfigured e => simp [Outcome.leaves,Outcome.marked,Outcome.Failure,Outcome.Shows]
  | opening e => simp [Outcome.leaves,Outcome.marked,Outcome.Failure,Outcome.Shows]
  | dispatch e =>
    by_cases uncaught : Uncaught runClauses e
    · simp [Outcome.leaves,Outcome.marked,Outcome.Failure,Outcome.Shows,uncaught]
    · simp [Outcome.leaves,Outcome.marked,Outcome.Failure,Outcome.Shows,uncaught]
  | result r printing =>
    cases printing with
    | none =>
      simp only [Outcome.leaves,Outcome.marked,Outcome.Failure,Outcome.Shows]
      cases none : r.error.isNone with
      | false => simp
      | true => simp [ErrorValue.falsyNone none]
    | some e =>
      by_cases uncaught : Uncaught runClauses e
      · simp [Outcome.leaves,Outcome.marked,Outcome.Failure,Outcome.Shows,uncaught]
      · simp [Outcome.leaves,Outcome.marked,Outcome.Failure,Outcome.Shows,uncaught]

end

def ntpSet : Namespace where
  subcommand := "ntp-set"
  vars := []
  redfishHost := some "192.0.2.1"
  redfishUsername := some "root"
  redfishPassword := some "calvin"
  redfishPort := .number 443
  verifySsl := false
  useHttp := false
  otlpTraces := true
  verbose := false
  noStdout := false
  dataOnly := false
  noExtra := false
  noAction := false
  json := true
  nocolor := true
  doSave := none
  scanNetwork := none
  action := none
  query := ⟨none,none,none,some 1,none,false⟩

def giving (dispatched : Except PyException CommandResult) (printing : Except PyException Unit) :
    Environment Unit Unit where
  setupOtlp := .ok ()
  construct _ _ := pure ()
  checkApiVersion := pure ()
  redfishVendor := pure (.str "Supermicro")
  getVendor _ := .ok ⟨"generic",false,false,true,false,false,false⟩
  invoke _ _ := .ofExcept dispatched
  syncInvoke _ _ := .ofExcept dispatched
  idracManagerVersion := pure .null
  redfishVersion := pure .null
  render _ _ := .ofExcept printing
  saveIfNeeded _ _ := pure ()

def ntpResult (error : Json) : CommandResult := ⟨.data (.obj []),none,.null,.data error⟩

def ntpCommands : List (String × Command Unit) := [("ntp-set",⟨(),"ntp_set"⟩)]

def ntpShows (dispatched : Except PyException CommandResult) (printing : Except PyException Unit) :
    Bool × Nat × Option StatusCode :=
  let env := giving dispatched printing
  let ran := redfishMainCtl env ntpSet ntpCommands (.start () false)
  (decide (outcome env ntpSet ntpCommands ()).Failure,exitStatus ran.1,ran.2.rootSpan)

theorem failuresHidden :
    ntpShows (.ok (ntpResult (.str "NTP PATCH failed on 1/1 target(s)"))) (.ok ()) =
      (true,0,some .error) ∧
    ntpShows (.ok (ntpResult (.str ""))) (.ok ()) = (true,0,some .ok) ∧
    ntpShows (.error (raised .connectionError "refused")) (.ok ()) = (true,0,some .error) ∧
    ntpShows (.ok (ntpResult .null)) (.error ⟨"not serializable",[],.none,.null⟩) =
      (true,1,some .ok) := by
  decide +kernel

end RedfishCtl.CommandExit
