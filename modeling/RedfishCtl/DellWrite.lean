import RedfishCtl.PyText
import RedfishCtl.Stateful

/-! What a Dell POST, PATCH or DELETE reports: the status is mapped by `read_api_respond`, an
accepted write is searched for the id of its job, and anything else becomes a message or an
exception. -/
namespace RedfishCtl.DellWrite

inductive HttpMethod where
  | post
  | patch
  | delete
  deriving DecidableEq, Repr

inductive ApiRespond where
  | ok
  | error
  | created
  | success
  | acceptedTaskGenerated
  deriving DecidableEq, Repr

def ApiRespond.text : ApiRespond → String
  | .ok => "RedfishApiRespond.Ok"
  | .error => "RedfishApiRespond.Error"
  | .created => "RedfishApiRespond.Created"
  | .success => "RedfishApiRespond.Success"
  | .acceptedTaskGenerated => "RedfishApiRespond.AcceptedTaskGenerated"

/- A response; `json` is a document, or the text of the decode error. -/
structure Response where
  statusCode : Int
  location : Option String
  json : Except String Json
  text : String

structure RedfishError where
  statusCode : Int
  code : String
  message : String
  messageExtended : List Json
  exceptionMsg : String
  deriving DecidableEq, Repr

inductive Raised where
  | redfishException (e : RedfishError)
  | redfishUnauthorized (e : RedfishError)
  | redfishForbidden (e : RedfishError)
  | resourceNotFound (e : RedfishError)
  | taskIdUnavailable (message : String)
  | keyError (key : String)
  | typeError (message : String)
  deriving DecidableEq, Repr

def Raised.ofRedfish : Raised → Bool
  | .redfishException _ | .redfishUnauthorized _ | .redfishForbidden _ | .resourceNotFound _
  | .taskIdUnavailable _ => true
  | .keyError _ | .typeError _ => false

structure CommandResult where
  data : Json
  error : Option RedfishError
  deriving DecidableEq

def httpCodeMapping : List (Int × ApiRespond) :=
  [(200,.ok),(201,.created),(202,.acceptedTaskGenerated),(204,.success)]

def apiRespondToString : List (ApiRespond × String) :=
  [(.ok,"ok"),(.error,"error"),(.success,"success"),(.acceptedTaskGenerated,"accepted")]

def newError (statusCode : Int) (code message : String) : RedfishError := ⟨statusCode,code,message,[],""⟩

def orEmpty (j : Json) : String := if j.truthy then PyText.str j else ""

def extendedInfo : String := "@Message.ExtendedInfo"

def errorFromPayload (statusCode : Int) (payload : Json) : RedfishError :=
  match payload with
  | .obj m =>
      let code := (m.lookup "code").getD (.str "")
      let message := (m.lookup "message").getD ((m.lookup "Message").getD (.str ""))
      let error := newError statusCode (orEmpty code) (orEmpty message)
      match m.lookup extendedInfo with
      | some (.arr items) => { error with messageExtended := items.filter Json.isObj }
      | _ => error
  | .null => newError statusCode "" ""
  | other => newError statusCode "" (PyText.str other)

def parseError (r : Response) : RedfishError :=
  match r.json with
  | .error reason => { newError r.statusCode "" "root" with exceptionMsg := reason }
  | .ok (.obj m) =>
      match m.lookup "error" with
      | some (.obj error) => errorFromPayload r.statusCode (.obj error)
      | none | some .null => errorFromPayload r.statusCode (.obj m)
      | some other => errorFromPayload r.statusCode (.obj [("message",other)])
  | .ok other => errorFromPayload r.statusCode other

def mapped (status : Int) : Except Raised ApiRespond :=
  match httpCodeMapping.lookup status with
  | some respond => .ok respond
  | none => .error (.keyError (toString status))

def ignores (status : Int) : Option Int → Except Raised Bool
  | none => .error (.typeError "'>' not supported between instances of 'NoneType' and 'int'")
  | some code => .ok (0 < code && code = status)

def readApiRespond (r : Response) (expected ignoreErrorCode : Option Int) :
    Except Raised (ApiRespond × Option RedfishError) := do
  let status := r.statusCode
  if r.location.isSome then .ok (.acceptedTaskGenerated,none)
  else if expected = some status then .ok (← mapped status,none)
  else if ← ignores status ignoreErrorCode then .ok (← mapped status,none)
  else if 200 ≤ status ∧ status < 300 then .ok (← mapped status,none)
  else
    let error := parseError r
    if 300 ≤ status ∧ status < 500 then
      if status = 400 then .error (.redfishException error)
      else if status = 401 then .error (.redfishUnauthorized error)
      else if status = 403 then .error (.redfishForbidden error)
      else if status = 404 then .error (.resourceNotFound error)
      else .ok (.error,some error)
    else .error (.redfishException error)

def defaultSuccess (_method : HttpMethod) (_doAsync : Bool) := readApiRespond

def lastSegment (location : String) : String :=
  String.ofList (location.toList.reverse.takeWhile (· ≠ '/')).reverse

def taskIdFromHeader (r : Response) : String := (r.location.map lastSegment).getD ""

def isAlphanumeric (c : Char) : Bool :=
  PyText.isDigit c || (65 ≤ c.toNat && c.toNat ≤ 90) || (97 ≤ c.toNat && c.toNat ≤ 122)

/- A search for `JID_[0-9A-Za-z]+`. -/
def searchJid : List Char → String
  | [] => ""
  | c::rest =>
      let run := (rest.drop 3).takeWhile isAlphanumeric
      if "JID_".toList.isPrefixOf (c::rest) && !run.isEmpty then String.ofList ("JID_".toList ++ run)
      else searchJid rest

def jidMember (m : List (String × Json)) (key : String) : Option String :=
  match m.lookup key with
  | some (.str value) => if "JID_".toList.isPrefixOf value.toList then some value else none
  | _ => none

def jobIdFromRespond (r : Response) : String :=
  let named := match r.json with
    | .ok (.obj m) => ["id","Id","JobID","JID"].findSome? (jidMember m)
    | _ => none
  named.getD (searchJid r.text.toList)

def jobId (r : Response) : String :=
  let header := taskIdFromHeader r
  if header = "" then jobIdFromRespond r else header

def jobIdFromResponse (r : Response) : Except Raised String :=
  if jobId r = "" then
    .error (.taskIdUnavailable ("Dell accepted the request but returned no task id in " ++
      "the Location header or response body"))
  else .ok (jobId r)

def statusMember : String := "Status"

def apiSuccessMsg (respond : ApiRespond) : Except Raised (List (String × Json)) :=
  match apiRespondToString.lookup respond with
  | some text => .ok [(statusMember,.str text)]
  | none => .error (.keyError respond.text)

def report (r : Response) (respond : ApiRespond) (error : Option RedfishError) :
    Except Raised (CommandResult × ApiRespond) := do
  if respond = .acceptedTaskGenerated then
    let taskId ← jobIdFromResponse r
    .ok (⟨.obj [("task_id",.str taskId)],none⟩,respond)
  else
    let message ← apiSuccessMsg respond
    .ok (⟨.obj message,if respond = .error then error else none⟩,respond)

def baseRequestRespond (method : HttpMethod) (doAsync : Bool) (r : Response)
    (expectedStatus ignoreErrorCode : Option Int) : Except Raised (CommandResult × ApiRespond) := do
  let (respond,redfishError) ← defaultSuccess method doAsync r expectedStatus ignoreErrorCode
  report r respond redfishError

def Accepts (status : Int) (expected ignored : Option Int) : Prop :=
  (200 ≤ status ∧ status < 300) ∨ expected = some status ∨ ignored = some status

structure Follows (status : Int) (expected ignored : Option Int)
    (outcome : Except Raised (CommandResult × ApiRespond)) : Prop where
  family : ∀ {e}, outcome = .error e → e.ofRedfish = true
  success : ∀ {result respond}, outcome = .ok (result,respond) → respond ≠ .error →
    Accepts status expected ignored

def Answered (r : Response) (expected ignored : Option Int) : Prop :=
  if r.location.isSome then Accepts r.statusCode expected ignored ∨ jobId r = ""
  else (expected ≠ some r.statusCode → ignored ≠ none) ∧
    ((200 ≤ r.statusCode ∧ r.statusCode < 300) ∨ expected = some r.statusCode ∨
      (0 < r.statusCode ∧ ignored = some r.statusCode) →
      r.statusCode = 200 ∨ r.statusCode = 202 ∨ r.statusCode = 204)

section
variable {r : Response} {expected ignored : Option Int} {status : Int}

theorem followsRaised {e} (family : e.ofRedfish = true) : Follows status expected ignored (.error e) :=
  ⟨fun same => Except.error.inj same ▸ family,fun same => nomatch same⟩

theorem followsReturned {result respond}
    (success : respond ≠ .error → Accepts status expected ignored) :
    Follows status expected ignored (.ok (result,respond)) := by
  refine ⟨fun same => (nomatch same),fun same => ?_⟩
  cases same
  exact success

theorem reportAccepted (error : Option RedfishError) :
    Follows status expected ignored (report r .acceptedTaskGenerated error) ↔
      Accepts status expected ignored ∨ jobId r = "" := by
  by_cases missing : jobId r = ""
  · have raised : report r .acceptedTaskGenerated error =
        .error (.taskIdUnavailable ("Dell accepted the request but returned no task id in " ++
          "the Location header or response body")) := by
      simp [report,jobIdFromResponse,missing,bind,Except.bind]
    rw [raised]
    exact ⟨fun _ => .inr missing,fun _ => followsRaised rfl⟩
  · have returned : report r .acceptedTaskGenerated error =
        .ok (⟨.obj [("task_id",.str (jobId r))],none⟩,.acceptedTaskGenerated) := by
      simp [report,jobIdFromResponse,missing,bind,Except.bind]
    rw [returned]
    constructor
    · intro follows
      exact .inl (follows.success rfl (by simp))
    · rintro (accepts | absent)
      · exact followsReturned fun _ => accepts
      · exact absurd absent missing

theorem reportError (r : Response) (error : Option RedfishError) :
    Follows status expected ignored (report r .error error) :=
  followsReturned fun differs => absurd rfl differs

theorem reportMapped (accepts : Accepts r.statusCode expected ignored) (error : Option RedfishError) :
    Follows r.statusCode expected ignored
        (mapped r.statusCode >>= fun respond => report r respond error) ↔
      r.statusCode = 200 ∨ r.statusCode = 202 ∨ r.statusCode = 204 := by
  by_cases ok : r.statusCode = 200
  · have found : mapped r.statusCode = .ok .ok := by rw [ok]; rfl
    rw [found]
    exact ⟨fun _ => .inl ok,fun _ => followsReturned fun _ => accepts⟩
  by_cases created : r.statusCode = 201
  · have found : mapped r.statusCode = .ok .created := by rw [created]; rfl
    rw [found]
    constructor
    · intro follows
      have := follows.family rfl
      cases this
    · omega
  by_cases accepted : r.statusCode = 202
  · have found : mapped r.statusCode = .ok .acceptedTaskGenerated := by rw [accepted]; rfl
    rw [found]
    exact ⟨fun _ => .inr (.inl accepted),fun _ => (reportAccepted error).mpr (.inl accepts)⟩
  by_cases empty : r.statusCode = 204
  · have found : mapped r.statusCode = .ok .success := by rw [empty]; rfl
    rw [found]
    exact ⟨fun _ => .inr (.inr empty),fun _ => followsReturned fun _ => accepts⟩
  have missing : mapped r.statusCode = .error (.keyError (toString r.statusCode)) := by
    simp [mapped,httpCodeMapping,ok,created,accepted,empty]
  rw [missing]
  constructor
  · intro follows
    have := follows.family rfl
    cases this
  · omega

theorem reportFailed (method : HttpMethod) (doAsync : Bool) (outside : r.location = none)
    (unexpected : expected ≠ some r.statusCode) (kept : ignores r.statusCode ignored = .ok false)
    (failed : ¬ (200 ≤ r.statusCode ∧ r.statusCode < 300)) :
    Follows status expected ignored (baseRequestRespond method doAsync r expected ignored) := by
  have read : ∃ e, e.ofRedfish = true ∧ readApiRespond r expected ignored = .error e ∨
      readApiRespond r expected ignored = .ok (.error,some (parseError r)) := by
    simp only [readApiRespond,outside,Option.isSome_none,Bool.false_eq_true,if_false,unexpected,kept,
      failed,bind,Except.bind]
    by_cases client : 300 ≤ r.statusCode ∧ r.statusCode < 500
    · rw [if_pos client]
      split
      · exact ⟨.redfishException (parseError r),.inl ⟨rfl,rfl⟩⟩
      split
      · exact ⟨.redfishUnauthorized (parseError r),.inl ⟨rfl,rfl⟩⟩
      split
      · exact ⟨.redfishForbidden (parseError r),.inl ⟨rfl,rfl⟩⟩
      split
      · exact ⟨.resourceNotFound (parseError r),.inl ⟨rfl,rfl⟩⟩
      · exact ⟨.redfishException (parseError r),.inr rfl⟩
    · rw [if_neg client]
      exact ⟨.redfishException (parseError r),.inl ⟨rfl,rfl⟩⟩
  obtain ⟨e,⟨family,raised⟩ | returned⟩ := read
  · rw [baseRequestRespond,defaultSuccess,raised]
    exact followsRaised family
  · rw [baseRequestRespond,defaultSuccess,returned]
    exact reportError r _

theorem baseMapped (method : HttpMethod) (doAsync : Bool)
    (read : readApiRespond r expected ignored = mapped r.statusCode >>= fun a => .ok (a,none)) :
    baseRequestRespond method doAsync r expected ignored =
      mapped r.statusCode >>= fun respond => report r respond none := by
  rw [baseRequestRespond,defaultSuccess,read]
  cases mapped r.statusCode <;> rfl

end

end RedfishCtl.DellWrite
