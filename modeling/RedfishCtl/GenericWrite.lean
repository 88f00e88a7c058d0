import RedfishCtl.DellWrite

/-! What a write of a manager that is not Dell's reports for the response it gets. The types
are those of the Dell write path, whose methods this one mirrors. -/
namespace RedfishCtl.GenericWrite
open DellWrite (ApiRespond CommandResult Raised RedfishError Response parseError taskIdFromHeader)

def defaultErrorHandler (r : Response) : Except Raised ApiRespond :=
  if r.statusCode = 200 then .ok .ok
  else if r.statusCode = 202 then .ok .acceptedTaskGenerated
  else if r.statusCode = 204 then .ok .success
  else if 200 ≤ r.statusCode ∧ r.statusCode < 300 then .ok .success
  else if r.statusCode = 401 then .error (.redfishUnauthorized (parseError r))
  else if r.statusCode = 403 then .error (.redfishForbidden (parseError r))
  else .error (.resourceNotFound (parseError r))

/- The second component is `self._redfish_error`, as far as this call sets it. -/
def defaultPostSuccess (r : Response) (ignoreErrorCode : Option Int) :
    Except Raised (ApiRespond × Option RedfishError) :=
  if ignoreErrorCode.any fun code => code ≠ 0 ∧ r.statusCode = code then .ok (.success,none)
  else if r.statusCode = 405 ∨ r.statusCode = 409 then .ok (.error,some (parseError r))
  else (defaultErrorHandler r).map fun respond => (respond,none)

def apiRespondString : ApiRespond → String
  | .ok => "ok"
  | .error => "error"
  | .created => "created"
  | .success => "success"
  | .acceptedTaskGenerated => "accepted"

def baseRequestRespond (r : Response) (ignoreErrorCode : Option Int) :
    Except Raised (CommandResult × ApiRespond) := do
  let (respond,error) ← defaultPostSuccess r ignoreErrorCode
  match respond with
  | .error => .ok (⟨.obj [],error⟩,respond)
  | .acceptedTaskGenerated => .ok (⟨.obj [("task_id",.str (taskIdFromHeader r))],none⟩,respond)
  | _ => .ok (⟨.obj [("Status",.str (apiRespondString respond))],none⟩,respond)

def fmtMessage (m : Json) : String :=
  let id := m.getD "MessageId"
  let args := m.getD "MessageArgs"
  if (m.getD "Message").truthy then PyText.str (m.getD "Message")
  else if id.truthy then
    if args.truthy then match args with
      | .arr items => PyText.str id ++ " " ++ PyText.repr (.arr items)
      | .obj members => PyText.str id ++ " " ++ PyText.repr (.arr (members.map fun p => .str p.1))
      | .str text => PyText.str id ++ " " ++
          PyText.repr (.arr (text.toList.map fun c => .str (String.singleton c)))
      | _ => ""
    else PyText.str id
  else ""

def errorText (e : RedfishError) : String :=
  let top := if e.message = "root" then "" else e.message
  let parts := (top::e.messageExtended.map fmtMessage ++ [e.exceptionMsg]).filter (· ≠ "")
  let body := if parts = [] then "Redfish error" else String.intercalate "; " parts.eraseDups
  if e.statusCode = 0 then body else body ++ " (HTTP " ++ toString e.statusCode ++ ")"

theorem returnsError {r} :
    (∃ answer, baseRequestRespond r (some 0) = .ok answer ∧ answer.1.error ≠ none) ↔
      r.statusCode = 405 ∨ r.statusCode = 409 := by
  unfold baseRequestRespond defaultPostSuccess
  by_cases soft : r.statusCode = 405 ∨ r.statusCode = 409
  · rw [if_pos soft]
    exact ⟨fun _ => soft,fun _ => ⟨_,rfl,by simp⟩⟩
  rw [if_neg soft]
  refine ⟨?_,fun refused => absurd refused soft⟩
  rintro ⟨answer,returned,error⟩
  cases handled : defaultErrorHandler r with
  | error e =>
    rw [handled] at returned
    cases returned
  | ok respond =>
    rw [handled] at returned
    cases respond with
    | _ => cases Except.ok.inj returned; exact absurd rfl error

end RedfishCtl.GenericWrite
