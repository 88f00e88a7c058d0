import RedfishCtl.TargetWrites

/-! What the multi-target commands report when some PATCHes fail: the result has an error exactly
for a command that gathers the errors of its PATCHes. -/
namespace RedfishCtl.TargetWrites
open DellWrite (ApiRespond Response)
open JsonAccess (Values)
open DellWrite (baseRequestRespond defaultSuccess ignores mapped parseError readApiRespond report)

def Report.listed : Report → List Patch
  | .ntpPreview _ plan _ => plan.map Planned.patch
  | .dnsPreview servers targets => targets.map (dnsPatch servers)
  | .serialPreview plan _ => plan.bios::plan.sol
  | _ => []

inductive Command where
  | ntpSet (servers : Values) (managerId : Option String) (clear : Bool)
  | dnsSet (servers : Values) (interfaceId : Option String) (clear : Bool)
  | serialConsole (biosAttr biosValue : Option String)

def Command.execute (path : WritePath) (bmc : Bmc) (ipAddress : String → Bool) (confirm : Bool) :
    Command → Writing
  | .ntpSet servers managerId clear => TargetWrites.ntpSet path bmc ipAddress servers managerId clear confirm
  | .dnsSet servers interfaceId clear => TargetWrites.dnsSet path bmc servers interfaceId clear confirm
  | .serialConsole biosAttr biosValue =>
      TargetWrites.serialConsole path bmc biosAttr biosValue true confirm

def Command.plan (bmc : Bmc) (ipAddress : String → Bool) : Command → Except PyError (List Patch)
  | .ntpSet servers managerId clear => do
      let normalized ← normalizeNtpServers ipAddress servers clear
      let (plan,_) ← ntpPlan bmc normalized managerId
      .ok (plan.map Planned.patch)
  | .dnsSet servers interfaceId clear => do
      let normalized ← normalizeDnsServers servers clear
      let targets ← dnsTargets bmc interfaceId
      .ok (targets.map (dnsPatch normalized))
  | .serialConsole biosAttr biosValue => do
      let (systemUri,biosAttrs,sol,status) ← serialState bmc biosAttr biosValue
      let plan ← serialPlan systemUri biosAttrs sol status
      .ok (plan.bios::plan.sol)

def Command.expected : Command → Int
  | .ntpSet .. | .dnsSet .. => 200
  | .serialConsole .. => 204

def Command.answer (path : WritePath) (bmc : Bmc) (c : Command) (i : ℕ) (p : Patch) :
    Except Failure Answer :=
  basePatch path c.expected (bmc.answer i p)

def Command.gathers : Command → Bool
  | .ntpSet .. => true
  | .dnsSet .. | .serialConsole .. => false

def upToRaise (answer : ℕ → Patch → Except Failure Answer) : ℕ → List Patch → List Patch
  | _,[] => []
  | i,p::rest => p::match answer i p with
      | .error _ => []
      | .ok _ => upToRaise answer (i + 1) rest

def AnyError (answer : ℕ → Patch → Except Failure Answer) (i : ℕ) (patches : List Patch) : Prop :=
  ∃ q ∈ patches.zipIdx i, ∃ a, answer q.2 q.1 = .ok a ∧ a.1.error ≠ none

/- The confirmed run sends what the preview lists up to the first exception, and has an error
exactly if a PATCH returned one. -/
structure Reports (answer : ℕ → Patch → Except Failure Answer) (preview confirmed : Writing) :
    Prop where
  quiet : preview.issued = []
  rejected : ∀ e, preview.result = .error e → confirmed.issued = [] ∧ confirmed.result = .error e
  sent : ∀ p, preview.result = .ok p → confirmed.issued = upToRaise answer 0 p.data.listed
  error : ∀ p r, preview.result = .ok p → confirmed.result = .ok r →
    (r.error ≠ none ↔ AnyError answer 0 p.data.listed)

def Refused (path : WritePath) : Except PyError Response → Prop
  | .error _ => False
  | .ok r => match path with
      | .generic => r.statusCode = 405 ∨ r.statusCode = 409
      | .dell => r.location = none ∧ 300 ≤ r.statusCode ∧ r.statusCode < 500 ∧
          r.statusCode ∉ [400,401,403,404]

section
variable {answer : ℕ → Patch → Except Failure Answer}

theorem patchEachIssued (i : ℕ) (patches : List Patch) :
    (patchEach answer i patches).issued = upToRaise answer i patches := by
  induction patches generalizing i with
  | nil => rfl
  | cons p rest ih =>
    unfold patchEach upToRaise
    cases sent : answer i p with
    | error e => rfl
    | ok a =>
      rw [Traced.bindOk (a := a) rfl,Traced.mapIssued,ih]
      rfl

theorem patchEachOk {i patches answers} :
    (patchEach answer i patches).result = .ok answers ↔
      List.Forall₂ (fun q a => answer q.2 q.1 = .ok a) (patches.zipIdx i) answers := by
  induction patches generalizing i answers with
  | nil => simp [patchEach]
  | cons p rest ih =>
    simp only [patchEach,Traced.resultBind,Traced.issueResult,Traced.pureResult,Except.ok.injEq,
      List.zipIdx_cons]
    constructor
    · rintro ⟨a,first,others,later,rfl⟩
      exact .cons first (ih.mp later)
    · intro all
      cases all with
      | cons first later => exact ⟨_,first,_,ih.mpr later,rfl⟩

theorem anyErrorAnswers {i patches answers}
    (all : List.Forall₂ (fun q a => answer q.2 q.1 = .ok a) (patches.zipIdx i) answers) :
    AnyError answer i patches ↔ ∃ a ∈ answers, a.1.error ≠ none := by
  unfold AnyError
  generalize patches.zipIdx i = numbered at all
  induction all with
  | nil => simp
  | cons first later ih =>
    simp only [List.exists_mem_cons_iff,ih,first,Except.ok.injEq,exists_eq_left']

theorem reportsRejected (e : Failure) : Reports answer ⟨[],.error e⟩ ⟨[],.error e⟩ := by
  refine ⟨rfl,fun e' same => ⟨rfl,same⟩,fun p same => ?_,fun p r same => ?_⟩
  · cases same
  · cases same

theorem reportsPlanned (report : Report) (finish : List Answer → CommandResult) :
    Reports answer (pure ⟨report,none⟩)
        (patchEach answer 0 report.listed >>= fun answers => pure (finish answers)) ↔
      ∀ answers, List.Forall₂ (fun q a => answer q.2 q.1 = .ok a) report.listed.zipIdx answers →
        ((finish answers).error ≠ none ↔ ∃ a ∈ answers, a.1.error ≠ none) := by
  constructor
  · intro reports answers all
    have done : (patchEach answer 0 report.listed >>= fun answers => pure (finish answers)).result =
        .ok (finish answers) := Traced.resultBind.mpr ⟨answers,patchEachOk.mpr all,rfl⟩
    rw [← anyErrorAnswers all]
    exact reports.error _ _ rfl done
  · intro finishes
    refine ⟨rfl,fun e same => ?_,fun p same => ?_,fun p r same done => ?_⟩
    · cases same
    · cases Except.ok.inj same
      rw [Traced.mapIssued]
      exact patchEachIssued 0 report.listed
    cases Except.ok.inj same
    obtain ⟨answers,all,last⟩ := Traced.resultBind.mp done
    cases Except.ok.inj last
    rw [anyErrorAnswers (patchEachOk.mp all)]
    exact finishes answers (patchEachOk.mp all)

theorem patchFirst (answer : ℕ → Patch → Except Failure Answer) (first : Patch) (rest : List Patch)
    (finish : Answer → List Answer → CommandResult) (unused : CommandResult) :
    (do
      let a ← Traced.issue first (answer 0 first)
      let others ← patchEach answer 1 rest
      pure (finish a others) : Writing) =
    patchEach answer 0 (first::rest) >>= fun answers => pure (match answers with
      | a::others => finish a others
      | [] => unused) := by
  have loop : patchEach answer 0 (first::rest) = (Traced.issue first (answer 0 first) >>= fun a =>
      patchEach answer 1 rest >>= fun others => pure (a::others)) := rfl
  rw [loop]
  cases sent : answer 0 first with
  | error e => rfl
  | ok a =>
    cases later : (patchEach answer 1 rest).result with
    | error e => simp [bind,Traced.andThen,later]
    | ok others => simp [bind,Traced.andThen,later]

end

theorem forallLength {α β R} {items : List α} {answers : List β}
    (all : List.Forall₂ R items.zipIdx answers) : items.length = answers.length := by
  rw [← List.length_zipIdx]
  exact all.length_eq

theorem overallErrorSome {applied} :
    overallError applied ≠ none ↔ ∃ item ∈ applied, item.error ≠ none := by
  unfold overallError
  dsimp only
  split
  · rename_i none
    simp only [ne_eq,not_true_eq_false,false_iff,not_exists,not_and,not_not]
    intro item mem
    have absent := List.filterMap_eq_nil_iff.mp none item mem
    exact Option.map_eq_none_iff.mp absent
  · rename_i some
    simp only [ne_eq,reduceCtorEq,not_false_eq_true,true_iff]
    obtain ⟨text,mem⟩ := List.exists_mem_of_ne_nil _ some
    obtain ⟨item,inside,made⟩ := List.mem_filterMap.mp mem
    refine ⟨item,inside,fun absent => ?_⟩
    rw [absent] at made
    cases made

theorem appliedErrors {α items answers} (same : items.length = answers.length)
    (entry : α → Answer → Applied) (keeps : ∀ item a, (entry item a).error = a.1.error) :
    (∃ done ∈ List.zipWith entry items answers, done.error ≠ none) ↔
      ∃ a ∈ answers, a.1.error ≠ none := by
  induction items generalizing answers with
  | nil =>
    cases answers with
    | nil => simp
    | cons a rest => cases same
  | cons item rest ih =>
    cases answers with
    | nil => cases same
    | cons a others =>
      rw [List.zipWith_cons_cons,List.exists_mem_cons_iff,List.exists_mem_cons_iff,keeps,
        ih (Nat.succ.inj same)]

theorem reportNone {r respond a} (reported : report r respond none = .ok a) : a.1.error = none := by
  unfold report at reported
  split at reported
  · obtain ⟨taskId,-,last⟩ := Stateful.okOfBind reported
    cases Except.ok.inj last
    rfl
  · obtain ⟨message,-,last⟩ := Stateful.okOfBind reported
    cases Except.ok.inj last
    exact ite_self none

section
variable {r : Response} {expected : Int}

theorem dellFailed (header : r.location = none) (unexpected : expected ≠ r.statusCode)
    (failed : ¬ (200 ≤ r.statusCode ∧ r.statusCode < 300)) :
    (∃ a, baseRequestRespond .patch false r (some expected) (some 0) = .ok a ∧
        a.1.error ≠ none) ↔
      300 ≤ r.statusCode ∧ r.statusCode < 500 ∧ r.statusCode ∉ [400,401,403,404] := by
  have heeded : ignores r.statusCode (some 0) = .ok false := rfl
  have read : readApiRespond r (some expected) (some 0) =
      if 300 ≤ r.statusCode ∧ r.statusCode < 500 then
        if r.statusCode = 400 then .error (.redfishException (parseError r))
        else if r.statusCode = 401 then .error (.redfishUnauthorized (parseError r))
        else if r.statusCode = 403 then .error (.redfishForbidden (parseError r))
        else if r.statusCode = 404 then .error (.resourceNotFound (parseError r))
        else .ok (.error,some (parseError r))
      else .error (.redfishException (parseError r)) := by
    simp [readApiRespond,header,unexpected,heeded,failed,bind,Except.bind]
  rw [baseRequestRespond,defaultSuccess,read]
  split
  · rename_i client
    split
    · simp_all [bind,Except.bind]
    split
    · simp_all [bind,Except.bind]
    split
    · simp_all [bind,Except.bind]
    split
    · simp_all [bind,Except.bind]
    · refine ⟨fun _ => ⟨client.1,client.2,?_⟩,fun _ => ⟨_,rfl,by simp⟩⟩
      simp_all
  · rename_i other
    refine ⟨?_,fun refused => absurd ⟨refused.1,refused.2.1⟩ other⟩
    rintro ⟨a,returned,-⟩
    cases returned

theorem dellReturnsError (low : 200 ≤ expected) (high : expected < 300) :
    (∃ a, baseRequestRespond .patch false r (some expected) (some 0) = .ok a ∧ a.1.error ≠ none) ↔
      r.location = none ∧ 300 ≤ r.statusCode ∧ r.statusCode < 500 ∧
        r.statusCode ∉ [400,401,403,404] := by
  cases header : r.location with
  | some location =>
    have read : readApiRespond r (some expected) (some 0) =
        .ok (.acceptedTaskGenerated,none) := by
      simp [readApiRespond,header]
    rw [baseRequestRespond,defaultSuccess,read]
    refine ⟨?_,fun refused => by cases refused.1⟩
    rintro ⟨a,returned,error⟩
    have reported : report r .acceptedTaskGenerated none = .ok a := returned
    exact absurd (reportNone reported) error
  | none =>
    by_cases accepted : expected = r.statusCode ∨ (200 ≤ r.statusCode ∧ r.statusCode < 300)
    · have read : readApiRespond r (some expected) (some 0) =
          mapped r.statusCode >>= fun respond => .ok (respond,none) := by
        have heeded : ignores r.statusCode (some 0) = .ok false := rfl
        rcases accepted with same | success
        · simp [readApiRespond,header,same]
        · by_cases same : expected = r.statusCode
          · simp [readApiRespond,header,same]
          · simp [readApiRespond,header,heeded,success,bind,Except.bind]
      rw [DellWrite.baseMapped _ _ read]
      refine ⟨?_,fun refused => by omega⟩
      rintro ⟨a,returned,error⟩
      obtain ⟨respond,-,reported⟩ := Stateful.okOfBind returned
      exact absurd (reportNone reported) error
    · rw [not_or] at accepted
      rw [dellFailed header accepted.1 accepted.2]
      simp

end

theorem refusedAnswer (path : WritePath) {expected} (low : 200 ≤ expected) (high : expected < 300)
    (x : Except PyError Response) :
    (∃ a, basePatch path expected x = .ok a ∧ a.1.error ≠ none) ↔ Refused path x := by
  cases x with
  | error e =>
    refine ⟨?_,fun refused => refused.elim⟩
    rintro ⟨a,same,-⟩
    cases same
  | ok r =>
    have kept : ∀ a, basePatch path expected (.ok r) = .ok a ↔ path.respond expected r = .ok a := by
      cases responded : path.respond expected r with
      | error e => simp [basePatch,responded,Except.mapError]
      | ok b => simp [basePatch,responded,Except.mapError]
    simp only [kept]
    cases path with
    | generic => exact GenericWrite.returnsError
    | dell => exact dellReturnsError low high

/- A command fails before any PATCH, or previews its plan and makes a result of all the answers. -/
inductive Runs (path : WritePath) (bmc : Bmc) (ipAddress : String → Bool) (c : Command) : Prop where
  | rejected (e : PyError) (unplanned : c.plan bmc ipAddress = .error e)
      (runs : ∀ confirm, c.execute path bmc ipAddress confirm = ⟨[],.error (.python e)⟩)
  | planned (report : Report) (finish : List Answer → CommandResult)
      (plan : c.plan bmc ipAddress = .ok report.listed)
      (preview : c.execute path bmc ipAddress false = pure ⟨report,none⟩)
      (confirmed : c.execute path bmc ipAddress true =
        patchEach (c.answer path bmc) 0 report.listed >>= fun answers => pure (finish answers))
      (gathers : ∀ answers, report.listed.length = answers.length →
        ((finish answers).error ≠ none ↔ c.gathers = true ∧ ∃ a ∈ answers, a.1.error ≠ none))

section
variable (path : WritePath) (bmc : Bmc) (ipAddress : String → Bool)

theorem ntpRuns (servers : Values) (managerId : Option String) (clear : Bool) :
    Runs path bmc ipAddress (.ntpSet servers managerId clear) := by
  cases normal : normalizeNtpServers ipAddress servers clear with
  | error e =>
    refine .rejected e ?_ fun confirm => ?_
    · simp [Command.plan,normal,bind,Except.bind]
    · simp [Command.execute,ntpSet,normal,ofPythonError]
  | ok normalized =>
    cases found : ntpPlan bmc normalized managerId with
    | error e =>
      refine .rejected e ?_ fun confirm => ?_
      · simp [Command.plan,normal,found,bind,Except.bind]
      · simp [Command.execute,ntpSet,normal,ofPythonOk,found,ofPythonError]
    | ok planned =>
      obtain ⟨plan,skipped⟩ := planned
      refine .planned (.ntpPreview normalized plan skipped) (fun answers =>
        let applied := List.zipWith (fun (item : Planned) (a : Answer) =>
          ⟨item.manager,item.patch.target,a.2,a.1.error⟩) plan answers
        ⟨.ntpApplied normalized applied skipped,overallError applied⟩) ?_ ?_ ?_ ?_
      · simp [Command.plan,normal,found,bind,Except.bind,Report.listed]
      · simp only [Command.execute,ntpSet,normal,ofPythonOk,found]
        rfl
      · simp only [Command.execute,ntpSet,normal,ofPythonOk,found]
        rfl
      intro answers same
      rw [Report.listed,List.length_map] at same
      simp only [Command.gathers,true_and]
      rw [overallErrorSome]
      exact appliedErrors same _ fun _ _ => rfl

theorem dnsRuns (servers : Values) (interfaceId : Option String) (clear : Bool) :
    Runs path bmc ipAddress (.dnsSet servers interfaceId clear) := by
  cases normal : normalizeDnsServers servers clear with
  | error e =>
    refine .rejected e ?_ fun confirm => ?_
    · simp [Command.plan,normal,bind,Except.bind]
    · simp [Command.execute,dnsSet,normal,ofPythonError]
  | ok normalized =>
    cases found : dnsTargets bmc interfaceId with
    | error e =>
      refine .rejected e ?_ fun confirm => ?_
      · simp [Command.plan,normal,found,bind,Except.bind]
      · simp [Command.execute,dnsSet,normal,ofPythonOk,found,ofPythonError]
    | ok targets =>
      refine .planned (.dnsPreview normalized targets) (fun answers =>
        ⟨.dnsApplied normalized (List.zipWith (fun target (a : Answer) =>
          ⟨.null,target,a.2,a.1.error⟩) targets answers),none⟩) ?_ ?_ ?_ ?_
      · simp [Command.plan,normal,found,bind,Except.bind,Report.listed]
      · simp only [Command.execute,dnsSet,normal,ofPythonOk,found]
        rfl
      · simp only [Command.execute,dnsSet,normal,ofPythonOk,found]
        rfl
      · intro answers _
        simp [Command.gathers]

theorem serialRuns (biosAttr biosValue : Option String) :
    Runs path bmc ipAddress (.serialConsole biosAttr biosValue) := by
  cases read : serialState bmc biosAttr biosValue with
  | error e =>
    refine .rejected e ?_ fun confirm => ?_
    · simp [Command.plan,read,bind,Except.bind]
    · simp [Command.execute,serialConsole,read,ofPythonError]
  | ok state =>
    obtain ⟨systemUri,biosAttrs,sol,status⟩ := state
    cases found : serialPlan systemUri biosAttrs sol status with
    | error e =>
      refine .rejected e ?_ fun confirm => ?_
      · simp [Command.plan,read,found,bind,Except.bind]
      · simp [Command.execute,serialConsole,read,ofPythonOk,found,ofPythonError]
    | ok plan =>
      refine .planned (.serialPreview plan status) (fun answers => match answers with
        | bios::others => ⟨.serialApplied bios.1.data (List.zipWith (fun (p : Patch) (a : Answer) =>
            (p.target,a.1.data)) plan.sol others) plan status,none⟩
        | [] => ⟨.serialPreview plan status,none⟩) ?_ ?_ ?_ ?_
      · simp [Command.plan,read,found,bind,Except.bind,Report.listed]
      · simp only [Command.execute,serialConsole,read,ofPythonOk,found]
        rfl
      · simp only [Command.execute,serialConsole,read,ofPythonOk,found,if_true]
        exact patchFirst (Command.answer path bmc (.serialConsole biosAttr biosValue)) plan.bios plan.sol _ _
      intro answers _
      simp only [Command.gathers,Bool.false_eq_true,false_and,iff_false,not_not]
      cases answers with
      | nil => rfl
      | cons a rest => rfl

theorem runs (c : Command) : Runs path bmc ipAddress c := by
  cases c with
  | ntpSet servers managerId clear => exact ntpRuns path bmc ipAddress servers managerId clear
  | dnsSet servers interfaceId clear => exact dnsRuns path bmc ipAddress servers interfaceId clear
  | serialConsole biosAttr biosValue => exact serialRuns path bmc ipAddress biosAttr biosValue

end

theorem answered {α β} {R : α → β → Prop} {items} (each : ∀ x ∈ items, ∃ a, R x a) :
    ∃ answers, List.Forall₂ R items answers := by
  induction items with
  | nil => exact ⟨[],.nil⟩
  | cons x rest ih =>
    obtain ⟨a,first⟩ := each x List.mem_cons_self
    obtain ⟨others,later⟩ := ih fun y mem => each y (List.mem_cons_of_mem x mem)
    exact ⟨a::others,.cons first later⟩

theorem answeredMem {α β R items} {answers : List β} (all : List.Forall₂ R items answers) {x : α}
    (mem : x ∈ items) : ∃ a, R x a := by
  induction all with
  | nil => exact absurd mem List.not_mem_nil
  | cons first later ih =>
    rcases List.mem_cons.mp mem with rfl | inside
    · exact ⟨_,first⟩
    · exact ih inside

theorem Command.expectedSuccess (c : Command) : 200 ≤ c.expected ∧ c.expected < 300 := by
  cases c with
  | ntpSet => simp [Command.expected]
  | dnsSet => simp [Command.expected]
  | serialConsole => simp [Command.expected]

def Raises (path : WritePath) (bmc : Bmc) (c : Command) (q : Patch × ℕ) : Prop :=
  ∃ e, c.answer path bmc q.2 q.1 = .error e

/- A command reports partial failures exactly if it gathers the errors, or one of its PATCHes raises
or none is refused. -/
theorem partialFailureReported (path : WritePath) (bmc : Bmc) (ipAddress : String → Bool)
    (c : Command) :
    Reports (c.answer path bmc)
        (c.execute path bmc ipAddress false) (c.execute path bmc ipAddress true) ↔
      c.gathers = true ∨ ∀ patches, c.plan bmc ipAddress = .ok patches →
        (∃ q ∈ patches.zipIdx, Raises path bmc c q) ∨
        ∀ q ∈ patches.zipIdx, ¬ Refused path (bmc.answer q.2 q.1) := by
  obtain ⟨low,high⟩ := c.expectedSuccess
  obtain ⟨e,unplanned,runs⟩ | ⟨report,finish,plan,preview,confirmed,gathers⟩ :=
    runs path bmc ipAddress c
  · rw [runs false,runs true,unplanned]
    refine ⟨fun _ => .inr fun patches same => ?_,fun _ => reportsRejected _⟩
    cases same
  rw [preview,confirmed,plan,reportsPlanned]
  simp only [Except.ok.injEq,forall_eq']
  constructor
  · intro finishes
    by_cases own : c.gathers = true
    · exact .inl own
    by_cases raised : ∃ q ∈ report.listed.zipIdx, Raises path bmc c q
    · exact .inr (.inl raised)
    have each : ∀ q ∈ report.listed.zipIdx, ∃ a, c.answer path bmc q.2 q.1 = .ok a := by
      intro q mem
      cases sent : c.answer path bmc q.2 q.1 with
      | error e => exact absurd ⟨q,mem,e,sent⟩ raised
      | ok a => exact ⟨a,rfl⟩
    obtain ⟨answers,all⟩ := answered each
    have silent : ¬ ∃ a ∈ answers, a.1.error ≠ none := fun error =>
      own ((gathers answers (forallLength all)).mp ((finishes answers all).mpr error)).1
    refine .inr (.inr fun q mem refused => ?_)
    obtain ⟨a,returned,error⟩ := (refusedAnswer path low high _).mpr refused
    exact silent ((anyErrorAnswers all).mp ⟨q,mem,a,returned,error⟩)
  · intro condition answers all
    rw [gathers answers (forallLength all)]
    refine ⟨And.right,fun error => ⟨?_,error⟩⟩
    rcases condition with own | ⟨q,mem,e,raised⟩ | free
    · exact own
    · obtain ⟨a,returned⟩ := answeredMem all mem
      rw [raised] at returned
      cases returned
    · obtain ⟨q,mem,a,returned,error⟩ := (anyErrorAnswers all).mpr error
      exact absurd ((refusedAnswer path low high _).mp ⟨a,returned,error⟩) (free q mem)

def linkTo (uri : String) : Json := .obj [("@odata.id",.str uri)]

def sampleDocuments : List (String × Json) :=
  [("/redfish/v1/Systems/1/Bios",.obj [("Attributes",.obj [("SerialComm",.str "Off")])]),
   ("/redfish/v1/Managers/1",.obj [("EthernetInterfaces",linkTo "/redfish/v1/Managers/1/Eth"),
     ("SerialConsole",.obj [("ServiceEnabled",.bool false)])]),
   ("/redfish/v1/Managers/1/Eth",.obj [("Members",.arr [linkTo "/redfish/v1/Managers/1/Eth/eth0"])])]

def sampleBmc : Bmc where
  manageServers := .ok "/redfish/v1/Systems/1"
  managers := .ok (.arr [linkTo "/redfish/v1/Managers/1"])
  query uri := match sampleDocuments.lookup (PyText.str uri) with
    | some document => .ok document
    | none => .error (.other "ResourceNotFound" (PyText.str uri))
  answer _ _ := .ok ⟨409,none,.ok (.obj []),""⟩

theorem partialFailureHidden :
    (dnsSet .generic sampleBmc (.text "8.8.8.8") none false true).result.toOption =
      some ⟨.dnsApplied ["8.8.8.8"] [⟨.null,.str "/redfish/v1/Managers/1/Eth/eth0",.error,
        some ⟨409,"","",[],""⟩⟩],none⟩ ∧
    (serialConsole .generic sampleBmc none none true true).issued.map Patch.target =
      [.str "/redfish/v1/Systems/1/Bios/Settings",.str "/redfish/v1/Managers/1"] ∧
    (serialConsole .generic sampleBmc none none true true).result.toOption.map CommandResult.error =
      some none := by
  decide +kernel

end RedfishCtl.TargetWrites
