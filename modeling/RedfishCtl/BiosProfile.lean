import RedfishCtl.DellWrite
import RedfishCtl.JsonAccess

/-! `bios-profile apply`: a rollback spec is captured, then the profile is staged. The snapshot
swallows a failed read. -/
namespace RedfishCtl.BiosProfile
open AssocList
open DellWrite (ApiRespond)
open JsonAccess (orEmpty get len)

abbrev Members := List (String × Json)

structure CommandResult where
  data : Json
  error : Json
  deriving DecidableEq

structure Patch where
  target : Json
  payload : Members
  deriving DecidableEq

/- The host and what goes wrong in one call; snapshot and change each read the BIOS document. -/
structure Host where
  bios : Json
  snapshotFailure : Option PyError
  settingsFailure : Option PyError
  systemUri : Except PyError String
  usesDellJobSemantics : Bool
  pending : Except PyError Json
  patch : Patch → Except PyError (CommandResult × ApiRespond)
  fetchTask : Json → Except PyError Json
  specFile : Except PyError Unit
  saved : Except PyError Unit

def read (bios : Json) : Option PyError → Except PyError Json
  | none => .ok bios
  | some e => .error e

def currentAttributes (host : Host) : Except PyError Members :=
  match read host.bios host.snapshotFailure with
  | .error _ => .ok []
  | .ok bios => (get (orEmpty bios) "Attributes").map fun attrs => attrs.members

def snapshot (host : Host) (spec : Members) : Except PyError CommandResult := do
  let current ← currentAttributes host
  let wanted := keys (orEmpty ((spec.lookup "Attributes").getD .null)).members
  .ok ⟨.obj [("Attributes",.obj (wanted.filterMap fun k => (current.lookup k).map (k,·)))],.null⟩

def onReset : Members := [("@Redfish.SettingsApplyTime",.obj [("ApplyTime",.str "OnReset")])]

def checkPending (host : Host) : Except PyError Unit :=
  if host.usesDellJobSemantics then do
    let data ← host.pending
    let count ← len data
    if 0 < count then
      .error (.other "UncommittedPendingChanges"
        "BIOS contains uncommitted pending changes in the queue. Please apply changes first.")
    else .ok ()
  else .ok ()

def settingsLink (bios : Json) : Except PyError (Option Json) := do
  let settings ← get (orEmpty bios) "@Redfish.Settings"
  let object ← get (orEmpty settings) "SettingsObject"
  let link ← get (orEmpty object) "@odata.id"
  .ok (if link.truthy then some link else none)

def resolveBiosSettingsUri (host : Host) : Except PyError Json :=
  match read host.bios host.settingsFailure >>= settingsLink with
  | .ok (some link) => .ok link
  | _ => host.systemUri.map fun uri => .str (uri ++ "/Bios/Settings")

def followTask (host : Host) (answer : CommandResult × ApiRespond) : Except PyError CommandResult :=
  if answer.2 = .acceptedTaskGenerated then
    match answer.1.data.get? "task_id" with
    | some task => (host.fetchTask task).map fun state =>
        ⟨.obj (insert "task_id" task (insert "task_state" state answer.1.data.members)),answer.1.error⟩
    | none => .error (.other "KeyError" "'task_id'")
  else .ok answer.1

def changeSettings (host : Host) (spec : Members) (doShow : Bool) :
    Traced Patch PyError CommandResult :=
  if spec.isEmpty then pure ⟨.obj [("Status",.str "Empty bios spec.")],.null⟩
  else
    let payload := update spec onReset
    if doShow then pure ⟨.obj payload,.null⟩
    else do
      Traced.ofExcept (checkPending host)
      let target ← Traced.ofExcept (resolveBiosSettingsUri host)
      let answer ← Traced.issue ⟨target,payload⟩ (host.patch ⟨target,payload⟩)
      Traced.ofExcept (followTask host answer)

def profileChange (profile : Members) : Members :=
  match profile.lookup "attributes" with
  | some (.obj attributes) => [("Attributes",.obj attributes)]
  | _ => []

def report (profile : Members) (dryRun : Bool) (rollback staged : Json) : Json :=
  .obj [("profile",(profile.lookup "name").getD .null),("dry_run",.bool dryRun),
    ("change",.obj (profileChange profile)),("rollback",rollback),("staged",staged)]

def applyProfile (host : Host) (profile : Members) (confirm dryRun : Bool) :
    Traced Patch PyError CommandResult :=
  let change := profileChange profile
  if !((change.lookup "Attributes").getD .null).truthy then
    pure ⟨report profile true (.obj [("Attributes",.obj [])]) (.obj []),
      .str "profile has no attributes"⟩
  else do
    Traced.ofExcept host.specFile
    let rollback ← Traced.ofExcept (snapshot host change)
    let preview := dryRun || !confirm
    let staged ← changeSettings host change preview
    pure ⟨report profile preview rollback.data staged.data,
      if rollback.error = .null then staged.error else rollback.error⟩

def findProfile (profiles : List Members) (name : String) : Option Members :=
  profiles.find? fun profile => profile.lookup "name" = some (.str name)

def execute (host : Host) (profiles : List Members) (profileName : Option String)
    (confirm dryRun : Bool) : Traced Patch PyError CommandResult :=
  match profileName.filter (· ≠ "") with
  | none => do
      Traced.ofExcept host.saved
      pure ⟨.obj [],.str "profile name is required for apply"⟩
  | some name => match findProfile profiles name with
      | none => do
          Traced.ofExcept host.saved
          pure ⟨.obj [],.str ("profile not found: " ++ name)⟩
      | some profile => do
          let result ← applyProfile host profile confirm dryRun
          Traced.ofExcept host.saved
          pure result

def hostAttributes (host : Host) : Members := (host.bios.getD "Attributes").members

def Readable (host : Host) : Prop :=
  host.snapshotFailure = none ∧ (host.bios.getD "Attributes").isObj = true

def Covered (host : Host) (attributes : Members) (result : CommandResult) : Prop :=
  ∃ spec : Members, result.data.get? "rollback" = some (.obj [("Attributes",.obj spec)]) ∧
    ∀ k ∈ keys attributes, ∀ v, (hostAttributes host).lookup k = some v → spec.lookup k = some v

structure Guarded (host : Host) (attributes : Members) (run : Traced Patch PyError CommandResult) :
    Prop where
  rollback : run.issued ≠ [] → ∃ result, run.result = .ok result ∧ Covered host attributes result
  unread : ¬ Readable host → run.issued = []

inductive Stopped (host : Host) : Prop where
  | spec (e : PyError) (failed : host.specFile = .error e)
  | document (e : PyError) (failed : currentAttributes host = .error e)
  | pending (e : PyError) (failed : checkPending host = .error e)
  | target (e : PyError) (failed : resolveBiosSettingsUri host = .error e)

def Answered (host : Host) (change : Members) : Prop :=
  host.saved = .ok () ∧ ∃ target answer result,
    resolveBiosSettingsUri host = .ok target ∧
      host.patch ⟨target,update change onReset⟩ = .ok answer ∧ followTask host answer = .ok result

section
variable {host : Host} {profile attributes : Members} {profiles : List Members} {name : String}

theorem changeOf (has : profile.lookup "attributes" = some (.obj attributes)) :
    profileChange profile = [("Attributes",.obj attributes)] := by
  simp [profileChange,has]

def restored (current : Members) (wanted : List String) : Members :=
  wanted.filterMap fun k => (current.lookup k).map (k,·)

theorem restoredLookup {wanted current k} (mem : k ∈ wanted) :
    (restored current wanted).lookup k = current.lookup k := by
  unfold restored
  induction wanted with
  | nil => exact absurd mem List.not_mem_nil
  | cons w rest ih =>
    by_cases same : k = w
    · subst same
      cases here : current.lookup k with
      | none =>
        rw [List.filterMap_cons_none (by rw [here]; rfl)]
        by_cases again : k ∈ rest
        · rw [ih again,here]
        · refine List.lookup_eq_none_iff.mpr fun entry inside => ?_
          obtain ⟨j,later,made⟩ := List.mem_filterMap.mp inside
          obtain ⟨v,-,rfl⟩ := Option.map_eq_some_iff.mp made
          exact bne_iff_ne.mpr fun eq => again (eq ▸ later)
      | some v =>
        rw [List.filterMap_cons_some (by rw [here]; rfl)]
        exact List.lookup_cons_self
    · have later := (List.mem_cons.mp mem).resolve_left same
      cases here : current.lookup w with
      | none =>
        rw [List.filterMap_cons_none (by rw [here]; rfl)]
        exact ih later
      | some v =>
        rw [List.filterMap_cons_some (by rw [here]; rfl),lookupCons,if_neg same]
        exact ih later

theorem changeRun (spec : Members) (nonempty : spec.isEmpty = false) :
    changeSettings host spec false = (do
      Traced.ofExcept (checkPending host)
      let target ← Traced.ofExcept (resolveBiosSettingsUri host)
      let answer ← Traced.issue ⟨target,update spec onReset⟩ (host.patch ⟨target,update spec onReset⟩)
      Traced.ofExcept (followTask host answer)) := by
  simp [changeSettings,nonempty]

theorem applyRun (has : profile.lookup "attributes" = some (.obj attributes))
    (nonempty : attributes ≠ []) :
    applyProfile host profile true false = (do
      Traced.ofExcept host.specFile
      let rollback ← Traced.ofExcept (snapshot host (profileChange profile))
      let staged ← changeSettings host (profileChange profile) false
      pure ⟨report profile false rollback.data staged.data,
        if rollback.error = .null then staged.error else rollback.error⟩) := by
  have truthy : ((List.lookup "Attributes" (profileChange profile)).getD .null).truthy = true := by
    rw [changeOf has]
    simpa [Json.truthy] using nonempty
  simp [applyProfile,truthy]

theorem executeRun (found : findProfile profiles name = some profile) (named : name ≠ "") :
    execute host profiles (some name) true false = (do
      let result ← applyProfile host profile true false
      Traced.ofExcept host.saved
      pure result) := by
  simp [execute,named,found,Option.filter]

theorem sentRun {current target} (has : profile.lookup "attributes" = some (.obj attributes))
    (nonempty : attributes ≠ []) (found : findProfile profiles name = some profile)
    (named : name ≠ "") (written : host.specFile = .ok ())
    (attrs : currentAttributes host = .ok current) (free : checkPending host = .ok ())
    (link : resolveBiosSettingsUri host = .ok target) :
    execute host profiles (some name) true false =
      ⟨[⟨target,update (profileChange profile) onReset⟩],do
        let answer ← host.patch ⟨target,update (profileChange profile) onReset⟩
        let staged ← followTask host answer
        host.saved
        .ok ⟨report profile false (.obj [("Attributes",.obj (restored current (keys attributes)))])
          staged.data,staged.error⟩⟩ := by
  have wanted : keys (orEmpty ((List.lookup "Attributes" (profileChange profile)).getD .null)).members =
      keys attributes := by
    rw [changeOf has]
    cases attributes with
    | nil => exact absurd rfl nonempty
    | cons a rest => rfl
  have captured : snapshot host (profileChange profile) =
      .ok ⟨.obj [("Attributes",.obj (restored current (keys attributes)))],.null⟩ := by
    simp only [snapshot,attrs,wanted]
    rfl
  have change : changeSettings host (profileChange profile) false = _ :=
    changeRun (profileChange profile) (by rw [changeOf has]; rfl)
  rw [executeRun found named,applyRun has nonempty,written,captured,change,free,link]
  simp only [Traced.ofExceptOk]
  cases host.patch ⟨target,update (profileChange profile) onReset⟩ with
  | error e => rfl
  | ok answer =>
    dsimp only [bind,Traced.andThen,Traced.issue,Traced.ofExcept,pure,Except.bind]
    cases followTask host answer with
    | error e => rfl
    | ok staged =>
      cases host.saved with
      | error e => rfl
      | ok u => simp

theorem stoppedIssues (stopped : Stopped host)
    (has : profile.lookup "attributes" = some (.obj attributes)) (nonempty : attributes ≠ [])
    (found : findProfile profiles name = some profile) (named : name ≠ "") :
    (execute host profiles (some name) true false).issued = [] := by
  have change : changeSettings host (profileChange profile) false = _ :=
    changeRun (profileChange profile) (by rw [changeOf has]; rfl)
  refine List.eq_nil_iff_forall_not_mem.mpr fun patch sent => ?_
  rw [executeRun found named,applyRun has nonempty,change] at sent
  simp only [Traced.issuedBind,Traced.resultBind,Traced.ofExceptIssued,Traced.ofExceptResult,
    Traced.pureIssued,Traced.issueIssued,Traced.issueResult,List.not_mem_nil,false_or,and_false,
    exists_false,or_false] at sent
  obtain ⟨_,written,_,captured,_,free,target,link,-⟩ := sent
  cases stopped with
  | spec e failed => rw [written] at failed; cases failed
  | pending e failed => rw [free] at failed; cases failed
  | target e failed => rw [link] at failed; cases failed
  | document e failed =>
    rw [snapshot,failed] at captured
    cases captured

theorem readableCurrent (readable : Readable host) :
    currentAttributes host = .ok (hostAttributes host) := by
  obtain ⟨answered,mapping⟩ := readable
  unfold currentAttributes hostAttributes
  rw [answered]
  cases document : host.bios with
  | obj m =>
    cases m with
    | nil => rw [document] at mapping; cases mapping
    | cons p rest => rfl
  | _ => rw [document] at mapping; cases mapping

theorem coveredReport (profile : Members) (staged error : Json) :
    Covered host attributes ⟨report profile false
      (.obj [("Attributes",.obj (restored (hostAttributes host) (keys attributes)))]) staged,error⟩ :=
  ⟨_,rfl,fun _ mem _ value => (restoredLookup mem).trans value⟩

theorem answeredResult {target result} (link : resolveBiosSettingsUri host = .ok target)
    {payload change} {f : CommandResult → CommandResult} (same : payload = update change onReset)
    (done : (do
      let answer ← host.patch ⟨target,payload⟩
      let staged ← followTask host answer
      host.saved
      .ok (f staged) : Except PyError CommandResult) = .ok result) : Answered host change := by
  obtain ⟨answer,patched,later⟩ := Stateful.okOfBind done
  obtain ⟨staged,followed,last⟩ := Stateful.okOfBind later
  obtain ⟨_,saved,_⟩ := Stateful.okOfBind last
  exact ⟨saved,target,answer,staged,link,same ▸ patched,followed⟩

end

/- A confirmed apply of a profile with attributes keeps its rollback exactly when it ends
before the PATCH, or the attributes were read and the PATCH is followed to its end. -/
theorem profileKeepsRollback (host : Host) {profiles : List Members} {profile attributes : Members}
    {name : String} (found : findProfile profiles name = some profile) (named : name ≠ "")
    (has : profile.lookup "attributes" = some (.obj attributes)) (nonempty : attributes ≠ []) :
    Guarded host attributes (execute host profiles (some name) true false) ↔
      Stopped host ∨ Readable host ∧ Answered host (profileChange profile) := by
  by_cases stopped : Stopped host
  · have silent := stoppedIssues stopped has nonempty found named
    exact ⟨fun _ => .inl stopped,fun _ => ⟨fun sent => absurd silent sent,fun _ => silent⟩⟩
  rw [or_iff_right stopped]
  have sent : ∃ current target, currentAttributes host = .ok current ∧
      resolveBiosSettingsUri host = .ok target ∧ host.specFile = .ok () ∧
      checkPending host = .ok () := by
    cases written : host.specFile with
    | error e => exact absurd (.spec e written) stopped
    | ok _ =>
      cases free : checkPending host with
      | error e => exact absurd (.pending e free) stopped
      | ok _ =>
        cases attrs : currentAttributes host with
        | error e => exact absurd (.document e attrs) stopped
        | ok current =>
          cases link : resolveBiosSettingsUri host with
          | error e => exact absurd (.target e link) stopped
          | ok target => exact ⟨current,target,rfl,rfl,rfl,rfl⟩
  obtain ⟨current,target,attrs,link,written,free⟩ := sent
  rw [sentRun has nonempty found named written attrs free link]
  constructor
  · intro guarded
    have readable : Readable host := by
      by_contra unread
      cases guarded.unread unread
    refine ⟨readable,?_⟩
    obtain ⟨result,done,-⟩ := guarded.rollback (by simp)
    exact answeredResult link rfl done
  · rintro ⟨readable,saved,again,answer,staged,same,patched,followed⟩
    cases Except.ok.inj (link.symm.trans same)
    cases Except.ok.inj (attrs.symm.trans (readableCurrent readable))
    refine ⟨fun _ => ⟨_,?_,coveredReport profile staged.data staged.error⟩,
      fun unread => absurd readable unread⟩
    rw [patched]
    dsimp only [bind,Except.bind]
    rw [followed]
    rw [saved]

def sampleHost (snapshotFailure : Option PyError) : Host where
  bios := .obj [("Attributes",.obj [("ProcCStates",.str "Enabled")])]
  snapshotFailure := snapshotFailure
  settingsFailure := none
  systemUri := .ok "/redfish/v1/Systems/1"
  usesDellJobSemantics := false
  pending := .ok (.obj [])
  patch _ := .ok (⟨.obj [("Status",.str "ok")],.null⟩,.ok)
  fetchTask _ := .ok .null
  specFile := .ok ()
  saved := .ok ()

def sampleProfile : Members :=
  [("name",.str "cstates-off"),("attributes",.obj [("ProcCStates",.str "Disabled")])]

theorem stagedWithoutRollback :
    let run := execute (sampleHost (some (.other "ConnectionError" "timed out"))) [sampleProfile]
      (some "cstates-off") true false
    run.issued = [⟨.str "/redfish/v1/Systems/1/Bios/Settings",
      [("Attributes",.obj [("ProcCStates",.str "Disabled")]),
        ("@Redfish.SettingsApplyTime",.obj [("ApplyTime",.str "OnReset")])]⟩] ∧
    run.result = .ok ⟨report sampleProfile false (.obj [("Attributes",.obj [])])
      (.obj [("Status",.str "ok")]),.null⟩ := by
  decide +kernel

theorem sampleKeepsRollback : findProfile [sampleProfile] "cstates-off" = some sampleProfile ∧
    Guarded (sampleHost none) [("ProcCStates",.str "Disabled")]
      (execute (sampleHost none) [sampleProfile] (some "cstates-off") true false) := by
  have found : findProfile [sampleProfile] "cstates-off" = some sampleProfile := by decide +kernel
  refine ⟨found,(profileKeepsRollback (sampleHost none) found (by decide) rfl (by simp)).mpr
    (.inr ⟨⟨rfl,rfl⟩,rfl,_,_,_,rfl,rfl,rfl⟩)⟩

end RedfishCtl.BiosProfile
