import RedfishCtl.ReconcileIssued

/-! The two modes of a pass agree: what the dry run plans is what the confirmed run
does, part by part, over a manager that answers each invocation the same way. -/
namespace RedfishCtl.Reconcile
open Traced
open ReconcileStep (kind required)
open Stage (applied step)

def NtpLists (m : Manager) (servers : List String) (managerId : Option String) (confirm : Bool)
    (key : String) : Prop :=
  ∃ data, dataOf (m (.ntpSet servers managerId confirm)) = .ok data ∧
    (get data.members key).truthy = true

/- The preview has a plan exactly when the confirmed answer has applied rows, no
preview has applied rows without a plan, and no confirmed answer the reverse. -/
structure NtpReports (m : Manager) : Prop where
  previewed : ∀ servers managerId, NtpLists m servers managerId false "plan" ↔
    NtpLists m servers managerId true "applied"
  preview : ∀ servers managerId, NtpLists m servers managerId false "applied" →
    NtpLists m servers managerId false "plan"
  confirmed : ∀ servers managerId, NtpLists m servers managerId true "plan" →
    NtpLists m servers managerId true "applied"

variable {m : Manager}

theorem mappingOk {i data} :
    (invokeMapping m i).result = .ok data ↔ ∃ j, dataOf (m i) = .ok j ∧ j.members = data := by
  simp [invokeMapping,invokeData,resultBind]

def Stage.reports (s : Stage) (kind : Kind) : Prop :=
  s.step.kind = kind ∧
    (s.applied.toList.filter AppliedChange.changed).map AppliedChange.kind =
      if s.step.required then [kind] else []

section
variable {m : Manager} {state : DesiredState} {confirm wait async : Bool} {s : Stage}

theorem applyRequiredOk {step command} (ok : (applyRequired m confirm step command).result = .ok s) :
    s.step = step ∧ (confirm = true → s.reports step.kind) := by
  unfold applyRequired at ok
  split at ok
  · rename_i both
    simp only [resultBind,pureResult,Except.ok.injEq] at ok
    obtain ⟨result,-,rfl⟩ := ok
    simp only [Bool.and_eq_true] at both
    exact ⟨rfl,fun _ => ⟨rfl,by simp [both.2]⟩⟩
  · rename_i neither
    simp only [pureResult,Except.ok.injEq] at ok
    subst ok
    refine ⟨rfl,fun confirmed => ⟨rfl,?_⟩⟩
    simp only [confirmed,Bool.true_and] at neither
    simp [neither]

theorem biosOk {profileName} (ok : (reconcileBiosProfile m confirm profileName).result = .ok s) :
    ∃ data, dataOf (m (.biosProfileDiff profileName)) = .ok data ∧ s.step.kind = .biosProfile ∧
      s.step.required = (!(get data.members "matches").truthy) ∧
      (confirm = true → s.reports .biosProfile) := by
  simp only [reconcileBiosProfile,resultBind,mappingOk] at ok
  obtain ⟨diff,⟨data,read,rfl⟩,ok⟩ := ok
  obtain ⟨step,reports⟩ := applyRequiredOk ok
  exact ⟨data,read,by rw [step],by rw [step],reports⟩

theorem bootOk {device} (ok : (reconcileBoot m state confirm device).result = .ok s) :
    ∃ data, dataOf (m .currentBootQuery) = .ok data ∧ s.step.kind = .boot ∧
      s.step.required = (!bootAlreadyMatches data.members state device) ∧
      (confirm = true → s.reports .boot) := by
  simp only [reconcileBoot,resultBind,mappingOk] at ok
  obtain ⟨current,⟨data,read,rfl⟩,ok⟩ := ok
  obtain ⟨step,reports⟩ := applyRequiredOk ok
  exact ⟨data,read,by rw [step],by rw [step],reports⟩

theorem rebootOk {resetType} (ok : (reconcileReboot m confirm wait async resetType).result = .ok s) :
    s.step.kind = .reboot ∧ s.step.required = true ∧ (confirm = true → s.reports .reboot) := by
  simp only [reconcileReboot,resultBind,pureResult,Except.ok.injEq] at ok
  obtain ⟨result,-,rfl⟩ := ok
  exact ⟨rfl,rfl,fun confirmed => ⟨rfl,by simp [confirmed]⟩⟩

theorem ntpOk (ok : (reconcileNtp m state confirm).result = .ok s) :
    ∃ data same, dataOf (m .managerNetwork) = .ok data ∧
      ntpAlreadyMatches (mappingRows data) state = .ok same ∧ s.step.kind = .ntp ∧
      (same = true → s.step.required = false ∧ s.applied = none) ∧
      (same = false → ∃ answer,
        dataOf (m (.ntpSet state.ntpServers state.ntpManagerId confirm)) = .ok answer ∧
        s.step.required = ((get answer.members "plan").truthy ||
          (get answer.members "applied").truthy) ∧
        s.applied = if confirm then
          some ⟨.ntp,(get answer.members "applied").truthy,answer.members⟩ else none) := by
  simp only [reconcileNtp,invokeRows,invokeData,resultBind,issueResult,pureResult,ofExceptResult,
    Except.ok.injEq] at ok
  obtain ⟨current,⟨data,read,rfl⟩,same,compared,ok⟩ := ok
  refine ⟨data,same,read,compared,?_⟩
  cases same with
  | true =>
    simp only [if_true,pureResult,Except.ok.injEq] at ok
    subst ok
    exact ⟨rfl,fun _ => ⟨rfl,rfl⟩,Bool.noConfusion⟩
  | false =>
    simp only [Bool.false_eq_true,if_false,resultBind,mappingOk,pureResult,Except.ok.injEq] at ok
    obtain ⟨answer,⟨j,answered,rfl⟩,rfl⟩ := ok
    exact ⟨rfl,Bool.noConfusion,fun _ => ⟨j,answered,rfl,rfl⟩⟩

theorem ntpListed {servers managerId answer}
    (answered : dataOf (m (.ntpSet servers managerId confirm)) = .ok answer) (key : String) :
    NtpLists m servers managerId confirm key ↔ (get answer.members key).truthy = true := by
  simp [NtpLists,answered]

theorem ntpReported (reports : NtpReports m) (ok : (reconcileNtp m state true).result = .ok s) :
    s.reports .ntp := by
  obtain ⟨data,same,-,-,kind,inPlace,set⟩ := ntpOk ok
  refine ⟨kind,?_⟩
  cases same with
  | true => simp [inPlace rfl]
  | false =>
    obtain ⟨answer,answered,required,applied⟩ := set rfl
    have confirmed := reports.confirmed state.ntpServers state.ntpManagerId
    rw [ntpListed answered,ntpListed answered] at confirmed
    cases rows : (get answer.members "applied").truthy with
    | true => simp [applied,required,rows]
    | false =>
      have unplanned : (get answer.members "plan").truthy = false := by
        simpa [rows] using confirmed
      simp [applied,required,rows,unplanned]

theorem ntpAgrees (reports : NtpReports m) {d a} (dry : (reconcileNtp m state false).result = .ok d)
    (done : (reconcileNtp m state true).result = .ok a) : d.step.required = a.step.required := by
  obtain ⟨data,same,read,compared,-,inPlace,set⟩ := ntpOk dry
  obtain ⟨data',same',read',compared',-,inPlace',set'⟩ := ntpOk done
  cases read.symm.trans read'
  cases compared.symm.trans compared'
  cases same with
  | true => rw [(inPlace rfl).1,(inPlace' rfl).1]
  | false =>
    obtain ⟨before,previewed,required,-⟩ := set rfl
    obtain ⟨after,confirmed,required',-⟩ := set' rfl
    have pairs := reports.previewed state.ntpServers state.ntpManagerId
    have alone := reports.preview state.ntpServers state.ntpManagerId
    have planned := reports.confirmed state.ntpServers state.ntpManagerId
    rw [ntpListed previewed,ntpListed confirmed] at pairs
    rw [ntpListed previewed,ntpListed previewed] at alone
    rw [ntpListed confirmed,ntpListed confirmed] at planned
    rw [required,required',Bool.eq_iff_iff,Bool.or_eq_true,Bool.or_eq_true]
    constructor
    · rintro (plan | rows)
      · exact .inr (pairs.mp plan)
      · exact .inr (pairs.mp (alone rows))
    · rintro (plan | rows)
      · exact .inl (pairs.mpr (planned plan))
      · exact .inl (pairs.mpr rows)

theorem stageKind {part} (ok : (stage m state confirm wait async part).result = .ok s) :
    s.step.kind = part.kind := by
  cases part with
  | biosProfile profileName => obtain ⟨_,_,kind,_⟩ := biosOk ok; exact kind
  | ntp => obtain ⟨_,_,_,_,kind,_⟩ := ntpOk ok; exact kind
  | boot device => obtain ⟨_,_,kind,_⟩ := bootOk ok; exact kind
  | reboot resetType => exact (rebootOk ok).1

theorem stageReports (reports : NtpReports m) {part}
    (ok : (stage m state true wait async part).result = .ok s) : s.reports part.kind := by
  cases part with
  | biosProfile profileName => obtain ⟨_,_,_,_,reported⟩ := biosOk ok; exact reported rfl
  | ntp => exact ntpReported reports ok
  | boot device => obtain ⟨_,_,_,_,reported⟩ := bootOk ok; exact reported rfl
  | reboot resetType => exact (rebootOk ok).2.2 rfl

theorem stageAgrees (reports : NtpReports m) {part d a}
    (dry : (stage m state false wait async part).result = .ok d)
    (done : (stage m state true wait async part).result = .ok a) : d.step.required = a.step.required := by
  cases part with
  | biosProfile profileName =>
    obtain ⟨data,read,-,required,-⟩ := biosOk dry
    obtain ⟨data',read',-,required',-⟩ := biosOk done
    cases read.symm.trans read'
    rw [required,required']
  | ntp => exact ntpAgrees reports dry done
  | boot device =>
    obtain ⟨data,read,-,required,-⟩ := bootOk dry
    obtain ⟨data',read',-,required',-⟩ := bootOk done
    cases read.symm.trans read'
    rw [required,required']
  | reboot resetType => rw [(rebootOk dry).2.1,(rebootOk done).2.1]

def Completed (m : Manager) (state : DesiredState) (confirm wait async : Bool) :
    List Part → List Stage → Prop :=
  List.Forall₂ fun part s => (stage m state confirm wait async part).result = .ok s

theorem reconcileOk {desired r} :
    (reconcile m desired confirm wait async).result = .ok r ↔
      ∃ state stages, desired.resolve = .ok state ∧
        Completed m state confirm wait async (parts state) stages ∧
        r = ⟨!confirm,stages.map step,stages.filterMap applied⟩ := by
  simp only [reconcile,reconcileState,resultBind,ofExceptResult,sequenceOk,pureResult,
    Except.ok.injEq,List.forall₂_map_left_iff]
  constructor
  · rintro ⟨state,resolved,stages,all,rfl⟩
    exact ⟨state,stages,resolved,all,rfl⟩
  · rintro ⟨state,stages,resolved,all,rfl⟩
    exact ⟨state,resolved,stages,all,rfl⟩

variable {ps : List Part}

theorem completedKinds {stages} (all : Completed m state confirm wait async ps stages) :
    (stages.map step).map kind = ps.map Part.kind := by
  induction all with
  | nil => rfl
  | cons ok _ ih => simp only [List.map_cons,ih,stageKind ok]

theorem completedAgree (reports : NtpReports m) {dry done}
    (before : Completed m state false wait async ps dry)
    (after : Completed m state true wait async ps done) :
    (dry.map step).map (fun s => (s.kind,s.required)) =
      (done.map step).map fun s => (s.kind,s.required) := by
  induction before generalizing done with
  | nil => cases after; rfl
  | cons ok _ ih =>
    cases after with
    | cons ok' rest =>
      simp [ih rest,stageKind ok,stageKind ok',stageAgrees reports ok ok']

theorem completedReports (reports : NtpReports m) {done}
    (all : Completed m state true wait async ps done) :
    ((done.filterMap applied).filter AppliedChange.changed).map AppliedChange.kind =
      ((done.map step).filter required).map kind := by
  induction all with
  | nil => rfl
  | @cons part s rest stages ok _ ih =>
    obtain ⟨kind,changed⟩ := stageReports reports ok
    have split : (s::stages).filterMap applied =
        s.applied.toList ++ stages.filterMap applied := by
      cases h : s.applied <;> simp [h]
    rw [split,List.filter_append,List.map_append,changed,ih]
    cases required : s.step.required <;> simp [required,kind]

end

def Faultless (m : Manager) : Prop := ∀ i, ∃ data, dataOf (m i) = .ok data

theorem applyRequiredCompletes (faultless : Faultless m) (confirm : Bool)
    (step : ReconcileStep) (i : Invocation) : ∃ s, (applyRequired m confirm step i).result = .ok s := by
  unfold applyRequired
  split
  · obtain ⟨data,read⟩ := faultless i
    exact ⟨_,resultBind.mpr ⟨_,mappingData read,rfl⟩⟩
  · exact ⟨_,rfl⟩

/- Over a manager without errors only the comparison of the NTP rows can raise, in both modes. -/
def comparable (m : Manager) (state : DesiredState) : Part → Prop
  | .ntp => ∃ data same, dataOf (m .managerNetwork) = .ok data ∧
      ntpAlreadyMatches (mappingRows data) state = .ok same
  | _ => True

theorem stageCompletes (faultless : Faultless m) (state : DesiredState)
    (confirm wait async : Bool) (part : Part) :
    (∃ s, (stage m state confirm wait async part).result = .ok s) ↔ comparable m state part := by
  cases part with
  | biosProfile profileName =>
    obtain ⟨data,read⟩ := faultless (.biosProfileDiff profileName)
    obtain ⟨s,done⟩ := applyRequiredCompletes faultless confirm _ _
    exact ⟨fun _ => trivial,fun _ => ⟨s,resultBind.mpr ⟨_,mappingData read,done⟩⟩⟩
  | boot device =>
    obtain ⟨data,read⟩ := faultless .currentBootQuery
    obtain ⟨s,done⟩ := applyRequiredCompletes faultless confirm _ _
    exact ⟨fun _ => trivial,fun _ => ⟨s,resultBind.mpr ⟨_,mappingData read,done⟩⟩⟩
  | reboot resetType =>
    obtain ⟨data,read⟩ := faultless (.reboot resetType (!confirm) (wait && confirm) async)
    exact ⟨fun _ => trivial,fun _ => ⟨_,resultBind.mpr ⟨_,mappingData read,rfl⟩⟩⟩
  | ntp =>
    constructor
    · rintro ⟨s,ok⟩
      obtain ⟨data,same,read,compared,-⟩ := ntpOk ok
      exact ⟨data,same,read,compared⟩
    rintro ⟨data,same,read,compared⟩
    obtain ⟨answer,answered⟩ := faultless (.ntpSet state.ntpServers state.ntpManagerId confirm)
    simp only [stage,reconcileNtp,resultBind]
    cases same with
    | true => exact ⟨_,_,rowsData read,true,compared,rfl⟩
    | false => exact ⟨_,_,rowsData read,false,compared,resultBind.mpr ⟨_,mappingData answered,rfl⟩⟩

theorem reconcileCompletes (faultless : Faultless m) (desired : Desired)
    (confirm wait async : Bool) :
    (∃ r, (reconcile m desired confirm wait async).result = .ok r) ↔
      ∃ state, desired.resolve = .ok state ∧ ∀ part ∈ parts state, comparable m state part := by
  have stages (state : DesiredState) :
      (∃ done, (Traced.sequence ((parts state).map (stage m state confirm wait async))).result =
        .ok done) ↔
        ∀ part ∈ parts state, comparable m state part := by
    rw [sequenceCompletes,List.forall_mem_map]
    simp [stageCompletes faultless]
  simp only [reconcile,reconcileState,resultBind,ofExceptResult,pureResult]
  constructor
  · rintro ⟨_,state,resolved,done,ok,-⟩
    exact ⟨state,resolved,(stages state).mp ⟨done,ok⟩⟩
  · rintro ⟨state,resolved,all⟩
    obtain ⟨done,ok⟩ := (stages state).mpr all
    exact ⟨_,state,resolved,done,ok,rfl⟩

theorem dryRunReadsOnly {desired wait async i}
    (sent : i ∈ (reconcile m desired false wait async).issued) : i.mutates = none := by
  rcases issuedBind.mp sent with none | ⟨state,-,sent⟩
  · simp at none
  rw [reconcileStateIssued,sequenceIssued] at sent
  obtain ⟨pre,p,post,split,-,inside⟩ := sent
  obtain ⟨part,-,rfl⟩ := List.mem_map.mp (show p ∈ _ by rw [split]; simp)
  by_contra mutates
  obtain ⟨kind,some⟩ := Option.ne_none_iff_exists'.mp mutates
  exact absurd (stageMutates.mp ⟨inside,some⟩).1 (by decide)

def shape (r : ReconcileResult) : List (Kind × Bool) := r.steps.map fun s => (s.kind,s.required)

structure Agreement (m : Manager) (desired : Desired) (wait async : Bool) : Prop where
  readOnly : ∀ i ∈ (reconcile m desired false wait async).issued, i.mutates = none
  sameSteps : ∀ dry done, (reconcile m desired false wait async).result = .ok dry →
    (reconcile m desired true wait async).result = .ok done → shape done = shape dry
  changedRequired : ∀ done, (reconcile m desired true wait async).result = .ok done →
    (done.applied.filter AppliedChange.changed).map AppliedChange.kind =
      (done.steps.filter required).map kind ∧
    (done.steps.map kind).Sublist order
  completes : Faultless m → ((∃ done, (reconcile m desired true wait async).result = .ok done) ↔
    ∃ dry, (reconcile m desired false wait async).result = .ok dry)

theorem planApplyAgreement (m : Manager) (desired : Desired) (wait async : Bool)
    (reports : NtpReports m) : Agreement m desired wait async := by
  refine ⟨fun _ sent => dryRunReadsOnly sent,?_,?_,?_⟩
  · intro dry done before after
    obtain ⟨state,stages,resolved,all,rfl⟩ := reconcileOk.mp before
    obtain ⟨state',stages',resolved',all',rfl⟩ := reconcileOk.mp after
    cases resolved.symm.trans resolved'
    exact (completedAgree reports all all').symm
  · intro done after
    obtain ⟨state,stages,-,all,rfl⟩ := reconcileOk.mp after
    refine ⟨completedReports reports all,?_⟩
    rw [completedKinds all]
    exact partsOrdered state
  · intro faultless
    rw [reconcileCompletes faultless,reconcileCompletes faultless]

def answering (preview confirmed : Members) (reset : Json) : Manager
  | .ntpSet _ _ false => .result .null (.obj preview)
  | .ntpSet _ _ true => .result .null (.obj confirmed)
  | .reboot _ false _ _ => .result reset (.obj [])
  | _ => .result .null (.obj [])

def clock : DesiredState := ⟨none,["pool"],none,none,none,none,some "On"⟩

theorem planApplyAgreementNtp :
    Agreement (answering [("plan",.str "pool")] [("applied",.str "pool")] .null) (.state clock)
      false false :=
  planApplyAgreement _ _ _ _
    ⟨fun _ _ => ⟨fun _ => ⟨_,rfl,by decide⟩,fun _ => ⟨_,rfl,by decide⟩⟩,
     fun _ _ ⟨_,_,_⟩ => ⟨_,rfl,by decide⟩,fun _ _ ⟨_,_,_⟩ => ⟨_,rfl,by decide⟩⟩

theorem planApplyDisagreement : (∀ servers managerId,
      NtpLists (answering [("applied",.str "pool")] [] .null) servers managerId false "plan" ↔
      NtpLists (answering [("applied",.str "pool")] [] .null) servers managerId true "applied") ∧
    (∃ dry done,
      (reconcile (answering [("applied",.str "pool")] [] .null) (.state clock)
        false false false).result = .ok dry ∧
      (reconcile (answering [("applied",.str "pool")] [] .null) (.state clock)
        true false false).result = .ok done ∧ shape done ≠ shape dry) ∧
    (∃ dry e,
      (reconcile (answering [] [] (.str "busy")) (.state clock) false false false).result = .ok dry ∧
      (reconcile (answering [] [] (.str "busy")) (.state clock) true false false).result =
        .error e) := by
  refine ⟨fun _ _ => ⟨?_,?_⟩,⟨_,_,rfl,rfl,by decide⟩,⟨_,_,rfl,rfl⟩⟩
  · rintro ⟨data,read,planned⟩
    cases read
    exact absurd planned (by decide)
  · rintro ⟨data,read,applied⟩
    cases read
    exact absurd applied (by decide)

end RedfishCtl.Reconcile
