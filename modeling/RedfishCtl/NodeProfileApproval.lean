import RedfishCtl.NodeProfile
import RedfishCtl.ReconcileAgreement

/-! What an approved plan lets the controller do. The approval is checked against the plan of a
first pass; a second pass reads the device again and decides what to apply. -/
namespace RedfishCtl.NodeProfile
open Reconcile
open Rfc3339 (DateTime)
open Traced

def desiredState (spec : Members) : Desired := .mapping (get spec "desiredState").members

def passes (spec : Members) (plan apply : Manager) : ReconcileFunc Invocation :=
  fun confirm wait => reconcile (if confirm then apply else plan) (desiredState spec) confirm wait false

def profileRun (spec : Members) (status : Json) (manager : Except PyError Unit)
    (plan apply : Manager) (now : DateTime) : Traced Invocation PyError Members :=
  reconcileProfile spec status manager (passes spec plan apply) now

def requires (m : Manager) (state : DesiredState) : Part → Bool
  | .ntp => drifted m state .ntp &&
      match dataOf (m (.ntpSet state.ntpServers state.ntpManagerId false)) with
      | .ok answer => (get answer.members "plan").truthy || (get answer.members "applied").truthy
      | .error _ => false
  | part => drifted m state part

variable {state : DesiredState} {async : Bool}

theorem stageRequired {m wait part s} (ok : (stage m state false wait async part).result = .ok s) :
    s.step.required = requires m state part := by
  cases part with
  | biosProfile profileName =>
    obtain ⟨data,read,-,required,-⟩ := biosOk ok
    simp [required,requires,drifted,read]
  | ntp =>
    obtain ⟨data,same,read,compared,-,inPlace,set⟩ := ntpOk ok
    cases same with
    | true => simp [(inPlace rfl).1,requires,drifted,read,compared]
    | false =>
      obtain ⟨answer,answered,required,-⟩ := set rfl
      simp [required,requires,drifted,read,compared,answered]
  | boot device =>
    obtain ⟨data,read,-,required,-⟩ := bootOk ok
    simp [required,requires,drifted,read]
  | reboot resetType => simp [(rebootOk ok).2.1,requires,drifted]

theorem completedAt {m state confirm wait async ps stages}
    (all : Completed m state confirm wait async ps stages) {part} (mem : part ∈ ps) :
    ∃ s ∈ stages, (stage m state confirm wait async part).result = .ok s := by
  induction all with
  | nil => simp at mem
  | cons ok _ ih =>
    rcases List.mem_cons.mp mem with rfl | mem
    · exact ⟨_,by simp,ok⟩
    · obtain ⟨s,inside,ok⟩ := ih mem
      exact ⟨s,by simp [inside],ok⟩

theorem completedFrom {m state confirm wait async ps stages}
    (all : Completed m state confirm wait async ps stages) {s} (mem : s ∈ stages) :
    ∃ part ∈ ps, (stage m state confirm wait async part).result = .ok s := by
  induction all with
  | nil => simp at mem
  | cons ok _ ih =>
    rcases List.mem_cons.mp mem with rfl | mem
    · exact ⟨_,by simp,ok⟩
    · obtain ⟨part,inside,ok⟩ := ih mem
      exact ⟨part,by simp [inside],ok⟩

theorem partUnique {p q} (left : p ∈ parts state) (right : q ∈ parts state) (same : p.kind = q.kind) :
    p = q :=
  List.inj_on_of_nodup_map ((partsOrdered state).nodup (by decide)) left right same

def Requires (dry : ReconcileResult) (kind : Kind) : Prop :=
  ∃ step ∈ dry.steps, step.kind = kind ∧ step.required = true

theorem plannedRequires {m desired dry wait part} (resolved : desired.resolve = .ok state)
    (mem : part ∈ parts state) (ok : (reconcile m desired false wait async).result = .ok dry) :
    Requires dry part.kind ↔ requires m state part = true := by
  obtain ⟨state',stages,resolved',all,rfl⟩ := reconcileOk.mp ok
  cases resolved.symm.trans resolved'
  constructor
  · rintro ⟨step,inside,kind,required⟩
    obtain ⟨s,listed,rfl⟩ := List.mem_map.mp inside
    obtain ⟨other,among,done⟩ := completedFrom all listed
    have same : other = part := partUnique among mem ((stageKind done).symm.trans kind)
    rw [← same,← stageRequired done]
    exact required
  · intro required
    obtain ⟨s,listed,done⟩ := completedAt all mem
    exact ⟨s.step,List.mem_map.mpr ⟨s,listed,rfl⟩,stageKind done,by rw [stageRequired done,required]⟩

theorem confirmedMutates {m desired wait kind} :
    (∃ i ∈ (reconcile m desired true wait async).issued, i.mutates = some kind) ↔
      ∃ state pre part post, desired.resolve = .ok state ∧ parts state = pre ++ part::post ∧
        (∀ q ∈ pre, ∃ s, (stage m state true wait async q).result = .ok s) ∧
        drifted m state part = true ∧ kind = part.kind := by
  constructor
  · rintro ⟨i,sent,mutates⟩
    rcases issuedBind.mp sent with none | ⟨state,resolved,sent⟩
    · simp at none
    rw [reconcileStateIssued,sequenceIssued] at sent
    obtain ⟨_,_,_,split,completed,inside⟩ := sent
    obtain ⟨pre,tail,parted,rfl,rest⟩ := List.map_eq_append_iff.mp split
    obtain ⟨part,post,rfl,rfl,rfl⟩ := List.map_eq_cons_iff.mp rest
    obtain ⟨-,drift,-,kind⟩ := stageMutates.mp ⟨inside,mutates⟩
    exact ⟨state,pre,part,post,resolved,parted,by simpa using completed,drift,kind⟩
  · rintro ⟨state,pre,part,post,resolved,split,completed,drift,rfl⟩
    refine ⟨command state wait async part,?_,commandMutates ..⟩
    refine issuedBind.mpr (.inr ⟨state,resolved,?_⟩)
    rw [reconcileStateIssued,sequenceIssued]
    exact ⟨pre.map _,_,post.map _,by rw [split,List.map_append,List.map_cons],
      by simpa using completed,(stageMutates.mpr ⟨rfl,drift,rfl,rfl⟩).1⟩

structure Approved (spec : Members) (status : Json) (manager : Except PyError Unit)
    (plan : Manager) (dry : ReconcileResult) (hash : PlanHash) : Prop where
  endpoint : ∃ endpoint, endpointSpec spec = .ok endpoint
  connected : manager = .ok ()
  planned : (reconcile plan (desiredState spec) false false false).result = .ok dry
  hashed : planHash (dry.steps.map plannedStep) = some hash
  approves : approvedPlanHash spec = some hash
  unconsumed : consumedPlanHash status ≠ some hash

theorem profileMutates {spec status manager plan apply now kind} :
    (∃ i ∈ (profileRun spec status manager plan apply now).issued, i.mutates = some kind) ↔
      ∃ dry hash, Approved spec status manager plan dry hash ∧
        ∃ i ∈ (reconcile apply (desiredState spec) true (get spec "waitForReboot").truthy
          false).issued, i.mutates = some kind := by
  constructor
  · rintro ⟨i,sent,mutates⟩
    simp only [profileRun,reconcileProfile,issuedBind,ofExceptIssued,List.not_mem_nil,false_or,
      ofExceptResult] at sent
    obtain ⟨endpoint,found,_,connected,sent⟩ := sent
    rcases sent with first | ⟨dry,planned,sent⟩
    · exact absurd (dryRunReadsOnly first) (by simp [mutates])
    cases approved : approval spec status (dryStatus spec status dry now) with
    | none => simp [approved] at sent
    | some hash =>
      obtain ⟨hashed,approves,unconsumed⟩ := approvalSome.mp approved
      simp only [approved,mapIssued] at sent
      exact ⟨dry,hash,⟨⟨endpoint,found⟩,connected,planned,hashed,approves,unconsumed⟩,
        i,sent,mutates⟩
  · rintro ⟨dry,hash,approved,i,sent,mutates⟩
    obtain ⟨endpoint,found⟩ := approved.endpoint
    have given : approval spec status (dryStatus spec status dry now) = some hash :=
      approvalSome.mpr ⟨approved.hashed,approved.approves,approved.unconsumed⟩
    refine ⟨i,?_,mutates⟩
    simp only [profileRun,reconcileProfile,issuedBind,ofExceptIssued,List.not_mem_nil,false_or,
      ofExceptResult]
    refine ⟨endpoint,found,(),approved.connected,.inr ⟨dry,approved.planned,?_⟩⟩
    simp only [given,mapIssued]
    exact sent

structure OnlyApproved (spec : Members) (status : Json) (manager : Except PyError Unit)
    (plan apply : Manager) (now : DateTime) : Prop where
  required : ∀ i ∈ (profileRun spec status manager plan apply now).issued, ∀ kind,
    i.mutates = some kind → ∃ dry hash,
      (reconcile plan (desiredState spec) false false false).result = .ok dry ∧
      planHash (dry.steps.map plannedStep) = some hash ∧ approvedPlanHash spec = some hash ∧
      Requires dry kind
  unapproved : ∀ dry, (reconcile plan (desiredState spec) false false false).result = .ok dry →
    (planHash (dry.steps.map plannedStep) = none ∨
      planHash (dry.steps.map plannedStep) ≠ approvedPlanHash spec) →
    ∀ i ∈ (profileRun spec status manager plan apply now).issued, i.mutates = none

/- A part whose answers ask the second pass for a change is one the first pass was asked to change. -/
def Steady (plan apply : Manager) (state : DesiredState) (wait : Bool) : Prop :=
  ∀ pre part post, parts state = pre ++ part::post →
    (∀ q ∈ pre, ∃ s, (stage apply state true wait false q).result = .ok s) →
    drifted apply state part = true → requires plan state part = true

theorem appliesOnlyApproved (spec : Members) (status : Json) (manager : Except PyError Unit)
    (plan apply : Manager) (now : DateTime) :
    OnlyApproved spec status manager plan apply now ↔
      ∀ dry hash state, Approved spec status manager plan dry hash →
        (desiredState spec).resolve = .ok state →
        Steady plan apply state (get spec "waitForReboot").truthy := by
  constructor
  · intro only dry hash state approved resolved pre part post split completed drift
    obtain ⟨i,sent,mutates⟩ := profileMutates.mpr ⟨dry,hash,approved,
      confirmedMutates.mpr ⟨state,pre,part,post,resolved,split,completed,drift,rfl⟩⟩
    obtain ⟨dry',_,planned,-,-,needed⟩ := only.required i sent _ mutates
    exact (plannedRequires resolved (by simp [split]) planned).mp needed
  · intro steady
    have required : ∀ i ∈ (profileRun spec status manager plan apply now).issued, ∀ kind,
        i.mutates = some kind → ∃ dry hash, Approved spec status manager plan dry hash ∧
          Requires dry kind := by
      intro i sent kind mutates
      obtain ⟨dry,hash,approved,confirmed⟩ := profileMutates.mp ⟨i,sent,mutates⟩
      obtain ⟨state,pre,part,post,resolved,split,completed,drift,rfl⟩ :=
        confirmedMutates.mp confirmed
      have needed := steady dry hash state approved resolved pre part post split completed drift
      exact ⟨dry,hash,approved,(plannedRequires resolved (by simp [split]) approved.planned).mpr needed⟩
    constructor
    · intro i sent kind mutates
      obtain ⟨dry,hash,approved,needed⟩ := required i sent kind mutates
      exact ⟨dry,hash,approved.planned,approved.hashed,approved.approves,needed⟩
    intro dry planned differs i sent
    by_contra mutates
    obtain ⟨kind,some⟩ := Option.ne_none_iff_exists'.mp mutates
    obtain ⟨dry',hash,approved,-⟩ := required i sent kind some
    cases planned.symm.trans approved.planned
    rcases differs with none | other
    · simp [approved.hashed] at none
    · exact other (approved.hashed.trans approved.approves.symm)

def restartSpec (hash : PlanHash) : Members :=
  [("endpoint",.obj [("address",.str "bmc")]),
   ("desiredState",.obj [("biosProfile",.str "virt"),("reboot",.str "On")]),
   ("approvedPlanHash",.str hash.text)]

def comparing (matching : Bool) : Manager
  | .biosProfileDiff _ => .result .null (.obj [("matches",.bool matching)])
  | _ => .result .null (.obj [])

def restartPlan : ReconcileResult :=
  ⟨true,[⟨.biosProfile,false,"BIOS profile virt",[("matches",.bool true)]⟩,
    ⟨.reboot,true,"Host reset On",[]⟩],[]⟩

theorem appliesBeyondApproval : ∃ hash, planHash (restartPlan.steps.map plannedStep) = some hash ∧
    ¬ OnlyApproved (restartSpec hash) (.obj []) (.ok ()) (comparing true) (comparing false) 0 := by
  obtain ⟨hash,hashed⟩ := Option.isSome_iff_exists.mp
    ((planHashSome restartPlan.steps).trans (by decide))
  refine ⟨hash,hashed,fun only => ?_⟩
  have wanted : desiredState (restartSpec hash) =
      .mapping [("biosProfile",.str "virt"),("reboot",.str "On")] := rfl
  have planned : (reconcile (comparing true) (desiredState (restartSpec hash))
      false false false).result = .ok restartPlan := by
    rw [wanted]
    decide +kernel
  have approves : approvedPlanHash (restartSpec hash) = some hash := hashTextStr hash
  have approved : Approved (restartSpec hash) (.obj []) (.ok ()) (comparing true) restartPlan hash :=
    ⟨⟨_,rfl⟩,rfl,planned,hashed,approves,by simp [consumedPlanHash,hashText,Json.getD]⟩
  have resolved : (desiredState (restartSpec hash)).resolve =
      .ok ⟨some "virt",[],none,none,none,none,some "On"⟩ := by
    rw [wanted]
    decide +kernel
  have drift : drifted (comparing false) ⟨some "virt",[],none,none,none,none,some "On"⟩
      (.biosProfile "virt") = true := by decide
  obtain ⟨i,sent,mutates⟩ := profileMutates.mpr ⟨_,_,approved,confirmedMutates.mpr
    ⟨_,[],.biosProfile "virt",[.reboot "On"],resolved,by decide,by simp,drift,rfl⟩⟩
  obtain ⟨dry,_,planned',-,-,step,inside,kind,required⟩ := only.required i sent _ mutates
  cases planned.symm.trans planned'
  revert kind required
  simp only [restartPlan,List.mem_cons,List.not_mem_nil,or_false] at inside
  rcases inside with rfl | rfl <;> decide

end RedfishCtl.NodeProfile
