import RedfishCtl.Actions
import RedfishCtl.Stateful

/-! What invoke_action posts: at most one request, to a target of the document under the type
that the guard has classified. -/
namespace RedfishCtl.Actions
open ActionPolicy (classify Permitted)
open Discovery (contains)
open Stateful (okOfBind)
open Json (getD getObj obj)

def Offers (entries : Members) (full : String) (target : Json) : Prop :=
  ∃ m, (full,.obj m) ∈ entries ∧ m.lookup "target" = some target

inductive Advertises (resource : Json) (full : String) (target : Json) : Prop where
  | actions (offers : Offers (resource.getD "Actions").members full target)
  | oem {extension} (inside : ("Oem",extension) ∈ (resource.getD "Actions").members)
      (offers : Offers extension.members full target)
  | vendor {name extension} (inside : (name,extension) ∈ (resource.getD "Oem").members)
      (offers : Offers (vendorActions extension) full target)

def entriesOf (actions : Members) : Members :=
  actions.flatMap fun entry =>
    if entry.1 = "Oem" ∧ entry.2.isObj then entry.2.members else [entry]

def vendorEntries (resource : Json) : Members :=
  (resource.getD "Oem").members.flatMap fun vendor => vendorActions vendor.2

/- The entries that the full-type pass reads, up to an Actions block that is no mapping. -/
def advertised (resource : Json) : Members :=
  if (resource.getD "Actions").truthy ∧ (resource.getD "Actions").isObj = false then []
  else entriesOf (resource.getD "Actions").members ++ vendorEntries resource

theorem keptEntries (actions : Members) (kept : ActionMap) :
    actions.foldl keepEntry kept = (entriesOf actions).foldl keep kept := by
  rw [entriesOf,List.foldl_flatMap]
  congr 1
  funext acc entry
  unfold keepEntry
  split <;> rfl

theorem addedEntries (actions out : Members) :
    actions.foldl addTargets out = (entriesOf actions).foldl addTarget out := by
  rw [entriesOf,List.foldl_flatMap]
  congr 1
  funext acc entry
  unfold addTargets
  split <;> rfl

theorem emptyMembers {j : Json} (empty : j.truthy = false) : j.members = [] := by
  cases j with
  | obj m => simpa [Json.truthy] using empty
  | _ => rfl

theorem getOrEmptyMembers (m : Members) (key : String) :
    (getOrEmpty m key).members = ((obj m).getD key).members := by
  unfold getOrEmpty
  simp only [getD,getObj]
  cases m.lookup key with
  | none => rfl
  | some j =>
    dsimp only [Option.getD_some]
    split
    · rfl
    · rename_i empty
      exact (emptyMembers (j := j) (by simpa using empty)).symm

theorem getOrEmptyOther (m : Members) (key : String) :
    (∃ entries, getOrEmpty m key = .obj entries) ↔
      ¬ (((obj m).getD key).truthy ∧ ((obj m).getD key).isObj = false) := by
  unfold getOrEmpty
  simp only [getD,getObj]
  cases m.lookup key with
  | none => simp
  | some j =>
    dsimp only [Option.getD_some]
    split
    · rename_i full
      cases j <;> simp [Json.isObj,full]
    · rename_i empty
      simp [empty]

theorem flattenAdvertised (m : Members) :
    flattenActionTargets (.obj m) = .ok ((advertised (.obj m)).foldl addTarget []) := by
  have mapping := getOrEmptyOther m "Actions"
  have members := getOrEmptyMembers m "Actions"
  simp only [flattenActionTargets,advertised,vendorEntries,← getOrEmptyMembers m "Oem"]
  split
  · rename_i entries found
    have read := mapping.mp ⟨entries,found⟩
    rw [if_neg read,← members,found,List.foldl_append,addedEntries,List.foldl_flatMap]
    rfl
  · rename_i other
    have stops := mt mapping.mpr (not_exists.mpr other)
    rw [if_pos (not_not.mp stops)]
    rfl

def actionObject : Json → Option (Members × Json)
  | .obj m => (targetOf (.obj m)).map fun target => (m,target)
  | _ => none

def offered (full : String) : Members → Option (Members × Json)
  | [] => none
  | entry::rest => (offered full rest).or (if entry.1 = full then actionObject entry.2 else none)

theorem actionObjectTarget (value : Json) : targetOf value = (actionObject value).map Prod.snd := by
  cases value with
  | obj m => simp [actionObject]
  | _ => rfl

theorem actionObjectSome {value target m} (found : actionObject value = some (m,target)) :
    value = .obj m ∧ m.lookup "target" = some target ∧ target.truthy = true := by
  cases value with
  | obj members =>
    obtain ⟨kept,read,same⟩ := Option.map_eq_some_iff.mp found
    cases same
    exact ⟨rfl,Option.filter_eq_some_iff.mp read⟩
  | _ => cases found

theorem lookupAdded (entries out : Members) (full : String) :
    (entries.foldl addTarget out).lookup full =
      ((offered full entries).map Prod.snd).or (out.lookup full) := by
  induction entries generalizing out with
  | nil => rfl
  | cons entry rest ih =>
    rw [List.foldl_cons,ih,offered]
    cases offered full rest with
    | some pair => rfl
    | none =>
      simp only [Option.none_or,Option.map_none,addTarget,actionObjectTarget]
      cases actionObject entry.2 with
      | none => simp
      | some pair =>
        by_cases same : entry.1 = full
        · simp [same]
        · simp [same,Ne.symm same]

theorem offeredMem {full entries m target} (found : offered full entries = some (m,target)) :
    (full,.obj m) ∈ entries ∧ m.lookup "target" = some target ∧ target.truthy = true := by
  induction entries with
  | nil => cases found
  | cons entry rest ih =>
    rw [offered,Option.or_eq_some_iff] at found
    obtain later | ⟨-,here⟩ := found
    · exact ⟨List.mem_cons_of_mem _ (ih later).1,(ih later).2⟩
    split at here
    · rename_i same
      obtain ⟨object,target⟩ := actionObjectSome here
      refine ⟨List.mem_cons.mpr (.inl ?_),target⟩
      rw [← same,← object]
    · cases here

def lastNamed (short : String) : Members → Option (String × Json)
  | [] => none
  | entry::rest =>
      (lastNamed short rest).or (if shortName entry.1 = some short then some entry else none)

theorem lookupKept (entries : Members) (kept : ActionMap) (short : String) :
    (entries.foldl keep kept).lookup short = (lastNamed short entries).or (kept.lookup short) := by
  induction entries generalizing kept with
  | nil => rfl
  | cons entry rest ih =>
    rw [List.foldl_cons,ih,lastNamed]
    cases lastNamed short rest with
    | some later => rfl
    | none =>
      simp only [Option.none_or,keep]
      cases shortName entry.1 with
      | none => simp
      | some name =>
        by_cases same : name = short
        · simp [same]
        · simp [same,Ne.symm same]

variable {short : String}

theorem lastNamedMem {entries entry} (found : lastNamed short entries = some entry) :
    entry ∈ entries ∧ shortName entry.1 = some short := by
  induction entries with
  | nil => cases found
  | cons first rest ih =>
    rw [lastNamed,Option.or_eq_some_iff] at found
    obtain later | ⟨-,here⟩ := found
    · exact ⟨List.mem_cons_of_mem _ (ih later).1,(ih later).2⟩
    split at here
    · rename_i named
      cases here
      exact ⟨List.mem_cons_self,named⟩
    · cases here

theorem keptDistinct (entries : Members) {kept} (distinct : AssocList.Distinct kept) :
    AssocList.Distinct (entries.foldl keep kept) := by
  induction entries generalizing kept with
  | nil => exact distinct
  | cons entry rest ih =>
    refine ih ?_
    unfold keep
    split
    · exact distinct
    · exact AssocList.distinctInsert distinct _ _

theorem getActionsKept {resource map} (read : getActions resource = .ok map) :
    map = (entriesOf (resource.getD "Actions").members).foldl keep [] := by
  obtain ⟨present,asked,read⟩ := okOfBind read
  cases resource with
  | obj m =>
    simp only [isIn,Except.ok.injEq] at asked
    simp only [getD,getObj]
    cases found : m.lookup "Actions" with
    | none =>
      rw [found] at asked
      cases asked
      cases read
      rfl
    | some block =>
      cases asked
      simp only [Option.isSome_some,Bool.not_true,Bool.false_eq_true,if_false,found,
        Option.getD_some] at read ⊢
      cases block with
      | obj entries =>
        cases read
        exact keptEntries entries []
      | arr items => cases items <;> cases read; rfl
      | str text =>
        dsimp only at read
        split at read <;> cases read
        rfl
      | _ => cases read
  | _ => cases present <;> cases read; rfl

def addArg (args : Option Members) (entry : String × Json) : Option Members :=
  if contains "@Redfish.AllowableValues".toList entry.1.toList then
    some (AssocList.insert ((split '@' entry.1).headD "") entry.2 (args.getD []))
  else args

theorem annotated (m : Members) (action : RedfishAction) :
    m.foldl addAnnotated action = { action with args := m.foldl addArg action.args } := by
  induction m generalizing action with
  | nil => rfl
  | cons entry rest ih =>
    rw [List.foldl_cons,List.foldl_cons,ih]
    simp only [addAnnotated,addArg,RedfishAction.addActionArg]
    split <;> rfl

variable {action : RedfishAction}

theorem discoverActionSome {full value} (read : discoverAction short full value = .ok (some action)) :
    ∃ m target, value = .obj m ∧ m.lookup "target" = some target ∧
      action = ⟨short,full,target,m.foldl addArg none⟩ := by
  obtain ⟨present,asked,read⟩ := okOfBind read
  split at read
  · cases read
  rename_i there
  cases value with
  | obj m =>
    simp only [isIn,Except.ok.injEq] at asked
    rw [← asked] at there
    cases found : m.lookup "target" with
    | none => simp [found] at there
    | some target =>
      simp only [found,Option.getD_some,annotated,Except.ok.injEq,Option.some.injEq] at read
      exact ⟨m,target,rfl,found,read.symm⟩
  | _ => cases read

variable {actions : List (String × RedfishAction)}

theorem discoverEachMem {map} (read : discoverEach map = .ok actions)
    (mem : (short,action) ∈ actions) :
    ∃ full value, (short,full,value) ∈ map ∧ discoverAction short full value = .ok (some action) := by
  induction map generalizing actions with
  | nil =>
    cases read
    cases mem
  | cons first rest ih =>
    obtain ⟨name,full,value⟩ := first
    obtain ⟨here,one,read⟩ := okOfBind read
    obtain ⟨others,later,read⟩ := okOfBind read
    cases here with
    | none =>
      cases read
      obtain ⟨full',value',inside,found⟩ := ih later mem
      exact ⟨full',value',List.mem_cons_of_mem _ inside,found⟩
    | some action' =>
      cases read
      rcases List.mem_cons.mp mem with same | mem
      · cases same
        exact ⟨full,value,List.mem_cons_self,one⟩
      · obtain ⟨full',value',inside,found⟩ := ih later mem
        exact ⟨full',value',List.mem_cons_of_mem _ inside,found⟩

theorem discovered {resource} (read : discoverRedfishActions resource = .ok actions)
    (found : actions.lookup short = some action) :
    ∃ m, lastNamed short (entriesOf (resource.getD "Actions").members) =
        some (action.fullRedfishName,.obj m) ∧
      m.lookup "target" = some action.target ∧ action.args = m.foldl addArg none := by
  obtain ⟨map,kept,read⟩ := okOfBind read
  have same := getActionsKept kept
  obtain ⟨full,value,inside,one⟩ := discoverEachMem read (AssocList.lookupMem found)
  obtain ⟨m,target,rfl,there,rfl⟩ := discoverActionSome one
  have distinct : AssocList.Distinct map := same ▸ keptDistinct _ (by decide)
  have last := AssocList.lookupOfMem distinct inside
  rw [same,lookupKept] at last
  exact ⟨m,by simpa using last,there,rfl⟩

theorem blockedNone {level call} :
    blockedReason level call = none ↔ Permitted level call.confirm call.confirmIrreversible := by
  cases level with
  | irreversible => simp [blockedReason,Permitted]
  | destructive => simp [blockedReason,Permitted]
  | _ => simp [blockedReason,Permitted]

section
variable {env : Environment} {service : Service} {read : Except PyError Json} {call : Call}

theorem fireIssued (service : Service) (actions : List (String × RedfishAction)) (full : String)
    (target : Json) (call : Call) :
    (fire service actions full target call).issued = [] ∨
      call.dryRun = false ∧ Permitted (classify full) call.confirm call.confirmIrreversible ∧
      (fire service actions full target call).issued =
        [⟨target,call.payload.getD [],call.doAsync,call.expectedStatus⟩] := by
  unfold fire
  dsimp only
  split
  · exact .inl rfl
  · rename_i passes
    simp only [Bool.or_eq_true,not_or,Bool.not_eq_true,Option.isSome_eq_false_iff,
      Option.isNone_iff_eq_none] at passes
    exact .inr ⟨passes.1,blockedNone.mp passes.2,Traced.mapIssued _ _⟩

theorem invokeIssued (env : Environment) (service : Service) (read : Except PyError Json)
    (call : Call) :
    (invokeAction env service read call).issued = [] ∨
      ∃ data actions full target, read = .ok data ∧
        discoverRedfishActions (resourceOf data) = .ok actions ∧
        resolve (resourceOf data) actions call = .ok (some (full,target)) ∧
        (invokeAction env service read call).issued =
          (fire service actions full target call).issued := by
  cases read with
  | error e => exact .inl rfl
  | ok data =>
    unfold invokeAction
    dsimp only
    cases found : discoverRedfishActions (resourceOf data) with
    | error e => exact .inl rfl
    | ok actions =>
      rw [Traced.ofExceptOk]
      cases ends : resolve (resourceOf data) actions call with
      | error e => exact .inl rfl
      | ok resolved =>
        rw [Traced.ofExceptOk]
        cases resolved with
        | none => exact .inl rfl
        | some pair =>
          obtain ⟨full,target⟩ := pair
          dsimp only
          cases validateActionPayload env full (actions.lookup call.actionName)
              (call.payload.getD []) with
          | error e => exact .inl rfl
          | ok errors =>
            rw [Traced.ofExceptOk]
            cases errors with
            | nil => exact .inr ⟨data,actions,full,target,rfl,found,ends,rfl⟩
            | cons first rest =>
              left
              rw [Traced.mapIssued]
              rfl

theorem entriesOfMem {actions entry} (inside : entry ∈ entriesOf actions) :
    entry ∈ actions ∨ ∃ extension, ("Oem",extension) ∈ actions ∧ entry ∈ extension.members := by
  obtain ⟨outer,listed,inside⟩ := List.mem_flatMap.mp inside
  split at inside
  · rename_i oem
    exact .inr ⟨outer.2,oem.1 ▸ listed,inside⟩
  · cases List.mem_singleton.mp inside
    exact .inl listed

variable {resource target : Json} {full : String}

theorem entriesAdvertise {m} (inside : (full,.obj m) ∈ entriesOf (resource.getD "Actions").members)
    (found : m.lookup "target" = some target) : Advertises resource full target := by
  obtain here | ⟨extension,oem,inside⟩ := entriesOfMem inside
  · exact .actions ⟨m,here,found⟩
  · exact .oem oem ⟨m,inside,found⟩

theorem advertisedMem {m} (inside : (full,.obj m) ∈ advertised resource)
    (found : m.lookup "target" = some target) : Advertises resource full target := by
  unfold advertised at inside
  split at inside
  · cases inside
  · rcases List.mem_append.mp inside with entry | vendor
    · exact entriesAdvertise entry found
    · obtain ⟨⟨name,extension⟩,listed,offer⟩ := List.mem_flatMap.mp vendor
      exact .vendor listed ⟨m,offer,found⟩

theorem byFullTypeSome (found : byFullType resource call = .ok (some (full,target))) :
    call.fullActionType = some full ∧ ∃ m, offered full (advertised resource) = some (m,target) := by
  unfold byFullType at found
  split at found
  · cases found
  rename_i given type
  split at found
  · cases found
  cases resource with
  | obj m =>
    rw [flattenAdvertised] at found
    simp only [Except.map,Except.ok.injEq,lookupAdded,List.lookup_nil,Option.or_none,
      Option.map_eq_some_iff,Prod.mk.injEq] at found
    obtain ⟨_,⟨pair,offer,rfl⟩,rfl,rfl⟩ := found
    exact ⟨type,pair.1,offer⟩
  | _ =>
    simp only [flattenActionTargets] at found
    split at found <;> cases found

variable {actions : List (String × RedfishAction)}

theorem byShortNameSome (read : discoverRedfishActions resource = .ok actions)
    (found : byShortName actions call = some (full,target)) :
    ∃ m, lastNamed call.actionName (entriesOf (resource.getD "Actions").members) =
        some (full,.obj m) ∧ m.lookup "target" = some target ∧
      inlineArgs (actions.lookup call.actionName) = (m.foldl addArg none).getD [] := by
  unfold byShortName at found
  split at found
  · cases found
  rename_i action there
  obtain ⟨m,last,given,args⟩ := discovered read there
  have dotted := (lastNamedMem last).2
  have named : action.fullRedfishName ≠ "" := by
    intro empty
    rw [empty] at dotted
    cases dotted
  split at found
  · simp only [Option.some.injEq,Prod.mk.injEq] at found
    obtain ⟨rfl,rfl⟩ := found
    refine ⟨m,last,given,?_⟩
    simp [inlineArgs,there,args]
  · cases found

theorem resolveCases (resolved : resolve resource actions call = .ok (some (full,target))) :
    byFullType resource call = .ok (some (full,target)) ∨
      byFullType resource call = .ok none ∧ byShortName actions call = some (full,target) := by
  obtain ⟨found,typed,resolved⟩ := okOfBind resolved
  cases found with
  | some pair =>
    cases resolved
    exact .inl typed
  | none => exact .inr ⟨typed,Except.ok.inj resolved⟩

theorem resolveAdvertised (read : discoverRedfishActions resource = .ok actions)
    (resolved : resolve resource actions call = .ok (some (full,target))) :
    Advertises resource full target := by
  obtain typed | ⟨-,short⟩ := resolveCases resolved
  · obtain ⟨-,m,offer⟩ := byFullTypeSome typed
    obtain ⟨inside,found,-⟩ := offeredMem offer
    exact advertisedMem inside found
  · obtain ⟨m,last,found,-⟩ := byShortNameSome read short
    exact entriesAdvertise (lastNamedMem last).1 found

theorem postsGuarded (env : Environment) (service : Service) (read : Except PyError Json)
    (call : Call) :
    (invokeAction env service read call).issued.length ≤ 1 ∧
    ∀ post ∈ (invokeAction env service read call).issued, ∃ data actions full,
      read = .ok data ∧ discoverRedfishActions (resourceOf data) = .ok actions ∧
      resolve (resourceOf data) actions call = .ok (some (full,post.target)) ∧
      call.dryRun = false ∧ Permitted (classify full) call.confirm call.confirmIrreversible ∧
      Advertises (resourceOf data) full post.target := by
  obtain none | ⟨data,actions,full,target,rfl,found,resolved,same⟩ :=
    invokeIssued env service read call
  · rw [none]
    simp
  rw [same]
  obtain none | ⟨dry,permitted,one⟩ := fireIssued service actions full target call
  · rw [none]
    simp
  · rw [one]
    refine ⟨le_refl _,fun post mem => ?_⟩
    cases List.mem_singleton.mp mem
    exact ⟨data,actions,full,rfl,found,resolved,dry,permitted,resolveAdvertised found resolved⟩

theorem byFullTypeNone {resource} (given : call.fullActionType = some full) (named : full ≠ "")
    (absent : byFullType resource call = .ok none) : offered full (advertised resource) = none := by
  unfold byFullType at absent
  simp only [given,if_neg named] at absent
  cases resource with
  | obj m =>
    rw [flattenAdvertised] at absent
    simpa [Except.map,lookupAdded] using absent
  | _ => rfl

/- A post for a call that names an irreversible type has both confirmations, or is of another
action, which the short name leads to and the guard passes by its own level. -/
theorem irreversibleConfirmed {full : String} {post : Post} (given : call.fullActionType = some full)
    (level : classify full = .irreversible)
    (posted : post ∈ (invokeAction env service read call).issued) :
    call.confirm = true ∧ call.confirmIrreversible = true ∨
      ∃ data other m, read = .ok data ∧ offered full (advertised (resourceOf data)) = none ∧
        other ≠ full ∧
        lastNamed call.actionName (entriesOf ((resourceOf data).getD "Actions").members) =
          some (other,.obj m) ∧
        m.lookup "target" = some post.target ∧
        Permitted (classify other) call.confirm call.confirmIrreversible := by
  obtain none | ⟨data,actions,other,target,rfl,found,resolved,same⟩ :=
    invokeIssued env service read call
  · rw [none] at posted
    cases posted
  rw [same] at posted
  obtain none | ⟨-,permitted,one⟩ := fireIssued service actions other target call
  · rw [none] at posted
    cases posted
  rw [one] at posted
  cases List.mem_singleton.mp posted
  by_cases own : other = full
  · rw [own,level] at permitted
    exact .inl permitted
  have named : full ≠ "" := by
    intro empty
    rw [empty] at level
    cases level
  obtain typed | ⟨absent,short⟩ := resolveCases resolved
  · have direct := (byFullTypeSome typed).1
    rw [given] at direct
    exact absurd (Option.some.inj direct).symm own
  · obtain ⟨m,last,target,-⟩ := byShortNameSome found short
    exact .inr ⟨data,other,m,rfl,byFullTypeNone given named absent,own,last,target,permitted⟩

end

def plainEnvironment : Environment := ⟨fun _ => [],.ok⟩
def acceptingService : Service := fun _ => .ok (⟨.null,none,.null⟩,"Ok")

def resetAction : String × Json := ("#Manager.Reset",.obj [("target",.str "/Manager.Reset")])
def defaultsAction : String × Json :=
  ("#Manager.ResetToDefaults",.obj [("target",.str "/Manager.ResetToDefaults")])
def resetOnly : Json := .obj [("Actions",.obj [resetAction])]
def resetBoth : Json := .obj [("Actions",.obj [resetAction,defaultsAction])]

def resetCall (confirmIrreversible : Bool) : Call :=
  ⟨"/redfish/v1/Managers/1","Reset",none,some "#Manager.ResetToDefaults",false,202,false,true,
    confirmIrreversible⟩

theorem irreversibleConfirmedBoth :
    let post : Post := ⟨.str "/Manager.ResetToDefaults",[],false,202⟩
    post ∈ (invokeAction plainEnvironment acceptingService (.ok resetBoth) (resetCall true)).issued ∧
    (((resetCall true).confirm = true ∧ (resetCall true).confirmIrreversible = true) ∨
      ∃ data other m, Except.ok resetBoth = Except.ok (ε := PyError) data ∧
        offered "#Manager.ResetToDefaults" (advertised (resourceOf data)) = none ∧
        other ≠ "#Manager.ResetToDefaults" ∧
        lastNamed "Reset" (entriesOf ((resourceOf data).getD "Actions").members) =
          some (other,.obj m) ∧
        m.lookup "target" = some post.target ∧
        Permitted (classify other) (resetCall true).confirm (resetCall true).confirmIrreversible) := by
  have posted : (⟨.str "/Manager.ResetToDefaults",[],false,202⟩ : Post) ∈
      (invokeAction plainEnvironment acceptingService (.ok resetBoth) (resetCall true)).issued := by
    decide +kernel
  exact ⟨posted,irreversibleConfirmed rfl (by decide +kernel) posted⟩

theorem otherActionPosted : classify "#Manager.ResetToDefaults" = .irreversible ∧
      (resetCall false).confirmIrreversible = false ∧
      (invokeAction plainEnvironment acceptingService (.ok resetOnly) (resetCall false)).issued =
        [⟨.str "/Manager.Reset",[],false,202⟩] := by
  decide +kernel

end RedfishCtl.Actions
