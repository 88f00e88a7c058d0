import RedfishCtl.DellWrite
import RedfishCtl.DotSegments
import RedfishCtl.JsonAccess

/-! The resource that `subscription-delete` and `account-delete` send their DELETE to: a URI that is
compared with the collection as text, or the member with an id or a user name. -/
namespace RedfishCtl.DeleteTargets
open DellWrite (ApiRespond lastSegment)
open DotSegments
open JsonAccess (get getOr invalidArgument isUri iterate link memberUri orEmpty)
open Actions (CommandResult isIn noAttribute)
open PyText (dropEnd str strip)

/- The resources by their URI, and the reads that fail. `delete` and `baseDelete` answer a DELETE,
as the transport and as `base_delete` give it. -/
structure Bmc where
  resource : String → Option Json
  failure : String → Option PyError
  delete : String → Except PyError (Int × String)
  baseDelete : String → Except PyError (Json × ApiRespond)

def Bmc.read (bmc : Bmc) (uri : String) : Except PyError Json :=
  match bmc.failure uri with
  | some e => .error e
  | none => match bmc.resource uri with
      | some document => .ok document
      | none => .error (.other "ResourceNotFound" uri)

def eventService : String := "/redfish/v1/EventService"

def subscriptionCollectionUri (bmc : Bmc) : Except PyError Json := do
  let service ← bmc.read eventService
  let uri ← link (orEmpty service) "Subscriptions"
  if uri.truthy then .ok uri
  else .error (invalidArgument "EventService Subscriptions link is not available")

def subscriptionMembers (bmc : Bmc) (collection : Json) : Except PyError (List Json) := do
  let data ← bmc.read (str collection)
  let members ← get (orEmpty data) "Members"
  .ok (match members with
    | .arr items => items.filterMap memberUri
    | _ => [])

def names (value uri : String) : Bool := lastSegment uri = value || uri = value

def findMember (value : String) : List Json → Except PyError String
  | [] => .error (invalidArgument ("subscription " ++ PyText.reprString value ++ " was not found"))
  | .str uri::rest => if names value uri then .ok uri else findMember value rest
  | j::_ => .error (noAttribute j "rsplit")

def rstrip (text : String) : List Char := dropEnd (· = '/') text.toList

def checkUri (value : String) : Json → Except PyError String
  | .str collection =>
      if dropEnd (· = '/') value.toList = rstrip collection then
        .error (invalidArgument ("subscription member URI under " ++ collection ++ " is required"))
      else if (rstrip collection ++ ['/']).isPrefixOf value.toList then .ok value
      else .error (invalidArgument ("subscription URI must be under " ++ collection))
  | j => .error (noAttribute j "rstrip")

def argument (subscription : Option String) : Option String :=
  (subscription.map strip).filter (· ≠ "")

def resolveSubscriptionUri (bmc : Bmc) (subscription : Option String) (collection : Json) :
    Except PyError String :=
  match argument subscription with
  | none => .error (invalidArgument "subscription id or URI is required")
  | some value =>
      if isUri value then checkUri value collection
      else do
        let members ← subscriptionMembers bmc collection
        findMember value members

def responseStatus (statusCode expected : Int) : ApiRespond :=
  if statusCode = expected then
    (DellWrite.httpCodeMapping.lookup statusCode).getD .success
  else if 200 ≤ statusCode ∧ statusCode < 300 then .ok
  else .error

def deleted (target : String) (response : Except PyError (Int × String)) : CommandResult :=
  match response with
  | .error e => ⟨.obj [("action",.str "delete"),("target",.str target),
      ("status",.str ApiRespond.error.text),("status_code",.null),("error",.str e.text)],none,.str e.text⟩
  | .ok (statusCode,text) =>
      let status := responseStatus statusCode 204
      let error : Json := if status = .error then .str text else .null
      ⟨.obj [("action",.str "delete"),("target",.str target),("status",.str status.text),
        ("status_code",.int statusCode),("error",error)],none,error⟩

def previewSubscription (target : String) : CommandResult :=
  ⟨.obj [("dry_run",.bool true),("action",.str "delete"),("target",.str target),
    ("note",.str "preview only; re-run with --confirm to delete subscription")],none,.null⟩

abbrev Deleting := Traced String PyError CommandResult

def subscriptionDelete (bmc : Bmc) (subscription : Option String) (confirm : Bool) : Deleting := do
  let collection ← Traced.ofExcept (subscriptionCollectionUri bmc)
  let target ← Traced.ofExcept (resolveSubscriptionUri bmc subscription collection)
  if confirm then Traced.issue target (.ok (deleted target (bmc.delete target)))
  else pure (previewSubscription target)

def accounts : String := "/redfish/v1/AccountService/Accounts"

def account (bmc : Bmc) (member : Json) : Except PyError (Json × Json) := do
  let data ←
    if ← isIn "UserName" member then .ok member
    else do
      let target ← getOr member "@odata.id" (.str "")
      let document ← bmc.read (str target)
      .ok (orEmpty document)
  let own ← get data "@odata.id"
  if own.truthy then .ok (own,data)
  else do
    let linked ← get member "@odata.id"
    .ok (linked,data)

def given (criterion : Option String) : Option String := criterion.filter (· ≠ "")

def asked (username accountId : Option String) (data : Json) : Bool :=
  (given accountId).any (fun id => str (data.getD "Id") = id) ||
    (given username).any (fun name => data.getD "UserName" = .str name)

def findAccount (bmc : Bmc) (username accountId : Option String) :
    List Json → Except PyError (Option (Json × Json))
  | [] => .ok none
  | member::rest => do
      let found ← account bmc member
      if asked username accountId found.2 then .ok (some found)
      else findAccount bmc username accountId rest

def accountMembers (bmc : Bmc) : Except PyError (List Json) := do
  let collection ← bmc.read accounts
  let members ← getOr (orEmpty collection) "Members" (.arr [])
  iterate members

def resolveAccount (bmc : Bmc) (username accountId : Option String) :
    Except PyError (Option (Json × Json)) := do
  let members ← accountMembers bmc
  let found ← findAccount bmc username accountId members
  .ok (found.filter fun f => f.1.truthy)

def refused (login : Option String) (data : Json) : Bool :=
  (data.getD "UserName").truthy && login.any (fun name => data.getD "UserName" = .str name)

def failed (message : String) : CommandResult := ⟨.null,none,.str message⟩

def previewAccount (uri data : Json) : CommandResult :=
  ⟨.obj [("dry_run",.bool true),("action",.str "delete"),("target",data.getD "UserName"),("uri",uri),
    ("hint",.str "re-run with --confirm to delete (irreversible)")],none,.null⟩

/- The rest of `account-delete`; `login` is the user name that the connection holds. -/
def deleteFound (bmc : Bmc) (login : Option String) (uri data : Json) (confirm : Bool) : Deleting :=
  if refused login data then
    pure (failed ("refusing to delete the logged-in account '" ++ str (data.getD "UserName") ++
      "' (self-delete guard)"))
  else if confirm then do
    let (error,status) ← Traced.issue (str uri) (bmc.baseDelete (str uri))
    pure ⟨.obj [("action",.str "delete"),("target",data.getD "UserName"),("status",.str status.text),
      ("error",error)],none,error⟩
  else pure (previewAccount uri data)

def accountDelete (bmc : Bmc) (login username accountId : Option String) (confirm : Bool) : Deleting :=
  if given username = none ∧ given accountId = none then pure (failed "provide --username or --id")
  else do
    match ← Traced.ofExcept (resolveAccount bmc username accountId) with
    | none => pure (failed ("account not found: " ++ ((given username).or accountId).getD ""))
    | some (uri,data) => deleteFound bmc login uri data confirm

def Inside (collection uri : String) : Prop :=
  ∃ base target, resolved (rstrip collection) = some base ∧ resolved uri.toList = some target ∧
    Below base target

def SubscriptionKept (bmc : Bmc) (run : Deleting) : Prop :=
  run.issued.length ≤ 1 ∧ ∀ uri ∈ run.issued, ∃ collection,
    subscriptionCollectionUri bmc = .ok collection ∧ Inside (str collection) uri

def Named (username accountId : Option String) (document : Json) : Prop :=
  (∀ id, given accountId = some id → ∃ value, document.get? "Id" = some value ∧ str value = id) ∧
    ∀ name, given username = some name → document.get? "UserName" = some (.str name)

def AccountKept (bmc : Bmc) (loggedIn username accountId : Option String) (run : Deleting) : Prop :=
  run.issued.length ≤ 1 ∧ ∀ uri ∈ run.issued, ∃ document, bmc.resource uri = some document ∧
    Named username accountId document ∧
    ∀ name, loggedIn = some name → document.get? "UserName" ≠ some (.str name)

def FirstMember (value : String) (members : List Json) (uri : String) : Prop :=
  ∃ (pre : List String) (post : List Json), members = pre.map .str ++ .str uri::post ∧
    (∀ u ∈ pre, names value u = false) ∧ names value uri = true

/- A URI that the text check lets through stays under the collection by segments; a member that an
id selects is inside it. -/
structure SubscriptionSafe (bmc : Bmc) (subscription : Option String) : Prop where
  uri : ∀ collection value rest, subscriptionCollectionUri bmc = .ok (.str collection) →
    argument subscription = some value → isUri value = true →
    value.toList = rstrip collection ++ '/'::rest →
    dropEnd (· = '/') value.toList ≠ rstrip collection →
    Plain (rstrip collection) ∧ ∃ base, resolved (rstrip collection) = some base ∧
      Stays base ((pathOf rest).splitOn '/')
  id : ∀ collection value members uri, subscriptionCollectionUri bmc = .ok collection →
    argument subscription = some value → isUri value = false →
    subscriptionMembers bmc collection = .ok members → FirstMember value members uri →
    Inside (str collection) uri

def FirstAccount (bmc : Bmc) (username accountId : Option String) (members : List Json)
    (found : Json × Json) : Prop :=
  ∃ pre member post, members = pre ++ member::post ∧
    (∀ m ∈ pre, ∃ other, account bmc m = .ok other ∧ asked username accountId other.2 = false) ∧
    account bmc member = .ok found ∧ asked username accountId found.2 = true

/- The first account with either criterion, unless refused, has both and is not the one logged in. -/
def AccountSafe (bmc : Bmc) (login loggedIn username accountId : Option String) : Prop :=
  ∀ members uri data, accountMembers bmc = .ok members →
    FirstAccount bmc username accountId members (uri,data) → uri.truthy = true →
    refused login data = false →
    ∃ document, bmc.resource (str uri) = some document ∧ Named username accountId document ∧
      ∀ name, loggedIn = some name → document.get? "UserName" ≠ some (.str name)

section
variable {bmc : Bmc} {subscription : Option String} {value uri : String}

theorem findMemberFirst {members} :
    findMember value members = .ok uri ↔ FirstMember value members uri := by
  constructor
  · intro found
    induction members with
    | nil => cases found
    | cons j rest ih =>
      cases j with
      | str u =>
        rw [findMember] at found
        by_cases named : names value u = true
        · rw [if_pos named] at found
          cases Except.ok.inj found
          exact ⟨[],rest,rfl,fun v mem => absurd mem List.not_mem_nil,named⟩
        rw [if_neg named] at found
        obtain ⟨pre,post,rfl,others,here⟩ := ih found
        refine ⟨u::pre,post,rfl,fun v mem => ?_,here⟩
        rcases List.mem_cons.mp mem with rfl | mem
        · exact Bool.eq_false_iff.mpr named
        · exact others v mem
      | _ => cases found
  · rintro ⟨pre,post,rfl,others,here⟩
    induction pre with
    | nil =>
      change findMember value (.str uri::post) = _
      rw [findMember,if_pos here]
    | cons u pre ih =>
      have skipped : names value u = false := others u List.mem_cons_self
      change findMember value (.str u::(pre.map .str ++ .str uri::post)) = _
      rw [findMember,if_neg (by simp [skipped])]
      exact ih fun v mem => others v (List.mem_cons_of_mem u mem)

theorem checkUriPasses {collection} :
    checkUri value collection = .ok uri ↔ uri = value ∧ ∃ text rest, collection = .str text ∧
      value.toList = rstrip text ++ '/'::rest ∧
      dropEnd (· = '/') value.toList ≠ rstrip text := by
  cases collection with
  | str text =>
    dsimp only [checkUri]
    by_cases same : dropEnd (· = '/') value.toList = rstrip text
    · rw [if_pos same]
      simp [same]
    rw [if_neg same]
    by_cases under : (rstrip text ++ ['/']).isPrefixOf value.toList = true
    · obtain ⟨rest,split⟩ := List.isPrefixOf_iff_prefix.mp under
      rw [if_pos under]
      constructor
      · intro done
        refine ⟨(Except.ok.inj done).symm,text,rest,rfl,?_,same⟩
        rw [← split,List.append_assoc]
        rfl
      · rintro ⟨rfl,-⟩
        rfl
    · rw [if_neg under]
      constructor
      · intro done
        cases done
      rintro ⟨rfl,_,rest,equal,split,-⟩
      cases equal
      refine absurd (List.isPrefixOf_iff_prefix.mpr ⟨rest,?_⟩) under
      rw [split,List.append_assoc]
      rfl
  | _ => simp [checkUri]

theorem insideUnder {collection rest} (split : value.toList = rstrip collection ++ '/'::rest) :
    Inside collection value ↔ Plain (rstrip collection) ∧
      ∃ base, resolved (rstrip collection) = some base ∧ Stays base ((pathOf rest).splitOn '/') := by
  unfold Inside
  rw [split]
  constructor
  · rintro ⟨base,target,start,ends,below⟩
    by_cases plain : Plain (rstrip collection)
    · rw [resolvedUnder plain start] at ends
      cases Option.some.inj ends
      exact ⟨plain,base,start,belowStays.mp below⟩
    unfold resolved at start ends
    rw [pathHidden plain,start] at ends
    cases Option.some.inj ends
    obtain ⟨under,same,s,mem,-⟩ := below
    obtain rfl : under = [] := List.self_eq_append_right.mp same
    exact absurd mem List.not_mem_nil
  · rintro ⟨plain,base,start,stays⟩
    exact ⟨base,_,start,resolvedUnder plain start,belowStays.mpr stays⟩

theorem subscriptionIssued : uri ∈ (subscriptionDelete bmc subscription true).issued ↔
      ∃ collection, subscriptionCollectionUri bmc = .ok collection ∧
        resolveSubscriptionUri bmc subscription collection = .ok uri := by
  simp only [subscriptionDelete,Traced.issuedBind,Traced.ofExceptIssued,Traced.ofExceptResult,
    List.not_mem_nil,false_or,if_true,Traced.issueIssued,List.mem_singleton]
  constructor
  · rintro ⟨collection,link,target,found,rfl⟩
    exact ⟨collection,link,found⟩
  · rintro ⟨collection,link,found⟩
    exact ⟨collection,link,uri,found,rfl⟩

theorem subscriptionOnce : (subscriptionDelete bmc subscription true).issued.length ≤ 1 := by
  unfold subscriptionDelete
  cases link : subscriptionCollectionUri bmc with
  | error e => exact Nat.zero_le 1
  | ok collection =>
    rw [Traced.ofExceptOk]
    cases resolveSubscriptionUri bmc subscription collection with
    | error e => exact Nat.zero_le 1
    | ok target => exact Nat.le_refl 1

theorem resolvedSubscription {collection} :
    resolveSubscriptionUri bmc subscription collection = .ok uri ↔
      ∃ value, argument subscription = some value ∧
        ((isUri value = true ∧ checkUri value collection = .ok uri) ∨
          (isUri value = false ∧ ∃ members, subscriptionMembers bmc collection = .ok members ∧
            FirstMember value members uri)) := by
  unfold resolveSubscriptionUri
  cases argument subscription with
  | none => simp
  | some value =>
    cases form : isUri value with
    | true => simp [form]
    | false =>
      cases members : subscriptionMembers bmc collection with
      | error e => simp [form,bind,Except.bind]
      | ok list => simp [form,bind,Except.bind,findMemberFirst]

theorem subscriptionKept : SubscriptionKept bmc (subscriptionDelete bmc subscription true) ↔
      SubscriptionSafe bmc subscription := by
  constructor
  · rintro ⟨-,inside⟩
    refine ⟨fun collection value rest link named form split other => ?_,
      fun collection value members uri link named form listed first => ?_⟩
    · have found : resolveSubscriptionUri bmc subscription (.str collection) = .ok value :=
        resolvedSubscription.mpr ⟨value,named,.inl ⟨form,
          checkUriPasses.mpr ⟨rfl,collection,rest,rfl,split,other⟩⟩⟩
      obtain ⟨again,same,within⟩ := inside value (subscriptionIssued.mpr ⟨_,link,found⟩)
      cases Except.ok.inj (link.symm.trans same)
      exact (insideUnder split).mp within
    · have found : resolveSubscriptionUri bmc subscription collection = .ok uri :=
        resolvedSubscription.mpr ⟨value,named,.inr ⟨form,members,listed,first⟩⟩
      obtain ⟨again,same,within⟩ := inside uri (subscriptionIssued.mpr ⟨_,link,found⟩)
      cases Except.ok.inj (link.symm.trans same)
      exact within
  · intro safe
    refine ⟨subscriptionOnce,fun uri sent => ?_⟩
    obtain ⟨collection,link,found⟩ := subscriptionIssued.mp sent
    refine ⟨collection,link,?_⟩
    obtain ⟨value,named,⟨form,passes⟩ | ⟨form,members,listed,first⟩⟩ := resolvedSubscription.mp found
    · obtain ⟨rfl,text,rest,rfl,split,other⟩ := checkUriPasses.mp passes
      exact (insideUnder split).mpr (safe.uri text uri rest link named form split other)
    · exact safe.id collection value members uri link named form listed first

variable {login loggedIn username accountId : Option String}

theorem findAccountFirst {members found} :
    findAccount bmc username accountId members = .ok (some found) ↔
      FirstAccount bmc username accountId members found := by
  constructor
  · intro search
    induction members with
    | nil => cases search
    | cons member rest ih =>
      obtain ⟨here,read,later⟩ := Stateful.okOfBind search
      by_cases match' : asked username accountId here.2 = true
      · rw [if_pos match'] at later
        cases Except.ok.inj later
        exact ⟨[],member,rest,rfl,fun m mem => absurd mem List.not_mem_nil,read,match'⟩
      rw [if_neg match'] at later
      obtain ⟨pre,m,post,rfl,others,first,hit⟩ := ih later
      refine ⟨member::pre,m,post,rfl,fun n mem => ?_,first,hit⟩
      rcases List.mem_cons.mp mem with rfl | mem
      · exact ⟨here,read,Bool.eq_false_iff.mpr match'⟩
      · exact others n mem
  · rintro ⟨pre,member,post,rfl,others,read,hit⟩
    induction pre with
    | nil =>
      change findAccount bmc username accountId (member::post) = _
      rw [findAccount,read]
      exact if_pos hit
    | cons m pre ih =>
      obtain ⟨other,known,miss⟩ := others m List.mem_cons_self
      change findAccount bmc username accountId (m::(pre ++ member::post)) = _
      rw [findAccount,known]
      refine (if_neg (by simp [miss])).trans ?_
      exact ih fun n mem => others n (List.mem_cons_of_mem m mem)

theorem resolveAccountFirst {found} :
    resolveAccount bmc username accountId = .ok (some found) ↔
      found.1.truthy = true ∧ ∃ members, accountMembers bmc = .ok members ∧
        FirstAccount bmc username accountId members found := by
  unfold resolveAccount
  cases listed : accountMembers bmc with
  | error e => simp [bind,Except.bind]
  | ok members =>
    simp only [Except.ok.injEq,exists_eq_left',← findAccountFirst]
    cases search : findAccount bmc username accountId members with
    | error e => simp [bind,Except.bind,search]
    | ok entry => simp [bind,Except.bind,search,and_comm]

theorem ungiven {data} (noName : given username = none) (noId : given accountId = none) :
    asked username accountId data = false := by
  simp [asked,noName,noId]

theorem deleteFoundIssued {uri data} :
    (deleteFound bmc login uri data true).issued =
      if refused login data then [] else [str uri] := by
  unfold deleteFound
  cases refused login data with
  | true => rfl
  | false => exact Traced.mapIssued _ _

theorem accountRun : (accountDelete bmc login username accountId true).issued =
      match resolveAccount bmc username accountId with
      | .ok (some (uri,data)) => if refused login data then [] else [str uri]
      | _ => [] := by
  unfold accountDelete
  by_cases free : given username = none ∧ given accountId = none
  · rw [if_pos free]
    cases search : resolveAccount bmc username accountId with
    | error e => rfl
    | ok found =>
      cases found with
      | none => rfl
      | some entry =>
        obtain ⟨-,_,-,_,_,_,-,-,-,hit⟩ := resolveAccountFirst.mp search
        rw [ungiven free.1 free.2] at hit
        cases hit
  · rw [if_neg free]
    cases resolveAccount bmc username accountId with
    | error e => rfl
    | ok found =>
      cases found with
      | none => rfl
      | some entry =>
        exact deleteFoundIssued

theorem accountIssued {target} :
    target ∈ (accountDelete bmc login username accountId true).issued ↔
      ∃ uri data, resolveAccount bmc username accountId = .ok (some (uri,data)) ∧
        refused login data = false ∧ target = str uri := by
  rw [accountRun]
  cases resolveAccount bmc username accountId with
  | error e => simp
  | ok found =>
    cases found with
    | none => simp
    | some entry =>
      obtain ⟨uri,data⟩ := entry
      cases guard : refused login data with
      | true => simp
      | false => simp

theorem accountOnce : (accountDelete bmc login username accountId true).issued.length ≤ 1 := by
  rw [accountRun]
  split
  · split
    · exact Nat.zero_le 1
    · exact Nat.le_refl 1
  · exact Nat.zero_le 1

theorem accountKept :
    AccountKept bmc loggedIn username accountId (accountDelete bmc login username accountId true) ↔
      AccountSafe bmc login loggedIn username accountId := by
  constructor
  · rintro ⟨-,kept⟩ members uri data listed first truthy guard
    have found := resolveAccountFirst.mpr ⟨truthy,members,listed,first⟩
    exact kept (str uri) (accountIssued.mpr ⟨uri,data,found,guard,rfl⟩)
  intro safe
  refine ⟨accountOnce,fun target sent => ?_⟩
  obtain ⟨uri,data,found,guard,rfl⟩ := accountIssued.mp sent
  obtain ⟨truthy,members,listed,first⟩ := resolveAccountFirst.mp found
  exact safe members uri data listed first truthy guard

end

def sampleResources : List (String × Json) :=
  [("/redfish/v1/EventService",.obj [("Subscriptions",.obj [("@odata.id",
      .str "/redfish/v1/EventService/Subscriptions")])]),
   ("/redfish/v1/AccountService/Accounts",.obj [("Members",.arr
      [.obj [("@odata.id",.str "/redfish/v1/AccountService/Accounts/2")],
       .obj [("@odata.id",.str "/redfish/v1/AccountService/Accounts/3")]])]),
   ("/redfish/v1/AccountService/Accounts/2",.obj [("Id",.str "2"),("UserName",.str "operator")]),
   ("/redfish/v1/AccountService/Accounts/3",.obj [("Id",.str "3"),("UserName",.str "auditor")])]

def sampleBmc : Bmc where
  resource uri := sampleResources.lookup uri
  failure _ := none
  delete _ := .ok (204,"")
  baseDelete _ := .ok (.null,.success)

end RedfishCtl.DeleteTargets
