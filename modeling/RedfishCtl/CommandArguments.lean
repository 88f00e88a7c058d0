import RedfishCtl.Connection
import RedfishCtl.Dispatch
import RedfishCtl.JsonOverlay

/-! The keyword arguments of a command through `sync_invoke` and `invoke`. The manager merges its
connection into them under private names, and `invoke` takes those and its own keywords out again. -/
namespace RedfishCtl.CommandArguments
open AssocList
open Dispatch (Package Runtime Key)

inductive Value where
  | data (j : Json)
  | object (identity : Nat)
  deriving DecidableEq, Repr

namespace Value

def null : Value := .data .null

def eq : Value → Value → Bool
  | .data x, .data y => Json.pyEq x y
  | .object a, .object b => a = b
  | _, _ => false

def ofText : Option String → Value
  | none => null
  | some s => .data (.str s)

def ofPort : Connection.Port → Value
  | .none => null
  | .number n => .data (.int n)
  | .text s => .data (.str s)

def ofFlag : Option Bool → Value
  | none => null
  | some b => .data (.bool b)

end Value

abbrev Keywords := List (String × Value)

def keyError (key : String) : PyError := .other "KeyError" (PyText.reprString key)

def pop (kwargs : Keywords) (key : String) : Except PyError (Value × Keywords) :=
  match kwargs.lookup key with
  | some value => .ok (value,erase key kwargs)
  | none => .error (keyError key)

def popOr (kwargs : Keywords) (key : String) (default : Value) : Value × Keywords :=
  ((kwargs.lookup key).getD default,erase key kwargs)

def repeats (argument value : Value) : Bool := argument.eq value || argument.eq .null

def popConnectionValue (kwargs : Keywords) (primary internal : String) :
    Except PyError (Value × Keywords) :=
  match kwargs.lookup internal with
  | some value =>
      let kwargs := erase internal kwargs
      if repeats ((kwargs.lookup primary).getD .null) value then .ok (value,erase primary kwargs)
      else .ok (value,kwargs)
  | none => pop kwargs primary

/- The call of `execute` with the instance it is made on and the cache in scope. -/
structure Execution where
  runtime : Runtime
  host : Value
  username : Value
  password : Value
  port : Value
  insecure : Value
  isHttp : Value
  redfishQuery : Value
  redfishQueryOneParamPerUri : Value
  redfishCache : Value
  arguments : Keywords
  deriving DecidableEq, Repr

section
variable {κ : Type} [DecidableEq κ]

def invoke (p : Package κ) (cls : Runtime) (key : Key κ) (kwargs : Keywords) :
    Except PyError Execution := do
  if "cls" ∈ keys kwargs then
    throw (.typeError "RedfishManager.invoke() got multiple values for argument 'cls'")
  let disp ← p.resolveCommand cls key
  let (host,kwargs) ← popConnectionValue kwargs "host" "_redfish_host"
  let (username,kwargs) ← popConnectionValue kwargs "username" "_redfish_username"
  let (password,kwargs) ← popConnectionValue kwargs "password" "_redfish_password"
  let (port,kwargs) ← popConnectionValue kwargs "port" "_redfish_port"
  let (insecure,kwargs) ← pop kwargs "insecure"
  let (isHttp,kwargs) ← pop kwargs "is_http"
  let (redfishQuery,kwargs) := popOr kwargs "redfish_query" .null
  let (oneParam,kwargs) := popOr kwargs "redfish_query_one_param_per_uri" (.data (.bool false))
  let (redfishCache,kwargs) := popOr kwargs "redfish_cache" .null
  let runtime ← p.runtimeCommandClass cls disp
  .ok ⟨runtime,host,username,password,port,insecure,isHttp,redfishQuery,oneParam,redfishCache,kwargs⟩

def connectionKeywords (c : Connection) : Except PyError Keywords := do
  let a ← c.forwarded
  .ok [("_redfish_host",.ofText (a.host.getD none)),("_redfish_username",.ofText (a.username.getD none)),
    ("_redfish_password",.ofText (a.password.getD none)),("_redfish_port",.ofPort (a.port.getD .none)),
    ("insecure",.ofFlag (a.insecure.getD none)),("is_http",.ofFlag (a.isHttp.getD none))]

def withCache (active : Option Value) (kwargs : Keywords) : Keywords :=
  match active with
  | some cache => if "redfish_cache" ∈ keys kwargs then kwargs else insert "redfish_cache" cache kwargs
  | none => kwargs

def syncInvoke (c : Connection) (active : Option Value) (p : Package κ) (cls : Runtime) (key : Key κ)
    (kwargs : Keywords) : Except PyError Execution := do
  let (_,kwargs) := popOr kwargs "_trace_operation_span" (.data (.bool true))
  let own ← connectionKeywords c
  invoke p cls key (withCache active (update kwargs own))

end

section
variable {kwargs : Keywords} {keep : String × Value → Bool} {key : String}

theorem lookupFilter (kept : ∀ value, keep (key,value) = true) :
    (kwargs.filter keep).lookup key = kwargs.lookup key := by
  induction kwargs with
  | nil => rfl
  | cons p rest ih =>
    obtain ⟨k,v⟩ := p
    by_cases same : key = k
    · subst same
      rw [List.filter_cons_of_pos (kept v),lookupCons,lookupCons,if_pos rfl,if_pos rfl]
    · rw [lookupCons,← ih,List.filter_cons]
      split
      · rw [lookupCons,if_neg same]
      · rfl

variable {value : Value}

theorem filterInsert (dropped : ∀ v, keep (key,v) = false) :
    (insert key value kwargs).filter keep = kwargs.filter keep := by
  induction kwargs with
  | nil => simp [AssocList.insert,dropped]
  | cons p rest ih =>
    simp only [AssocList.insert]
    split
    · rename_i same
      subst same
      rw [List.filter_cons_of_neg (by simp [dropped]),List.filter_cons_of_neg (by simp [dropped])]
    · rw [List.filter_cons,List.filter_cons,ih]

theorem filterUpdate {own} (dropped : ∀ key ∈ keys own, ∀ v, keep (key,v) = false) :
    (update kwargs own).filter keep = kwargs.filter keep := by
  induction own generalizing kwargs with
  | nil => rfl
  | cons p rest ih =>
    have later : ∀ key ∈ keys rest, ∀ v, keep (key,v) = false :=
      fun key mem => dropped key (List.mem_cons_of_mem _ mem)
    change (update (insert p.1 p.2 kwargs) rest).filter keep = _
    rw [ih later,filterInsert (dropped p.1 List.mem_cons_self)]

variable {active : Option Value}

theorem filterCache (dropped : ∀ v, keep ("redfish_cache",v) = false) :
    (withCache active kwargs).filter keep = kwargs.filter keep := by
  unfold withCache
  split
  · split
    · rfl
    · exact filterInsert dropped
  · rfl

theorem distinctFilter (distinct : Distinct kwargs) : Distinct (kwargs.filter keep) :=
  distinct.sublist (List.filter_sublist.map _)

theorem distinctUpdate {own} (distinct : Distinct kwargs) : Distinct (update kwargs own) := by
  induction own generalizing kwargs with
  | nil => exact distinct
  | cons p rest ih => exact ih (distinctInsert distinct p.1 p.2)

theorem distinctCache (distinct : Distinct kwargs) : Distinct (withCache active kwargs) := by
  unfold withCache
  split
  · split
    · exact distinct
    · exact distinctInsert distinct _ _
  · exact distinct

theorem lookupCache (other : key ≠ "redfish_cache") :
    (withCache active kwargs).lookup key = kwargs.lookup key := by
  unfold withCache
  split
  · split
    · rfl
    · rw [lookupInsert,if_neg other]
  · rfl

theorem popOk (found : kwargs.lookup key = some value) (kept : ∀ v, keep (key,v) = true) :
    pop (kwargs.filter keep) key = .ok (value,kwargs.filter fun p => p.1 ≠ key && keep p) := by
  rw [pop,lookupFilter kept,found,erase,List.filter_filter]

theorem filterRepeated {primary} (distinct : Distinct kwargs) :
    (if repeats ((kwargs.lookup primary).getD .null) value then erase primary kwargs else kwargs) =
      kwargs.filter fun p => !(p.1 = primary && repeats p.2 value) := by
  have argument : ∀ p ∈ kwargs, p.1 = primary → (kwargs.lookup primary).getD .null = p.2 := by
    rintro ⟨k,v⟩ mem rfl
    rw [lookupOfMem distinct mem,Option.getD_some]
  split
  · rename_i same
    refine List.filter_congr fun p mem => ?_
    by_cases first : p.1 = primary
    · rw [argument p mem first] at same
      simp [same]
    · simp [first]
  · rename_i different
    symm
    refine List.filter_eq_self.mpr fun p mem => ?_
    by_cases first : p.1 = primary
    · rw [argument p mem first] at different
      simp [different]
    · simp [first]

theorem popConnectionOk {primary internal} (distinct : Distinct kwargs)
    (found : kwargs.lookup internal = some value) (kept : ∀ v, keep (internal,v) = true) :
    popConnectionValue (kwargs.filter keep) primary internal = .ok (value,kwargs.filter fun p =>
      !(p.1 = primary && repeats p.2 value) && (p.1 ≠ internal && keep p)) := by
  have here : (kwargs.filter keep).lookup internal = some value := by rw [lookupFilter kept,found]
  have rest : Distinct (erase internal (kwargs.filter keep)) := distinctFilter (distinctFilter distinct)
  rw [← List.filter_filter,← List.filter_filter,← erase,← filterRepeated rest,popConnectionValue,here]
  dsimp only
  split
  · rfl
  · rfl

end

def reserved : List String :=
  ["_trace_operation_span","_redfish_host","_redfish_username","_redfish_password","_redfish_port",
    "insecure","is_http","redfish_query","redfish_query_one_param_per_uri","redfish_cache"]

def ownPort (c : Connection) : Value :=
  match c.port with
  | none => .null
  | some n => .data (.int n)

def own (c : Connection) (host : String) : Keywords :=
  [("host",.ofText (some host)),("username",.ofText c.username),("password",.ofText c.password),
    ("port",ownPort c)]

def reaches (c : Connection) (host : String) (p : String × Value) : Bool :=
  !reserved.contains p.1 && !((own c host).lookup p.1).any (repeats p.2)

structure Ready (c : Connection) (host : String) : Prop where
  username : ∃ text, c.username = some text ∧ text ≠ ""
  password : ∃ text, c.password = some text ∧ text ≠ ""
  address : c.redfishIp = .ok host
  nonempty : host ≠ ""

theorem ownRepeats (c : Connection) (host name : String) (v : Value) :
    ((own c host).lookup name).any (repeats v) = false ↔
      (name = "host" → repeats v (.ofText (some host)) = false) ∧
      (name = "username" → repeats v (.ofText c.username) = false) ∧
      (name = "password" → repeats v (.ofText c.password) = false) ∧
      (name = "port" → repeats v (ownPort c) = false) := by
  simp only [own,lookupCons,List.lookup_nil]
  split
  · simp_all
  split
  · simp_all
  split
  · simp_all
  split
  · simp_all
  · simp_all

section
variable {κ : Type} [DecidableEq κ] {p : Package κ} {cls runtime : Runtime} {key : Key κ}

theorem connectionKeywordsReady {c host} (ready : Ready c host) :
    connectionKeywords c = .ok [("_redfish_host",.ofText (some host)),
      ("_redfish_username",.ofText c.username),("_redfish_password",.ofText c.password),
      ("_redfish_port",ownPort c),
      ("insecure",.ofFlag (some (!c.isVerifyCert))),("is_http",.ofFlag c.isHttp)] := by
  obtain ⟨username,user,named⟩ := ready.username
  obtain ⟨password,secret,given⟩ := ready.password
  have first : ¬ username.length = 0 := by simpa using named
  have second : ¬ password.length = 0 := by simpa using given
  have third : ¬ host.length = 0 := by simpa using ready.nonempty
  simp [connectionKeywords,Connection.forwarded,Connection.len,user,secret,ready.address,first,second,
    third,bind,Except.bind]
  unfold ownPort
  cases c.port with
  | none => rfl
  | some n => rfl

theorem invokeOk {kwargs host username password port insecure isHttp} (distinct : Distinct kwargs)
    (free : "cls" ∉ keys kwargs) (registered : p.invoke cls key = .ok runtime)
    (atHost : kwargs.lookup "_redfish_host" = some host)
    (atUsername : kwargs.lookup "_redfish_username" = some username)
    (atPassword : kwargs.lookup "_redfish_password" = some password)
    (atPort : kwargs.lookup "_redfish_port" = some port)
    (atInsecure : kwargs.lookup "insecure" = some insecure)
    (atHttp : kwargs.lookup "is_http" = some isHttp) :
    ∃ e, invoke p cls key kwargs = .ok e ∧ e.runtime = runtime ∧
      e.arguments = kwargs.filter fun q => !reserved.tail.contains q.1 &&
        !(q.1 = "host" && repeats q.2 host) && !(q.1 = "username" && repeats q.2 username) &&
        !(q.1 = "password" && repeats q.2 password) && !(q.1 = "port" && repeats q.2 port) := by
  obtain ⟨disp,found,composed⟩ := Stateful.okOfBind registered
  have whole : kwargs = kwargs.filter fun _ => true := (List.filter_eq_self.mpr fun _ _ => rfl).symm
  -- Each keyword is still there when it is popped: what was taken out before has another name.
  rw [invoke,if_neg free,whole]
  simp only [found,bind,Except.bind]
  rw [popConnectionOk distinct atHost (by simp)]
  dsimp only
  rw [popConnectionOk distinct atUsername (by simp)]
  dsimp only
  rw [popConnectionOk distinct atPassword (by simp)]
  dsimp only
  rw [popConnectionOk distinct atPort (by simp)]
  dsimp only
  rw [popOk atInsecure (by simp)]
  dsimp only
  rw [popOk atHttp (by simp)]
  simp only [popOr,composed]
  refine ⟨_,rfl,rfl,?_⟩
  simp only [erase,List.filter_filter]
  refine List.filter_congr fun q _ => ?_
  rw [Bool.eq_iff_iff]
  simp [reserved]
  exact iff_of_eq (by ac_rfl)

theorem lookupOwn (kwargs : Keywords) (a b c d e f : Value) :
    let merged := update kwargs [("_redfish_host",a),("_redfish_username",b),("_redfish_password",c),
      ("_redfish_port",d),("insecure",e),("is_http",f)]
    merged.lookup "_redfish_host" = some a ∧ merged.lookup "_redfish_username" = some b ∧
      merged.lookup "_redfish_password" = some c ∧ merged.lookup "_redfish_port" = some d ∧
      merged.lookup "insecure" = some e ∧ merged.lookup "is_http" = some f := by
  simp [update]

theorem keysOther {kwargs own active key} (fresh : key ∉ keys kwargs) (foreign : key ∉ keys own)
    (other : key ≠ "redfish_cache") : key ∉ keys (withCache active (update kwargs own)) := by
  rw [← lookupNone,lookupCache other]
  induction own generalizing kwargs with
  | nil => exact lookupNone.mpr fresh
  | cons q rest ih =>
    refine ih ?_ fun later => foreign (List.mem_cons_of_mem _ later)
    rw [memKeysInsert]
    rintro (same | old)
    · exact foreign (same ▸ List.mem_cons_self)
    · exact fresh old

/- `execute` receives the arguments in order, less the keywords of the dispatch and connection
arguments that repeat the manager's values. -/
theorem executeArguments {c : Connection} {host : String} (ready : Ready c host)
    (active : Option Value) (registered : p.invoke cls key = .ok runtime) {kwargs : Keywords}
    (distinct : Distinct kwargs) (free : "cls" ∉ keys kwargs) :
    ∃ e, syncInvoke c active p cls key kwargs = .ok e ∧ e.runtime = runtime ∧
      e.arguments = kwargs.filter (reaches c host) := by
  have start : Distinct (erase "_trace_operation_span" kwargs) := distinctFilter distinct
  have absent : "cls" ∉ keys (erase "_trace_operation_span" kwargs) :=
    fun mem => free ((List.filter_sublist.map _).subset mem)
  obtain ⟨one,two,three,four,five,six⟩ := lookupOwn (erase "_trace_operation_span" kwargs)
    (.ofText (some host)) (.ofText c.username) (.ofText c.password) (ownPort c)
    (.ofFlag (some (!c.isVerifyCert))) (.ofFlag c.isHttp)
  obtain ⟨e,done,klass,arguments⟩ := invokeOk (distinctCache (distinctUpdate start))
    (keysOther absent (by simp [keys]) (by decide)) registered ((lookupCache (by decide)).trans one)
    ((lookupCache (by decide)).trans two) ((lookupCache (by decide)).trans three)
    ((lookupCache (by decide)).trans four) ((lookupCache (by decide)).trans five)
    ((lookupCache (by decide)).trans six)
  refine ⟨e,?_,klass,?_⟩
  · rw [syncInvoke,connectionKeywordsReady ready]
    exact done
  rw [arguments,filterCache (by simp [reserved]),filterUpdate (by simp [keys,reserved]),erase,
    List.filter_filter]
  refine List.filter_congr fun q _ => ?_
  rw [Bool.eq_iff_iff]
  simp only [reaches,Bool.and_eq_true,Bool.not_eq_true',ownRepeats]
  simp [reserved]
  exact iff_of_eq (by ac_rfl)

end

namespace Sample
open Dispatch (Statement root initial)

def share : Key String := ⟨"DellLcNetworkShareTest","dell-lc-network-share-test"⟩

def next (p : Package String) (s : Statement String) : Package String :=
  (p.declare s).toOption.getD p

def package : Package String :=
  next (next initial ⟨"IDracManager",[root],none,true⟩)
    ⟨"DellLcNetworkShareTest",["IDracManager"],some share,false⟩

def manager : Connection := ⟨some "10.9.9.43",some "root",some "calvin",some 443,false,none,some false⟩

def shareHost (host : String) : Keywords :=
  [("host",.data (.str host)),("username",.data (.str "backup")),("port",.data (.int 8080))]

theorem ready : Ready manager "10.9.9.43" := ⟨⟨"root",rfl,by decide⟩,⟨"calvin",rfl,by decide⟩,rfl,by decide⟩

end Sample

theorem executeArgumentsShare : ∃ e, syncInvoke Sample.manager none Sample.package
    (.plain "IDracManager") Sample.share (Sample.shareHost "nfs.example.test") = .ok e ∧
    e.runtime = .plain "DellLcNetworkShareTest" ∧ e.arguments = Sample.shareHost "nfs.example.test" := by
  have registered : Sample.package.invoke (.plain "IDracManager") Sample.share =
      .ok (.plain "DellLcNetworkShareTest") := by decide +kernel
  have distinct : Distinct (Sample.shareHost "nfs.example.test") := by decide
  obtain ⟨e,done,klass,arguments⟩ :=
    executeArguments Sample.ready none registered distinct (by decide)
  exact ⟨e,done,klass,arguments.trans (by decide +kernel)⟩

theorem repeatedHostLost :
    (syncInvoke Sample.manager none Sample.package (.plain "IDracManager") Sample.share
      (Sample.shareHost "10.9.9.43")).map Execution.arguments =
      .ok [("username",.data (.str "backup")),("port",.data (.int 8080))] := by
  decide +kernel

end RedfishCtl.CommandArguments
