import Mathlib.Data.List.Sort
import RedfishCtl.ActionPolicy
import RedfishCtl.Discovery
import RedfishCtl.JsonOverlay
import RedfishCtl.Traced

/-! Resolving and posting a Redfish action. The target is read from the resource's own document
under the full type, or under the short name after its last dot, where the last action wins. -/
namespace RedfishCtl.Actions
open ActionPolicy (classify Destructiveness)
open AssocList (insert)
open Discovery (contains)

abbrev Members := List (String × Json)

def typeName : Json → String
  | .null => "NoneType"
  | .bool _ => "bool"
  | .int _ => "int"
  | .float _ => "float"
  | .str _ => "str"
  | .arr _ => "list"
  | .obj _ => "dict"

def split (separator : Char) (text : String) : List String :=
  (text.toList.splitOn separator).map String.ofList

def notIterable (j : Json) : PyError := .typeError ("'" ++ typeName j ++ "' object is not iterable")
def noAttribute (j : Json) (name : String) : PyError :=
  .other "AttributeError" ("'" ++ typeName j ++ "' object has no attribute '" ++ name ++ "'")
def textIndex : PyError := .typeError "string indices must be integers, not 'str'"
def listIndex (j : Json) : PyError :=
  .typeError ("list indices must be integers or slices, not " ++ typeName j)

def isIn (key : String) : Json → Except PyError Bool
  | .obj m => .ok (m.lookup key).isSome
  | .arr items => .ok (items.contains (.str key))
  | .str s => .ok (contains key.toList s.toList)
  | j => .error (.typeError ("argument of type '" ++ typeName j ++ "' is not iterable"))

def shortName (key : String) : Option String :=
  match split '.' key with
  | _::next::rest => (next::rest).getLast?
  | _ => none

abbrev ActionMap := List (String × String × Json)

def keep (actions : ActionMap) (entry : String × Json) : ActionMap :=
  match shortName entry.1 with
  | none => actions
  | some short => insert short entry actions

def keepEntry (actions : ActionMap) (entry : String × Json) : ActionMap :=
  if entry.1 = "Oem" ∧ entry.2.isObj then entry.2.members.foldl keep actions else keep actions entry

/- The first element of a list is taken for a key: an index gives a value, but has no split. -/
def listKey (items : List Json) : Json → PyError
  | .int n =>
      if -items.length ≤ n ∧ n < items.length then noAttribute (.int n) "split"
      else .indexError "list index out of range"
  | .bool b =>
      if (if b then 1 else 0) < items.length then noAttribute (.bool b) "split"
      else .indexError "list index out of range"
  | j => listIndex j

def getActions (jsonData : Json) : Except PyError ActionMap := do
  if !(← isIn "Actions" jsonData) then .ok []
  else match jsonData with
    | .obj m => match (m.lookup "Actions").getD .null with
        | .obj entries => .ok (entries.foldl keepEntry [])
        | .arr [] => .ok []
        | .arr (first::rest) => .error (listKey (first::rest) first)
        | .str s => if s = "" then .ok [] else .error textIndex
        | j => .error (notIterable j)
    | .str _ => .error textIndex
    | _ => .error (listIndex (.str "Actions"))

structure RedfishAction where
  actionName : String
  fullRedfishName : String
  target : Json
  args : Option Members
  deriving DecidableEq

def RedfishAction.addActionArg (action : RedfishAction) (name : String) (allowable : Json) :
    RedfishAction :=
  { action with args := some (insert name allowable (action.args.getD [])) }

def addAnnotated (action : RedfishAction) (entry : String × Json) : RedfishAction :=
  if contains "@Redfish.AllowableValues".toList entry.1.toList then
    action.addActionArg ((split '@' entry.1).headD "") entry.2
  else action

def discoverAction (short full : String) (value : Json) : Except PyError (Option RedfishAction) := do
  if !(← isIn "target" value) then .ok none
  else match value with
    | .obj m => .ok (some (m.foldl addAnnotated ⟨short,full,(m.lookup "target").getD .null,none⟩))
    | _ => .ok none

def discoverEach : ActionMap → Except PyError (List (String × RedfishAction))
  | [] => .ok []
  | (short,full,value)::rest => do
      let here ← discoverAction short full value
      let others ← discoverEach rest
      match here with
      | some action => .ok ((short,action)::others)
      | none => .ok others

def discoverRedfishActions (jsonData : Json) : Except PyError (List (String × RedfishAction)) := do
  discoverEach (← getActions jsonData)

def targetOf : Json → Option Json
  | .obj m => (m.lookup "target").filter Json.truthy
  | _ => none

def addTarget (out : Members) (entry : String × Json) : Members :=
  match targetOf entry.2 with
  | some target => insert entry.1 target out
  | none => out

def addTargets (out : Members) (entry : String × Json) : Members :=
  if entry.1 = "Oem" ∧ entry.2.isObj then entry.2.members.foldl addTarget out
  else addTarget out entry

def vendorActions (extension : Json) : Members := (extension.getD "Actions").members

def getOrEmpty (m : Members) (key : String) : Json :=
  match m.lookup key with
  | some j => if j.truthy then j else .obj []
  | none => .obj []

def flattenActionTargets (resource : Json) : Except PyError Members :=
  match resource with
  | .obj m => match getOrEmpty m "Actions" with
      | .obj actions =>
          let out := actions.foldl addTargets []
          .ok ((getOrEmpty m "Oem").members.foldl
            (fun out vendor => (vendorActions vendor.2).foldl addTarget out) out)
      | _ => .ok []
  | j => if j.truthy then .error (noAttribute j "get") else .ok []

/- The parameters in the local schema bundle, and sorted() on JSON values. -/
structure Environment where
  actionParametersFor : String → List (String × List String)
  sorted : List Json → Except PyError (List Json)

def tupleOf : Json → Except PyError (List Json)
  | .arr items => .ok items
  | .obj m => .ok (m.map fun p => .str p.1)
  | .str s => .ok (s.toList.map fun c => .str (String.singleton c))
  | j => if j.truthy then .error (notIterable j) else .ok []

def allowances : Members → Except PyError (List (String × List Json))
  | [] => .ok []
  | (name,values)::rest => do
      let allowed ← tupleOf values
      let others ← allowances rest
      .ok ((name,allowed)::others)

/- What a payload is checked against; with the schema's parameters other names are refused. -/
structure Parameters where
  strictNames : Bool
  allowed : List (String × List Json)
  deriving DecidableEq

def parametersFor (env : Environment) (fullActionType : String) (inlineArgs : Members) :
    Except PyError Parameters :=
  match inlineArgs with
  | [] => .ok ⟨true,(env.actionParametersFor fullActionType).map fun p => (p.1,p.2.map .str)⟩
  | inlineArgs => (allowances inlineArgs).map fun allowed => ⟨false,allowed⟩

structure Invalid where
  parameter : String
  value : Json
  allowed : List Json
  deriving DecidableEq

def Invalid.document (e : Invalid) : Json :=
  .obj [("parameter",.str e.parameter),("value",e.value),("allowed",.arr e.allowed)]

def valuesOf : Json → List Json
  | .arr items => items
  | j => [j]

def checkParameter (env : Environment) (parameters : Parameters) (name : String) (value : Json) :
    Except PyError (Option Invalid) :=
  match parameters.allowed.lookup name with
  | none => .ok (if parameters.strictNames then some ⟨name,value,[]⟩ else none)
  | some allowed =>
      if allowed.isEmpty then .ok none
      else match (valuesOf value).filter fun item => !allowed.any fun a => Json.pyEq item a with
        | [] => .ok none
        | [one] => (env.sorted allowed).map fun sorted => some ⟨name,one,sorted⟩
        | invalid => (env.sorted allowed).map fun sorted => some ⟨name,.arr invalid,sorted⟩

def checkPayload (env : Environment) (parameters : Parameters) : Members →
    Except PyError (List Invalid)
  | [] => .ok []
  | (name,value)::rest => do
      let here ← checkParameter env parameters name value
      let others ← checkPayload env parameters rest
      .ok (here.toList ++ others)

def inlineArgs (action : Option RedfishAction) : Members := (action.bind RedfishAction.args).getD []

def validateActionPayload (env : Environment) (fullActionType : String)
    (action : Option RedfishAction) (payload : Members) : Except PyError (List Invalid) := do
  let parameters ← parametersFor env fullActionType (inlineArgs action)
  if parameters.allowed.isEmpty then .ok [] else checkPayload env parameters payload

structure CommandResult where
  data : Json
  discovered : Option (List (String × RedfishAction))
  error : Json
  deriving DecidableEq

structure Call where
  resourceUri : String
  actionName : String
  payload : Option Members
  fullActionType : Option String
  doAsync : Bool
  expectedStatus : Int
  dryRun : Bool
  confirm : Bool
  confirmIrreversible : Bool

structure Post where
  target : Json
  payload : Members
  doAsync : Bool
  expectedStatus : Int
  deriving DecidableEq

def byFullType (resource : Json) (call : Call) : Except PyError (Option (String × Json)) :=
  match call.fullActionType with
  | none => .ok none
  | some full =>
      if full = "" then .ok none
      else (flattenActionTargets resource).map fun targets =>
        (targets.lookup full).map fun target => (full,target)

def byShortName (actions : List (String × RedfishAction)) (call : Call) : Option (String × Json) :=
  match actions.lookup call.actionName with
  | none => none
  | some action =>
      if action.target.truthy then
        some (if action.fullRedfishName = "" then "#" ++ call.actionName else action.fullRedfishName,
          action.target)
      else none

def resolve (resource : Json) (actions : List (String × RedfishAction)) (call : Call) :
    Except PyError (Option (String × Json)) := do
  match ← byFullType resource call with
  | some found => .ok (some found)
  | none => .ok (byShortName actions call)

def wanted (call : Call) : String :=
  match call.fullActionType with
  | some full => if full = "" then call.actionName else full
  | none => call.actionName

def notFound (resource : Json) (actions : List (String × RedfishAction)) (call : Call) :
    Except PyError CommandResult := do
  let targets ← flattenActionTargets resource
  let available := ((actions.map Prod.fst ++ targets.map Prod.fst).dedup).insertionSort (· ≤ ·)
  .ok ⟨.obj [("action",.str (wanted call)),("available",.arr (available.map .str))],some actions,
    .str ("action '" ++ wanted call ++ "' not found on " ++ call.resourceUri)⟩

def join : List Json → Except PyError (List String)
  | [] => .ok []
  | .str s::rest => (join rest).map (s :: ·)
  | j::_ => .error (.typeError ("expected str instance, " ++ typeName j ++ " found"))

def label (full : String) : String := String.ofList (full.toList.dropWhile (· = '#'))

def invalidText (full : String) (first : Invalid) : Except PyError String :=
  if first.allowed.isEmpty then
    .ok ("unknown parameter for " ++ label full ++ ": " ++ first.parameter)
  else (join first.allowed).map fun allowed =>
    "invalid value for " ++ label full ++ " " ++ first.parameter ++ ": " ++ PyText.str first.value ++
      "; allowed: " ++ String.intercalate ", " allowed

def blockedReason (level : Destructiveness) (call : Call) : Option String :=
  match level with
  | .irreversible =>
      if call.confirm && call.confirmIrreversible then none
      else some "irreversible action requires --confirm and --i-understand-irreversible"
  | .destructive => if call.confirm then none else some "destructive action requires --confirm"
  | _ => none

abbrev Service := Post → Except PyError (CommandResult × String)

def setDefault (m : Members) (key : String) (value : Json) : Members :=
  if (m.lookup key).isSome then m else insert key value m

def executed (full : String) (target : Json) (actions : List (String × RedfishAction))
    (answer : CommandResult × String) : CommandResult :=
  let data := match answer.1.data with
    | .obj m => m
    | j => [("result",j)]
  let data := setDefault data "action" (.str full)
  let data := setDefault data "target" target
  let data := setDefault data "level" (.str (classify full).value)
  if answer.2 = "Error" ∨ answer.1.error ≠ .null then
    ⟨.obj (insert "executed" (.bool false) data),some actions,
      if answer.1.error = .null then .str ("action " ++ full ++ " failed with " ++ answer.2)
      else answer.1.error⟩
  else ⟨.obj (setDefault data "executed" (.bool true)),some actions,.null⟩

def fire (service : Service) (actions : List (String × RedfishAction)) (full : String)
    (target : Json) (call : Call) : Traced Post PyError CommandResult :=
  let body := call.payload.getD []
  let blocked := blockedReason (classify full) call
  if call.dryRun || blocked.isSome then
    pure ⟨.obj [("dry_run",.bool true),("action",.str full),("target",target),("payload",.obj body),
      ("level",.str (classify full).value),("blocked",(blocked.map Json.str).getD .null)],
      some actions,.null⟩
  else do
    let post : Post := ⟨target,body,call.doAsync,call.expectedStatus⟩
    let answer ← Traced.issue post (service post)
    pure (executed full target actions answer)

def resourceOf (data : Json) : Json := if data.truthy then data else .obj []

def invokeAction (env : Environment) (service : Service) (read : Except PyError Json)
    (call : Call) : Traced Post PyError CommandResult :=
  match read with
  | .error e => pure ⟨.null,none,.str ("failed to read " ++ call.resourceUri ++ ": " ++ e.text)⟩
  | .ok data => do
      let resource := resourceOf data
      let actions ← Traced.ofExcept (discoverRedfishActions resource)
      match ← Traced.ofExcept (resolve resource actions call) with
      | none => Traced.ofExcept (notFound resource actions call)
      | some (full,target) => do
          let body := call.payload.getD []
          let errors ← Traced.ofExcept
            (validateActionPayload env full (actions.lookup call.actionName) body)
          match errors with
          | first::_ => do
              let error ← Traced.ofExcept (invalidText full first)
              pure ⟨.obj [("action",.str full),("target",target),("payload",.obj body),
                ("level",.str (classify full).value),
                ("validation_errors",.arr (errors.map Invalid.document))],some actions,.str error⟩
          | [] => fire service actions full target call

end RedfishCtl.Actions
