import RedfishCtl.Actions

/-! Access to decoded documents as the commands do it, with the errors that the source language
raises on a value of another type, and what commands that take an id or a URI share. -/
namespace RedfishCtl.JsonAccess
open Actions (noAttribute typeName)

def orEmpty (j : Json) : Json := if j.truthy then j else .obj []

def getOr (j : Json) (key : String) (default : Json) : Except PyError Json :=
  match j with
  | .obj m => .ok ((m.lookup key).getD default)
  | j => .error (noAttribute j "get")

def get (j : Json) (key : String) : Except PyError Json := getOr j key .null

def item (j : Json) (key : String) : Except PyError Json :=
  match j with
  | .obj m => match m.lookup key with
      | some value => .ok value
      | none => .error (.other "KeyError" (PyText.reprString key))
  | .arr _ => .error (Actions.listIndex (.str key))
  | .str _ => .error Actions.textIndex
  | j => .error (.typeError ("'" ++ typeName j ++ "' object is not subscriptable"))

def len : Json → Except PyError Nat
  | .str s => .ok s.length
  | .arr items => .ok items.length
  | .obj m => .ok m.length
  | j => .error (.typeError ("object of type '" ++ typeName j ++ "' has no len()"))

def iterate : Json → Except PyError (List Json)
  | .arr items => .ok items
  | .obj m => .ok (m.map fun p => .str p.1)
  | .str s => .ok (s.toList.map fun c => .str (String.singleton c))
  | j => .error (Actions.notIterable j)

def memberUri : Json → Option Json
  | .obj m => (m.lookup "@odata.id").filter Json.truthy
  | _ => none

def memberId : Json → Option String
  | .obj m => match m.lookup "@odata.id" with
      | some (.str uri) => some uri
      | _ => none
  | _ => none

def link (data : Json) (key : String) : Except PyError Json := do
  let value ← get (orEmpty data) key
  .ok (value.getD "@odata.id")

inductive Values where
  | none
  | text (value : String)
  | each (values : List Json)

def isUri (value : String) : Bool := "/redfish/".toList.isPrefixOf value.toList

def invalidArgument (message : String) : PyError := .other "InvalidArgument" message

end RedfishCtl.JsonAccess
