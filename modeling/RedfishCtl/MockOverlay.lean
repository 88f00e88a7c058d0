import RedfishCtl.JsonOverlay
import RedfishCtl.PyHeap
import RedfishCtl.PyUrl
import RedfishCtl.Stateful

/-! The overlay store of the mock server's write engines. A set transition stores the
specification's own value by reference, so a later transition below it writes into the
specification. -/
namespace RedfishCtl.MockOverlay
open PyUrl (normalizeRequestPath)

def field (h : Heap) (v : PyVal) (key : String) : Option PyVal :=
  match v with
  | .dict r => (h.cell r).lookup key
  | _ => none

def isDict : PyVal → Bool
  | .dict _ => true
  | _ => false

def truthy (h : Heap) : PyVal → Bool
  | .null => false
  | .bool b => b
  | .int n => n != 0
  | .float (.finite x) => x.significand != 0
  | .float _ => true
  | .str s => s != ""
  | .list items => !items.isEmpty
  | .dict r => !(h.cell r).isEmpty

def orElse (h : Heap) (v : Option PyVal) (default : PyVal) : PyVal :=
  match v with
  | some v => if truthy h v then v else default
  | none => default

def iterate (h : Heap) : PyVal → Except PyError (List PyVal)
  | .list items => .ok items
  | .dict r => .ok ((h.cell r).map fun p => .str p.1)
  | .str s => .ok (s.toList.map fun c => .str (String.singleton c))
  | _ => .error (.typeError "object is not iterable")

def document (h : Heap) (v : PyVal) : Except PyError Json :=
  match h.view v with
  | some j => .ok j
  | none => .error .recursionError

def text (h : Heap) (v : PyVal) : Except PyError String := (document h v).map PyText.str

def strings : List PyVal → Option (List String)
  | [] => some []
  | .str s::rest => (strings rest).map (s :: ·)
  | _::_ => none

def pathParts (keys : Option PyVal) : Except PyError (List String) :=
  match keys with
  | some (.str s) => .ok [s]
  | some (.list items) => match strings items with
      | some parts => .ok parts
      | none => .error (.valueError "state transition needs field or json_path")
  | _ => .error (.valueError "state transition needs field or json_path")

def keysOf (h : Heap) (v : PyVal) : Option PyVal :=
  match field h v "json_path" with
  | some keys => some keys
  | none => field h v "field"

def emptyPath : PyError := .indexError "list index out of range"

def setValue (h : Heap) (cursor : Nat) : List String → PyVal → Except PyError Heap
  | [], _ => .error emptyPath
  | [key], value => .ok (h.put cursor key value)
  | key::next::rest, value =>
      match (h.cell cursor).lookup key with
      | some (.dict child) => setValue h child (next::rest) value
      | _ =>
          let (child,h') := h.alloc
          setValue (h'.put cursor key (.dict child)) child (next::rest) value

def deleteValue (h : Heap) (cursor : Nat) : List String → Except PyError Heap
  | [] => .error emptyPath
  | [key] => .ok (h.pop cursor key)
  | key::next::rest =>
      match (h.cell cursor).lookup key with
      | some (.dict child) => deleteValue h child (next::rest)
      | _ => .ok h

structure Store where
  heap : Heap
  overlays : List (String × Nat)

def overlayAt (s : Store) (path : String) : Nat × Store :=
  match s.overlays.lookup path with
  | some r => (r,s)
  | none => (s.heap.size,⟨s.heap.alloc.2,s.overlays ++ [(path,s.heap.size)]⟩)

def change (h : Heap) (transition : PyVal) (overlay : Nat) : Except PyError Heap :=
  match field h transition "op" with
  | some (.str "set") => do
      let parts ← pathParts (keysOf h transition)
      setValue h overlay parts ((field h transition "value").getD .null)
  | some (.str "delete") => do
      let parts ← pathParts (keysOf h transition)
      deleteValue h overlay parts
  | _ => .ok h

def applyTransition (transition : PyVal) : Stateful Store PyError Unit := fun s =>
  match field s.heap transition "path" with
  | some (.str resourcePath) =>
      match normalizeRequestPath resourcePath with
      | .error e => (.error e,s)
      | .ok path =>
          let (overlay,t) := overlayAt s path
          match change t.heap transition overlay with
          | .error e => (.error e,t)
          | .ok h => (.ok (),⟨h,t.overlays⟩)
  | _ => (.ok (),s)

def applyTransitions (transitions : List PyVal) : Stateful Store PyError Unit :=
  Stateful.forEach applyTransition transitions

def overlayFor (s : Store) (requestPath : String) : Except PyError Json := do
  let path ← normalizeRequestPath requestPath
  match s.overlays.lookup path with
  | some r => document s.heap (.dict r)
  | none => .ok (.obj [])

end RedfishCtl.MockOverlay
