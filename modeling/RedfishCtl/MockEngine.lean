import RedfishCtl.MockOverlay

/-! The two write engines: a loaded specification, the overlay store and a volatile state; a reset
clears the overlays and brings that state back to its start. A write of the rule engine is split
where the source takes the lock. -/
namespace RedfishCtl.MockEngine
open MockOverlay
open PyUrl (normalizeRequestPath)
open Binary64 (Datum)
open Stateful (forEach modify read select zoom)
open Binary64 (le lt zero)

structure Library (ρ : Type) where
  upper : String → String
  fnmatchcase : String → String → Bool
  float : Json → Except PyError Datum
  seeded : Int → ρ
  random : ρ → Datum × ρ

abbrev Members := List (String × Json)

abbrev Corpus := String → Except PyError Members

structure Request where
  method : String
  path : String
  body : Json

def noContent : Json := .obj [("status",.int 204)]

def responseOf (h : Heap) (v : PyVal) : Except PyError Json :=
  match field h v "response" with
  | none => .ok (.obj [])
  | some response =>
      if !truthy h response then .ok (.obj [])
      else if isDict response then document h response
      else .ok noContent

def constraint (h : Heap) (v : PyVal) (key : String) (test : Json → Bool) : Except PyError Bool :=
  match field h v key with
  | none => .ok true
  | some expected => (document h expected).map test

def bodyMatches (h : Heap) (v : PyVal) (body : Json) : Except PyError Bool := do
  let same ← constraint h v "body" fun expected => Json.pyEq body expected
  if !same then .ok false
  else constraint h v "body_contains" fun expected => Json.bodyContains body expected

def textOr (h : Heap) (v : PyVal) (key : String) : Except PyError String :=
  match field h v key with
  | none => .ok ""
  | some value => text h value

def nameOf (h : Heap) (v : PyVal) (default : String) : Except PyError String :=
  text h (orElse h (field h v "name") (.str default))

namespace Rules
variable {ρ : Type} (lib : Library ρ)

def isGlob (path : String) : Bool := path.toList.any fun c => c = '*' || c = '?' || c = '['

def requestMatches (h : Heap) (rule : PyVal) (method path : String) (body : Json) :
    Except PyError Bool := do
  let ruleMethod ← textOr h rule "method"
  if lib.upper ruleMethod ≠ lib.upper method then .ok false
  else do
    let rulePath ← normalizeRequestPath (← textOr h rule "path")
    let fits := if isGlob rulePath then lib.fnmatchcase path rulePath else rulePath = path
    if !fits then .ok false else bodyMatches h rule body

def isCandidate (h : Heap) (method path : String) (body : Json) (rule : PyVal) :
    Except PyError Bool :=
  if isDict rule then requestMatches lib h rule method path body else .ok false

def candidates (h : Heap) (rules : List PyVal) (method path : String) (body : Json) :
    Except PyError (List PyVal) :=
  match rules with
  | [] => .ok []
  | rule::rest => do
      let fits ← isCandidate lib h method path body rule
      let others ← candidates h rest method path body
      .ok (if fits then rule::others else others)

def conditions (h : Heap) (rule : PyVal) : Except PyError (List PyVal) :=
  iterate h (orElse h (field h rule "when") (.list []))

def conditionPath (h : Heap) (condition : PyVal) : Except PyError (List String) :=
  match field h condition "path" with
  | some (.str resourcePath) => (normalizeRequestPath resourcePath).map fun p => [p]
  | _ => .ok []

def conditionPaths (h : Heap) : List PyVal → Except PyError (List String)
  | [] => .ok []
  | condition::rest => do
      let here ← conditionPath h condition
      let others ← conditionPaths h rest
      .ok (here ++ others)

def preconditionPaths (h : Heap) : List PyVal → Except PyError (List String)
  | [] => .ok []
  | rule::rest => do
      let here ← conditionPaths h (← conditions h rule)
      let others ← preconditionPaths h rest
      .ok (here ++ others)

def loadCorpus (corpus : Corpus) : List String → Except PyError (List (String × Members))
  | [] => .ok []
  | path::rest => do
      let fixture ← corpus path
      let others ← loadCorpus corpus rest
      .ok ((path,fixture)::others)

structure Prepared where
  matching : List PyVal
  corpus : List (String × Members)
  deriving DecidableEq

def prepare (corpus : Corpus) (rules : List PyVal) (h : Heap)
    (request : Request) : Except PyError Prepared := do
  let path ← normalizeRequestPath request.path
  let matching ← candidates lib h rules request.method path request.body
  let paths ← preconditionPaths h matching
  let cache ← loadCorpus corpus paths.dedup
  .ok ⟨matching,cache⟩

/- The cached lookup normalises the path it is given, which is normalised already. -/
def effectiveState (s : Store) (cache : List (String × Members)) (resourcePath : String) :
    Except PyError Json := do
  let path ← normalizeRequestPath resourcePath
  let base := (cache.lookup (← normalizeRequestPath path)).getD []
  match s.overlays.lookup path with
  | none => .ok (.obj base)
  | some r => do
      let overlay ← document s.heap (.dict r)
      .ok (.obj (Json.deepUpdate base overlay.members))

def walk : Json → List String → Option Json
  | j, [] => some j
  | j, key::rest => (j.get? key).bind fun child => walk child rest

def preconditionHolds (s : Store) (cache : List (String × Members)) (condition : PyVal) :
    Except PyError Bool :=
  match field s.heap condition "path" with
  | some (.str resourcePath) => do
      let state ← effectiveState s cache resourcePath
      let keys ← pathParts (keysOf s.heap condition)
      let found := walk state keys
      match field s.heap condition "exists", field s.heap condition "absent", found with
      | some v, _, _ => .ok (found.isSome == truthy s.heap v)
      | none, some v, _ => .ok (found.isSome == !truthy s.heap v)
      | none, none, none => .ok false
      | none, none, some value =>
          match field s.heap condition "equals", field s.heap condition "not_equals" with
          | some v, _ => (document s.heap v).map fun j => Json.pyEq value j
          | none, some v => (document s.heap v).map fun j => !Json.pyEq value j
          | none, none => .ok true
  | _ => .ok false

def allHold (s : Store) (cache : List (String × Members)) : List PyVal → Except PyError Bool
  | [] => .ok true
  | condition::rest =>
      if isDict condition then do
        if ← preconditionHolds s cache condition then allHold s cache rest else .ok false
      else .ok false

def preconditionsHold (s : Store) (cache : List (String × Members)) (rule : PyVal) :
    Except PyError Bool := do
  allHold s cache (← conditions s.heap rule)

structure Volatile (ρ : Type) where
  applied : List String
  failed : List String
  rng : ρ

abbrev State (ρ : Type) := Store × Volatile ρ

def probability (h : Heap) (failure : PyVal) : Except PyError Datum := do
  let value ← document h (orElse h (field h failure "probability") (.int 0))
  match lib.float value with
  | .ok p => .ok p
  | .error (.typeError _) => .ok zero
  | .error (.valueError _) => .ok zero
  | .error e => .error e

def failureResponse (h : Heap) (failure : PyVal) : Except PyError Json :=
  match field h failure "response" with
  | none => .ok (.obj [("status",.int 500)])
  | some response =>
      if !truthy h response then .ok (.obj [("status",.int 500)])
      else if isDict response then document h response
      else .ok (.obj [("status",.int 500)])

def draw : Stateful (State ρ) PyError Datum := fun s =>
  (.ok (lib.random s.2.rng).1,(s.1,{ s.2 with rng := (lib.random s.2.rng).2 }))

def rollRule (rule : PyVal) : Stateful (State ρ) PyError (Option Json) := do
  let failure ← read fun s => .ok (field s.1.heap rule "failure")
  match failure with
  | some failure =>
      if !isDict failure then pure none
      else do
        let p ← read fun s => probability lib s.1.heap failure
        if le p zero then pure none
        else do
          let x ← draw lib
          if lt x p then do
            let name ← read fun s => nameOf s.1.heap rule "unnamed"
            modify fun s => (s.1,{ s.2 with failed := s.2.failed ++ [name] })
            let response ← read fun s => failureResponse s.1.heap failure
            pure (some response)
          else pure none
  | none => pure none

def rollFailure : List PyVal → Stateful (State ρ) PyError (Option Json)
  | [] => pure none
  | rule::rest => do
      match ← rollRule lib rule with
      | some response => pure (some response)
      | none => rollFailure rest

def onStore (p : Stateful Store PyError α) : Stateful (State ρ) PyError α :=
  zoom Prod.fst (fun store s => (store,s.2)) p

def applyRule (rule : PyVal) : Stateful (State ρ) PyError Unit := do
  let transitions ← read fun s =>
    iterate s.1.heap (orElse s.1.heap (field s.1.heap rule "state_transitions") (.list []))
  onStore (applyTransitions transitions)
  let name ← read fun s => nameOf s.1.heap rule "unnamed"
  modify fun s => (s.1,{ s.2 with applied := s.2.applied ++ [name] })

def locked (prepared : Prepared) : Stateful (State ρ) PyError (Option Json) := do
  let matched ← select
    (fun rule => read fun s => preconditionsHold s.1 prepared.corpus rule)
    prepared.matching
  match matched with
  | [] => pure none
  | first::_ => do
      match ← rollFailure lib matched with
      | some response => pure (some response)
      | none => do
          forEach applyRule matched
          let response ← read fun s => responseOf s.1.heap first
          pure (some response)

def matchWrite (corpus : Corpus) (rules : List PyVal) (request : Request) :
    Stateful (State ρ) PyError (Option Json) := do
  let prepared ← read fun s => prepare lib corpus rules s.1.heap request
  locked lib prepared

def status (rules : List PyVal) (vendor : String) (seed : Int) (s : State ρ) : Except PyError Json :=
  .ok (.obj [("mode",.str "mutation-rules"),("vendor",.str vendor),("total_rules",.int rules.length),
    ("applied",.arr (s.2.applied.map .str)),("failed",.arr (s.2.failed.map .str)),
    ("seed",.int seed)])

end Rules

namespace Replay

abbrev State := Store × List Nat

def nextPending (steps : List PyVal) (matched : List Nat) : Option Nat :=
  (List.range steps.length).find? fun i => !matched.contains i

def notADict : PyError := .other "AttributeError" "object has no attribute 'get'"

def stepMatches (upper : String → String) (h : Heap) (step : PyVal) (method path : String)
    (body : Json) : Except PyError Bool :=
  if !isDict step then .error notADict
  else do
    let stepMethod ← textOr h step "method"
    if upper stepMethod ≠ upper method then .ok false
    else do
      let stepPath ← normalizeRequestPath (← textOr h step "path")
      if stepPath ≠ path then .ok false else bodyMatches h step body

def matchWrite (upper : String → String) (steps : List PyVal) (request : Request) :
    Stateful State PyError (Option Json) := do
  let path ← Stateful.ofExcept (normalizeRequestPath request.path)
  let next ← read fun s => .ok (nextPending steps s.2)
  match next with
  | none => pure none
  | some i =>
      let step := steps.getD i .null
      let fits ← read fun s => stepMatches upper s.1.heap step request.method path request.body
      if !fits then pure none
      else do
        modify fun s => (s.1,s.2 ++ [i])
        let transitions ← read fun s =>
          iterate s.1.heap (orElse s.1.heap (field s.1.heap step "state_transitions") (.list []))
        zoom Prod.fst (fun store s => (store,s.2)) (applyTransitions transitions)
        let response ← read fun s => responseOf s.1.heap step
        pure (some response)

def pendingNames (h : Heap) (matched : List Nat) : Nat → List PyVal → Except PyError (List String)
  | _, [] => .ok []
  | i, step::rest =>
      if matched.contains i then pendingNames h matched (i+1) rest
      else if !isDict step then .error notADict
      else do
        let name ← nameOf h step ("step-" ++ toString i)
        let others ← pendingNames h matched (i+1) rest
        .ok (name::others)

def status (steps : List PyVal) (scenario : String) (s : State) : Except PyError Json := do
  let pending ← pendingNames s.1.heap s.2 0 steps
  .ok (.obj [("scenario",.str scenario),("matched_steps",.int s.2.length),
    ("pending_steps",.arr (pending.map .str)),("total_steps",.int steps.length),
    ("complete",.bool pending.isEmpty)])

end Replay

structure Specification where
  heap : Heap
  entries : List PyVal
  distinct : ∀ m ∈ heap.cells, AssocList.Distinct m
  closed : ∀ m ∈ heap.cells, ∀ r ∈ Entries.refs m, r < heap.size
  known : ∀ v ∈ entries, ∀ r ∈ v.refs, r < heap.size

def Unchanged (h h' : Heap) : Prop := ∀ r < h.size, h'.cells[r]? = h.cells[r]?

/- The name a reset may give, the first volatile state, the writes and the status. -/
structure Engine (ω : Type) where
  name : String
  fresh : ω
  write : Request → Stateful (Store × ω) PyError (Option Json)
  status : Store × ω → Except PyError Json

def Rules.engine {ρ : Type} (lib : Library ρ) (corpus : Corpus) (rules : List PyVal)
    (vendor : String) (seed : Int) : Engine (Rules.Volatile ρ) :=
  ⟨vendor,⟨[],[],lib.seeded seed⟩,Rules.matchWrite lib corpus rules,Rules.status rules vendor seed⟩

def Replay.engine (upper : String → String) (steps : List PyVal) (scenario : String) :
    Engine (List Nat) :=
  ⟨scenario,[],Replay.matchWrite upper steps,Replay.status steps scenario⟩

inductive Built (spec : Specification) : {ω : Type} → Engine ω → Prop where
  | rules {ρ : Type} (lib : Library ρ) (corpus : Corpus) (vendor : String) (seed : Int) :
      Built spec (Rules.engine lib corpus spec.entries vendor seed)
  | replay (upper : String → String) (scenario : String) :
      Built spec (Replay.engine upper spec.entries scenario)

def Engine.start {ω : Type} (e : Engine ω) (h : Heap) : Store × ω := (⟨h,[]⟩,e.fresh)

def Engine.reset {ω : Type} (e : Engine ω) (scenario : Option String) (s : Store × ω) :
    Bool × (Store × ω) :=
  if scenario.isSome ∧ scenario ≠ some e.name then (false,s)
  else (true,(⟨s.1.heap,[]⟩,e.fresh))

inductive Operation where
  | write (request : Request)
  | overlayFor (path : String)
  | status

def Engine.perform {ω : Type} (e : Engine ω) : Operation → Stateful (Store × ω) PyError (Option Json)
  | .write request => e.write request
  | .overlayFor path => read fun s => (overlayFor s.1 path).map some
  | .status => read fun s => (e.status s).map some

def Engine.after {ω : Type} (e : Engine ω) (h : Heap) (ops : List Operation) : Store × ω :=
  Runs.run (fun s op => (e.perform op s).2) (e.start h) ops

def Engine.observe {ω : Type} (e : Engine ω) : Store × ω → List Operation →
    List (Except PyError (Option Json))
  | _, [] => []
  | s, op::rest => (e.perform op s).1 :: e.observe (e.perform op s).2 rest

end RedfishCtl.MockEngine
