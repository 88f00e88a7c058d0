import RedfishCtl.JsonAccess
import RedfishCtl.Buckets
import RedfishCtl.PyUrl
import Mathlib.Data.String.Basic

/-! The fleet consumer: RedfishEndpoint resources flattened to rows, the counters of the fleet,
and the firmware components on which its nodes disagree. -/
namespace RedfishCtl.FleetStatus
open JsonAccess
open Binary64 (Datum)
open Buckets (bucket)
open AssocList (keys Distinct)
open PyText (int str)

inductive Backend where
  | mock
  | live
  deriving DecidableEq, Repr

def Backend.text : Backend → String
  | mock => "mock"
  | live => "live"

inductive State where
  | pending
  | ready
  deriving DecidableEq, Repr

def State.text : State → String
  | pending => "Pending"
  | ready => "Ready"

structure Component where
  id : Json
  deviceClass : Json
  version : Json
  updateable : Json
  deriving DecidableEq

structure Node (φ : Type) where
  name : String
  namespaceName : String
  address : String
  port : Json
  insecure : Bool
  backend : Backend
  state : State
  powerState : Json
  health : Json
  temperatureCount : Option Int
  temperatureMaxCelsius : Option φ
  nicAdapterCount : Option Int
  nicCount : Option Int
  dpuCount : Option Int
  nicFirmwareCount : Option Int
  nicFirmwareUpdateableCount : Option Int
  nicFirmwareVersions : List String
  nicFirmware : List Component
  lastPolled : Json

/-! Rows from resources; `float` reads a text as a number. -/

section
variable (float : String → Option Datum)

def asNumber : Json → Except PyError (Option Datum)
  | .null => .ok none
  | .bool _ => .ok none
  | .int n => match Binary64.ofInt n with
      | some x => .ok (some x)
      | none => .error (.overflowError "int too large to convert to float")
  | .float x => .ok (some x)
  | value => .ok (float (str value))

def asInt (value : Json) : Except PyError (Option Int) := do
  match ← asNumber float value with
  | some number => (int (.float number)).map some
  | none => .ok none

def textOr (value : Json) (default : String) : String := if value.truthy then str value else default

def inferBackend (address : String) : Except PyError Backend := do
  let url ← PyUrl.urlsplit address
  let host := if url.netloc = [] then address.toList else url.netloc
  .ok (if ".svc.cluster.local".toList.isSuffixOf host ∨ host = "mock-bmc".toList ∨
    host = "ilo-sim".toList then .mock else .live)

def itemsOf (value : Json) : Except PyError (List Json) :=
  if value.truthy then iterate value else .ok []

def component : Json → Option Component
  | .obj m =>
      let field := fun key => (m.lookup key).getD .null
      some ⟨field "id",field "deviceClass",field "version",field "updateable"⟩
  | _ => none

def versionText : Json → Option String
  | .null => none
  | value => some (str value)

def normalizeEndpoint (obj : Json) : Except PyError (Node Datum) := do
  let metadata := orEmpty (← get obj "metadata")
  let spec := orEmpty (← get obj "spec")
  let status := orEmpty (← get obj "status")
  let temperature := orEmpty (← get status "temperature")
  let networkFirmware := orEmpty (← get status "networkFirmware")
  let address := textOr (← get spec "address") ""
  let powerState ← get status "powerState"
  let health ← get status "health"
  let lastPolled ← get status "lastPolled"
  let unread := powerState = .null ∧ health = .null ∧ lastPolled.truthy = false
  let state := if status.truthy = false ∨ unread then State.pending else State.ready
  let nicComponents := (← itemsOf (← get networkFirmware "components")).filterMap component
  let nicVersions := (← itemsOf (← get networkFirmware "distinctVersions")).filterMap versionText
  .ok {
    name := textOr (← get metadata "name") ""
    namespaceName := textOr (← get metadata "namespace") ""
    address := address
    port := ← get spec "port"
    insecure := (← getOr spec "insecure" (.bool true)).truthy
    backend := ← inferBackend address
    state := state
    powerState := powerState
    health := health
    temperatureCount := ← asInt float (← get temperature "count")
    temperatureMaxCelsius := ← asNumber float (← get temperature "maxCelsius")
    nicAdapterCount := ← asInt float (← get networkFirmware "adapterCount")
    nicCount := ← asInt float (← get networkFirmware "nicCount")
    dpuCount := ← asInt float (← get networkFirmware "dpuCount")
    nicFirmwareCount := ← asInt float (← get networkFirmware "firmwareCount")
    nicFirmwareUpdateableCount := ← asInt float (← get networkFirmware "updateableCount")
    nicFirmwareVersions := nicVersions
    nicFirmware := nicComponents
    lastPolled := lastPolled
  }

end

/- `power in {"On", "PoweringOn"}`: lists and dicts have no hash. -/
def isPoweredOn : Json → Except PyError Bool
  | .str s => .ok (s = "On" || s = "PoweringOn")
  | .arr _ => .error (.typeError "unhashable type: 'list'")
  | .obj _ => .error (.typeError "unhashable type: 'dict'")
  | _ => .ok false

/-! Firmware drift. -/

section
variable {φ : Type}

def Component.named (c : Component) : Option (String × String) :=
  if c.id = .null ∨ c.version = .null then none else some (str c.id,str c.version)

def addVersion (seen : List (String × List String)) (cid ver : String) : List (String × List String) :=
  let versions := bucket seen cid
  AssocList.insert cid (if versions.contains ver then versions else versions ++ [ver]) seen

def addComponent (seen : List (String × List String)) (c : Component) : List (String × List String) :=
  match c.named with
  | none => seen
  | some (cid,ver) => addVersion seen cid ver

def byComponent (nodes : List (Node φ)) : List (String × List String) :=
  nodes.foldl (fun seen node => node.nicFirmware.foldl addComponent seen) []

def sorted (texts : List String) : List String := texts.insertionSort (· ≤ ·)

def fleetFirmwareDrift (nodes : List (Node φ)) : List (String × List String) :=
  ((byComponent nodes).filter fun p => 1 < p.2.length).map fun p => (p.1,sorted p.2)

def Node.carries (node : Node φ) (cid ver : String) : Prop :=
  ∃ c ∈ node.nicFirmware, c.named = some (cid,ver)

def Disagree (nodes : List (Node φ)) (cid : String) : Prop :=
  ∃ (i j : ℕ) (a b : Node φ) (v w : String), i ≠ j ∧ nodes[i]? = some a ∧ nodes[j]? = some b ∧
    a.carries cid v ∧ b.carries cid w ∧ v ≠ w

structure Collected (seen : List (String × List String)) : Prop where
  distinct : Distinct seen
  versions : ∀ cid, (bucket seen cid).Nodup

theorem addVersionMem (seen : List (String × List String)) (cid ver c v : String) :
    v ∈ bucket (addVersion seen cid ver) c ↔ v ∈ bucket seen c ∨ (cid,ver) = (c,v) := by
  unfold addVersion
  rw [bucket,AssocList.lookupInsert]
  split
  · rename_i same
    subst same
    split
    · rename_i known
      simp only [Prod.mk.injEq,true_and]
      exact ⟨Or.inl,fun either => either.elim id fun same => same ▸ List.contains_iff_mem.mp known⟩
    · simp [eq_comm]
  · rename_i other
    have differs : (cid,ver) ≠ (c,v) := fun same => other (Prod.mk.inj same).1.symm
    simp [bucket,differs]

variable {seen : List (String × List String)}

theorem addVersionCollected (inv : Collected seen)
    (cid ver : String) : Collected (addVersion seen cid ver) where
  distinct := AssocList.distinctInsert inv.distinct _ _
  versions := fun c => by
    unfold addVersion
    rw [bucket,AssocList.lookupInsert]
    split
    · dsimp only [Option.getD_some]
      split
      · exact inv.versions cid
      rename_i fresh
      have new : ver ∉ bucket seen cid := fun mem => fresh (List.contains_iff_mem.mpr mem)
      exact List.nodup_append.mpr ⟨inv.versions cid,List.nodup_singleton ver,
        fun x mem y single => by
          rw [List.mem_singleton.mp single]
          rintro rfl
          exact new mem⟩
    · exact inv.versions c

theorem addComponentMem (seen : List (String × List String)) (comp : Component) (c v : String) :
    v ∈ bucket (addComponent seen comp) c ↔ v ∈ bucket seen c ∨ comp.named = some (c,v) := by
  unfold addComponent
  split
  · rename_i unnamed
    simp [unnamed]
  · rename_i cid ver named
    rw [addVersionMem,named,Option.some.injEq]

theorem addComponentCollected (inv : Collected seen)
    (comp : Component) : Collected (addComponent seen comp) := by
  unfold addComponent
  split
  · exact inv
  · exact addVersionCollected inv _ _

theorem componentsMem (comps : List Component) (seen : List (String × List String)) (c v : String) :
    v ∈ bucket (comps.foldl addComponent seen) c ↔
      v ∈ bucket seen c ∨ ∃ comp ∈ comps, comp.named = some (c,v) := by
  induction comps generalizing seen with
  | nil => simp
  | cons comp rest ih =>
    rw [List.foldl_cons,ih,addComponentMem,or_assoc]
    simp

theorem componentsCollected (comps : List Component)
    (inv : Collected seen) : Collected (comps.foldl addComponent seen) := by
  induction comps generalizing seen with
  | nil => exact inv
  | cons comp rest ih => exact ih (addComponentCollected inv comp)

theorem byComponentMem (nodes : List (Node φ)) (c v : String) :
    v ∈ bucket (byComponent nodes) c ↔ ∃ node ∈ nodes, node.carries c v := by
  have run : ∀ seen, v ∈ bucket (nodes.foldl (fun seen node => node.nicFirmware.foldl addComponent seen)
      seen) c ↔ v ∈ bucket seen c ∨ ∃ node ∈ nodes, node.carries c v := by
    induction nodes with
    | nil => simp
    | cons node rest ih =>
      intro seen
      rw [List.foldl_cons,ih,componentsMem,or_assoc]
      simp [Node.carries]
  rw [byComponent,run]
  simp [bucket]

theorem byComponentCollected (nodes : List (Node φ)) : Collected (byComponent nodes) := by
  have start : Collected [] := ⟨List.nodup_nil,fun _ => List.nodup_nil⟩
  exact List.foldlRecOn nodes _ start fun seen inv node _ => componentsCollected node.nicFirmware inv

theorem nodupTwo {l : List String} (distinct : l.Nodup) :
    1 < l.length ↔ ∃ v w, v ≠ w ∧ v ∈ l ∧ w ∈ l := by
  cases l with
  | nil => simp
  | cons v rest => cases rest with
    | nil =>
      refine ⟨fun long => by simp at long,?_⟩
      rintro ⟨x,y,differ,first,second⟩
      exact absurd ((List.mem_singleton.mp first).trans (List.mem_singleton.mp second).symm) differ
    | cons w rest =>
      refine ⟨fun _ => ⟨v,w,?_,by simp,by simp⟩,fun _ => by simp⟩
      rintro rfl
      exact (List.nodup_cons.mp distinct).1 List.mem_cons_self

variable {nodes : List (Node φ)} {c : String}

theorem driftRow {vs} :
    (c,vs) ∈ fleetFirmwareDrift nodes ↔
      1 < (bucket (byComponent nodes) c).length ∧ vs = sorted (bucket (byComponent nodes) c) := by
  have inv := byComponentCollected nodes
  constructor
  · intro mem
    obtain ⟨⟨cid,versions⟩,inside,same⟩ := List.mem_map.mp mem
    obtain ⟨row,long⟩ := List.mem_filter.mp inside
    obtain ⟨rfl,rfl⟩ := Prod.mk.inj same
    have found : bucket (byComponent nodes) cid = versions := by
      rw [bucket,AssocList.lookupOfMem inv.distinct row]
      rfl
    rw [found]
    exact ⟨by simpa using long,rfl⟩
  · rintro ⟨long,rfl⟩
    cases found : (byComponent nodes).lookup c with
    | none =>
      rw [bucket,found] at long
      cases long
    | some versions =>
      have same : bucket (byComponent nodes) c = versions := by rw [bucket,found]; rfl
      rw [same] at long ⊢
      refine List.mem_map.mpr ⟨(c,versions),List.mem_filter.mpr ⟨AssocList.lookupMem found,?_⟩,rfl⟩
      simpa using long

theorem driftKeys (nodes : List (Node φ)) (c : String) : c ∈ keys (fleetFirmwareDrift nodes) ↔
    ∃ v w, v ≠ w ∧ (∃ node ∈ nodes, node.carries c v) ∧ ∃ node ∈ nodes, node.carries c w := by
  have long := nodupTwo ((byComponentCollected nodes).versions c)
  simp only [byComponentMem] at long
  rw [← long]
  constructor
  · intro mem
    obtain ⟨⟨cid,vs⟩,row,rfl⟩ := List.mem_map.mp mem
    exact (driftRow.mp row).1
  · intro two
    exact List.mem_map.mpr ⟨(c,_),driftRow.mpr ⟨two,rfl⟩,rfl⟩

theorem driftVersions {vs} (row : (c,vs) ∈ fleetFirmwareDrift nodes) :
    vs.Pairwise (· < ·) ∧ ∀ v, v ∈ vs ↔ ∃ node ∈ nodes, node.carries c v := by
  obtain ⟨_,rfl⟩ := driftRow.mp row
  have order := List.pairwise_insertionSort (· ≤ ·) (bucket (byComponent nodes) c)
  have same := List.perm_insertionSort (· ≤ ·) (bucket (byComponent nodes) c)
  have distinct := same.nodup_iff.mpr ((byComponentCollected nodes).versions c)
  constructor
  · exact (order.and distinct).imp fun both => lt_of_le_of_ne both.1 both.2
  · intro v
    rw [← byComponentMem]
    exact same.mem_iff

def Exact (nodes : List (Node φ)) : Prop :=
  (∀ c, c ∈ keys (fleetFirmwareDrift nodes) ↔ Disagree nodes c) ∧
    ∀ c vs, (c,vs) ∈ fleetFirmwareDrift nodes →
      vs.Pairwise (· < ·) ∧ ∀ v, v ∈ vs ↔ ∃ node ∈ nodes, node.carries c v

theorem disagreeTwo (differ : Disagree nodes c) :
    ∃ v w, v ≠ w ∧ (∃ node ∈ nodes, node.carries c v) ∧ ∃ node ∈ nodes, node.carries c w := by
  obtain ⟨i,j,a,b,v,w,_,first,second,left,right,different⟩ := differ
  exact ⟨v,w,different,⟨a,List.mem_of_getElem? first,left⟩,b,List.mem_of_getElem? second,right⟩

theorem disagreeBeside {v w u} {i j : ℕ} {a b} (different : v ≠ w) (apart : j ≠ i)
    (first : nodes[i]? = some a) (second : nodes[j]? = some b) (left : a.carries c v)
    (right : a.carries c w) (other : b.carries c u) : Disagree nodes c := by
  by_cases same : v = u
  · refine ⟨i,j,a,b,w,u,apart.symm,first,second,right,other,?_⟩
    rw [← same]
    exact different.symm
  · exact ⟨i,j,a,b,v,u,apart.symm,first,second,left,other,same⟩

/- The report is exact iff a component that one node runs in two versions is on another node too. -/
theorem driftExact (nodes : List (Node φ)) : Exact nodes ↔
    ∀ (i : ℕ) (a : Node φ) (c v w : String), nodes[i]? = some a → a.carries c v → a.carries c w → v ≠ w →
      ∃ (j : ℕ) (b : Node φ) (u : String), j ≠ i ∧ nodes[j]? = some b ∧ b.carries c u := by
  constructor
  · rintro ⟨reported,_⟩ i a c v w place left right different
    have mem := List.mem_of_getElem? place
    have two := (driftKeys nodes c).mpr ⟨v,w,different,⟨a,mem,left⟩,a,mem,right⟩
    obtain ⟨j,k,b,d,x,y,apart,first,second,one,other,_⟩ := (reported c).mp two
    by_cases here : j = i
    · exact ⟨k,d,y,fun same => apart (here.trans same.symm),second,other⟩
    · exact ⟨j,b,x,here,first,one⟩
  · intro beside
    refine ⟨fun c => ⟨fun mem => ?_,fun differ => (driftKeys nodes c).mpr (disagreeTwo differ)⟩,
      fun c vs row => driftVersions row⟩
    obtain ⟨v,w,different,⟨a,left,one⟩,b,right,other⟩ := (driftKeys nodes c).mp mem
    obtain ⟨i,first⟩ := List.getElem?_of_mem left
    obtain ⟨j,second⟩ := List.getElem?_of_mem right
    by_cases same : i = j
    · subst same
      cases first.symm.trans second
      obtain ⟨k,d,u,apart,place,third⟩ := beside i a c v w first one other different
      exact disagreeBeside different apart first place one other third
    · exact ⟨i,j,a,b,v,w,same,first,second,one,other,different⟩

def repeatedComponent : Json :=
  .obj [("metadata",.obj [("name",.str "bmc-1")]),
    ("status",.obj [("networkFirmware",.obj [("components",.arr [
      .obj [("id",.str "CX8_0"),("version",.str "40.45")],
      .obj [("id",.str "CX8_0"),("version",.str "40.47")]])])])]

theorem loneNodeDrifts : ∃ node, normalizeEndpoint (fun _ => none) repeatedComponent = .ok node ∧
    fleetFirmwareDrift [node] = [("CX8_0",["40.45","40.47"])] ∧ ¬ Disagree [node] "CX8_0" := by
  refine ⟨_,rfl,by decide +kernel,?_⟩
  rintro ⟨i,j,_,_,_,_,apart,first,second,_⟩
  have zero := (List.getElem?_eq_some_iff.mp first).1
  have last := (List.getElem?_eq_some_iff.mp second).1
  rw [List.length_singleton] at zero last
  omega

end

end RedfishCtl.FleetStatus
