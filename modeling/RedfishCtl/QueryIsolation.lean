import RedfishCtl.RedfishQuery
import RedfishCtl.Runs

/-! `invoke` leaves the query and the one-parameter flag on the command instance, which invocations
on one connection share, and `base_query` reads them back. Invocations interleave at these reads and
assignments. -/
namespace RedfishCtl.QueryIsolation

open RedfishQuery (Get)

variable {κ : Type}

structure Invocation (κ : Type) where
  inst : κ
  query : Option RedfishQuery
  oneParamPerUri : Bool
  deriving DecidableEq, Repr

structure Attributes where
  query : Option RedfishQuery
  oneParamPerUri : Bool
  deriving DecidableEq, Repr

inductive Phase where
  | created
  | assigned
  | running
  | reading (get : Get) (query : Option RedfishQuery)
  | finished
  deriving DecidableEq, Repr

namespace Phase

def hasQuery : Phase → Bool
  | .assigned => true
  | .running => true
  | .reading _ _ => true
  | .created => false
  | .finished => false

def hasFlag : Phase → Bool
  | .running => true
  | .reading _ _ => true
  | .created => false
  | .assigned => false
  | .finished => false

end Phase

inductive Action where
  | setQuery
  | setFlag
  | query (get : Get)
  | send
  | direct (get : Get)
  | finish
  deriving DecidableEq, Repr

structure Event where
  call : Nat
  action : Action
  deriving DecidableEq, Repr

structure Issued where
  call : Nat
  get : Get
  url : Except PyError String
  deriving DecidableEq

structure State (κ : Type) where
  attributes : κ → Attributes
  phase : Nat → Phase
  issued : List Issued

section Steps

variable (origin : κ → String) (calls : Nat → Invocation κ)

def step [DecidableEq κ] (s : State κ) (e : Event) : State κ :=
  let own := calls e.call
  let held := s.attributes own.inst
  let move (phase : Phase) : State κ := { s with phase := Function.update s.phase e.call phase }
  match e.action, s.phase e.call with
  | .setQuery, .created =>
    { move .assigned with
      attributes := Function.update s.attributes own.inst { held with query := own.query } }
  | .setFlag, .assigned =>
    { move .running with
      attributes := Function.update s.attributes own.inst
        { held with oneParamPerUri := own.oneParamPerUri } }
  | .query get, .running => move (.reading get held.query)
  | .send, .reading get query =>
    let url := get.url (origin own.inst) query held.oneParamPerUri
    { move .running with issued := s.issued ++ [⟨e.call,get,url⟩] }
  | .direct get, .running =>
    { s with issued := s.issued ++ [⟨e.call,get,.ok (get.plainUrl (origin own.inst))⟩] }
  | .finish, .running => move .finished
  | _, _ => s

def start (attributes : κ → Attributes) : State κ := ⟨attributes,fun _ => .created,[]⟩

def carried (own : Invocation κ) (get : Get) : Except PyError String :=
  let r := get.plainUrl (origin own.inst)
  match own.query with
  | none => .ok r
  | some q => if q.isEmpty then .ok r else q.apply r own.oneParamPerUri

def Unqueried (own : Invocation κ) : Prop := ∀ q, own.query = some q → q.isEmpty

def Open (own : Invocation κ) (get : Get) : Prop :=
  Unqueried own ∨ !(get.plainUrl (origin own.inst)).toList.contains '?'

/- An assignment agrees with the unfinished invocations of the instance that have made theirs,
nothing hides the query in a GET, and an invocation that makes a GET itself has none. -/
def Undisturbed (s : State κ) (e : Event) : Prop :=
  let own := calls e.call
  match e.action with
  | .setQuery => ∀ j, (calls j).inst = own.inst → (s.phase j).hasQuery →
      (calls j).query = own.query
  | .setFlag => ∀ j, (calls j).inst = own.inst → (s.phase j).hasFlag →
      (calls j).oneParamPerUri = own.oneParamPerUri
  | .query get => Open origin own get
  | .send => True
  | .direct _ => Unqueried own
  | .finish => True

structure Isolated (s : State κ) : Prop where
  query : ∀ j, (s.phase j).hasQuery →
    (s.attributes (calls j).inst).query = (calls j).query
  flag : ∀ j, (s.phase j).hasFlag →
    (s.attributes (calls j).inst).oneParamPerUri = (calls j).oneParamPerUri
  reading : ∀ j get query, s.phase j = .reading get query →
    query = (calls j).query ∧ Open origin (calls j) get
  issued : ∀ i ∈ s.issued, i.url = carried origin (calls i.call) i.get

end Steps

variable {origin : κ → String} {calls : Nat → Invocation κ} {s : State κ}

theorem unqueriedCarried {own} (none : Unqueried own) (get : Get) :
    carried origin own get = .ok (get.plainUrl (origin own.inst)) := by
  unfold carried
  cases held : own.query with
  | none => rfl
  | some q => simp [none q held]

theorem urlCarried {own get} (clear : Open origin own get) :
    get.url (origin own.inst) own.query own.oneParamPerUri = carried origin own get := by
  unfold Get.url carried
  cases held : own.query with
  | none => rfl
  | some q =>
    cases empty : q.isEmpty with
    | true => simp [empty]
    | false =>
      rcases clear with none | unmarked
      · rw [none q held] at empty
        cases empty
      · simp only [empty,unmarked]
        rfl

theorem startIsolated (attributes : κ → Attributes) : Isolated origin calls (start attributes) where
  query := fun _ has => by cases has
  flag := fun _ has => by cases has
  reading := fun _ _ _ at' => by cases at'
  issued := fun _ mem => by cases mem

variable {i : Nat}

theorem moved {phase} (iso : Isolated origin calls s)
    (query : phase.hasQuery → (s.attributes (calls i).inst).query = (calls i).query)
    (flag : phase.hasFlag →
      (s.attributes (calls i).inst).oneParamPerUri = (calls i).oneParamPerUri)
    (reading : ∀ get query, phase = .reading get query →
      query = (calls i).query ∧ Open origin (calls i) get) : Isolated origin calls { s with phase := Function.update s.phase i phase } where
  query := by
    intro j has
    by_cases same : j = i
    · subst same
      exact query (by simpa using has)
    · exact iso.query j (by simpa [same] using has)
  flag := by
    intro j has
    by_cases same : j = i
    · subst same
      exact flag (by simpa using has)
    · exact iso.flag j (by simpa [same] using has)
  reading := by
    intro j get held now
    by_cases same : j = i
    · subst same
      exact reading get held (by simpa using now)
    · exact iso.reading j get held (by simpa [same] using now)
  issued := iso.issued

variable [DecidableEq κ]

theorem assigned {k held} (iso : Isolated origin calls s)
    (query : ∀ j, (calls j).inst = k → (s.phase j).hasQuery → held.query = (calls j).query)
    (flag : ∀ j, (calls j).inst = k → (s.phase j).hasFlag →
      held.oneParamPerUri = (calls j).oneParamPerUri) : Isolated origin calls { s with attributes := Function.update s.attributes k held } where
  query := by
    intro j has
    by_cases same : (calls j).inst = k
    · simpa [same] using query j same has
    · simpa [same] using iso.query j has
  flag := by
    intro j has
    by_cases same : (calls j).inst = k
    · simpa [same] using flag j same has
    · simpa [same] using iso.flag j has
  reading := iso.reading
  issued := iso.issued

theorem setQueryIsolated (iso : Isolated origin calls s)
    (quiet : Undisturbed origin calls s ⟨i,.setQuery⟩) :
    Isolated origin calls (step origin calls s ⟨i,.setQuery⟩) := by
  cases now : s.phase i
  case created =>
    simp only [step,now]
    refine moved (assigned iso (fun j same has => (quiet j same has).symm)
      (fun j same has => same ▸ iso.flag j has)) (fun _ => by simp) (fun has => by cases has)
      (fun _ _ reading => by cases reading)
  all_goals simpa only [step,now] using iso

theorem setFlagIsolated (iso : Isolated origin calls s)
    (quiet : Undisturbed origin calls s ⟨i,.setFlag⟩) :
    Isolated origin calls (step origin calls s ⟨i,.setFlag⟩) := by
  cases now : s.phase i
  case assigned =>
    have own := iso.query i (by rw [now]; rfl)
    simp only [step,now]
    refine moved (assigned iso (fun j same has => same ▸ iso.query j has)
      (fun j same has => (quiet j same has).symm)) (fun _ => by simpa using own)
      (fun _ => by simp) (fun _ _ reading => by cases reading)
  all_goals simpa only [step,now] using iso

theorem queryIsolated {get} (iso : Isolated origin calls s) (clear : Open origin (calls i) get) :
    Isolated origin calls (step origin calls s ⟨i,.query get⟩) := by
  cases now : s.phase i
  case running =>
    have query := iso.query i (by rw [now]; rfl)
    have flag := iso.flag i (by rw [now]; rfl)
    simp only [step,now]
    refine moved iso (fun _ => query) (fun _ => flag) ?_
    rintro _ _ ⟨⟩
    exact ⟨query,clear⟩
  all_goals simpa only [step,now] using iso

theorem sendIsolated (iso : Isolated origin calls s) :
    Isolated origin calls (step origin calls s ⟨i,.send⟩) := by
  cases now : s.phase i
  case reading get held =>
    have query := iso.query i (by rw [now]; rfl)
    have flag := iso.flag i (by rw [now]; rfl)
    obtain ⟨same,clear⟩ := iso.reading i get held now
    simp only [step,now]
    have sent : Isolated origin calls { s with phase := Function.update s.phase i .running } :=
      moved iso (fun _ => query) (fun _ => flag) (fun _ _ reading => by cases reading)
    refine { sent with issued := fun entry mem => ?_ }
    rcases List.mem_append.mp mem with old | new
    · exact iso.issued entry old
    · cases List.mem_singleton.mp new
      rw [same,flag]
      exact urlCarried clear
  all_goals simpa only [step,now] using iso

theorem directIsolated {get} (iso : Isolated origin calls s) (none : Unqueried (calls i)) :
    Isolated origin calls (step origin calls s ⟨i,.direct get⟩) := by
  cases now : s.phase i
  case running =>
    simp only [step,now]
    refine { iso with issued := fun entry mem => ?_ }
    rcases List.mem_append.mp mem with old | new
    · exact iso.issued entry old
    · cases List.mem_singleton.mp new
      exact (unqueriedCarried none get).symm
  all_goals simpa only [step,now] using iso

theorem finishIsolated (iso : Isolated origin calls s) :
    Isolated origin calls (step origin calls s ⟨i,.finish⟩) := by
  cases now : s.phase i
  case running =>
    simp only [step,now]
    exact moved iso (fun has => by cases has) (fun has => by cases has)
      (fun _ _ reading => by cases reading)
  all_goals simpa only [step,now] using iso

theorem stepIsolated (s : State κ) (e : Event) (iso : Isolated origin calls s)
    (quiet : Undisturbed origin calls s e) : Isolated origin calls (step origin calls s e) := by
  obtain ⟨i,action⟩ := e
  cases action with
  | setQuery => exact setQueryIsolated iso quiet
  | setFlag => exact setFlagIsolated iso quiet
  | query get => exact queryIsolated iso quiet
  | send => exact sendIsolated iso
  | direct get => exact directIsolated iso quiet
  | finish => exact finishIsolated iso

/- If assignments leave the other invocations of the instance undisturbed, every GET carries its own
invocation's parameters. -/
theorem queriesIsolated (attributes : κ → Attributes) (events : List Event)
    (quiet : Runs.Guarded (step origin calls) (Undisturbed origin calls) (start attributes)
      events) :
    ∀ i ∈ (Runs.run (step origin calls) (start attributes) events).issued,
      i.url = carried origin (calls i.call) i.get :=
  (Runs.guardedInvariant stepIsolated (startIsolated attributes) quiet).issued

namespace Sample

def base (_ : Unit) : String := "https://bmc"

def firstOnly : RedfishQuery := ⟨none,none,none,some 1,some 1,false⟩

def invocations : Nat → Invocation Unit
  | 0 => ⟨(),some firstOnly,false⟩
  | _ => ⟨(),none,false⟩

def systems : Get := ⟨"/redfish/v1/Systems",false,"",""⟩

def idle : State Unit := start fun _ => ⟨none,false⟩

def opening (call : Nat) : List Event := [⟨call,.setQuery⟩,⟨call,.setFlag⟩]
def closing (call : Nat) : List Event := [⟨call,.query systems⟩,⟨call,.send⟩,⟨call,.finish⟩]

theorem noFlag (j : Nat) : (invocations j).oneParamPerUri = false := by
  cases j <;> rfl

def inTurn : List Event := opening 0 ++ closing 0 ++ opening 1 ++ closing 1

theorem inTurnUndisturbed :
    Runs.Guarded (step base invocations) (Undisturbed base invocations) idle inTurn := by
  have bare : !(systems.plainUrl "https://bmc").toList.contains '?' := by decide +kernel
  have clear (call : Nat) : Open base (invocations call) systems := .inr bare
  refine ⟨fun j _ has => ?_,fun j _ _ => ?_,clear 0,trivial,trivial,
    fun j _ has => ?_,fun j _ _ => ?_,clear 1,trivial,trivial,trivial⟩
  · cases has
  · rw [noFlag,noFlag]
  · cases j with
    | zero => cases has
    | succ j => rfl
  · rw [noFlag,noFlag]

end Sample

theorem queriesIsolatedInTurn : Runs.Guarded (step Sample.base Sample.invocations)
      (Undisturbed Sample.base Sample.invocations) Sample.idle Sample.inTurn ∧
    ∀ i ∈ (Runs.run (step Sample.base Sample.invocations) Sample.idle Sample.inTurn).issued,
      i.url = carried Sample.base (Sample.invocations i.call) i.get :=
  ⟨Sample.inTurnUndisturbed,queriesIsolated _ _ Sample.inTurnUndisturbed⟩

theorem queryLost : (Runs.run (step Sample.base Sample.invocations) Sample.idle
      (Sample.opening 0 ++ Sample.opening 1 ++ Sample.closing 0)).issued =
      [⟨0,Sample.systems,.ok "https://bmc/redfish/v1/Systems"⟩] ∧
    carried Sample.base (Sample.invocations 0) Sample.systems =
      .ok "https://bmc/redfish/v1/Systems?$top=1" := by
  decide +kernel

end RedfishCtl.QueryIsolation
