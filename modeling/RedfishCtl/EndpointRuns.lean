import RedfishCtl.EndpointFailure
import RedfishCtl.Runs

/-! Whole runs of the endpoint handler over a merge-patched status, which is required to be a
function of the polls made. A poll whose handler raises writes no patch and still is a poll. -/
namespace RedfishCtl.EndpointStatus
open Rfc3339 (DateTime rfc3339)
open AssocList
open Runs

structure Poll where
  time : DateTime
  outcome : Outcome

structure State where
  status : Json
  polls : List Poll

structure Invocation where
  force : Bool
  now : DateTime
  outcome : Outcome

def State.initial : State := ⟨.obj [],[]⟩

def polled (config : Config) (s : State) (e : Invocation) : Bool :=
  e.force || pollDue config s.status e.now

def step (config : Config) (s : State) (e : Invocation) : State :=
  if polled config s e then
    match pollRedfishEndpoint config s.status e.force e.now e.outcome with
    | .ok (some patch) => ⟨Json.mergePatch s.status (.obj patch),⟨e.now,e.outcome⟩::s.polls⟩
    | _ => ⟨s.status,⟨e.now,e.outcome⟩::s.polls⟩
  else s

def Poll.failed (p : Poll) : Bool := (failure p.outcome).isSome

def Poll.readings (p : Poll) : Option Readings :=
  match p.outcome with
  | .readings r => some r
  | _ => none

def consecutiveFailures (polls : List Poll) : Nat := (polls.takeWhile Poll.failed).length

def lastSuccess (polls : List Poll) : Option (Readings × DateTime) :=
  polls.findSome? fun p => p.readings.map fun r => (r,p.time)

def desiredConditions (o : Outcome) : List Desired :=
  match failure o with
  | none => successConditions
  | some exc => errorConditions (classifyPollError exc).1 (classifyPollError exc).2

def statusGiven (type : ConditionType) (p : Poll) : Option ConditionStatus :=
  ((desiredConditions p.outcome).find? fun d => d.type = type).map Desired.status

/- The polls of the longest suffix of the run, latest first, that gave the condition the last poll's
value. -/
def suffixKept (type : ConditionType) (last : Poll) (earlier : List Poll) : List Poll :=
  (last::earlier).takeWhile fun p => statusGiven type p = statusGiven type last

def conditionNamed (status : Json) (type : ConditionType) : Option Json :=
  match status.get? "conditions" with
  | some (.arr items) => items.find? fun c => c.get? "type" = some (.str type.name)
  | _ => none

def storedTemperature (r : Readings) : Json :=
  .obj (("count",.int r.count) :: (r.maxCelsius.map fun x => ("maxCelsius",.float x)).toList)

structure Coherent (status : Json) (last : Poll) (earlier : List Poll) : Prop where
  failures : status.get? "consecutiveFailures" =
    some (.int (consecutiveFailures (last::earlier)))
  ready : (conditionNamed status .ready).bind (Json.get? · "status") = some (.str "True") ↔
    last.readings.isSome
  cleared : last.readings.isSome →
    status.get? "lastError" = none ∧ status.get? "nextPollAfter" = none
  powerState : status.get? "powerState" =
    (lastSuccess (last::earlier)).bind fun r => r.1.powerState.map .str
  health : status.get? "health" =
    (lastSuccess (last::earlier)).bind fun r => r.1.health.map .str
  temperature : status.get? "temperature" =
    (lastSuccess (last::earlier)).map fun r => storedTemperature r.1
  lastPolled : status.get? "lastPolled" =
    (lastSuccess (last::earlier)).map fun r => .str (rfc3339 r.2)
  transitions : ∀ type, ∃ c value first, conditionNamed status type = some c ∧
    statusGiven type last = some value ∧ c.get? "status" = some (.str value.name) ∧
    (suffixKept type last earlier).getLast? = some first ∧
    c.get? "lastTransitionTime" = some (.str (rfc3339 first.time))

def since (type : ConditionType) : Poll → List Poll → DateTime
  | p, [] => p.time
  | p, q::rest => if statusGiven type q = statusGiven type p then since type q rest else p.time

theorem suffixFirst (type : ConditionType) (last : Poll) (earlier : List Poll) :
    ∃ first, (suffixKept type last earlier).getLast? = some first ∧
      first.time = since type last earlier := by
  induction earlier generalizing last with
  | nil => exact ⟨last,by simp [suffixKept],rfl⟩
  | cons q rest ih =>
    simp only [suffixKept,List.takeWhile_cons,decide_true,if_true,since]
    by_cases same : statusGiven type q = statusGiven type last
    · obtain ⟨first,found,time⟩ := ih q
      refine ⟨first,?_,by simpa [same] using time⟩
      simp only [suffixKept,List.takeWhile_cons,decide_true,if_true] at found
      simp only [same,decide_true,if_true]
      rw [List.getLast?_cons_cons]
      simpa only [same] using found
    · exact ⟨last,by simp [same],by simp [same]⟩

theorem statusNameInjective {a b : ConditionStatus} (h : a.name = b.name) : a = b := by
  cases a <;> cases b <;> first | rfl | (revert h; decide)

def types : List ConditionType := [.reachable,.authenticated,.profileResolved,.ready]

theorem desiredTypes (o : Outcome) : (desiredConditions o).map Desired.type = types := by
  unfold desiredConditions
  split
  · rfl
  · simp [errorConditions,types]

theorem typeNameInjective {a b : ConditionType} (h : a.name = b.name) : a = b := by
  cases a <;> cases b <;> first | rfl | (revert h; decide)

theorem desiredDistinct (o : Outcome) : ((desiredConditions o).map Desired.type).Nodup := by
  rw [desiredTypes]; decide

theorem desiredAny (o : Outcome) (type : ConditionType) :
    ∃ d, (desiredConditions o).find? (fun d => d.type = type) = some d ∧ d.type = type := by
  have present : type ∈ (desiredConditions o).map Desired.type := by
    rw [desiredTypes]; cases type <;> decide
  obtain ⟨d,mem,same⟩ := List.mem_map.mp present
  cases found : (desiredConditions o).find? (fun d => d.type = type) with
  | none => simpa [same] using List.find?_eq_none.mp found d mem
  | some d' => exact ⟨d',rfl,by simpa using List.find?_some found⟩

theorem findDesired {ds : List Desired} (distinct : (ds.map Desired.type).Nodup) {d} (mem : d ∈ ds) :
    ds.find? (fun e => e.type = d.type) = some d := by
  induction ds with
  | nil => simp at mem
  | cons e rest ih =>
    obtain ⟨fresh,tail⟩ := List.nodup_cons.mp distinct
    rcases List.mem_cons.mp mem with same | inside
    · subst same; simp
    · have other : e.type ≠ d.type := fun eq => fresh (List.mem_map.mpr ⟨d,inside,eq.symm⟩)
      rw [List.find?_cons_of_neg (by simpa using other)]
      exact ih tail inside

@[simp] theorem conditionType (d : Desired) (t : Json) :
    (condition d t).get? "type" = some (.str d.type.name) := by simp [condition]
@[simp] theorem conditionStatus (d : Desired) (t : Json) :
    (condition d t).get? "status" = some (.str d.status.name) := by simp [condition]
@[simp] theorem conditionTransition (d : Desired) (t : Json) :
    (condition d t).get? "lastTransitionTime" = some t := by simp [condition]

theorem previousLookup {ds : List Desired} (distinct : (ds.map Desired.type).Nodup)
    (time : Desired → Json) (type : ConditionType) :
    (previousConditions (ds.map fun d => condition d (time d))).lookup type.name =
      (ds.find? fun d => d.type = type).map fun d => condition d (time d) := by
  -- the dictionary is built left to right, so the accumulator is the general case
  suffices general : ∀ acc : List (String × Json),
      ((ds.map fun d => condition d (time d)).foldl (fun acc item =>
        if item.isObj && (item.getD "type").truthy then
          insert (PyText.str (item.getD "type")) item acc else acc) acc).lookup type.name =
      match ds.find? fun d => d.type = type with
      | some d => some (condition d (time d))
      | none => acc.lookup type.name by
    unfold previousConditions
    rw [general []]
    cases ds.find? (fun d => d.type = type) <;> rfl
  induction ds with
  | nil => intro acc; rfl
  | cons d rest ih =>
    intro acc
    obtain ⟨fresh,tail⟩ := List.nodup_cons.mp distinct
    have entered : ((condition d (time d)).isObj &&
        ((condition d (time d)).getD "type").truthy) = true := by
      cases hd : d.type <;> simp [Json.getD,hd,ConditionType.name,Json.truthy,condition,Json.isObj]
    have name : PyText.str ((condition d (time d)).getD "type") = d.type.name := by
      simp [Json.getD,PyText.str]
    simp only [List.map_cons,List.foldl_cons,entered,if_true,name]
    rw [ih tail]
    by_cases same : d.type = type
    · have gone : rest.find? (fun d => d.type = type) = none := by
        rw [List.find?_eq_none]
        intro d' mem eq
        exact fresh (List.mem_map.mpr ⟨d',mem,by simpa [same] using eq⟩)
      rw [gone]
      simp [same]
    · have other : type.name ≠ d.type.name := fun eq => same (typeNameInjective eq.symm)
      rw [List.find?_cons_of_neg (by simpa using same)]
      cases rest.find? (fun d => d.type = type) <;> simp [other]

def expectedConditions (last : Poll) (earlier : List Poll) : List Json :=
  (desiredConditions last.outcome).map fun d =>
    condition d (.str (rfc3339 (since d.type last earlier)))

theorem transitionKept {p q : Poll} {rest d}
    (mem : (desiredConditions p.outcome).find? (fun e => e.type = d.type) = some d) :
    transitionTime (previousConditions (expectedConditions q rest)) d p.time =
      .str (rfc3339 (since d.type p (q::rest))) := by
  obtain ⟨prior,found,type⟩ := desiredAny q.outcome d.type
  have looked : (previousConditions (expectedConditions q rest)).lookup d.type.name =
      some (condition prior (.str (rfc3339 (since prior.type q rest)))) := by
    unfold expectedConditions
    rw [previousLookup (desiredDistinct q.outcome),found]
    rfl
  have given : (statusGiven d.type q = statusGiven d.type p) ↔ prior.status = d.status := by
    simp [statusGiven,found,mem]
  have stored : ((condition prior (.str (rfc3339 (since prior.type q rest)))).getD "status" =
      .str d.status.name) ↔ prior.status = d.status := by
    simp only [Json.getD,conditionStatus,Option.getD_some,Json.str.injEq]
    exact ⟨statusNameInjective,fun same => by rw [same]⟩
  have time : (condition prior (.str (rfc3339 (since prior.type q rest)))).getD
      "lastTransitionTime" = .str (rfc3339 (since prior.type q rest)) := by simp [Json.getD]
  unfold transitionTime
  rw [looked]
  dsimp only
  rw [time]
  dsimp only
  by_cases same : prior.status = d.status
  · rw [if_pos (stored.mpr same),since,if_pos (given.mpr same),type]
  · rw [if_neg (fun h => same (stored.mp h)),since,if_neg (fun h => same (given.mp h))]

structure Kept (s : State) : Prop where
  conditions : s.status.get? "conditions" = match s.polls with
    | [] => none
    | last::earlier => some (.arr (expectedConditions last earlier))
  failures : s.status.get? "consecutiveFailures" = match s.polls with
    | [] => none
    | _::_ => some (.int (consecutiveFailures s.polls))
  cleared : (∀ last ∈ s.polls.head?, last.readings.isSome) →
    s.status.get? "lastError" = none ∧ s.status.get? "nextPollAfter" = none
  powerState : s.status.get? "powerState" =
    (lastSuccess s.polls).bind fun r => r.1.powerState.map .str
  health : s.status.get? "health" = (lastSuccess s.polls).bind fun r => r.1.health.map .str
  temperature : s.status.get? "temperature" =
    (lastSuccess s.polls).map fun r => storedTemperature r.1
  lastPolled : s.status.get? "lastPolled" =
    (lastSuccess s.polls).map fun r => .str (rfc3339 r.2)

theorem initialKept : Kept State.initial := ⟨rfl,rfl,fun _ => ⟨rfl,rfl⟩,rfl,rfl,rfl,rfl⟩

variable {s : State}

theorem keptListed (kept : Kept s) :
    ∃ items, ConditionsListed s.status items ∧ ∀ p : Poll,
      (desiredConditions p.outcome).map (fun d =>
        condition d (transitionTime (previousConditions items) d p.time)) =
      expectedConditions p s.polls := by
  have conditions := kept.conditions
  cases h : s.polls with
  | nil =>
    rw [h] at conditions
    refine ⟨[],by simp [ConditionsListed,conditions],?_⟩
    simp [expectedConditions,previousConditions,transitionTime,since]
  | cons last earlier =>
    rw [h] at conditions
    refine ⟨expectedConditions last earlier,by simp [ConditionsListed,conditions],?_⟩
    intro p
    refine List.map_congr_left fun d mem => ?_
    congr 1
    exact transitionKept (findDesired (desiredDistinct p.outcome) mem)

theorem keptCount (kept : Kept s) :
    int (s.status.getD "consecutiveFailures") = .ok (consecutiveFailures s.polls : Int) := by
  have stored := kept.failures
  cases h : s.polls with
  | nil =>
    rw [h] at stored
    simp [Json.getD,stored,int,PyText.int,consecutiveFailures]
  | cons last earlier =>
    rw [h] at stored
    simp [Json.getD,stored,int,PyText.int]

def successPatch (r : Readings) (now : DateTime) (conditions : List Json) : List (String × Json) :=
  buildStatus r now ++ [("conditions",.arr conditions),("consecutiveFailures",.int 0),
    ("lastError",.null),("nextPollAfter",.null)]

theorem successPatchDistinct (r : Readings) (now conditions) :
    Distinct (successPatch r now conditions) := by
  unfold Distinct keys successPatch buildStatus
  cases r.networkFirmware <;> simp

theorem successLookup (r : Readings) (now conditions) {key} (other : key ≠ "networkFirmware") :
    (successPatch r now conditions).lookup key =
      [("powerState",optional .str r.powerState),("health",optional .str r.health),
       ("temperature",.obj [("count",.int r.count),("maxCelsius",optional .float r.maxCelsius)]),
       ("lastPolled",.str (rfc3339 now)),("conditions",.arr conditions),
       ("consecutiveFailures",.int 0),("lastError",.null),("nextPollAfter",.null)].lookup key := by
  cases firmware : r.networkFirmware <;> simp [successPatch,buildStatus,firmware,other]

theorem temperatureReplaced (r : Readings) (old : Option Readings) :
    Json.patched (old.map storedTemperature)
      (.obj [("count",.int r.count),("maxCelsius",optional .float r.maxCelsius)]) =
      some (storedTemperature r) := by
  cases old with
  | none =>
    cases hr : r.maxCelsius <;>
      simp [storedTemperature,hr,optional,Json.mergeMembers,Json.mergePatch,AssocList.insert,erase,Json.members]
  | some o =>
    cases ho : o.maxCelsius <;> cases hr : r.maxCelsius <;>
      simp [storedTemperature,ho,hr,optional,Json.mergeMembers,Json.mergePatch,AssocList.insert,erase]

theorem optionalStr (old : Option Json) (value : Option String) :
    Json.patched old (optional .str value) = value.map .str := by
  cases value <;> simp [optional]

theorem keptSuccess (kept : Kept s) (r : Readings) (now : DateTime) :
    Kept ⟨Json.mergePatch s.status (.obj (successPatch r now
      (expectedConditions ⟨now,.readings r⟩ s.polls))),⟨now,.readings r⟩::s.polls⟩ := by
  have get := Json.getMergePatch (successPatchDistinct r now
    (expectedConditions ⟨now,.readings r⟩ s.polls)) s.status
  have found : lastSuccess (⟨now,.readings r⟩::s.polls) = some (r,now) := by
    simp [lastSuccess,Poll.readings]
  have fresh : consecutiveFailures (⟨now,.readings r⟩::s.polls) = 0 := by
    simp [consecutiveFailures,Poll.failed,failure]
  constructor
  · dsimp only; rw [get,successLookup _ _ _ (by decide)]; simp
  · dsimp only; rw [get,successLookup _ _ _ (by decide)]; simp [fresh]
  · intro _
    rw [get,get,successLookup _ _ _ (by decide),successLookup _ _ _ (by decide)]
    simp
  · dsimp only; rw [get,found,successLookup _ _ _ (by decide)]; simp [optionalStr]
  · dsimp only; rw [get,found,successLookup _ _ _ (by decide)]; simp [optionalStr]
  · have old : s.status.get? "temperature" =
        ((lastSuccess s.polls).map Prod.fst).map storedTemperature := by
      rw [kept.temperature]; cases lastSuccess s.polls <;> rfl
    have replaced := temperatureReplaced r ((lastSuccess s.polls).map Prod.fst)
    rw [get,old]
    exact replaced
  · dsimp only; rw [get,found,successLookup _ _ _ (by decide)]; simp

def errorPatch (conditions : List Json) (failures : Nat) (message : String) (next : DateTime) :
    List (String × Json) :=
  [("conditions",.arr conditions),("consecutiveFailures",.int ((failures : Int) + 1)),
   ("lastError",.str message),("nextPollAfter",.str (rfc3339 next))]

theorem keptFailure (kept : Kept s) {o exc} (failed : failure o = some exc) (now next : DateTime)
    (message : String) :
    Kept ⟨Json.mergePatch s.status (.obj (errorPatch (expectedConditions ⟨now,o⟩ s.polls)
      (consecutiveFailures s.polls) message next)),⟨now,o⟩::s.polls⟩ := by
  have distinct : Distinct (errorPatch (expectedConditions ⟨now,o⟩ s.polls)
      (consecutiveFailures s.polls) message next) := by
    simp [Distinct,keys,errorPatch]
  have get := Json.getMergePatch distinct s.status
  have unread : (⟨now,o⟩ : Poll).readings = none := by
    cases o with
    | readings r => simp [failure] at failed
    | noReadings => rfl
    | raised e => rfl
  have same : lastSuccess (⟨now,o⟩::s.polls) = lastSuccess s.polls := by
    simp [lastSuccess,unread]
  have counted : consecutiveFailures (⟨now,o⟩::s.polls) = consecutiveFailures s.polls + 1 := by
    simp [consecutiveFailures,Poll.failed,failed]
  constructor
  · dsimp only; rw [get]; simp [errorPatch]
  · dsimp only; rw [get]; simp [errorPatch,counted]
  · intro success
    have := success ⟨now,o⟩ (by simp)
    simp [unread] at this
  · dsimp only; rw [get,same,← kept.powerState]; simp [errorPatch]
  · dsimp only; rw [get,same,← kept.health]; simp [errorPatch]
  · dsimp only; rw [get,same,← kept.temperature]; simp [errorPatch]
  · dsimp only; rw [get,same,← kept.lastPolled]; simp [errorPatch]

def Attempted (o : Outcome) : Prop := (∃ r, o = .readings r) ∨ (failure o).isSome

def Sustained (config : Config) (s : State) (e : Invocation) : Prop :=
  polled config s e = true → (failure e.outcome).isSome → consecutiveFailures s.polls ≤ 1023

theorem polledDue {config s e} (h : polled config s e = true) :
    e.force = true ∨ pollDue config s.status e.now = true := by
  simpa [polled] using h

theorem stepSuccess {config s e r} (kept : Kept s) (due : polled config s e = true)
    (read : e.outcome = .readings r) :
    step config s e = ⟨Json.mergePatch s.status (.obj (successPatch r e.now
      (expectedConditions ⟨e.now,.readings r⟩ s.polls))),⟨e.now,.readings r⟩::s.polls⟩ := by
  obtain ⟨items,listed,expected⟩ := keptListed kept
  have merged : mergeConditions s.status successConditions e.now =
      .ok (expectedConditions ⟨e.now,.readings r⟩ s.polls) := by
    rw [mergeConditionsListed listed,← expected ⟨e.now,.readings r⟩]
    rfl
  have gate : (!e.force && !pollDue config s.status e.now) = false := by
    rcases polledDue due with h | h <;> simp [h]
  simp only [step,due,if_true,pollRedfishEndpoint,gate,read,buildSuccessStatus,merged,bind,
    Except.bind,Except.map,successPatch]
  rfl

theorem stepFailure {config s e exc} (kept : Kept s) (due : polled config s e = true)
    (failed : failure e.outcome = some exc) (few : consecutiveFailures s.polls ≤ 1023) :
    ∃ next message, step config s e =
      ⟨Json.mergePatch s.status (.obj (errorPatch (expectedConditions ⟨e.now,e.outcome⟩ s.polls)
        (consecutiveFailures s.polls) message next)),⟨e.now,e.outcome⟩::s.polls⟩ := by
  obtain ⟨items,listed,expected⟩ := keptListed kept
  obtain ⟨wait,-,-,patch⟩ := errorStatusCompletes listed (keptCount kept) few config.base exc e.now
  have desired : desiredConditions e.outcome =
      errorConditions (classifyPollError exc).1 (classifyPollError exc).2 := by
    simp [desiredConditions,failed]
  refine ⟨e.now + wait,(classifyPollError exc).2,?_⟩
  unfold step
  rw [if_pos due,failedPoll (polledDue due) failed,patch,← expected ⟨e.now,e.outcome⟩,desired]
  rfl

theorem stepOverflow {config s e exc} (kept : Kept s) (due : polled config s e = true)
    (failed : failure e.outcome = some exc) (many : 1023 < consecutiveFailures s.polls) :
    step config s e = ⟨s.status,⟨e.now,e.outcome⟩::s.polls⟩ := by
  unfold step
  rw [if_pos due,failedPoll (polledDue due) failed,
    errorStatusOverflows (keptCount kept) many config.base exc e.now]
  rfl

theorem keptStep {config s e} (kept : Kept s) (attempted : Attempted e.outcome)
    (sustained : Sustained config s e) : Kept (step config s e) := by
  cases due : polled config s e with
  | false => simpa [step,due] using kept
  | true =>
    rcases attempted with ⟨r,read⟩ | failed
    · rw [stepSuccess kept due read]
      exact keptSuccess kept r e.now
    · obtain ⟨exc,raised⟩ := Option.isSome_iff_exists.mp failed
      obtain ⟨next,message,written⟩ := stepFailure kept due raised (sustained due failed)
      rw [written]
      exact keptFailure kept raised e.now next message

theorem expectedNamed {status : Json} {last earlier}
    (stored : status.get? "conditions" = some (.arr (expectedConditions last earlier)))
    (type : ConditionType) : ∃ d, (desiredConditions last.outcome).find? (fun d => d.type = type) =
        some d ∧ conditionNamed status type =
      some (condition d (.str (rfc3339 (since type last earlier)))) := by
  obtain ⟨d,found,same⟩ := desiredAny last.outcome type
  refine ⟨d,found,?_⟩
  have names : (fun c : Json => decide (c.get? "type" = some (.str type.name))) ∘
      (fun d => condition d (.str (rfc3339 (since d.type last earlier)))) =
      fun d : Desired => decide (d.type = type) := by
    funext d
    have iff : d.type.name = type.name ↔ d.type = type := ⟨typeNameInjective,fun h => by rw [h]⟩
    simp [iff]
  simp only [conditionNamed,stored,expectedConditions,List.find?_map,names,found,Option.map_some,
    same]

theorem readyGiven (p : Poll) (attempted : Attempted p.outcome) {d}
    (found : (desiredConditions p.outcome).find? (fun d => d.type = .ready) = some d) :
    d.status.name = "True" ↔ p.readings.isSome := by
  unfold desiredConditions at found
  split at found
  · rename_i unfailed
    rcases attempted with ⟨r,read⟩ | failed
    · have last : d = ⟨.ready,.true,"PollSucceeded",""⟩ := by
        simpa [successConditions] using found.symm
      simp [last,Poll.readings,read,ConditionStatus.name]
    · simp [unfailed] at failed
  · rename_i exc failed
    have unread : p.readings = none := by
      unfold Poll.readings
      split
      · rename_i r read; simp [failure,read] at failed
      · rfl
    have last : d.status = .false := by
      have := found.symm
      simp [errorConditions] at this
      simp [this]
    simp [last,unread,ConditionStatus.name]

theorem keptCoherent {last earlier} (kept : Kept s) (polls : s.polls = last::earlier)
    (attempted : Attempted last.outcome) : Coherent s.status last earlier := by
  have conditions : s.status.get? "conditions" =
      some (.arr (expectedConditions last earlier)) := by simp [kept.conditions,polls]
  constructor
  · simp [kept.failures,polls]
  · obtain ⟨d,found,named⟩ := expectedNamed conditions .ready
    rw [named]
    simpa using readyGiven last attempted found
  · intro success
    exact kept.cleared (by simpa [polls] using success)
  · rw [kept.powerState,polls]
  · rw [kept.health,polls]
  · rw [kept.temperature,polls]
  · rw [kept.lastPolled,polls]
  · intro type
    obtain ⟨d,found,named⟩ := expectedNamed conditions type
    obtain ⟨first,inside,time⟩ := suffixFirst type last earlier
    exact ⟨_,d.status,first,named,by simp [statusGiven,found],by simp,inside,by simp [time]⟩

def Attempts (events : List Invocation) : Prop := ∀ e ∈ events, Attempted e.outcome

def CoherentThroughout (config : Config) (events : List Invocation) : Prop :=
  ∀ pre, pre <+: events → ∀ last earlier,
    (run (step config) .initial pre).polls = last::earlier →
      Coherent (run (step config) .initial pre).status last earlier

theorem stepPolls (config : Config) (s : State) (e : Invocation) :
    (step config s e).polls =
      if polled config s e then ⟨e.now,e.outcome⟩::s.polls else s.polls := by
  unfold step
  split
  · split <;> rfl
  · rfl

theorem keptRun {config events} (attempts : Attempts events)
    (sustained : Guarded (step config) (Sustained config) .initial events) :
    Kept (run (step config) .initial events) ∧
      ∀ p ∈ (run (step config) .initial events).polls, Attempted p.outcome := by
  induction events using List.reverseRecOn with
  | nil => exact ⟨initialKept,by simp [State.initial]⟩
  | append_singleton events e ih =>
    obtain ⟨before,last,-⟩ := guardedAppend.mp sustained
    obtain ⟨kept,earlier⟩ := ih (fun e mem => attempts e (by simp [mem])) before
    have attempted := attempts e (by simp)
    rw [runAppend]
    refine ⟨keptStep kept attempted last,?_⟩
    intro p mem
    simp only [runCons,runNil,stepPolls] at mem
    split at mem
    · rcases List.mem_cons.mp mem with same | old
      · rw [same]; exact attempted
      · exact earlier p old
    · exact earlier p mem

theorem sustainedCoherent {config events} (attempts : Attempts events)
    (sustained : Guarded (step config) (Sustained config) .initial events) :
    CoherentThroughout config events := by
  intro pre part last earlier polls
  have fewer : Attempts pre := fun e mem => attempts e (part.subset mem)
  obtain ⟨kept,attempted⟩ := keptRun fewer (guardedPrefix sustained part)
  exact keptCoherent kept polls (attempted last (by simp [polls]))

theorem coherentSustained {config events} (attempts : Attempts events)
    (coherent : CoherentThroughout config events) :
    Guarded (step config) (Sustained config) .initial events := by
  induction events using List.reverseRecOn with
  | nil => trivial
  | append_singleton events e ih =>
    have before : Attempts events := fun e mem => attempts e (by simp [mem])
    have sustained := ih before fun pre part =>
      coherent pre (part.trans (List.prefix_append events [e]))
    obtain ⟨kept,-⟩ := keptRun before sustained
    refine guardedAppend.mpr ⟨sustained,?_,trivial⟩
    intro due failed
    by_contra many
    obtain ⟨exc,raised⟩ := Option.isSome_iff_exists.mp failed
    -- the step writes nothing, so the stored count stays at its old value
    have stuck := stepOverflow kept due raised (by omega)
    have counted : consecutiveFailures
        (⟨e.now,e.outcome⟩::(run (step config) .initial events).polls) =
        consecutiveFailures (run (step config) .initial events).polls + 1 := by
      simp [consecutiveFailures,Poll.failed,raised]
    have after := (coherent (events ++ [e]) (List.prefix_refl _) ⟨e.now,e.outcome⟩
      (run (step config) .initial events).polls (by simp [runAppend,stuck])).failures
    have stored := kept.failures
    simp only [runAppend,runCons,runNil,stuck] at after
    rw [stored,counted] at after
    cases polls : (run (step config) .initial events).polls with
    | nil => simp [polls,consecutiveFailures] at many
    | cons last earlier => simp [polls] at after

theorem statusCoherentIff (config : Config) (events : List Invocation)
    (attempts : Attempts events) : CoherentThroughout config events ↔
      Guarded (step config) (Sustained config) .initial events :=
  ⟨coherentSustained attempts,sustainedCoherent attempts⟩

def cool : Readings := ⟨some "On",some "OK",2,none,none⟩

theorem statusCoherentRecovery : CoherentThroughout ⟨halfMinute,halfMinute⟩
    [⟨true,0,.raised unreachable⟩,⟨true,60*Rfc3339.second,.readings cool⟩] :=
  (statusCoherentIff _ _ (by
    intro e mem
    rcases List.mem_cons.mp mem with rfl | mem
    · exact .inr rfl
    · cases List.mem_singleton.mp mem
      exact .inl ⟨cool,rfl⟩)).mpr
    ⟨fun _ _ => by simp [State.initial,consecutiveFailures],⟨fun _ failed => absurd failed (by decide),trivial⟩⟩

theorem forcedPolls (config : Config) (n : Nat) (e : Invocation) (forced : e.force = true) :
    (run (step config) .initial (List.replicate n e)).polls =
      List.replicate n ⟨e.now,e.outcome⟩ := by
  induction n with
  | zero => rfl
  | succ n ih =>
    rw [List.replicate_succ',runAppend,runCons,runNil,stepPolls,ih]
    simp [polled,forced,List.replicate_succ]

theorem failuresReplicate (n : Nat) {p} (failed : p.failed = true) :
    consecutiveFailures (List.replicate n p) = n := by
  simp [consecutiveFailures,failed]

theorem statusIncoherentOutage : ¬ CoherentThroughout ⟨halfMinute,halfMinute⟩
      (List.replicate 1025 ⟨true,0,.raised unreachable⟩) := by
  intro coherent
  have attempts : Attempts (List.replicate 1025 ⟨true,0,.raised unreachable⟩) := by
    intro e mem
    rw [List.eq_of_mem_replicate mem]
    exact .inr rfl
  have sustained := coherentSustained attempts coherent
  rw [List.replicate_succ'] at sustained
  have few := (guardedAppend.mp sustained).2.1 rfl rfl
  rw [forcedPolls _ _ _ rfl,failuresReplicate _ rfl] at few
  exact absurd few (by decide)

end RedfishCtl.EndpointStatus
