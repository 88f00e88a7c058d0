import RedfishCtl.MockHomes
import RedfishCtl.MockLinear

/-! What a read serves after set transitions: the fixture with the sets made in it, as long as each
stores the value that was loaded and replaces what is read. -/
namespace RedfishCtl.MockEngine
open MockOverlay
open AssocList (Distinct)
open PyUrl (normalizeRequestPath)
open Json (deepUpdate overlaid setAt replaces)

def payload (fixture identity overlay : Members) : Members :=
  let named := if identity.isEmpty then fixture else deepUpdate fixture identity
  if overlay.isEmpty then named else deepUpdate named overlay

def serveFixture (fixture identity : Members) (s : Store) (requestPath : String) :
    Except PyError Json := do
  let overlay ← overlayFor s requestPath
  .ok (.obj (payload fixture identity overlay.members))

theorem payloadMerged (fixture identity overlay : Members) :
    payload fixture identity overlay = deepUpdate (deepUpdate fixture identity) overlay := by
  have skip (target m : Members) :
      (if m.isEmpty then target else deepUpdate target m) = deepUpdate target m := by
    split
    · rename_i nothing
      rw [List.isEmpty_iff.mp nothing,Json.deepUpdateNil]
    · rfl
  simp only [payload,skip]

def overlayDocument (s : Store) (resource : String) : Option Json :=
  match s.overlays.lookup resource with
  | none => some (.obj [])
  | some r => s.heap.view (.dict r)

/- After set transitions every dictionary has its place, and what is in no overlay is as loaded. -/
structure Reached (spec : Specification) (place : Nat → Place) (s : Store) : Prop where
  placed : Placed place s.heap
  grows : spec.heap.size ≤ s.heap.size
  homes : ∀ r < spec.heap.size, place r = home spec r
  overlays : ∀ resource r, s.overlays.lookup resource = some r →
    place r = .overlay resource [] ∧ r < s.heap.size
  still : ∀ r < spec.heap.size, (∀ resource keys, home spec r ≠ .overlay resource keys) →
    s.heap.cells[r]? = spec.heap.cells[r]?

section
variable {spec : Specification} {place : Nat → Place} {s : Store}

theorem reachedStart (unshared : Unshared spec) : Reached spec (home spec) ⟨spec.heap,[]⟩ :=
  ⟨placedSpecification unshared,le_rfl,fun _ _ => rfl,fun _ _ absent => by simp at absent,
    fun _ _ _ => rfl⟩

theorem viewAlloc (reached : Reached spec place s) {v} (known : ∀ r ∈ v.refs, r < s.heap.size) :
    s.heap.alloc.2.view v = s.heap.view v :=
  Heap.viewAgree fun _ stands => List.getElem?_append_left (reachKnown reached.placed known stands)

theorem reachedOverlay (reached : Reached spec place s) (resource : String) :
    ∃ place', Reached spec place' (overlayAt s resource).2 ∧
      place' (overlayAt s resource).1 = .overlay resource [] ∧
      (overlayAt s resource).1 < (overlayAt s resource).2.heap.size ∧
      (overlayAt s resource).2.overlays.lookup resource = some (overlayAt s resource).1 ∧
      ∀ other, overlayDocument (overlayAt s resource).2 other = overlayDocument s other := by
  unfold overlayAt
  cases found : s.overlays.lookup resource with
  | some r =>
    obtain ⟨stands,live⟩ := reached.overlays resource r found
    exact ⟨place,reached,stands,live,found,fun _ => rfl⟩
  | none =>
    have older : ∀ r < s.heap.size,
        Function.update place s.heap.size (.overlay resource []) r = place r :=
      fun r live => Function.update_of_ne (Nat.ne_of_lt live) _ _
    have size : s.heap.alloc.2.size = s.heap.size + 1 := by simp [Heap.alloc,Heap.size]
    have added (other : String) : (s.overlays ++ [(resource,s.heap.size)]).lookup other =
        if other = resource then some s.heap.size else s.overlays.lookup other := by
      rw [List.lookup_append]
      by_cases same : other = resource
      · subst same
        simp [found]
      · simp [same]
    refine ⟨_,⟨placedAlloc reached.placed (.overlay resource []),?_,?_,?_,?_⟩,
      Function.update_self _ _ _,by simp only [size]; omega,by simp [added],?_⟩
    · simp only [size]
      exact reached.grows.trans (Nat.le_succ _)
    · intro r live
      rw [older r (live.trans_le reached.grows)]
      exact reached.homes r live
    · intro other r stands
      simp only [added] at stands
      split at stands
      · rename_i same
        cases stands
        exact ⟨by rw [Function.update_self,same],by simp only [size]; omega⟩
      · obtain ⟨standing,live⟩ := reached.overlays other r stands
        exact ⟨(older r live).trans standing,by simp [size]; omega⟩
    · intro r live away
      rw [← reached.still r live away]
      exact List.getElem?_append_left (live.trans_le reached.grows)
    · intro other
      simp only [overlayDocument,added]
      by_cases same : other = resource
      · subst same
        have cell : s.heap.alloc.2.cells[s.heap.size]? = some [] := by
          simp [Heap.alloc,Heap.size]
        simp only [if_true,found]
        rw [Heap.viewDict,cell]
        rfl
      · simp only [same,if_false]
        cases present : s.overlays.lookup other with
        | none => rfl
        | some r =>
          have live := (reached.overlays other r present).2
          exact viewAlloc reached (by simpa [PyVal.refs] using live)

variable {t : PyVal}

theorem transitionField (unshared : Unshared spec) (reached : Reached spec place s)
    (listed : Listed spec t) (key : String) : field s.heap t key = field spec.heap t key := by
  cases t with
  | dict q =>
    obtain ⟨p,items,-,entry,inList⟩ := listedPlace listed
    have live : q < spec.heap.size := cellKnown p q (Entries.refsMem.mpr ⟨_,entry,inList⟩)
    have same := reached.still q live (homeTransition unshared listed)
    simp [field,Heap.cell,same]
  | _ => rfl

variable {set : SetStep}

theorem applySet (sets : setOf spec.heap t = some set)
    (same : ∀ key, field s.heap t key = field spec.heap t key) {h}
    (done : setValue (overlayAt s set.resource).2.heap (overlayAt s set.resource).1 set.parts
      set.value = .ok h) : applyTransition t s = (.ok (),⟨h,(overlayAt s set.resource).2.overlays⟩) := by
  have kept (key : String) : field (overlayAt s set.resource).2.heap t key = field spec.heap t key := by
    rw [← same key]
    unfold overlayAt
    split
    · rfl
    · cases t with
      | dict q => simp only [field,cellAlloc]
      | _ => rfl
  unfold setOf at sets
  split at sets
  · rename_i resourcePath op path
    split at sets
    · rename_i resource key rest normal parts
      cases sets
      have keys : keysOf (overlayAt s resource).2.heap t = keysOf spec.heap t := by
        simp [keysOf,kept]
      simp only [applyTransition,same "path",path,normal,change,kept "op",op,keys,parts,kept "value"]
      simp only [bind,Except.bind,done]
    · simp at sets
  · simp at sets

theorem setKnown (sets : setOf spec.heap t = some set) :
    ∀ r ∈ set.value.refs, r < spec.heap.size := by
  intro r among
  obtain ⟨q,rfl⟩ := setOfDict sets
  exact cellKnown q r (Entries.refsMem.mpr ⟨_,setOfValue sets among,among⟩)

theorem overlayView (reached : Reached spec place s) (resource : String) {v}
    (known : ∀ r ∈ v.refs, r < s.heap.size) : (overlayAt s resource).2.heap.view v = s.heap.view v := by
  unfold overlayAt
  split
  · rfl
  · exact viewAlloc reached known

theorem reachedSet (unshared : Unshared spec) (reached : Reached spec place s)
    (listed : Listed spec t) (sets : setOf spec.heap t = some set) {j}
    (value : s.heap.view set.value = some j) :
    ∃ place' s', applyTransition t s = (.ok (),s') ∧ Reached spec place' s' ∧
      ∀ other o, overlayDocument s other = some o →
        overlayDocument s' other = some (if other = set.resource then setAt o set.parts j else o) := by
  obtain ⟨place₁,reached₁,root,live,taken,documents⟩ := reachedOverlay reached set.resource
  have known := setKnown sets
  have older : ∀ r ∈ set.value.refs, r < s.heap.size :=
    fun r among => (known r among).trans_le reached.grows
  have fits :=
    (fitsCongr fun r among => reached₁.homes r (known r among)).mpr (setFits unshared listed sets)
  have stored := (overlayView reached set.resource older).trans value
  obtain ⟨place₂,h₂,done,written,inner⟩ := setWritten (setOfParts sets) reached₁.placed live root fits
    fun r among => (known r among).trans_le reached₁.grows
  have same := transitionField unshared reached listed
  refine ⟨place₂,_,applySet sets same done,⟨written.placed,?_,?_,?_,?_⟩,?_⟩
  · exact reached₁.grows.trans written.grows
  · intro r alive
    exact (written.extends_ r (alive.trans_le reached₁.grows)).trans (reached₁.homes r alive)
  · intro other r found
    obtain ⟨stands,alive⟩ := reached₁.overlays other r found
    exact ⟨(written.extends_ r alive).trans stands,alive.trans_le written.grows⟩
  · intro r alive away
    obtain same | ⟨before,after,-,-,stands⟩ := written.frame r (alive.trans_le reached₁.grows)
    · exact same.trans (reached₁.still r alive away)
    · exact absurd ((reached₁.homes r alive).symm.trans stands) (away _ _)
  intro other o seen
  rw [← documents other] at seen
  unfold overlayDocument at seen ⊢
  by_cases here : other = set.resource
  · subst here
    rw [taken] at seen ⊢
    rw [if_pos rfl]
    exact inner o j seen stored
  rw [if_neg here]
  cases found : (overlayAt s set.resource).2.overlays.lookup other with
  | none =>
    rw [found] at seen
    exact seen
  | some r =>
    rw [found] at seen
    obtain ⟨stands,alive⟩ := reached₁.overlays other r found
    rw [← seen]
    exact writtenView reached₁.placed written (v := .dict r) stands
      (by simpa [PyVal.refs] using alive) fun same => absurd same here

theorem distinctView {h : Heap} (distinct : ∀ r, Distinct (h.cell r)) {v j}
    (seen : h.view v = some j) (parts : List String) : Json.DistinctAlong (some j) parts := by
  induction parts generalizing v j with
  | nil => trivial
  | cons key rest ih =>
    cases j with
    | obj m =>
      cases v with
      | dict r =>
        have live : r < h.size := by
          by_contra beyond
          rw [Heap.viewDict,List.getElem?_eq_none (not_lt.mp beyond)] at seen
          simp at seen
        obtain ⟨m',members,same⟩ := viewLive live seen
        cases same
        have keys := Entries.viewWithKeys members
        refine ⟨by rw [Distinct,keys]; exact distinct r,?_⟩
        rw [Entries.viewWithLookup members]
        cases (h.cell r).lookup key with
        | none => cases rest <;> trivial
        | some w =>
          rw [Option.bind_some]
          cases inner : w.viewWith fun c => h.view (.dict c) with
          | none => cases rest <;> trivial
          | some j => exact ih inner
      | list items => exact absurd (viewPlain (by simp) seen) (by simp [Json.isObj])
      | _ => simp [Heap.view,PyVal.viewWith] at seen
    | _ => trivial

theorem documentDistinct (reached : Reached spec place s) {resource : String} {o}
    (seen : overlayDocument s resource = some o) (parts : List String) :
    Json.DistinctAlong (some o) parts := by
  unfold overlayDocument at seen
  split at seen
  · cases seen
    cases parts with
    | nil => trivial
    | cons key rest => exact ⟨List.nodup_nil,by cases rest <;> trivial⟩
  · exact distinctView reached.placed.distinct seen parts

theorem documentObject {resource o} (seen : overlayDocument s resource = some o) : ∃ m, o = .obj m := by
  unfold overlayDocument at seen
  split at seen
  · exact ⟨[],(Option.some.inj seen).symm⟩
  · rw [Heap.viewDict] at seen
    obtain ⟨cell,-,members⟩ := Option.bind_eq_some_iff.mp seen
    obtain ⟨m,-,same⟩ := Option.map_eq_some_iff.mp members
    exact ⟨m,same.symm⟩

end

def setsDocument (spec : Specification) (t : PyVal) : Bool :=
  match setOf spec.heap t with
  | none => false
  | some set => (spec.heap.view set.value).isSome

def direct (spec : Specification) (resource : String) (document : Json) (t : PyVal) : Json :=
  match setOf spec.heap t with
  | none => document
  | some set =>
      if set.resource = resource then
        setAt document set.parts ((spec.heap.view set.value).getD .null)
      else document

def faithful (spec : Specification) (base : Members) (resource : String) (s : Store) (t : PyVal) :
    Bool :=
  match setOf spec.heap t with
  | none => true
  | some set => match spec.heap.view set.value with
      | none => true
      | some j => s.heap.view set.value = some j && (set.resource ≠ resource ||
          replaces (some (.obj base)) (overlayDocument s resource) set.parts j)

section
variable {spec : Specification} {base : Members} {resource : String}

theorem setsFound {t} (sets : setsDocument spec t = true) :
    ∃ set j, setOf spec.heap t = some set ∧ spec.heap.view set.value = some j := by
  unfold setsDocument at sets
  split at sets
  · simp at sets
  · rename_i set found
    obtain ⟨j,value⟩ := Option.isSome_iff_exists.mp sets
    exact ⟨set,j,found,value⟩

variable {s : Store}

theorem faithfulSet {t set j} (found : setOf spec.heap t = some set)
    (value : spec.heap.view set.value = some j)
    (faithfully : faithful spec base resource s t = true) :
    s.heap.view set.value = some j ∧ (set.resource = resource →
      replaces (some (.obj base)) (overlayDocument s resource) set.parts j = true) := by
  simp only [faithful,found,value,Bool.and_eq_true,Bool.or_eq_true,decide_eq_true_eq] at faithfully
  exact ⟨faithfully.1,fun same => faithfully.2.resolve_left fun different => different same⟩

theorem readStep (unshared : Unshared spec) {place} (reached : Reached spec place s) {o}
    (seen : overlayDocument s resource = some o) {t} (listed : Listed spec t)
    (sets : setsDocument spec t = true) (faithfully : faithful spec base resource s t = true) :
    ∃ place' s' o', applyTransition t s = (.ok (),s') ∧ Reached spec place' s' ∧
      overlayDocument s' resource = some o' ∧
      overlaid (some (.obj base)) o' = direct spec resource (overlaid (some (.obj base)) o) t := by
  obtain ⟨set,j,found,value⟩ := setsFound sets
  obtain ⟨now,replaced⟩ := faithfulSet found value faithfully
  obtain ⟨place',s',done,after,documents⟩ := reachedSet unshared reached listed found now
  refine ⟨place',s',_,done,after,documents resource o seen,?_⟩
  simp only [direct,found,value,Option.getD_some]
  by_cases here : set.resource = resource
  · have distinct := documentDistinct reached seen set.parts
    have merged := Json.mergedSet distinct (seen ▸ replaced here)
    simp only [Option.getD_some,Json.merged] at merged
    rw [if_pos here.symm,if_pos here,merged]
  · rw [if_neg (Ne.symm here),if_neg here]

theorem readRun (unshared : Unshared spec) {ts} (listed : ∀ t ∈ ts, Listed spec t)
    (sets : ∀ t ∈ ts, setsDocument spec t = true) {place} (reached : Reached spec place s) {o}
    (seen : overlayDocument s resource = some o)
    (faithfully : Runs.Guarded transitionStep (fun s t => faithful spec base resource s t = true) s ts) :
    ∃ s' o', applyTransitions ts s = (.ok (),s') ∧ overlayDocument s' resource = some o' ∧
      overlaid (some (.obj base)) o' =
        ts.foldl (direct spec resource) (overlaid (some (.obj base)) o) := by
  induction ts generalizing place s o with
  | nil => exact ⟨s,o,rfl,seen,rfl⟩
  | cons t rest ih =>
    obtain ⟨now,later⟩ := faithfully
    obtain ⟨place₁,s₁,o₁,done,reached₁,seen₁,same⟩ := readStep unshared reached seen
      (listed t (by simp)) (sets t (by simp)) now
    have next : transitionStep s t = s₁ := congrArg Prod.snd done
    rw [next] at later
    obtain ⟨s₂,o₂,finished,seen₂,whole⟩ := ih (fun t mem => listed t (by simp [mem]))
      (fun t mem => sets t (by simp [mem])) reached₁ seen₁ later
    refine ⟨s₂,o₂,(Stateful.forEachOk done).trans finished,seen₂,?_⟩
    rw [whole,same,List.foldl_cons]

theorem overlayRead {request} (names : normalizeRequestPath request = .ok resource) {o}
    (seen : overlayDocument s resource = some o) : overlayFor s request = .ok o := by
  unfold overlayDocument at seen
  simp only [overlayFor,names,bind,Except.bind]
  split at seen
  · rename_i absent
    simp only [absent]
    exact congrArg Except.ok (Option.some.inj seen)
  · rename_i r present
    simp [present,document,seen]

/- A read serves the fixture with the resource's sets made in it one after another. -/
theorem readYourWrites (unshared : Unshared spec) (fixture identity : Members) {request : String}
    (names : normalizeRequestPath request = .ok resource) {ts : List PyVal}
    (listed : ∀ t ∈ ts, Listed spec t) (sets : ∀ t ∈ ts, setsDocument spec t = true)
    (direct_ : Runs.Guarded transitionStep
      (fun s t => faithful spec (payload fixture identity []) resource s t = true)
      ⟨spec.heap,[]⟩ ts) :
    ∃ s, applyTransitions ts ⟨spec.heap,[]⟩ = (.ok (),s) ∧
      serveFixture fixture identity s request =
        .ok (ts.foldl (direct spec resource) (.obj (payload fixture identity []))) := by
  obtain ⟨s,o,done,seen,same⟩ := readRun unshared listed sets (reachedStart unshared) rfl direct_
  obtain ⟨m,rfl⟩ := documentObject seen
  refine ⟨s,done,?_⟩
  simp only [serveFixture,overlayRead names seen,bind,Except.bind,Json.membersObj,payloadMerged,
    Json.deepUpdateNil] at same ⊢
  rw [Json.overlaidObj,Json.overlaidObj,Json.deepUpdateNil] at same
  rw [← same]

end

theorem bootListed : ∀ t ∈ [PyVal.dict 1,.dict 4], Listed bootSpecification t := by
  intro t mem
  simp only [List.mem_cons,List.not_mem_nil,or_false] at mem
  rcases mem with rfl | rfl
  · exact ⟨.dict 0,by simp [bootSpecification],List.mem_singleton.mpr rfl⟩
  · exact ⟨.dict 3,by simp [bootSpecification],List.mem_singleton.mpr rfl⟩

theorem readYourBootWrites :
    ∃ s, applyTransitions [.dict 1,.dict 4] ⟨bootSpecification.heap,[]⟩ = (.ok (),s) ∧
      serveFixture [("Id",.str "1")] [] s "/a" =
        .ok ([PyVal.dict 1,.dict 4].foldl (direct bootSpecification "/a") (.obj [("Id",.str "1")])) :=
  readYourWrites (by decide) _ _ (by decide +kernel) bootListed (by decide +kernel) (by decide +kernel)

theorem readsBeyondWrites :
    let shared := applyTransitions [.dict 1,.dict 4,.dict 1] ⟨bootSpecification.heap,[]⟩
    let once := applyTransitions [.dict 1] ⟨bootSpecification.heap,[]⟩
    let fixture := [("Boot",Json.obj [("Order",.str "Hdd")])]
    (shared.1 = .ok () ∧
      serveFixture [] [] shared.2 "/a" =
        .ok (.obj [("Boot",.obj [("Mode",.str "UEFI"),("Target",.str "Pxe")])]) ∧
      [PyVal.dict 1,.dict 4,.dict 1].foldl (direct bootSpecification "/a") (.obj []) =
        .obj [("Boot",.obj [("Mode",.str "UEFI")])]) ∧
    once.1 = .ok () ∧
      serveFixture fixture [] once.2 "/a" =
        .ok (.obj [("Boot",.obj [("Order",.str "Hdd"),("Mode",.str "UEFI")])]) ∧
      [PyVal.dict 1].foldl (direct bootSpecification "/a") (.obj fixture) =
        .obj [("Boot",.obj [("Mode",.str "UEFI")])] := by
  decide +kernel

end RedfishCtl.MockEngine
