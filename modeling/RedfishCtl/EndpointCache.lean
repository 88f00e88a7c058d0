import Mathlib.Order.Lattice
import Mathlib.Data.List.Induction
import RedfishCtl.Runs

/-! The cache of the fleet consumer over the listing of its endpoints. The value, its load time and
the flag of a running load are under one condition variable; a loader runs outside the lock. -/
namespace RedfishCtl.EndpointCache

variable {ι τ α ε : Type}

/- Where a caller stands. `checking`, `answering`, `testing`, `claimed`, `discarding` and
`publishing` are inside the lock; `checking` is `_is_fresh`, on the way in and after a wait. -/
inductive Phase (α ε : Type) where
  | calling
  | checking
  | answering
  | testing
  | waiting
  | notified
  | claimed
  | loading
  | failing (e : ε)
  | discarding (e : ε)
  | storing (value : α)
  | publishing (value : α)
  | returned (value : α)
  | raised (e : ε)
  deriving DecidableEq, Repr

structure State (ι τ α ε : Type) where
  value : α
  loadedAt : τ
  busy : Bool
  holder : Option ι
  phase : ι → Phase α ε
  now : τ

inductive Event (ι τ α ε : Type) where
  | step (i : ι)
  | finish (i : ι) (outcome : Except ε α)
  | tick (time : τ)

structure Clock (τ : Type) [LinearOrder τ] where
  sub : τ → τ → τ
  later : ∀ {a b} (c : τ), a ≤ b → sub a c ≤ sub b c
  earlier : ∀ {a b} (c : τ), a ≤ b → sub c b ≤ sub c a

def Phase.wake : Phase α ε → Phase α ε
  | .waiting => .notified
  | phase => phase

def start [Zero τ] (empty : α) (now : τ) : State ι τ α ε :=
  ⟨empty,0,false,none,fun _ => .calling,now⟩

section
variable [DecidableEq ι]

def State.move (s : State ι τ α ε) (i : ι) (phase : Phase α ε) : State ι τ α ε :=
  { s with phase := Function.update s.phase i phase }

def State.acquire (s : State ι τ α ε) (i : ι) (phase : Phase α ε) : State ι τ α ε :=
  if s.holder.isNone then { s.move i phase with holder := some i } else s

def State.release (s : State ι τ α ε) (i : ι) (phase : Phase α ε) : State ι τ α ε :=
  { s.move i phase with holder := none }

end

def State.notifyAll (s : State ι τ α ε) : State ι τ α ε :=
  { s with phase := fun j => (s.phase j).wake }

section
variable [LinearOrder τ] [Zero τ] (clock : Clock τ) (ttl : τ)

/- `bool(self._at) and (time.monotonic() - self._at) <= self._ttl`. -/
def State.isFresh (s : State ι τ α ε) : Bool := s.loadedAt ≠ 0 && clock.sub s.now s.loadedAt ≤ ttl

variable [DecidableEq ι]

def advance (s : State ι τ α ε) (i : ι) : State ι τ α ε :=
  match s.phase i with
  | .calling => s.acquire i .checking
  | .checking => s.move i (if s.isFresh clock ttl then .answering else .testing)
  | .answering => s.release i (.returned s.value)
  | .testing =>
      if s.busy then s.release i .waiting
      else { s.move i .claimed with busy := true }
  | .waiting => s
  | .notified => s.acquire i .checking
  | .claimed => s.release i .loading
  | .loading => s
  | .failing e => s.acquire i (.discarding e)
  | .discarding e => { s.notifyAll.release i (.raised e) with busy := false }
  | .storing value => s.acquire i (.publishing value)
  | .publishing value =>
      { s.notifyAll.release i (.returned value) with value := value, loadedAt := s.now, busy := false }
  | .returned _ => s
  | .raised _ => s

def step (s : State ι τ α ε) : Event ι τ α ε → State ι τ α ε
  | .step i => advance clock ttl s i
  | .finish i outcome =>
      match s.phase i,outcome with
      | .loading,.error e => s.move i (.failing e)
      | .loading,.ok value => s.move i (.storing value)
      | _,_ => s
  | .tick time => if s.now ≤ time then { s with now := time } else s

end

/-! Control: who holds the lock, who loads, who waits. -/

namespace Phase

def inside : Phase α ε → Bool
  | .checking | .answering | .testing | .claimed | .discarding _ | .publishing _ => true
  | .calling | .waiting | .notified | .loading | .failing _ | .storing _ | .returned _
  | .raised _ => false

def active : Phase α ε → Bool
  | .claimed | .loading | .failing _ | .discarding _ | .storing _ | .publishing _ => true
  | .calling | .checking | .answering | .testing | .waiting | .notified | .returned _
  | .raised _ => false

def stale : Phase α ε → Bool
  | .testing | .claimed => true
  | _ => false

@[simp] theorem insideWake (phase : Phase α ε) : phase.wake.inside = phase.inside := by cases phase <;> rfl
@[simp] theorem activeWake (phase : Phase α ε) : phase.wake.active = phase.active := by cases phase <;> rfl
@[simp] theorem staleWake (phase : Phase α ε) : phase.wake.stale = phase.stale := by cases phase <;> rfl

theorem wakeNotWaiting (phase : Phase α ε) : phase.wake ≠ .waiting := by cases phase <;> simp [wake]

theorem wakeLoading {phase : Phase α ε} (woken : phase.wake = .loading) : phase = .loading := by
  cases phase <;> first | rfl | cases woken

theorem staleInside {phase : Phase α ε} (stale : phase.stale = true) : phase.inside = true := by
  cases phase <;> first | rfl | cases stale

end Phase

section
variable [LinearOrder τ] [Zero τ] {clock : Clock τ} {ttl : τ}

variable (clock ttl) in
structure Sound (s : State ι τ α ε) : Prop where
  lock : ∀ i, (s.phase i).inside = true ↔ s.holder = some i
  busy : s.busy = true ↔ ∃ i, (s.phase i).active = true
  single : ∀ {i j}, (s.phase i).active = true → (s.phase j).active = true → i = j
  waits : ∀ {i}, s.phase i = .waiting → s.busy = true
  stale : ∀ {i}, (s.phase i).stale = true → s.isFresh clock ttl = false

theorem soundStart (empty : α) (now : τ) : Sound clock ttl (start empty now : State ι τ α ε) where
  lock := fun i => by simp [start,Phase.inside]
  busy := by simp [start,Phase.active]
  single := fun first => by cases first
  waits := fun waiting => by cases waiting
  stale := fun stale => by cases stale

structure Aside (i : ι) (s t : State ι τ α ε) : Prop where
  inside : ∀ j, j ≠ i → (t.phase j).inside = (s.phase j).inside
  active : ∀ j, j ≠ i → (t.phase j).active = (s.phase j).active
  stale : ∀ j, j ≠ i → (t.phase j).stale = (s.phase j).stale
  waits : ∀ j, j ≠ i → t.phase j = .waiting → s.phase j = .waiting
  holder : ∀ j, j ≠ i → (t.holder = some j ↔ s.holder = some j)

variable {s t : State ι τ α ε} {i : ι}

theorem soundKept (sound : Sound clock ttl s) (aside : Aside i s t)
    (lock : (t.phase i).inside = true ↔ t.holder = some i)
    (active : (t.phase i).active = (s.phase i).active) (busy : t.busy = s.busy)
    (waits : t.phase i = .waiting → s.busy = true)
    (fresh : t.isFresh clock ttl = s.isFresh clock ttl)
    (stale : (t.phase i).stale = true → s.isFresh clock ttl = false) : Sound clock ttl t := by
  have actives : ∀ j, (t.phase j).active = (s.phase j).active := by
    intro j
    by_cases own : j = i
    · rw [own,active]
    · exact aside.active j own
  constructor
  · intro j
    by_cases own : j = i
    · rw [own,lock]
    · rw [aside.inside j own,aside.holder j own]
      exact sound.lock j
  · simp only [busy,actives]
    exact sound.busy
  · intro j k first second
    rw [actives] at first second
    exact sound.single first second
  · intro j waiting
    rw [busy]
    by_cases own : j = i
    · subst own
      exact waits waiting
    · exact sound.waits (aside.waits j own waiting)
  · intro j seen
    rw [fresh]
    by_cases own : j = i
    · subst own
      exact stale seen
    · rw [aside.stale j own] at seen
      exact sound.stale seen

theorem soundClaimed (sound : Sound clock ttl s) (aside : Aside i s t)
    (lock : (t.phase i).inside = true ↔ t.holder = some i) (idle : s.busy = false)
    (active : (t.phase i).active = true) (busy : t.busy = true)
    (fresh : t.isFresh clock ttl = s.isFresh clock ttl)
    (stale : s.isFresh clock ttl = false) : Sound clock ttl t := by
  have nobody : ∀ j, j ≠ i → (t.phase j).active ≠ true := by
    intro j other now
    rw [aside.active j other] at now
    rw [sound.busy.mpr ⟨j,now⟩] at idle
    cases idle
  have only : ∀ {j}, (t.phase j).active = true → j = i := by
    intro j now
    by_contra other
    exact nobody j other now
  refine ⟨?_,⟨fun _ => ⟨i,active⟩,fun _ => busy⟩,fun first second => (only first).trans (only second).symm,
    fun _ => busy,fun _ => fresh.trans stale⟩
  intro j
  by_cases own : j = i
  · rw [own,lock]
  · rw [aside.inside j own,aside.holder j own]
    exact sound.lock j

theorem soundEnded (sound : Sound clock ttl s) (aside : Aside i s t)
    (held : s.holder = some i) (lock : t.holder = none) (out : (t.phase i).inside = false)
    (before : (s.phase i).active = true) (after : (t.phase i).active = false) (busy : t.busy = false)
    (awake : ∀ j, t.phase j ≠ .waiting) : Sound clock ttl t := by
  have outside : ∀ j, (t.phase j).inside = false := by
    intro j
    by_cases own : j = i
    · rw [own,out]
    · rw [aside.inside j own,Bool.eq_false_iff]
      intro inside
      rw [(sound.lock j).mp inside] at held
      exact own (Option.some.inj held)
  have nobody : ∀ j, (t.phase j).active = false := by
    intro j
    by_cases own : j = i
    · rw [own,after]
    · rw [aside.active j own,Bool.eq_false_iff]
      intro now
      exact own (sound.single now before)
  constructor
  · intro j
    simp [outside j,lock]
  · simp [busy,nobody]
  · intro j k first
    rw [nobody j] at first
    cases first
  · intro j waiting
    exact absurd waiting (awake j)
  · intro j seen
    have inside := Phase.staleInside seen
    rw [outside j] at inside
    cases inside

theorem staleTick {time} (later : s.now ≤ time) (stale : s.isFresh clock ttl = false) :
    ({ s with now := time } : State ι τ α ε).isFresh clock ttl = false := by
  unfold State.isFresh at stale ⊢
  simp only [Bool.and_eq_false_iff,decide_eq_false_iff_not,not_not,not_le] at stale ⊢
  exact stale.imp_right fun old => lt_of_lt_of_le old (clock.later s.loadedAt later)

variable [DecidableEq ι]

omit [LinearOrder τ] [Zero τ] in
theorem asideUpdate {phase} (moved : t.phase = Function.update s.phase i phase)
    (holder : ∀ j, j ≠ i → (t.holder = some j ↔ s.holder = some j)) : Aside i s t := by
  have same : ∀ j, j ≠ i → t.phase j = s.phase j := by
    intro j other
    rw [moved,Function.update_of_ne other]
  exact ⟨fun j other => by rw [same j other],fun j other => by rw [same j other],
    fun j other => by rw [same j other],fun j other waiting => (same j other).symm.trans waiting,holder⟩

omit [LinearOrder τ] [Zero τ] in
theorem asideWoken {phase} (moved : t.phase = Function.update (fun j => (s.phase j).wake) i phase)
    (holder : ∀ j, j ≠ i → (t.holder = some j ↔ s.holder = some j)) : Aside i s t := by
  have same : ∀ j, j ≠ i → t.phase j = (s.phase j).wake := by
    intro j other
    rw [moved,Function.update_of_ne other]
  refine ⟨fun j other => by rw [same j other,Phase.insideWake],
    fun j other => by rw [same j other,Phase.activeWake],
    fun j other => by rw [same j other,Phase.staleWake],fun j other waiting => ?_,holder⟩
  exact absurd ((same j other).symm.trans waiting) (Phase.wakeNotWaiting _)

omit [LinearOrder τ] [Zero τ] in
theorem wokenAwake {phase} (moved : t.phase = Function.update (fun j => (s.phase j).wake) i phase)
    (moves : phase ≠ .waiting) (j : ι) : t.phase j ≠ .waiting := by
  rw [moved]
  by_cases own : j = i
  · rw [own,Function.update_self]
    exact moves
  · rw [Function.update_of_ne own]
    exact Phase.wakeNotWaiting _

omit [LinearOrder τ] [Zero τ] in
theorem phaseUpdate {f phase} (moved : t.phase = Function.update f i phase) : t.phase i = phase := by
  rw [moved,Function.update_self]

theorem soundAcquire (sound : Sound clock ttl s) {phase} (inside : phase.inside = true)
    (active : phase.active = (s.phase i).active) (stale : phase.stale = false) :
    Sound clock ttl (s.acquire i phase) := by
  unfold State.acquire
  split
  · rename_i free
    have none := Option.isNone_iff_eq_none.mp free
    have own : ({ s.move i phase with holder := some i } : State ι τ α ε).phase i = phase := phaseUpdate rfl
    refine soundKept sound (asideUpdate rfl fun j other => ?_) ?_ ?_ rfl ?_ rfl ?_
    · simp [none,Ne.symm other]
    · rw [own]
      simp [inside]
    · rw [own,active]
    · rw [own]
      intro waiting
      rw [waiting] at inside
      cases inside
    · rw [own,stale]
      intro seen
      cases seen
  · exact sound

theorem soundMove (sound : Sound clock ttl s) {phase} (held : s.holder = some i)
    (inside : phase.inside = true) (active : phase.active = (s.phase i).active)
    (stale : phase.stale = true → s.isFresh clock ttl = false) : Sound clock ttl (s.move i phase) := by
  have own : (s.move i phase).phase i = phase := phaseUpdate rfl
  refine soundKept sound (asideUpdate rfl fun j _ => Iff.rfl) ?_ ?_ rfl ?_ rfl ?_
  · rw [own]
    simp [inside,State.move,held]
  · rw [own,active]
  · rw [own]
    intro waiting
    rw [waiting] at inside
    cases inside
  · rw [own]
    exact stale

theorem soundRelease (sound : Sound clock ttl s) {phase : Phase α ε} (held : s.holder = some i)
    (outside : phase.inside = false) (active : phase.active = (s.phase i).active)
    (waits : phase = .waiting → s.busy = true) : Sound clock ttl (s.release i phase) := by
  have own : (s.release i phase).phase i = phase := phaseUpdate rfl
  refine soundKept sound (asideUpdate rfl fun j other => ?_) ?_ ?_ rfl ?_ rfl ?_
  · simp [State.release,held,Ne.symm other]
  · rw [own]
    simp [outside,State.release]
  · rw [own,active]
  · rw [own]
    exact waits
  · rw [own]
    intro seen
    rw [Phase.staleInside seen] at outside
    cases outside

theorem soundAdvance (sound : Sound clock ttl s) (i : ι) : Sound clock ttl (advance clock ttl s i) := by
  have lock := (sound.lock i).mp
  unfold advance
  cases now : s.phase i with
  | calling => exact soundAcquire sound rfl (by rw [now]; rfl) rfl
  | notified => exact soundAcquire sound rfl (by rw [now]; rfl) rfl
  | failing e => exact soundAcquire sound rfl (by rw [now]; rfl) rfl
  | storing value => exact soundAcquire sound rfl (by rw [now]; rfl) rfl
  | checking =>
    have held := lock (by rw [now]; rfl)
    dsimp only
    split
    · exact soundMove sound held rfl (by rw [now]; rfl) fun seen => by cases seen
    · rename_i stale
      exact soundMove sound held rfl (by rw [now]; rfl) fun _ => by simpa using stale
  | answering =>
    exact soundRelease sound (lock (by rw [now]; rfl)) rfl (by rw [now]; rfl) fun other => by cases other
  | testing =>
    have held := lock (by rw [now]; rfl)
    have stale := sound.stale (by rw [now]; rfl)
    dsimp only
    split
    · rename_i busy
      exact soundRelease sound held rfl (by rw [now]; rfl) fun _ => busy
    rename_i idle
    have own : ({ s.move i .claimed with busy := true } : State ι τ α ε).phase i = .claimed :=
      phaseUpdate rfl
    refine soundClaimed sound (asideUpdate rfl fun j _ => Iff.rfl) ?_ (by simpa using idle)
      (by rw [own]; rfl) rfl rfl stale
    rw [own]
    exact ⟨fun _ => held,fun _ => rfl⟩
  | claimed =>
    exact soundRelease sound (lock (by rw [now]; rfl)) rfl (by rw [now]; rfl) fun other => by cases other
  | discarding e =>
    have held := lock (by rw [now]; rfl)
    refine soundEnded sound (asideWoken rfl fun j other => ?_) held rfl ?_ (by rw [now]; rfl) ?_ rfl
      (wokenAwake rfl (by simp))
    · simp [State.release,held,Ne.symm other]
    · rw [phaseUpdate rfl]
      rfl
    · rw [phaseUpdate rfl]
      rfl
  | publishing value =>
    have held := lock (by rw [now]; rfl)
    refine soundEnded sound (asideWoken rfl fun j other => ?_) held rfl ?_ (by rw [now]; rfl) ?_ rfl
      (wokenAwake rfl (by simp))
    · simp [State.release,held,Ne.symm other]
    · rw [phaseUpdate rfl]
      rfl
    · rw [phaseUpdate rfl]
      rfl
  | waiting => exact sound
  | loading => exact sound
  | returned value => exact sound
  | raised e => exact sound

theorem soundFinish (sound : Sound clock ttl s) {phase} (now : s.phase i = .loading)
    (outside : phase.inside = false) (active : phase.active = true) (stale : phase.stale = false)
    (moves : phase ≠ .waiting) : Sound clock ttl (s.move i phase) := by
  have own : (s.move i phase).phase i = phase := phaseUpdate rfl
  have free := sound.lock i
  rw [now] at free
  refine soundKept sound (asideUpdate rfl fun j _ => Iff.rfl) ?_ ?_ rfl ?_ rfl ?_
  · rw [own,outside]
    exact free
  · rw [own,active,now]
    rfl
  · rw [own]
    exact fun waiting => absurd waiting moves
  · rw [own,stale]
    intro seen
    cases seen

theorem soundStep (s : State ι τ α ε) (e : Event ι τ α ε) (sound : Sound clock ttl s) :
    Sound clock ttl (step clock ttl s e) := by
  cases e with
  | step i => exact soundAdvance sound i
  | finish i outcome =>
    dsimp only [step]
    split
    · rename_i now
      exact soundFinish sound now rfl rfl rfl (by simp)
    · rename_i now
      exact soundFinish sound now rfl rfl rfl (by simp)
    · exact sound
  | tick time =>
    dsimp only [step]
    split
    · rename_i later
      exact ⟨sound.lock,sound.busy,sound.single,sound.waits,fun seen => staleTick later (sound.stale seen)⟩
    · exact sound

end

/-! What a caller is told. -/

section
variable [DecidableEq ι] [LinearOrder τ] [Zero τ] (clock : Clock τ) (ttl : τ) (empty : α) (now : τ)

def after (events : List (Event ι τ α ε)) : State ι τ α ε :=
  Runs.run (step clock ttl) (start empty now) events

theorem soundAfter (events : List (Event ι τ α ε)) : Sound clock ttl (after clock ttl empty now events) :=
  Runs.invariant soundStep (soundStart empty now) events

theorem afterSnoc (events : List (Event ι τ α ε)) (e : Event ι τ α ε) :
    after clock ttl empty now (events ++ [e]) = step clock ttl (after clock ttl empty now events) e := by
  unfold after
  rw [Runs.runAppend]
  rfl

def Ended (events : List (Event ι τ α ε)) (i : ι) (outcome : Except ε α) : Prop :=
  ∃ before later, events = before ++ .finish i outcome::later ∧
    (after clock ttl empty now before).phase i = .loading

def Seen (events : List (Event ι τ α ε)) (i : ι) (value : α) : Prop :=
  ∃ before later, events = before ++ later ∧ (after clock ttl empty now before).holder = some i ∧
    (after clock ttl empty now before).value = value ∧
    (after clock ttl empty now before).isFresh clock ttl = true

def Told (events : List (Event ι τ α ε)) (i : ι) (stored : α) : Phase α ε → Prop
  | .answering => Seen clock ttl empty now events i stored
  | .storing value | .publishing value => Ended clock ttl empty now events i (.ok value)
  | .returned value => Ended clock ttl empty now events i (.ok value) ∨ Seen clock ttl empty now events i value
  | .failing e | .discarding e | .raised e => Ended clock ttl empty now events i (.error e)
  | .calling | .checking | .testing | .waiting | .notified | .claimed | .loading => True

variable {clock ttl empty now} {events : List (Event ι τ α ε)} {i : ι}

theorem endedLater {outcome} (ended : Ended clock ttl empty now events i outcome)
    (e : Event ι τ α ε) : Ended clock ttl empty now (events ++ [e]) i outcome := by
  obtain ⟨before,later,rfl,loading⟩ := ended
  exact ⟨before,later ++ [e],by simp,loading⟩

theorem seenLater {value} (seen : Seen clock ttl empty now events i value) (e : Event ι τ α ε) :
    Seen clock ttl empty now (events ++ [e]) i value := by
  obtain ⟨before,later,rfl,rest⟩ := seen
  exact ⟨before,later ++ [e],by simp,rest⟩

theorem toldLater {stored stored' phase} (told : Told clock ttl empty now events i stored phase)
    (e : Event ι τ α ε) (same : phase = .answering → stored' = stored) :
    Told clock ttl empty now (events ++ [e]) i stored' phase := by
  cases phase with
  | answering =>
    rw [same rfl]
    exact seenLater told e
  | storing value => exact endedLater told e
  | publishing value => exact endedLater told e
  | returned value => exact told.imp (fun ended => endedLater ended e) fun seen => seenLater seen e
  | failing x => exact endedLater told e
  | discarding x => exact endedLater told e
  | raised x => exact endedLater told e
  | _ => trivial

theorem toldWake {stored phase} (told : Told clock ttl empty now events i stored phase) :
    Told clock ttl empty now events i stored phase.wake := by
  cases phase <;> exact told

theorem othersAdvance (s : State ι τ α ε) (sound : Sound clock ttl s) {i j} (other : j ≠ i) :
    ((advance clock ttl s i).phase j = s.phase j ∨ (advance clock ttl s i).phase j = (s.phase j).wake) ∧
      (s.phase j = .answering → (advance clock ttl s i).value = s.value) := by
  have acquire : ∀ phase, (s.acquire i phase).phase j = s.phase j ∧ (s.acquire i phase).value = s.value := by
    intro phase
    unfold State.acquire
    split
    · exact ⟨Function.update_of_ne other ..,rfl⟩
    · exact ⟨rfl,rfl⟩
  have move : ∀ phase, (s.move i phase).phase j = s.phase j := fun _ => Function.update_of_ne other ..
  have release : ∀ phase, (s.release i phase).phase j = s.phase j := fun _ => Function.update_of_ne other ..
  unfold advance
  cases phase : s.phase i with
  | publishing value =>
    refine ⟨.inr (Function.update_of_ne other ..),fun answering => ?_⟩
    have first := (sound.lock i).mp (by rw [phase]; rfl)
    have second := (sound.lock j).mp (by rw [answering]; rfl)
    rw [first] at second
    exact absurd (Option.some.inj second).symm other
  | discarding e => exact ⟨.inr (Function.update_of_ne other ..),fun _ => rfl⟩
  | calling => exact ⟨.inl (acquire _).1,fun _ => (acquire _).2⟩
  | notified => exact ⟨.inl (acquire _).1,fun _ => (acquire _).2⟩
  | failing e => exact ⟨.inl (acquire _).1,fun _ => (acquire _).2⟩
  | storing value => exact ⟨.inl (acquire _).1,fun _ => (acquire _).2⟩
  | checking => exact ⟨.inl (move _),fun _ => rfl⟩
  | answering => exact ⟨.inl (release _),fun _ => rfl⟩
  | testing =>
    dsimp only
    split
    · exact ⟨.inl (release _),fun _ => rfl⟩
    · exact ⟨.inl (move _),fun _ => rfl⟩
  | claimed => exact ⟨.inl (release _),fun _ => rfl⟩
  | waiting => exact ⟨.inl rfl,fun _ => rfl⟩
  | loading => exact ⟨.inl rfl,fun _ => rfl⟩
  | returned value => exact ⟨.inl rfl,fun _ => rfl⟩
  | raised e => exact ⟨.inl rfl,fun _ => rfl⟩

theorem toldAdvance (told : Told clock ttl empty now events i (after clock ttl empty now events).value
      ((after clock ttl empty now events).phase i)) :
    Told clock ttl empty now (events ++ [.step i]) i
      (advance clock ttl (after clock ttl empty now events) i).value
      ((advance clock ttl (after clock ttl empty now events) i).phase i) := by
  have sound := soundAfter clock ttl empty now events
  revert told sound
  generalize state : after clock ttl empty now events = s
  intro told sound
  have acquire : ∀ {phase}, Told clock ttl empty now (events ++ [.step i]) i s.value (s.phase i) →
      Told clock ttl empty now (events ++ [.step i]) i s.value phase →
      Told clock ttl empty now (events ++ [.step i]) i (s.acquire i phase).value ((s.acquire i phase).phase i) := by
    intro phase kept next
    unfold State.acquire
    split
    · rw [phaseUpdate rfl]
      exact next
    · exact kept
  have kept := toldLater told (.step i) fun _ => rfl
  unfold advance
  cases phase : s.phase i with
  | calling => exact acquire kept trivial
  | notified => exact acquire kept trivial
  | failing e =>
    rw [phase] at kept
    exact acquire (by rw [phase]; exact kept) kept
  | storing value =>
    rw [phase] at kept
    exact acquire (by rw [phase]; exact kept) kept
  | checking =>
    dsimp only
    rw [phaseUpdate rfl]
    split
    · rename_i fresh
      subst state
      exact ⟨events,[.step i],rfl,(sound.lock i).mp (by rw [phase]; rfl),rfl,fresh⟩
    · trivial
  | answering =>
    rw [phaseUpdate rfl]
    rw [phase] at kept
    exact .inr kept
  | testing =>
    dsimp only
    split
    · rw [phaseUpdate rfl]
      trivial
    · rw [phaseUpdate rfl]
      trivial
  | claimed =>
    rw [phaseUpdate rfl]
    trivial
  | discarding e =>
    rw [phaseUpdate rfl]
    rw [phase] at kept
    exact kept
  | publishing value =>
    rw [phaseUpdate rfl]
    rw [phase] at kept
    exact .inl kept
  | waiting =>
    trivial
  | loading =>
    trivial
  | returned value => exact kept
  | raised e => exact kept

variable (clock ttl empty now) in
theorem toldAfter (events : List (Event ι τ α ε)) (i : ι) :
    Told clock ttl empty now events i (after clock ttl empty now events).value
      ((after clock ttl empty now events).phase i) := by
  induction events using List.reverseRecOn generalizing i with
  | nil => trivial
  | append_singleton events e ih =>
    rw [afterSnoc]
    have sound := soundAfter clock ttl empty now events
    cases e with
    | step j =>
      by_cases own : i = j
      · subst own
        exact toldAdvance (ih i)
      obtain ⟨phase,value⟩ := othersAdvance (after clock ttl empty now events) sound own
      have kept := toldLater (ih i) (.step j) value
      rcases phase with same | woken
      · dsimp only [step]
        rw [same]
        exact kept
      · dsimp only [step]
        rw [woken]
        exact toldWake kept
    | finish j outcome =>
      have kept := toldLater (ih i) (.finish j outcome) fun _ => rfl
      have moved : ∀ phase, (after clock ttl empty now events).phase j = .loading →
          (i = j → Told clock ttl empty now (events ++ [.finish j outcome]) i
            (after clock ttl empty now events).value phase) →
          Told clock ttl empty now (events ++ [.finish j outcome]) i
            ((after clock ttl empty now events).move j phase).value
            (((after clock ttl empty now events).move j phase).phase i) := by
        intro phase _ own
        by_cases same : i = j
        · subst same
          rw [phaseUpdate rfl]
          exact own rfl
        · rw [show ((after clock ttl empty now events).move j phase).phase i =
            (after clock ttl empty now events).phase i from Function.update_of_ne same ..]
          exact kept
      dsimp only [step]
      split
      · rename_i loading
        refine moved _ loading ?_
        rintro rfl
        exact ⟨events,[],rfl,loading⟩
      · rename_i loading
        refine moved _ loading ?_
        rintro rfl
        exact ⟨events,[],rfl,loading⟩
      · exact kept
    | tick time =>
      have kept := toldLater (ih i) (.tick time) fun _ => rfl
      dsimp only [step]
      split
      · exact kept
      · exact kept

/-! Times. -/

structure Timed (s : State ι τ α ε) : Prop where
  positive : 0 < s.now
  past : s.loadedAt ≤ s.now

variable {s : State ι τ α ε}

variable (clock ttl) in
theorem advanceTimes (s : State ι τ α ε) (i : ι) : (advance clock ttl s i).now = s.now ∧
    ((advance clock ttl s i).loadedAt = s.loadedAt ∨ (advance clock ttl s i).loadedAt = s.now) := by
  have acquire : ∀ phase, (s.acquire i phase).now = s.now ∧ (s.acquire i phase).loadedAt = s.loadedAt := by
    intro phase
    unfold State.acquire
    split
    · exact ⟨rfl,rfl⟩
    · exact ⟨rfl,rfl⟩
  unfold advance
  cases s.phase i with
  | calling => exact ⟨(acquire _).1,.inl (acquire _).2⟩
  | notified => exact ⟨(acquire _).1,.inl (acquire _).2⟩
  | failing e => exact ⟨(acquire _).1,.inl (acquire _).2⟩
  | storing value => exact ⟨(acquire _).1,.inl (acquire _).2⟩
  | testing =>
    dsimp only
    split
    · exact ⟨rfl,.inl rfl⟩
    · exact ⟨rfl,.inl rfl⟩
  | publishing value => exact ⟨rfl,.inr rfl⟩
  | _ => exact ⟨rfl,.inl rfl⟩

variable (clock ttl) in
theorem timedStep (s : State ι τ α ε) (e : Event ι τ α ε) (timed : Timed s) :
    Timed (step clock ttl s e) ∧ s.loadedAt ≤ (step clock ttl s e).loadedAt := by
  cases e with
  | step i =>
    obtain ⟨same,loaded⟩ := advanceTimes clock ttl s i
    have between : s.loadedAt ≤ (advance clock ttl s i).loadedAt ∧ (advance clock ttl s i).loadedAt ≤ s.now := by
      rcases loaded with kept | new
      · exact ⟨kept.ge,kept.le.trans timed.past⟩
      · exact ⟨timed.past.trans new.ge,new.le⟩
    exact ⟨⟨same ▸ timed.positive,between.2.trans same.ge⟩,between.1⟩
  | finish i outcome =>
    dsimp only [step]
    split
    · exact ⟨⟨timed.positive,timed.past⟩,le_rfl⟩
    · exact ⟨⟨timed.positive,timed.past⟩,le_rfl⟩
    · exact ⟨timed,le_rfl⟩
  | tick time =>
    dsimp only [step]
    split
    · rename_i later
      exact ⟨⟨lt_of_lt_of_le timed.positive later,timed.past.trans later⟩,le_rfl⟩
    · exact ⟨timed,le_rfl⟩

variable (clock ttl) in
theorem timedRun (timed : Timed s) (events : List (Event ι τ α ε)) :
    Timed (Runs.run (step clock ttl) s events) ∧
      s.loadedAt ≤ (Runs.run (step clock ttl) s events).loadedAt := by
  induction events generalizing s with
  | nil => exact ⟨timed,le_rfl⟩
  | cons e rest ih =>
    obtain ⟨next,later⟩ := timedStep clock ttl s e timed
    obtain ⟨last,more⟩ := ih next
    exact ⟨last,later.trans more⟩

def State.ahead (s : State ι τ α ε) (clock : Clock τ) (ttl : τ) : Phase α ε → Phase α ε
  | .calling => .checking
  | .checking => if s.isFresh clock ttl then .answering else .testing
  | .answering => .returned s.value
  | .testing => if s.busy then .waiting else .claimed
  | .waiting => .waiting
  | .notified => .checking
  | .claimed => .loading
  | .loading => .loading
  | .failing e => .discarding e
  | .discarding e => .raised e
  | .storing value => .publishing value
  | .publishing value => .returned value
  | .returned value => .returned value
  | .raised e => .raised e

theorem advanceOwn (s : State ι τ α ε) (i : ι) : (advance clock ttl s i).phase i = s.phase i ∨
    (advance clock ttl s i).phase i = s.ahead clock ttl (s.phase i) := by
  have acquire : ∀ {old phase}, s.phase i = old →
      (s.acquire i phase).phase i = old ∨ (s.acquire i phase).phase i = phase := by
    intro old phase same
    unfold State.acquire
    split
    · exact .inr (phaseUpdate rfl)
    · exact .inl same
  unfold advance
  cases phase : s.phase i with
  | calling => exact acquire phase
  | notified => exact acquire phase
  | failing e => exact acquire phase
  | storing value => exact acquire phase
  | testing =>
    dsimp only [State.ahead]
    split
    · exact .inr (phaseUpdate rfl)
    · exact .inr (phaseUpdate rfl)
  | waiting => exact .inl phase
  | loading => exact .inl phase
  | returned value => exact .inl phase
  | raised e => exact .inl phase
  | _ => exact .inr (phaseUpdate rfl)

omit [DecidableEq ι] in
theorem aheadLoading {phase} (ahead : s.ahead clock ttl phase = .loading) :
    phase = .claimed ∨ phase = .loading := by
  cases phase with
  | claimed => exact .inl rfl
  | loading => exact .inr rfl
  | checking =>
    dsimp only [State.ahead] at ahead
    split at ahead <;> cases ahead
  | testing =>
    dsimp only [State.ahead] at ahead
    split at ahead <;> cases ahead
  | _ => cases ahead

theorem startsClaimed (sound : Sound clock ttl s) {e : Event ι τ α ε} (idle : s.phase i ≠ .loading)
    (starts : (step clock ttl s e).phase i = .loading) : s.phase i = .claimed := by
  cases e with
  | step j =>
    by_cases own : i = j
    · subst own
      rcases advanceOwn s i with same | next
      · exact absurd (same.symm.trans starts) idle
      · exact (aheadLoading (next.symm.trans starts)).resolve_right idle
    · rcases (othersAdvance s sound own).1 with same | woken
      · exact absurd (same.symm.trans starts) idle
      · exact absurd (Phase.wakeLoading (woken.symm.trans starts)) idle
  | finish j outcome =>
    have other : ∀ {phase}, phase ≠ .loading → (s.move j phase).phase i ≠ .loading := by
      intro phase differs
      by_cases own : i = j
      · subst own
        rw [phaseUpdate rfl]
        exact differs
      · rw [show (s.move j phase).phase i = s.phase i from Function.update_of_ne own ..]
        exact idle
    dsimp only [step] at starts
    split at starts
    · exact absurd starts (other (by simp))
    · exact absurd starts (other (by simp))
    · exact absurd starts idle
  | tick time =>
    dsimp only [step] at starts
    split at starts
    · exact absurd starts idle
    · exact absurd starts idle

theorem startsStale (positive : 0 < now) (events : List (Event ι τ α ε)) {e}
    (idle : (after clock ttl empty now events).phase i ≠ .loading)
    (starts : (step clock ttl (after clock ttl empty now events) e).phase i = .loading)
    {before later j value} (split : events = before ++ .step j::later)
    (publishes : (after clock ttl empty now before).phase j = .publishing value) :
    ttl < clock.sub (after clock ttl empty now events).now (after clock ttl empty now before).now := by
  have sound := soundAfter clock ttl empty now events
  have first : Timed (start empty now : State ι τ α ε) := ⟨positive,positive.le⟩
  have timed : Timed (after clock ttl empty now before) := (timedRun clock ttl first before).1
  have loaded : (after clock ttl empty now before).now ≤ (after clock ttl empty now events).loadedAt := by
    have stored : (step clock ttl (after clock ttl empty now before) (.step j)).loadedAt =
        (after clock ttl empty now before).now := by
      dsimp only [step]
      unfold advance
      rw [publishes]
    have run := (timedRun clock ttl (timedStep clock ttl _ (.step j) timed).1 later).2
    rw [stored] at run
    rw [split]
    unfold after
    rw [Runs.runAppend]
    exact run
  have stale := sound.stale (i := i) (by rw [startsClaimed sound idle starts]; rfl)
  have known := (lt_of_lt_of_le timed.positive loaded).ne'
  unfold State.isFresh at stale
  simp only [Bool.and_eq_false_iff,decide_eq_false_iff_not,not_not,not_le,known,false_or] at stale
  exact lt_of_lt_of_le stale (clock.earlier _ loaded)

end

end RedfishCtl.EndpointCache
