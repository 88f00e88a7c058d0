import RedfishCtl.EndpointCache
import RedfishCtl.Monitors

/-! Every call of `get` ends: a caller loads at most once, so only so many wake-ups are to come. -/
namespace RedfishCtl.EndpointCache

variable {ι τ α ε : Type}

namespace Phase

def weight (n : ℕ) : Phase α ε → ℕ
  | .calling => n + 10
  | .notified => n + 10
  | .checking => n + 9
  | .testing => n + 8
  | .waiting => n + 7
  | .claimed => n + 6
  | .loading => n + 5
  | .failing _ => n + 4
  | .storing _ => n + 4
  | .discarding _ => n + 3
  | .publishing _ => n + 3
  | .answering => 2
  | .returned _ => 1
  | .raised _ => 1

theorem weightWake (n : ℕ) (phase : Phase α ε) : phase.wake.weight n ≤ phase.weight n + 3 := by
  cases phase <;> simp [wake,weight]

def ended : Phase α ε → Bool
  | .returned _ | .raised _ => true
  | .calling | .checking | .answering | .testing | .waiting | .notified | .claimed | .loading
  | .failing _ | .discarding _ | .storing _ | .publishing _ => false

theorem endedIdle {phase : Phase α ε} (ended : phase.ended = true) : phase.active = false := by
  cases phase <;> first | rfl | cases ended

end Phase

section
variable [DecidableEq ι] [LinearOrder τ] [Zero τ] (clock : Clock τ) (ttl : τ)

def monitor : Monitors.Monitor (State ι τ α ε) ι (Phase α ε) (Event ι τ α ε) where
  step := step clock ttl
  act := .step
  phase := State.phase
  holder := State.holder
  inside := Phase.inside
  waiting := fun phase => phase = .waiting
  outside := fun phase => phase = .loading
  ended := fun phase => phase.ended = true

variable {clock ttl} {s : State ι τ α ε} {i : ι}

theorem holderMoves (sound : Sound clock ttl s) (held : s.holder = some i) :
    (advance clock ttl s i).phase i ≠ s.phase i := by
  have inside := (sound.lock i).mpr held
  unfold advance
  cases now : s.phase i with
  | checking =>
    rw [phaseUpdate rfl]
    split <;> simp
  | answering =>
    rw [phaseUpdate rfl]
    simp
  | testing =>
    dsimp only
    split
    · rw [phaseUpdate rfl]
      simp
    · rw [phaseUpdate rfl]
      simp
  | claimed =>
    rw [phaseUpdate rfl]
    simp
  | discarding e =>
    rw [phaseUpdate rfl]
    simp
  | publishing value =>
    rw [phaseUpdate rfl]
    simp
  | _ => rw [now] at inside; cases inside

omit [LinearOrder τ] [Zero τ] in
theorem acquireStuck {phase} (stuck : (s.acquire i phase).phase i = s.phase i)
    (other : phase ≠ s.phase i) : s.holder ≠ none := by
  intro free
  unfold State.acquire at stuck
  rw [if_pos (by simp [free]),phaseUpdate rfl] at stuck
  exact other stuck

theorem advanceStuck (sound : Sound clock ttl s) (stuck : (advance clock ttl s i).phase i = s.phase i) :
    s.phase i = .waiting ∨ s.phase i = .loading ∨ (s.phase i).ended = true ∨ s.holder ≠ none := by
  have locked : (s.phase i).inside = true → s.holder ≠ none := by
    intro held
    rw [(sound.lock i).mp held]
    simp
  unfold advance at stuck
  cases now : s.phase i with
  | waiting => exact .inl rfl
  | loading => exact .inr (.inl rfl)
  | returned value => exact .inr (.inr (.inl rfl))
  | raised e => exact .inr (.inr (.inl rfl))
  | calling =>
    rw [now] at stuck
    exact .inr (.inr (.inr (acquireStuck (stuck.trans now.symm) (by simp [now]))))
  | notified =>
    rw [now] at stuck
    exact .inr (.inr (.inr (acquireStuck (stuck.trans now.symm) (by simp [now]))))
  | failing e =>
    rw [now] at stuck
    exact .inr (.inr (.inr (acquireStuck (stuck.trans now.symm) (by simp [now]))))
  | storing value =>
    rw [now] at stuck
    exact .inr (.inr (.inr (acquireStuck (stuck.trans now.symm) (by simp [now]))))
  | _ => exact .inr (.inr (.inr (locked (by rw [now]; rfl))))

end

section
variable [Fintype ι] [DecidableEq ι] [LinearOrder τ] [Zero τ] {clock : Clock τ} {ttl : τ}

def effort (phases : ι → Phase α ε) : ℕ := Monitors.effort (Phase.weight (3 * Fintype.card ι)) phases

def Spends (s t : State ι τ α ε) : Prop := t.phase = s.phase ∨ effort t.phase < effort s.phase

variable {s t : State ι τ α ε} {i : ι} {old phase : Phase α ε}

omit [LinearOrder τ] [Zero τ] in
theorem spendsMoved (now : s.phase i = old) (moved : t.phase = Function.update s.phase i phase)
    (less : phase.weight (3 * Fintype.card ι) < old.weight (3 * Fintype.card ι)) : Spends s t := by
  right
  rw [moved]
  exact Monitors.effortMoved (now ▸ less)

omit [LinearOrder τ] [Zero τ] in
theorem spendsAcquire (now : s.phase i = old)
    (less : phase.weight (3 * Fintype.card ι) < old.weight (3 * Fintype.card ι)) :
    Spends s (s.acquire i phase) := by
  unfold State.acquire
  split
  · exact spendsMoved now rfl less
  · exact .inl rfl

omit [LinearOrder τ] [Zero τ] in
theorem spendsWoken (now : s.phase i = old)
    (moved : t.phase = Function.update (fun j => (s.phase j).wake) i phase)
    (less : phase.weight (3 * Fintype.card ι) + 3 * Fintype.card ι <
      old.weight (3 * Fintype.card ι)) : Spends s t := by
  right
  rw [moved]
  exact Monitors.effortWoken (Phase.weightWake _) (now ▸ less)

variable (clock ttl) in
theorem spendsAdvance (s : State ι τ α ε) (i : ι) : Spends s (advance clock ttl s i) := by
  unfold advance
  cases now : s.phase i with
  | calling => exact spendsAcquire now (by simp [Phase.weight])
  | notified => exact spendsAcquire now (by simp [Phase.weight])
  | failing e => exact spendsAcquire now (by simp [Phase.weight])
  | storing value => exact spendsAcquire now (by simp [Phase.weight])
  | checking =>
    refine spendsMoved now rfl ?_
    split <;> simp [Phase.weight]
  | answering => exact spendsMoved now rfl (by simp [Phase.weight])
  | testing =>
    dsimp only
    split
    · exact spendsMoved now rfl (by simp [Phase.weight])
    · exact spendsMoved now rfl (by simp [Phase.weight])
  | claimed => exact spendsMoved now rfl (by simp [Phase.weight])
  | discarding e => exact spendsWoken now rfl (by simp [Phase.weight]; omega)
  | publishing value => exact spendsWoken now rfl (by simp [Phase.weight]; omega)
  | waiting => exact .inl rfl
  | loading => exact .inl rfl
  | returned value => exact .inl rfl
  | raised e => exact .inl rfl

variable (clock ttl) in
theorem spendsStep (s : State ι τ α ε) (e : Event ι τ α ε) : Spends s (step clock ttl s e) := by
  cases e with
  | step i => exact spendsAdvance clock ttl s i
  | finish i outcome =>
    dsimp only [step]
    split
    · rename_i now
      exact spendsMoved now rfl (by simp [Phase.weight])
    · rename_i now
      exact spendsMoved now rfl (by simp [Phase.weight])
    · exact .inl rfl
  | tick time =>
    dsimp only [step]
    split <;> exact .inl rfl

variable (clock ttl) in
theorem lawful : Monitors.Lawful (monitor clock ttl : Monitors.Monitor (State ι τ α ε) ι _ _)
    (Sound clock ttl) effort where
  kept := soundStep
  lock := fun sound => sound.lock
  spends := fun {s} _ e => spendsStep clock ttl s e
  moves := fun sound held => holderMoves sound held
  stuck := fun sound stuck => advanceStuck sound stuck
  waits := fun {s i} sound waiting => by
    obtain ⟨j,active⟩ := sound.busy.mp (sound.waits waiting)
    refine ⟨j,fun waits => ?_,fun ended => ?_⟩
    · rw [show s.phase j = .waiting from waits] at active
      cases active
    · rw [Phase.endedIdle (show (s.phase j).ended = true from ended)] at active
      cases active

end

section
variable [DecidableEq ι] [LinearOrder τ] [Zero τ]

/- At most one load runs; none starts within the TTL of one that was stored; a call returns or
raises what its own load did, or a value it found fresh under the lock; and if loads end, calls end. -/
theorem endpointSingleFlight (clock : Clock τ) (ttl : τ) (empty : α) (now : τ) (positive : 0 < now) :
    (∀ (events : List (Event ι τ α ε)) i j, (after clock ttl empty now events).phase i = .loading →
      (after clock ttl empty now events).phase j = .loading → i = j) ∧
    (∀ (events : List (Event ι τ α ε)) e i, (after clock ttl empty now events).phase i ≠ .loading →
      (step clock ttl (after clock ttl empty now events) e).phase i = .loading →
      ∀ before j later value, events = before ++ .step j::later →
        (after clock ttl empty now before).phase j = .publishing value →
        ttl < clock.sub (after clock ttl empty now events).now (after clock ttl empty now before).now) ∧
    (∀ (events : List (Event ι τ α ε)) i value,
      (after clock ttl empty now events).phase i = .returned value →
        Ended clock ttl empty now events i (.ok value) ∨ Seen clock ttl empty now events i value) ∧
    (∀ (events : List (Event ι τ α ε)) i e, (after clock ttl empty now events).phase i = .raised e →
      Ended clock ttl empty now events i (.error e)) ∧
    (Finite ι → ∀ schedule : ℕ → Event ι τ α ε,
      Monitors.Fair (monitor clock ttl) (start empty now) schedule → ∀ i,
        ∃ n, ((Schedules.after (step clock ttl) (start empty now) schedule n).phase i).ended = true) := by
  refine ⟨?_,?_,?_,?_,?_⟩
  · intro events i j first second
    exact (soundAfter clock ttl empty now events).single (by rw [first]; rfl) (by rw [second]; rfl)
  · intro events e i idle starts before j later value split publishes
    exact startsStale positive events idle starts split publishes
  · intro events i value returned
    have told := toldAfter clock ttl empty now events i
    rw [returned] at told
    exact told
  · intro events i e raised
    have told := toldAfter clock ttl empty now events i
    rw [raised] at told
    exact told
  · intro finite schedule fair i
    have := Fintype.ofFinite ι
    exact Monitors.callsEnd (lawful clock ttl) (soundStart empty now) fair i

end

def seconds : Clock Int where
  sub := fun a b => a - b
  later := fun c less => Int.sub_le_sub_right less c
  earlier := fun c less => Int.sub_le_sub_left less c

def turns (n : ℕ) : Event Bool Int (List String) String :=
  if n % 4 = 0 then .step false
  else if n % 4 = 1 then .step true
  else .finish (n % 4 = 3) (.error "timeout")

theorem turnsFair : Monitors.Fair (monitor seconds 3) (start [] 1) turns where
  scheduled := by
    intro i n
    cases i with
    | false => exact ⟨4*n,by omega,by simp [turns,monitor]⟩
    | true => exact ⟨4*n+1,by omega,by simp [turns,monitor]⟩
  finishes := by
    intro i n _
    obtain ⟨m,later,now⟩ : ∃ m, n ≤ m ∧ turns m = .finish i (.error "timeout") := by
      cases i with
      | false => exact ⟨4*n+2,by omega,by simp [turns]⟩
      | true => exact ⟨4*n+3,by omega,by simp [turns]⟩
    by_cases busy : (Schedules.after (step seconds 3) (start [] 1) turns m).phase i = .loading
    · refine ⟨m+1,by omega,?_⟩
      rw [Schedules.afterSucc,now]
      simp [monitor,step,busy,State.move]
    · exact ⟨m,later,busy⟩

theorem endpointTurns : (∃ n, ((Schedules.after (step seconds 3) (start [] 1) turns n).phase
    false).ended = true) ∧ ∃ n, ((Schedules.after (step seconds 3) (start [] 1) turns n).phase
    true).ended = true :=
  have ends := (endpointSingleFlight seconds 3 [] 1 (by decide)).2.2.2.2 inferInstance turns turnsFair
  ⟨ends false,ends true⟩

end RedfishCtl.EndpointCache
