import RedfishCtl.Monitors
import RedfishCtl.ResponseCacheRuns

/-! Every call of `get_or_load` ends. Each step of a caller, wake-ups included, uses up some of a
finite measure; at rest nobody holds the lock, and a caller that waits has somebody to wait for. -/
namespace RedfishCtl.ResponseCache
open State (acquire check handOver move release)
open Schedules (after)
open Runs (run)

variable {ι κ α ε : Type}

namespace Phase

def weight (n : Nat) : Phase α ε → Nat
  | .calling => n + 11
  | .checking => n + 10
  | .notified => n + 11
  | .woken => n + 10
  | .testing => n + 9
  | .waiting => n + 8
  | .claimed => n + 7
  | .loading => n + 6
  | .failing _ => n + 4
  | .discarding _ => n + 3
  | .copying _ => n + 5
  | .storing _ => n + 4
  | .publishing _ => n + 3
  | .returning _ => 2
  | .returned _ _ => 1
  | .raised _ => 1

theorem weightWake (n : Nat) (phase : Phase α ε) : phase.wake.weight n ≤ phase.weight n + 3 := by
  cases phase <;> simp [wake,weight]

def ended : Phase α ε → Bool
  | .returned _ _ | .raised _ => true
  | .calling | .checking | .testing | .waiting | .notified | .woken | .claimed | .loading
  | .failing _ | .discarding _ | .copying _ | .storing _ | .publishing _ | .returning _ => false

theorem endedIdle {phase : Phase α ε} (ended : phase.ended = true) : phase.active = false := by
  cases phase <;> first | rfl | cases ended

end Phase

section
variable [Fintype ι]

def effort (phases : ι → Phase α ε) : Nat := ∑ i, (phases i).weight (3 * Fintype.card ι)

variable [DecidableEq ι] {i : ι} {old phase : Phase α ε} {phases : ι → Phase α ε}

theorem effortMoved (now : phases i = old)
    (less : phase.weight (3 * Fintype.card ι) < old.weight (3 * Fintype.card ι)) :
    effort (Function.update phases i phase) < effort phases := by
  exact Monitors.effortMoved (now ▸ less)

theorem effortWoken (now : phases i = old) (less : phase.weight (3 * Fintype.card ι) +
      3 * Fintype.card ι < old.weight (3 * Fintype.card ι)) :
    effort (Function.update (fun j => (phases j).wake) i phase) < effort phases := by
  exact Monitors.effortWoken (Phase.weightWake _) (now ▸ less)

end

section
variable [Fintype ι] [DecidableEq ι] [DecidableEq κ] {key : ι → κ} {s : State ι κ α ε} {i : ι}
  {old : Phase α ε}

def Spends (s t : State ι κ α ε) : Prop := t.phase = s.phase ∨ effort t.phase < effort s.phase

omit [DecidableEq κ] in
theorem spendsAcquire {phase} (now : s.phase i = old)
    (less : phase.weight (3 * Fintype.card ι) < old.weight (3 * Fintype.card ι)) :
    Spends s (s.acquire i phase) := by
  unfold acquire
  split
  · exact .inr (effortMoved now less)
  · exact .inl rfl

omit [DecidableEq κ] in
theorem spendsAnswer {stored} (now : s.phase i = old) (less : 2 < old.weight (3 * Fintype.card ι)) :
    Spends s (s.answer i stored) := by
  unfold State.answer State.clone
  cases s.heap stored with
  | none => exact .inl rfl
  | some cell => exact .inr (effortMoved now less)

theorem spendsCheck (now : s.phase i = old)
    (less : 3 * Fintype.card ι + 9 < old.weight (3 * Fintype.card ι)) : Spends s (s.check key i) := by
  unfold check
  split
  · exact spendsAnswer now (by omega)
  · exact .inr (effortMoved now less)

theorem spendsAdvance (i : ι) (sound : Sound key s) : Spends s (advance key s i) := by
  unfold advance
  cases now : s.phase i with
  | calling => exact spendsAcquire now (by simp [Phase.weight])
  | checking => exact spendsCheck now (by simp [Phase.weight])
  | testing =>
    dsimp only
    split
    · exact .inr (effortMoved now (by simp [Phase.weight]))
    · exact .inr (effortMoved now (by simp [Phase.weight]))
  | waiting => exact .inl rfl
  | notified => exact spendsAcquire now (by simp [Phase.weight])
  | woken => exact spendsCheck now (by simp [Phase.weight])
  | claimed => exact .inr (effortMoved now (by simp [Phase.weight]))
  | loading => exact .inl rfl
  | failing e => exact spendsAcquire now (by simp [Phase.weight])
  | discarding e => exact .inr (effortWoken now (by simp [Phase.weight]; omega))
  | copying value =>
    obtain ⟨v,copied,-⟩ := soundCopy sound now
    dsimp only
    rw [copied]
    exact .inr (effortMoved now (by simp [Phase.weight]))
  | storing stored => exact spendsAcquire now (by simp [Phase.weight])
  | publishing stored =>
    have own := sound.data.knows i
    rw [now] at own
    obtain ⟨-,v,cell⟩ := own
    have here : ((s.store (key i) stored).discard (key i)).notifyAll.heap stored = some ⟨v,.cache⟩ := cell
    dsimp only
    rw [answerCopy here]
    exact .inr (effortWoken now (by simp [Phase.weight]; omega))
  | returning copy =>
    have own := sound.data.knows i
    rw [now] at own
    obtain ⟨v,cell,-⟩ := own
    dsimp only
    rw [handOver,cell]
    exact .inr (effortMoved now (by simp [Phase.weight]))
  | returned copy v => exact .inl rfl
  | raised e => exact .inl rfl

theorem spendsStep (sound : Sound key s) (e : Event ι α ε) : Spends s (step key s e) := by
  cases e with
  | step i => exact spendsAdvance i sound
  | finish i outcome =>
    simp only [step]
    split
    · rename_i now
      exact .inr (effortMoved now (by simp [Phase.weight]))
    · rename_i now
      split
      · exact .inr (effortMoved now (by simp [Phase.weight]))
      · exact .inl rfl
    · exact .inl rfl
  | create value => exact .inl rfl
  | write object value =>
    simp only [step]
    split <;> exact .inl rfl

end

section
variable [DecidableEq ι] [DecidableEq κ] {key : ι → κ} {s : State ι κ α ε} {i : ι}

omit [DecidableEq κ] in
theorem acquireStuck {phase} (stuck : (s.acquire i phase).phase i = s.phase i)
    (other : phase ≠ s.phase i) : s.holder ≠ none := by
  intro free
  rw [acquire,if_pos (by simp [free])] at stuck
  have moved : Function.update s.phase i phase i = s.phase i := stuck
  rw [Function.update_self] at moved
  exact other moved

theorem checkMoves (sound : Sound key s) (i : ι) :
    (s.check key i).phase i = .testing ∨ (s.check key i).phase i = .returning s.next := by
  unfold check
  cases found : s.values.lookup (key i) with
  | none => exact .inl (Function.update_self ..)
  | some stored =>
    obtain ⟨v,cell⟩ := sound.data.stored found
    dsimp only
    rw [answerCopy cell]
    exact .inr (Function.update_self ..)

theorem advanceStuck (sound : Sound key s) (stuck : (advance key s i).phase i = s.phase i) :
    s.phase i = .waiting ∨ s.phase i = .loading ∨ (s.phase i).ended = true ∨ s.holder ≠ none := by
  have locked : (s.phase i).inside = true → s.holder ≠ none := by
    intro held
    rw [(sound.control.lock i).mp held]
    simp
  unfold advance at stuck
  cases now : s.phase i with
  | waiting => exact .inl rfl
  | loading => exact .inr (.inl rfl)
  | returned copy v => exact .inr (.inr (.inl rfl))
  | raised e => exact .inr (.inr (.inl rfl))
  | calling =>
    simp only [now] at stuck
    exact .inr (.inr (.inr (acquireStuck (by rw [now]; exact stuck) (by simp [now]))))
  | notified =>
    simp only [now] at stuck
    exact .inr (.inr (.inr (acquireStuck (by rw [now]; exact stuck) (by simp [now]))))
  | failing e =>
    simp only [now] at stuck
    exact .inr (.inr (.inr (acquireStuck (by rw [now]; exact stuck) (by simp [now]))))
  | storing stored =>
    simp only [now] at stuck
    exact .inr (.inr (.inr (acquireStuck (by rw [now]; exact stuck) (by simp [now]))))
  | copying value =>
    obtain ⟨v,copied,-⟩ := soundCopy sound now
    simp only [now,copied,move,Function.update_self] at stuck
    cases stuck
  | _ => exact .inr (.inr (.inr (locked (by rw [now]; rfl))))

theorem holderMoves (sound : Sound key s) (held : s.holder = some i) :
    (advance key s i).phase i ≠ s.phase i := by
  have inside := (sound.control.lock i).mpr held
  have own := sound.data.knows i
  unfold advance
  cases now : s.phase i with
  | checking =>
    rcases checkMoves sound i with next | next <;> simp [next]
  | woken =>
    rcases checkMoves sound i with next | next <;> simp [next]
  | testing =>
    dsimp only
    split <;> simp [release,move]
  | claimed => simp [release,move]
  | discarding e => simp [release,move]
  | publishing stored =>
    rw [now] at own
    obtain ⟨-,v,cell⟩ := own
    have here : ((s.store (key i) stored).discard (key i)).notifyAll.heap stored = some ⟨v,.cache⟩ := cell
    dsimp only
    rw [answerCopy here]
    simp [move]
  | returning copy =>
    rw [now] at own
    obtain ⟨v,cell,-⟩ := own
    simp [handOver,cell,release,move]
  | _ => rw [now] at inside; cases inside

variable (key) in
structure Fair (schedule : Nat → Event ι α ε) : Prop where
  scheduled : ∀ i n, ∃ m, n ≤ m ∧ schedule m = .step i
  finishes : ∀ i n, (after (step key) start schedule n).phase i = .loading →
    ∃ m, n ≤ m ∧ (after (step key) start schedule m).phase i ≠ .loading

variable (key) in
def monitor : Monitors.Monitor (State ι κ α ε) ι (Phase α ε) (Event ι α ε) where
  step := step key
  act := .step
  phase := State.phase
  holder := State.holder
  inside := Phase.inside
  waiting := fun phase => phase = .waiting
  outside := fun phase => phase = .loading
  ended := fun phase => phase.ended = true

variable (key) in
theorem lawful [Fintype ι] : Monitors.Lawful (monitor key : Monitors.Monitor (State ι κ α ε) ι _ _)
    (Sound key) effort where
  kept := soundStep
  lock := fun sound => sound.control.lock
  spends := spendsStep
  moves := fun sound held => holderMoves sound held
  stuck := fun sound stuck => advanceStuck sound stuck
  -- a caller that waits waits for a loader
  waits := fun {s i} sound waiting => by
    obtain ⟨j,-,active⟩ := (sound.control.inflight _).mp (sound.control.waits waiting)
    refine ⟨j,fun waits => ?_,fun ended => ?_⟩
    · rw [show s.phase j = .waiting from waits] at active
      cases active
    · rw [Phase.endedIdle (show (s.phase j).ended = true from ended)] at active
      cases active

theorem callsEnd [Finite ι] {schedule : Nat → Event ι α ε} (fair : Fair key schedule) (i : ι) :
    ∃ n, ((after (step key) start schedule n).phase i).ended = true := by
  have := Fintype.ofFinite ι
  exact Monitors.callsEnd (lawful key) soundStart ⟨fair.scheduled,fair.finishes⟩ i

variable (key) in
theorem singleFlight :
    (∀ events i j, (run (step key) (start : State ι κ α ε) events).phase i = .loading →
      (run (step key) (start : State ι κ α ε) events).phase j = .loading →
      key i = key j → i = j) ∧
    (∀ before i value events, (run (step key) (start : State ι κ α ε) before).phase i = .loading →
      (run (step key) (start : State ι κ α ε) before).reachable value = true →
      ∀ j, key j = key i → (run (step key) (start : State ι κ α ε)
        (before ++ .finish i (.ok value) :: events)).phase j ≠ .loading) ∧
    (∀ before events k v,
      let s := run (step key) (start : State ι κ α ε) before
      let t := run (step key) (start : State ι κ α ε) (before ++ events)
      Stored s.values s.heap k v → Stored t.values t.heap k v ∧
        ∀ j copy w, key j = k → t.phase j = .returned copy w → w = v) ∧
    (∀ events i copy v,
      let s := run (step key) (start : State ι κ α ε) events
      s.phase i = .returned copy v → Stored s.values s.heap (key i) v) ∧
    (Finite ι → ∀ schedule : Nat → Event ι α ε, Fair key schedule → ∀ i,
      ∃ n, ((after (step key) start schedule n).phase i).ended = true) := by
  refine ⟨?_,?_,?_,?_,?_⟩
  · intro events i j first second
    exact (soundRun events).control.single (by rw [first]; rfl) (by rw [second]; rfl)
  · intro before i value events busy reachable j same
    have sound : Sound key (run (step key) (start : State ι κ α ε) before) := soundRun before
    have moved : (step key (run (step key) (start : State ι κ α ε) before)
        (.finish i (.ok value))).phase i = .copying value := by
      simp only [step,busy,reachable,if_true,move,Function.update_self]
    have succeeded : Succeeded key (step key (run (step key) (start : State ι κ α ε) before)
        (.finish i (.ok value))) (key i) := .inr ⟨i,rfl,by rw [moved]; rfl⟩
    rw [Runs.runAppend,Runs.runCons]
    have next := soundStep _ (.finish i (.ok value)) sound
    exact succeededNotLoading (Runs.invariant soundStep next events)
      (succeededRun next succeeded events) same
  · intro before events k v s t stored
    have later : Stored t.values t.heap k v := by
      simp only [t,Runs.runAppend]
      exact storedRun (soundRun before) stored events
    refine ⟨later,?_⟩
    rintro j copy w rfl done
    exact storedUnique (returnedStored (soundRun _) done) later
  · intro events i copy v s done
    exact returnedStored (soundRun events) done
  · intro finite schedule fair i
    exact callsEnd fair i

end

def turns (n : Nat) : Event Bool Nat String :=
  if n % 4 = 0 then .step false
  else if n % 4 = 1 then .step true
  else .finish (n % 4 = 3) (.error "timeout")

theorem turnsFair : Fair (fun _ : Bool => "/redfish/v1") turns where
  scheduled := by
    intro i n
    cases i with
    | false => exact ⟨4*n,by omega,by simp [turns]⟩
    | true => exact ⟨4*n+1,by omega,by simp [turns]⟩
  finishes := by
    intro i n _
    obtain ⟨m,later,now⟩ : ∃ m, n ≤ m ∧ turns m = .finish i (.error "timeout") := by
      cases i with
      | false => exact ⟨4*n+2,by omega,by simp [turns]⟩
      | true => exact ⟨4*n+3,by omega,by simp [turns]⟩
    by_cases busy : (after (step fun _ : Bool => "/redfish/v1") start turns m).phase i = .loading
    · refine ⟨m+1,by omega,?_⟩
      rw [Schedules.afterSucc,now]
      simp [step,busy,move]
    · exact ⟨m,later,busy⟩

theorem singleFlightTurns : (∃ n, ((after (step fun _ : Bool => "/redfish/v1") start turns
    n).phase false).ended = true) ∧ ∃ n, ((after (step fun _ : Bool => "/redfish/v1") start
    turns n).phase true).ended = true :=
  have ends := (singleFlight fun _ : Bool => "/redfish/v1").2.2.2.2 inferInstance turns turnsFair
  ⟨ends false,ends true⟩

end RedfishCtl.ResponseCache
