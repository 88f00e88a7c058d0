import RedfishCtl.ResponseCache

/-! What every interleaving of callers keeps: the lock, one loader for each key being loaded, a
loader to wait for behind every waiting caller, and copies of the stored result in what callers
return. -/
namespace RedfishCtl.ResponseCache
open Function (update update_self update_of_ne)
open AssocList (insert lookupInsert)

variable {ι κ α ε : Type}

namespace Phase

def inside : Phase α ε → Bool
  | .checking | .testing | .woken | .claimed | .discarding _ | .publishing _ | .returning _ => true
  | .calling | .waiting | .notified | .loading | .failing _ | .copying _ | .storing _
  | .returned _ _ | .raised _ => false

def active : Phase α ε → Bool
  | .claimed | .loading | .failing _ | .discarding _ | .copying _ | .storing _ | .publishing _ => true
  | .calling | .checking | .testing | .waiting | .notified | .woken | .returning _
  | .returned _ _ | .raised _ => false

@[simp] theorem wakeInside (phase : Phase α ε) : phase.wake.inside = phase.inside := by
  cases phase <;> rfl

@[simp] theorem wakeActive (phase : Phase α ε) : phase.wake.active = phase.active := by
  cases phase <;> rfl

theorem wakeAwake (phase : Phase α ε) : phase.wake ≠ .waiting := by
  cases phase <;> simp [wake]

end Phase

structure Control (key : ι → κ) (s : State ι κ α ε) : Prop where
  lock : ∀ i, (s.phase i).inside = true ↔ s.holder = some i
  single : ∀ {i j}, (s.phase i).active = true → (s.phase j).active = true → key i = key j → i = j
  inflight : ∀ k, k ∈ s.inflight ↔ ∃ i, key i = k ∧ (s.phase i).active = true
  waits : ∀ {i}, s.phase i = .waiting → key i ∈ s.inflight

section
variable {key : ι → κ} {s t : State ι κ α ε} {i : ι} {phase : Phase α ε}

theorem controlStart : Control key (start : State ι κ α ε) where
  lock := by simp [start,Phase.inside]
  single := by simp [start,Phase.active]
  inflight := by simp [start,Phase.active]
  waits := by simp [start]

variable [DecidableEq ι]

theorem lockSame (control : Control key s) (same : phase.inside = (s.phase i).inside) (j : ι) :
    (update s.phase i phase j).inside = true ↔ s.holder = some j := by
  by_cases own : j = i
  · subst own
    rw [update_self,same]
    exact control.lock j
  · rw [update_of_ne own]
    exact control.lock j

theorem lockAcquired (control : Control key s) (free : s.holder = none) (taken : phase.inside = true)
    (j : ι) : (update s.phase i phase j).inside = true ↔ some i = some j := by
  by_cases own : j = i
  · subst own
    simp [taken]
  · rw [update_of_ne own,control.lock,free]
    simp [Ne.symm own]

theorem lockReleased (control : Control key s) (held : (s.phase i).inside = true)
    (outside : phase.inside = false) (j : ι) :
    (update s.phase i phase j).inside = true ↔ (none : Option ι) = some j := by
  by_cases own : j = i
  · subst own
    simp [outside]
  · rw [update_of_ne own,control.lock,(control.lock i).mp held]
    simp [Ne.symm own]

theorem controlMoved (control : Control key s) (phases : t.phase = update s.phase i phase)
    (keys : t.inflight = s.inflight) (same : phase.active = (s.phase i).active)
    (waits : phase = .waiting → key i ∈ s.inflight)
    (lock : ∀ j, (update s.phase i phase j).inside = true ↔ t.holder = some j) :
    Control key t := by
  have active : ∀ j, (t.phase j).active = (s.phase j).active := by
    intro j
    rw [phases]
    by_cases own : j = i
    · subst own
      rw [update_self,same]
    · rw [update_of_ne own]
  refine ⟨fun j => phases ▸ lock j,?_,?_,?_⟩
  · intro j l first second
    rw [active] at first second
    exact control.single first second
  · intro k
    rw [keys,control.inflight]
    simp [active]
  intro j
  rw [keys,phases]
  by_cases own : j = i
  · subst own
    rw [update_self]
    exact waits
  · rw [update_of_ne own]
    exact control.waits

theorem controlClaimed (control : Control key s) (phases : t.phase = update s.phase i phase)
    (keys : t.inflight = key i :: s.inflight) (free : key i ∉ s.inflight)
    (claims : phase.active = true) (lock : ∀ j, (update s.phase i phase j).inside = true ↔
      t.holder = some j) : Control key t := by
  have nobody : ∀ j, key j = key i → (s.phase j).active = false := by
    intro j same
    by_contra busy
    exact free ((control.inflight _).mpr ⟨j,same,by simpa using busy⟩)
  have active : ∀ j, (t.phase j).active = true ↔ j = i ∨ (s.phase j).active = true := by
    intro j
    rw [phases]
    by_cases own : j = i
    · subst own
      simp [claims]
    · rw [update_of_ne own]
      simp [own]
  refine ⟨fun j => phases ▸ lock j,?_,?_,?_⟩
  · intro j l first second same
    rcases (active j).mp first with rfl | busy
    · rcases (active l).mp second with rfl | busy'
      · rfl
      · simp [nobody l same.symm] at busy'
    · rcases (active l).mp second with rfl | busy'
      · simp [nobody j same] at busy
      · exact control.single busy busy' same
  · intro k
    rw [keys,List.mem_cons,control.inflight]
    constructor
    · rintro (rfl | ⟨j,same,busy⟩)
      · exact ⟨i,rfl,(active i).mpr (.inl rfl)⟩
      · exact ⟨j,same,(active j).mpr (.inr busy)⟩
    · rintro ⟨j,same,busy⟩
      rcases (active j).mp busy with rfl | busy
      · exact .inl same.symm
      · exact .inr ⟨j,same,busy⟩
  · intro j waiting
    rw [keys]
    rw [phases] at waiting
    by_cases own : j = i
    · subst own
      exact List.mem_cons_self
    · rw [update_of_ne own] at waiting
      exact List.mem_cons_of_mem _ (control.waits waiting)

theorem controlDiscarded [DecidableEq κ] (control : Control key s)
    (phases : t.phase = update (fun j => (s.phase j).wake) i phase)
    (keys : t.inflight = s.inflight.filter (· ≠ key i)) (busy : (s.phase i).active = true)
    (rests : phase.active = false) (awake : phase ≠ .waiting)
    (lock : ∀ j, (update s.phase i phase j).inside = true ↔ t.holder = some j) :
    Control key t := by
  have active : ∀ j, (t.phase j).active = true ↔ j ≠ i ∧ (s.phase j).active = true := by
    intro j
    rw [phases]
    by_cases own : j = i
    · subst own
      simp [rests]
    · rw [update_of_ne own]
      simp [own]
  have inside : ∀ j, (t.phase j).inside = (update s.phase i phase j).inside := by
    intro j
    rw [phases]
    by_cases own : j = i
    · subst own
      rw [update_self,update_self]
    · rw [update_of_ne own,update_of_ne own,Phase.wakeInside]
  refine ⟨fun j => by rw [inside]; exact lock j,?_,?_,?_⟩
  · intro j l first second
    exact control.single ((active j).mp first).2 ((active l).mp second).2
  · intro k
    rw [keys,List.mem_filter,control.inflight]
    constructor
    · rintro ⟨⟨j,same,working⟩,other⟩
      refine ⟨j,same,(active j).mpr ⟨?_,working⟩⟩
      rintro rfl
      simp [same] at other
    rintro ⟨j,same,working⟩
    obtain ⟨other,working⟩ := (active j).mp working
    refine ⟨⟨j,same,working⟩,?_⟩
    have apart : k ≠ key i := fun equal => other (control.single working busy (same.trans equal))
    simpa using apart
  · intro j waiting
    rw [phases] at waiting
    by_cases own : j = i
    · subst own
      rw [update_self] at waiting
      exact absurd waiting awake
    · rw [update_of_ne own] at waiting
      exact absurd waiting (Phase.wakeAwake _)

end

abbrev Heap (ι α : Type) := Nat → Option (Cell ι α)

section
variable [BEq κ] (values : List (κ × Nat)) (heap : Heap ι α)

def Stored (k : κ) (value : α) : Prop :=
  ∃ stored, values.lookup k = some stored ∧ heap stored = some ⟨value,.cache⟩

def Knows (k : κ) (i : ι) : Phase α ε → Prop
  | .testing | .claimed | .loading | .failing _ | .discarding _ => values.lookup k = none
  | .copying value => values.lookup k = none ∧ ∃ v, heap value = some ⟨v,.shared⟩
  | .storing stored | .publishing stored =>
      values.lookup k = none ∧ ∃ v, heap stored = some ⟨v,.cache⟩
  | .returning copy => ∃ v, heap copy = some ⟨v,.caller i⟩ ∧ Stored values heap k v
  | .returned _ v => Stored values heap k v
  | .calling | .checking | .waiting | .notified | .woken | .raised _ => True

end

structure Data [BEq κ] (key : ι → κ) (s : State ι κ α ε) : Prop where
  fresh : ∀ r, s.next ≤ r → s.heap r = none
  stored : ∀ {k r}, s.values.lookup k = some r → ∃ v, s.heap r = some ⟨v,.cache⟩
  knows : ∀ i, Knows s.values s.heap (key i) i (s.phase i)

structure Keeps (heap after : Heap ι α) (i : Option ι) : Prop where
  cache : ∀ {r v}, heap r = some ⟨v,.cache⟩ → after r = some ⟨v,.cache⟩
  caller : ∀ {r v j}, some j ≠ i → heap r = some ⟨v,.caller j⟩ → after r = some ⟨v,.caller j⟩
  shared : ∀ {r v}, heap r = some ⟨v,.shared⟩ → ∃ w, after r = some ⟨w,.shared⟩

theorem Keeps.weaken {heap after : Heap ι α} (keeps : Keeps heap after none) (i : Option ι) :
    Keeps heap after i :=
  ⟨keeps.cache,fun _ => keeps.caller (by simp),keeps.shared⟩

section
variable [BEq κ] {values : List (κ × Nat)} {heap after : Heap ι α} {k : κ} {i : Option ι}

theorem storedKept (keeps : Keeps heap after i) {v} (stored : Stored values heap k v) :
    Stored values after k v := by
  obtain ⟨r,found,cell⟩ := stored
  exact ⟨r,found,keeps.cache cell⟩

theorem knowsKept {j} {phase : Phase α ε} (keeps : Keeps heap after i) (other : some j ≠ i)
    (knows : Knows values heap k j phase) : Knows values after k j phase := by
  cases phase with
  | copying value => exact ⟨knows.1,knows.2.elim fun v cell => keeps.shared cell⟩
  | storing stored => exact ⟨knows.1,knows.2.imp fun v cell => keeps.cache cell⟩
  | publishing stored => exact ⟨knows.1,knows.2.imp fun v cell => keeps.cache cell⟩
  | returning copy =>
    obtain ⟨v,cell,stored⟩ := knows
    exact ⟨v,keeps.caller other cell,storedKept keeps stored⟩
  | returned copy v => exact storedKept keeps knows
  | _ => exact knows

theorem knowsWake {j} {phase : Phase α ε} (knows : Knows values heap k j phase) :
    Knows values heap k j phase.wake := by
  cases phase <;> exact knows

end

section
variable [DecidableEq κ] {key : ι → κ} {s t : State ι κ α ε}

theorem dataStart : Data key (start : State ι κ α ε) where
  fresh := fun _ _ => rfl
  stored := fun found => by cases found
  knows := fun _ => trivial

theorem allocKeeps (data : Data key s) (cell : Cell ι α) : Keeps s.heap (s.alloc cell).heap none := by
  have other : ∀ {r c}, s.heap r = some c → (s.alloc cell).heap r = some c := by
    intro r c old
    have allocated : r ≠ s.next := by
      rintro rfl
      simp [data.fresh s.next (Nat.le_refl _)] at old
    simpa [State.alloc,update_of_ne allocated] using old
  exact ⟨other,fun _ => other,fun old => ⟨_,other old⟩⟩

theorem allocFresh (data : Data key s) (cell : Cell ι α) (r : Nat) (beyond : (s.alloc cell).next ≤ r) :
    (s.alloc cell).heap r = none := by
  have above : s.next + 1 ≤ r := beyond
  have apart : r ≠ s.next := by omega
  simpa [State.alloc,update_of_ne apart] using data.fresh r (by omega)

variable [DecidableEq ι] {i : ι} {phase : Phase α ε}

theorem dataMoved (data : Data key s) (table : t.values = s.values)
    (keeps : Keeps s.heap t.heap (some i)) (fresh : ∀ r, t.next ≤ r → t.heap r = none)
    (phases : ∀ j, j ≠ i → t.phase j = s.phase j ∨ t.phase j = (s.phase j).wake)
    (here : t.phase i = phase) (own : Knows s.values t.heap (key i) i phase) : Data key t where
  fresh := fresh
  stored := by
    intro k r found
    rw [table] at found
    obtain ⟨v,cell⟩ := data.stored found
    exact ⟨v,keeps.cache cell⟩
  knows := by
    intro j
    by_cases same : j = i
    · subst same
      rw [table,here]
      exact own
    have known : Knows t.values t.heap (key j) j (s.phase j) := by
      rw [table]
      exact knowsKept keeps (by simpa using same) (data.knows j)
    rcases phases j same with unchanged | woken
    · rw [unchanged]
      exact known
    · rw [woken]
      exact knowsWake known

omit [DecidableEq ι] in
variable {k : κ}

theorem storedInsert {values} {heap : Heap ι α} {l : κ} {v} (missing : values.lookup l = none)
    (added : Nat) (stored : Stored values heap k v) :
    Stored (insert l added values) heap k v := by
  obtain ⟨r,found,cell⟩ := stored
  have different : k ≠ l := by
    rintro rfl
    rw [missing] at found
    cases found
  exact ⟨r,by rw [lookupInsert,if_neg different,found],cell⟩

/- A store changes an absent key only, and nobody else relies on its absence. -/
omit [DecidableEq ι] in
variable {j : ι} {stored : Nat}

theorem knowsStored {after} (control : Control key s) (data : Data key s)
    (busy : s.phase i = .publishing stored) (other : j ≠ i) (keeps : Keeps s.heap after (some i)) :
    Knows (insert (key i) stored s.values) after (key j) j (s.phase j) := by
  have known := knowsKept keeps (by simpa using other) (data.knows j)
  have own := data.knows i
  rw [busy] at own
  have unlocked : (s.phase j).inside = false := by
    by_contra held
    have mine := (control.lock i).mp (by rw [busy]; rfl)
    have yours := (control.lock j).mp (by simpa using held)
    rw [mine] at yours
    exact other (Option.some.inj yours).symm
  have absent : key j ≠ key i → s.values.lookup (key j) = none →
      (insert (key i) stored s.values).lookup (key j) = none := by
    intro apart missing
    rw [lookupInsert,if_neg apart,missing]
  have apart : (s.phase j).active = true → key j ≠ key i := by
    intro working same
    exact other (control.single working (by rw [busy]; rfl) same)
  cases now : s.phase j with
  | testing => rw [now] at unlocked; cases unlocked
  | claimed => rw [now] at unlocked; cases unlocked
  | discarding e => rw [now] at unlocked; cases unlocked
  | publishing r => rw [now] at unlocked; cases unlocked
  | returning copy => rw [now] at unlocked; cases unlocked
  | loading => rw [now] at known apart; exact absent (apart rfl) known
  | failing e => rw [now] at known apart; exact absent (apart rfl) known
  | copying value => rw [now] at known apart; exact ⟨absent (apart rfl) known.1,known.2⟩
  | storing r => rw [now] at known apart; exact ⟨absent (apart rfl) known.1,known.2⟩
  | returned copy v => rw [now] at known; exact storedInsert own.1 stored known
  | _ => trivial

structure Sound (key : ι → κ) (s : State ι κ α ε) : Prop where
  control : Control key s
  data : Data key s

structure Next (key : ι → κ) (s t : State ι κ α ε) : Prop where
  sound : Sound key t
  kept : ∀ {k v}, Stored s.values s.heap k v → Stored t.values t.heap k v

omit [DecidableEq ι] in
theorem nextSame (sound : Sound key s) : Next key s s := ⟨sound,id⟩

theorem soundMoved {holder} (sound : Sound key s) (same : phase.active = (s.phase i).active)
    (waits : phase = .waiting → key i ∈ s.inflight)
    (lock : ∀ j, (update s.phase i phase j).inside = true ↔ holder = some j)
    (own : Knows s.values s.heap (key i) i phase) : Next key s { s.move i phase with holder := holder } := by
  refine ⟨⟨controlMoved sound.control rfl rfl same waits lock,?_⟩,id⟩
  exact dataMoved sound.data rfl ⟨id,fun _ => id,fun old => ⟨_,old⟩⟩ sound.data.fresh
    (fun j other => .inl (update_of_ne other _ _)) (update_self ..) own

theorem soundAcquire (sound : Sound key s) (taken : phase.inside = true)
    (same : phase.active = (s.phase i).active) (awake : phase ≠ .waiting)
    (own : Knows s.values s.heap (key i) i phase) : Next key s (s.acquire i phase) := by
  unfold State.acquire
  split
  · rename_i free
    have unlocked : s.holder = none := by simpa using free
    exact soundMoved sound same (fun waiting => absurd waiting awake)
      (lockAcquired sound.control unlocked taken) own
  · exact nextSame sound

theorem soundRelease (sound : Sound key s) (held : (s.phase i).inside = true)
    (outside : phase.inside = false) (same : phase.active = (s.phase i).active)
    (waits : phase = .waiting → key i ∈ s.inflight) (own : Knows s.values s.heap (key i) i phase) :
    Next key s (s.release i phase) :=
  soundMoved sound same waits (lockReleased sound.control held outside) own

omit [DecidableEq κ] in
theorem answerCopy {cell} (found : s.heap stored = some cell) :
    s.answer i stored = (s.alloc ⟨cell.value,.caller i⟩).move i (.returning s.next) := by
  simp [State.answer,State.clone,found]

theorem soundAnswer (sound : Sound key s) (held : (s.phase i).inside = true)
    (idle : (s.phase i).active = false) (found : s.values.lookup (key i) = some stored) :
    Next key s (s.answer i stored) := by
  obtain ⟨v,cell⟩ := sound.data.stored found
  have keeps := allocKeeps sound.data ⟨v,.caller i⟩
  rw [answerCopy cell]
  refine ⟨⟨controlMoved sound.control rfl rfl (by rw [idle]; rfl) (by simp)
    (lockSame sound.control (by rw [held]; rfl)),?_⟩,storedKept keeps⟩
  refine dataMoved sound.data rfl (keeps.weaken _) (allocFresh sound.data _)
    (fun j other => .inl (update_of_ne other _ _)) (update_self ..) ?_
  exact ⟨v,update_self ..,stored,found,keeps.cache cell⟩

theorem soundCheck (sound : Sound key s) (held : (s.phase i).inside = true)
    (idle : (s.phase i).active = false) : Next key s (s.check key i) := by
  unfold State.check
  split
  · rename_i stored found
    exact soundAnswer sound held idle found
  · rename_i missing
    exact soundMoved sound (by rw [idle]; rfl) (by simp)
      (lockSame sound.control (by rw [held]; rfl)) missing

theorem soundClaim (sound : Sound key s) (now : s.phase i = .testing) (free : key i ∉ s.inflight) :
    Next key s { s.move i .claimed with inflight := key i :: s.inflight } := by
  have own := sound.data.knows i
  rw [now] at own
  refine ⟨⟨controlClaimed sound.control rfl rfl free rfl
    (lockSame sound.control (by rw [now]; rfl)),?_⟩,id⟩
  refine dataMoved sound.data rfl ⟨id,fun _ => id,fun old => ⟨_,old⟩⟩ sound.data.fresh
    (fun j other => .inl (update_of_ne other _ _)) (update_self ..) own

theorem soundDiscard {e} (sound : Sound key s) (now : s.phase i = .discarding e) :
    Next key s ((s.discard (key i)).notifyAll.release i (.raised e)) := by
  refine ⟨⟨controlDiscarded sound.control rfl rfl (by rw [now]; rfl) rfl (by simp)
    (lockReleased sound.control (by rw [now]; rfl) rfl),?_⟩,id⟩
  refine dataMoved sound.data rfl ⟨id,fun _ => id,fun old => ⟨_,old⟩⟩ sound.data.fresh
    (fun j other => .inr (update_of_ne other _ _)) (update_self ..) trivial

theorem soundCopy {value : Nat} (sound : Sound key s) (now : s.phase i = .copying value) :
    ∃ v, s.clone value .cache = some (s.alloc ⟨v,.cache⟩) ∧
      Next key s ((s.alloc ⟨v,.cache⟩).move i (.storing s.next)) := by
  have own := sound.data.knows i
  rw [now] at own
  obtain ⟨missing,v,cell⟩ := own
  have keeps := allocKeeps sound.data ⟨v,.cache⟩
  refine ⟨v,by simp [State.clone,cell],⟨controlMoved sound.control rfl rfl (by rw [now]; rfl) (by simp)
    (lockSame sound.control (by rw [now]; rfl)),?_⟩,storedKept keeps⟩
  refine dataMoved sound.data rfl (keeps.weaken _) (allocFresh sound.data _)
    (fun j other => .inl (update_of_ne other _ _)) (update_self ..) ?_
  exact ⟨missing,v,update_self ..⟩

theorem soundPublish (sound : Sound key s) (now : s.phase i = .publishing stored) :
    Next key s ((((s.store (key i) stored).discard (key i)).notifyAll).answer i stored) := by
  have own := sound.data.knows i
  rw [now] at own
  obtain ⟨missing,v,cell⟩ := own
  have keeps := allocKeeps sound.data ⟨v,.caller i⟩
  have here : ((s.store (key i) stored).discard (key i)).notifyAll.heap stored = some ⟨v,.cache⟩ := cell
  rw [answerCopy here]
  refine ⟨⟨controlDiscarded sound.control rfl rfl (by rw [now]; rfl) rfl (by simp)
    (lockSame sound.control (by rw [now]; rfl)),allocFresh sound.data _,?_,?_⟩,
    fun old => storedInsert missing stored (storedKept keeps old)⟩
  · intro k r found
    change (insert (key i) stored s.values).lookup k = some r at found
    rw [lookupInsert] at found
    split at found
    · cases found
      exact ⟨v,keeps.cache cell⟩
    · obtain ⟨w,old⟩ := sound.data.stored found
      exact ⟨w,keeps.cache old⟩
  · intro j
    change Knows (insert (key i) stored s.values) (s.alloc ⟨v,.caller i⟩).heap (key j) j
      (update (fun l => (s.phase l).wake) i (.returning s.next) j)
    by_cases same : j = i
    · subst same
      rw [update_self]
      exact ⟨v,update_self ..,stored,by rw [lookupInsert,if_pos rfl],keeps.cache cell⟩
    · rw [update_of_ne same]
      exact knowsWake (knowsStored sound.control sound.data now same (keeps.weaken _))

theorem soundHandOver {copy} (sound : Sound key s) (now : s.phase i = .returning copy) :
    Next key s (s.handOver i copy) := by
  have own := sound.data.knows i
  rw [now] at own
  obtain ⟨v,cell,stored⟩ := own
  have keeps : Keeps s.heap (update s.heap copy (some ⟨v,.shared⟩)) (some i) := by
    have other : ∀ {r c}, s.heap r = some c → c.owner ≠ .caller i →
        update s.heap copy (some ⟨v,.shared⟩) r = some c := by
      intro r c old owner
      have apart : r ≠ copy := by
        rintro rfl
        rw [cell] at old
        cases old
        exact owner rfl
      rw [update_of_ne apart,old]
    refine ⟨fun old => other old (by simp),fun different old => other old ?_,
      fun old => ⟨_,other old (by simp)⟩⟩
    simpa using different
  have fresh : ∀ r, s.next ≤ r → update s.heap copy (some ⟨v,.shared⟩) r = none := by
    intro r beyond
    have apart : r ≠ copy := by
      rintro rfl
      simp [sound.data.fresh r beyond] at cell
    rw [update_of_ne apart,sound.data.fresh r beyond]
  unfold State.handOver
  rw [cell]
  refine ⟨⟨controlMoved sound.control rfl rfl (by rw [now]; rfl) (by simp)
    (lockReleased sound.control (by rw [now]; rfl) rfl),?_⟩,storedKept keeps⟩
  refine dataMoved sound.data rfl keeps fresh
    (fun j other => .inl (update_of_ne other _ _)) (update_self ..) ?_
  exact storedKept keeps stored

theorem nextAdvance (sound : Sound key s) (i : ι) : Next key s (advance key s i) := by
  have own := sound.data.knows i
  unfold advance
  cases now : s.phase i with
  | calling => exact soundAcquire sound rfl (by rw [now]; rfl) (by simp) trivial
  | checking => exact soundCheck sound (by rw [now]; rfl) (by rw [now]; rfl)
  | testing =>
    dsimp only
    split
    · rename_i busy
      exact soundRelease sound (by rw [now]; rfl) rfl (by rw [now]; rfl) (fun _ => busy) trivial
    · rename_i free
      exact soundClaim sound now free
  | waiting => exact nextSame sound
  | notified => exact soundAcquire sound rfl (by rw [now]; rfl) (by simp) trivial
  | woken => exact soundCheck sound (by rw [now]; rfl) (by rw [now]; rfl)
  | claimed =>
    rw [now] at own
    exact soundRelease sound (by rw [now]; rfl) rfl (by rw [now]; rfl) (by simp) own
  | loading => exact nextSame sound
  | failing e =>
    rw [now] at own
    exact soundAcquire sound rfl (by rw [now]; rfl) (by simp) own
  | discarding e => exact soundDiscard sound now
  | copying value =>
    obtain ⟨v,copied,next⟩ := soundCopy sound now
    dsimp only
    rw [copied]
    exact next
  | storing stored =>
    rw [now] at own
    exact soundAcquire sound rfl (by rw [now]; rfl) (by simp) own
  | publishing stored => exact soundPublish sound now
  | returning copy => exact soundHandOver sound now
  | returned copy v => exact nextSame sound
  | raised e => exact nextSame sound

omit [DecidableEq κ] in
theorem reachableCell {object} (reachable : s.reachable object = true) :
    ∃ v, s.heap object = some ⟨v,.shared⟩ := by
  cases cell : s.heap object with
  | none => simp [State.reachable,cell] at reachable
  | some c =>
    obtain ⟨v,owner⟩ := c
    have anybody : owner = .shared := by simpa [State.reachable,cell] using reachable
    exact ⟨v,by rw [anybody]⟩

omit [DecidableEq ι] in
theorem dataOutside (data : Data key s) (keeps : Keeps s.heap t.heap none)
    (fresh : ∀ r, t.next ≤ r → t.heap r = none) (table : t.values = s.values)
    (phases : t.phase = s.phase) : Data key t where
  fresh := fresh
  stored := by
    intro k r found
    rw [table] at found
    exact (data.stored found).imp fun v cell => keeps.cache cell
  knows := by
    intro j
    rw [table,phases]
    exact knowsKept keeps (by simp) (data.knows j)

omit [DecidableEq κ] [DecidableEq ι] in
theorem controlOutside (control : Control key s) (phases : t.phase = s.phase)
    (keys : t.inflight = s.inflight) (lock : t.holder = s.holder) : Control key t := by
  obtain ⟨locked,single,inflight,waits⟩ := control
  constructor
  · rw [phases,lock]
    exact locked
  · rw [phases]
    exact single
  · rw [phases,keys]
    exact inflight
  · rw [phases,keys]
    exact waits

omit [DecidableEq κ] [DecidableEq ι] in
theorem writeKeeps {object old value} (cell : s.heap object = some ⟨old,.shared⟩) :
    Keeps s.heap (update s.heap object (some ⟨value,.shared⟩)) none := by
  have other : ∀ {r c}, s.heap r = some c → c.owner ≠ .shared →
      update s.heap object (some ⟨value,.shared⟩) r = some c := by
    intro r c found owner
    have apart : r ≠ object := by
      rintro rfl
      rw [cell] at found
      cases found
      exact owner rfl
    rw [update_of_ne apart,found]
  refine ⟨fun found => other found (by simp),fun _ found => other found (by simp),?_⟩
  intro r v found
  by_cases same : r = object
  · exact ⟨value,by rw [same,update_self]⟩
  · exact ⟨v,by rw [update_of_ne same,found]⟩

theorem nextStep (sound : Sound key s) (e : Event ι α ε) : Next key s (step key s e) := by
  cases e with
  | step i => exact nextAdvance sound i
  | finish i outcome =>
    have own := sound.data.knows i
    simp only [step]
    split
    · rename_i now
      rw [now] at own
      exact soundMoved sound (by rw [now]; rfl) (by simp) (lockSame sound.control (by rw [now]; rfl)) own
    · rename_i value now
      rw [now] at own
      split
      · rename_i reachable
        exact soundMoved sound (by rw [now]; rfl) (by simp)
          (lockSame sound.control (by rw [now]; rfl)) ⟨own,reachableCell reachable⟩
      · exact nextSame sound
    · exact nextSame sound
  | create value =>
    have keeps := allocKeeps sound.data ⟨value,.shared⟩
    exact ⟨⟨controlOutside sound.control rfl rfl rfl,
      dataOutside sound.data keeps (allocFresh sound.data _) rfl rfl⟩,storedKept keeps⟩
  | write object value =>
    simp only [step]
    split
    · rename_i reachable
      obtain ⟨old,cell⟩ := reachableCell reachable
      have keeps : Keeps s.heap (update s.heap object (some ⟨value,.shared⟩)) none :=
        writeKeeps cell
      have fresh : ∀ r, s.next ≤ r → update s.heap object (some ⟨value,.shared⟩) r = none := by
        intro r beyond
        have apart : r ≠ object := by
          rintro rfl
          simp [sound.data.fresh r beyond] at cell
        rw [update_of_ne apart,sound.data.fresh r beyond]
      exact ⟨⟨controlOutside sound.control rfl rfl rfl,
        dataOutside sound.data keeps fresh rfl rfl⟩,storedKept keeps⟩
    · exact nextSame sound

omit [DecidableEq ι] in
theorem soundStart : Sound key (start : State ι κ α ε) := ⟨controlStart,dataStart⟩

theorem soundStep (s : State ι κ α ε) (e : Event ι α ε) (sound : Sound key s) :
    Sound key (step key s e) := (nextStep sound e).sound

theorem soundRun (events : List (Event ι α ε)) : Sound key (Runs.run (step key) start events) :=
  Runs.invariant soundStep soundStart events

theorem storedRun {v} (sound : Sound key s) (stored : Stored s.values s.heap k v)
    (events : List (Event ι α ε)) :
    Stored (Runs.run (step key) s events).values (Runs.run (step key) s events).heap k v := by
  induction events generalizing s with
  | nil => exact stored
  | cons e rest ih =>
    have next := nextStep sound e
    exact ih next.sound (next.kept stored)

omit [DecidableEq ι] in
theorem storedUnique {values : List (κ × Nat)} {heap : Heap ι α} {v w}
    (one : Stored values heap k v) (two : Stored values heap k w) : v = w := by
  obtain ⟨r,found,cell⟩ := one
  obtain ⟨r',found',cell'⟩ := two
  rw [found] at found'
  cases found'
  rw [cell] at cell'
  cases cell'
  rfl

omit [DecidableEq ι] in
theorem returnedStored {copy v} (sound : Sound key s) (done : s.phase i = .returned copy v) :
    Stored s.values s.heap (key i) v := by
  have known := sound.data.knows i
  rw [done] at known
  exact known

omit [DecidableEq κ] in
theorem acquireOthers (other : j ≠ i) : (s.acquire i phase).phase j = s.phase j := by
  unfold State.acquire
  split
  · exact update_of_ne other _ _
  · rfl

omit [DecidableEq κ] in
theorem answerOthers (other : j ≠ i) : (s.answer i stored).phase j = s.phase j := by
  unfold State.answer State.clone
  cases s.heap stored with
  | none => rfl
  | some cell => exact update_of_ne other _ _

theorem checkOthers (other : j ≠ i) : (s.check key i).phase j = s.phase j := by
  unfold State.check
  split
  · exact answerOthers other
  · exact update_of_ne other _ _

omit [DecidableEq κ] in
theorem handOverOthers {copy} (other : j ≠ i) : (s.handOver i copy).phase j = s.phase j := by
  unfold State.handOver
  split
  · exact update_of_ne other _ _
  · rfl

theorem advanceOthers (other : j ≠ i) :
    (advance key s i).phase j = s.phase j ∨ (advance key s i).phase j = (s.phase j).wake := by
  unfold advance
  cases s.phase i with
  | calling => exact .inl (acquireOthers other)
  | checking => exact .inl (checkOthers other)
  | testing =>
    dsimp only
    split
    · exact .inl (update_of_ne other _ _)
    · exact .inl (update_of_ne other _ _)
  | waiting => exact .inl rfl
  | notified => exact .inl (acquireOthers other)
  | woken => exact .inl (checkOthers other)
  | claimed => exact .inl (update_of_ne other _ _)
  | loading => exact .inl rfl
  | failing e => exact .inl (acquireOthers other)
  | discarding e => exact .inr (update_of_ne other _ _)
  | copying value =>
    dsimp only
    unfold State.clone
    cases s.heap value with
    | none => exact .inl rfl
    | some cell => exact .inl (update_of_ne other _ _)
  | storing stored => exact .inl (acquireOthers other)
  | publishing stored => exact .inr (answerOthers other)
  | returning copy => exact .inl (handOverOthers other)
  | returned copy v => exact .inl rfl
  | raised e => exact .inl rfl

def Phase.loaded : Phase α ε → Bool
  | .copying _ | .storing _ | .publishing _ => true
  | .calling | .checking | .testing | .waiting | .notified | .woken | .claimed | .loading
  | .failing _ | .discarding _ | .returning _ | .returned _ _ | .raised _ => false

theorem loadedActive {p : Phase α ε} (loaded : p.loaded = true) : p.active = true := by
  cases p <;> first | rfl | cases loaded

theorem loadedWake (p : Phase α ε) : p.wake.loaded = p.loaded := by
  cases p <;> rfl

def Succeeded (key : ι → κ) (s : State ι κ α ε) (k : κ) : Prop :=
  (∃ v, Stored s.values s.heap k v) ∨ ∃ i, key i = k ∧ (s.phase i).loaded = true

omit [DecidableEq κ] in
theorem acquireSelf : (s.acquire i phase).phase i = s.phase i ∨ (s.acquire i phase).phase i = phase := by
  unfold State.acquire
  split
  · exact .inr (update_self ..)
  · exact .inl rfl

theorem succeededOwn (sound : Sound key s) (loaded : (s.phase i).loaded = true) :
    Succeeded key (advance key s i) (key i) := by
  have next := nextAdvance sound i
  cases now : s.phase i with
  | copying value =>
    obtain ⟨v,copied,-⟩ := soundCopy sound now
    refine .inr ⟨i,rfl,?_⟩
    simp only [advance,now,copied,State.move,update_self]
    rfl
  | storing stored =>
    refine .inr ⟨i,rfl,?_⟩
    have moved : (s.acquire i (.publishing stored)).phase i = s.phase i ∨
        (s.acquire i (.publishing stored)).phase i = .publishing stored := acquireSelf
    simp only [advance,now]
    rcases moved with same | taken
    · rw [same,now]
      rfl
    · rw [taken]
      rfl
  | publishing stored =>
    have own := sound.data.knows i
    rw [now] at own
    obtain ⟨missing,v,cell⟩ := own
    have here : ((s.store (key i) stored).discard (key i)).notifyAll.heap stored = some ⟨v,.cache⟩ := cell
    have returning : (advance key s i).phase i = .returning s.next := by
      simp only [advance,now,answerCopy here,State.move,update_self]
      rfl
    have known := next.sound.data.knows i
    rw [returning] at known
    exact .inl (known.imp fun _ => And.right)
  | _ => rw [now] at loaded; cases loaded

theorem succeededStep (sound : Sound key s) (succeeded : Succeeded key s k)
    (e : Event ι α ε) : Succeeded key (step key s e) k := by
  rcases succeeded with ⟨v,stored⟩ | ⟨i,rfl,loaded⟩
  · exact .inl ⟨v,(nextStep sound e).kept stored⟩
  cases e with
  | step j =>
    by_cases same : i = j
    · subst same
      exact succeededOwn sound loaded
    refine .inr ⟨i,rfl,?_⟩
    have moved : (advance key s j).phase i = s.phase i ∨
        (advance key s j).phase i = (s.phase i).wake := advanceOthers same
    simp only [step]
    rcases moved with unchanged | woken
    · rw [unchanged]
      exact loaded
    · rw [woken,loadedWake]
      exact loaded
  | finish j outcome =>
    refine .inr ⟨i,rfl,?_⟩
    have apart : s.phase j = .loading → i ≠ j := by
      rintro busy rfl
      rw [busy] at loaded
      cases loaded
    simp only [step]
    split
    · rename_i busy
      change (update s.phase j _ i).loaded = true
      rw [update_of_ne (apart busy)]
      exact loaded
    · rename_i busy
      split
      · change (update s.phase j _ i).loaded = true
        rw [update_of_ne (apart busy)]
        exact loaded
      · exact loaded
    · exact loaded
  | create value => exact .inr ⟨i,rfl,loaded⟩
  | write object value =>
    refine .inr ⟨i,rfl,?_⟩
    simp only [step]
    split <;> exact loaded

theorem succeededRun (sound : Sound key s) (succeeded : Succeeded key s k)
    (events : List (Event ι α ε)) : Succeeded key (Runs.run (step key) s events) k := by
  induction events generalizing s with
  | nil => exact succeeded
  | cons e rest ih => exact ih (soundStep s e sound) (succeededStep sound succeeded e)

omit [DecidableEq ι] in
theorem succeededNotLoading (sound : Sound key s) (succeeded : Succeeded key s k)
    (same : key i = k) : s.phase i ≠ .loading := by
  intro busy
  rcases succeeded with ⟨v,r,found,-⟩ | ⟨j,rfl,loaded⟩
  · have known := sound.data.knows i
    rw [busy,same] at known
    rw [show s.values.lookup k = none from known] at found
    cases found
  · have equal := sound.control.single (by rw [busy]; rfl) (loadedActive loaded) same
    rw [← equal,busy] at loaded
    cases loaded

end

end RedfishCtl.ResponseCache
