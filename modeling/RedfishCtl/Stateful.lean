import RedfishCtl.Runs

/-! Programs over a mutable state that may fail; what was written before a failure stays. Two rules
carry the proofs: a program keeps an invariant, and two programs run in step. -/
namespace RedfishCtl

def Stateful (σ ε α : Type) := σ → Except ε α × σ

namespace Stateful
variable {σ τ ε α β : Type}

def andThen (p : Stateful σ ε α) (f : α → Stateful σ ε β) : Stateful σ ε β := fun s =>
  match p s with
  | (.error e,t) => (.error e,t)
  | (.ok a,t) => f a t

instance : Monad (Stateful σ ε) where
  pure a := fun s => (.ok a,s)
  bind := andThen

def ofExcept (x : Except ε α) : Stateful σ ε α := fun s => (x,s)

def read (f : σ → Except ε α) : Stateful σ ε α := fun s => (f s,s)

def modify (f : σ → σ) : Stateful σ ε Unit := fun s => (.ok (),f s)

def forEach (f : α → Stateful σ ε Unit) : List α → Stateful σ ε Unit
  | [] => pure ()
  | a::rest => do
      f a
      forEach f rest

def select (test : α → Stateful σ ε Bool) : List α → Stateful σ ε (List α)
  | [] => pure []
  | a::rest => do
      let keep ← test a
      let others ← select test rest
      pure (if keep then a::others else others)

def zoom (get : τ → σ) (set : σ → τ → τ) (p : Stateful σ ε α) : Stateful τ ε α := fun t =>
  ((p (get t)).1,set (p (get t)).2 t)

/- The last program runs whatever the first one did; its own failure replaces the outcome. -/
def always (p : Stateful σ ε α) (last : Stateful σ ε Unit) : Stateful σ ε α := fun s =>
  match last (p s).2 with
  | (.error e,t) => (.error e,t)
  | (.ok _,t) => ((p s).1,t)

def rescue (p : Stateful σ ε α) (handler : ε → Option (Stateful σ ε α)) : Stateful σ ε α := fun s =>
  match p s with
  | (.error e,t) => match handler e with
      | some h => h t
      | none => (.error e,t)
  | (.ok a,t) => (.ok a,t)

@[simp] theorem readRun (f : σ → Except ε α) (s : σ) : read f s = (f s,s) := rfl
@[simp] theorem modifyRun (f : σ → σ) (s : σ) : (modify f : Stateful σ ε Unit) s = (.ok (),f s) := rfl

section
variable {p : Stateful σ ε α} {f : α → Stateful σ ε β} {s t : σ}

theorem bindOk {a} (done : p s = (.ok a,t)) : (p >>= f) s = f a t := by
  change andThen p f s = _
  simp [andThen,done]

theorem bindError {e} (failed : p s = (.error e,t)) : (p >>= f) s = (.error e,t) := by
  change andThen p f s = _
  simp [andThen,failed]

theorem okOfRun {b} (done : (p >>= f) s = (.ok b,t)) : ∃ a u, p s = (.ok a,u) ∧ f a u = (.ok b,t) := by
  cases first : p s with
  | mk x u =>
    cases x with
    | error e =>
      rw [bindError first] at done
      cases done
    | ok a =>
      rw [bindOk first] at done
      exact ⟨a,u,rfl,done⟩

variable {handler : ε → Option (Stateful σ ε α)}

theorem rescueOk {a} (done : p s = (.ok a,t)) : rescue p handler s = (.ok a,t) := by
  simp [rescue,done]

theorem rescueError {e} (failed : p s = (.error e,t)) :
    rescue p handler s = ((handler e).getD (fun t => (.error e,t))) t := by
  simp only [rescue,failed]
  cases handler e with
  | none => rfl
  | some h => rfl

theorem readOk {g a} (done : g s = .ok a) : (read g >>= f) s = f a s := bindOk (Prod.ext done rfl)

theorem readError {g e} (failed : g s = .error e) : (read g >>= f) s = (.error e,s) :=
  bindError (Prod.ext failed rfl)

end

variable {f : α → Stateful σ ε Unit} {s : σ}

theorem forEachOk {a rest t} (done : f a s = (.ok (),t)) : forEach f (a::rest) s = forEach f rest t := bindOk done

variable {items : List α}

theorem forEachDone : (forEach f items s).1 = .ok () ↔
      Runs.Guarded (fun s a => (f a s).2) (fun s a => (f a s).1 = .ok ()) s items := by
  induction items generalizing s with
  | nil => exact ⟨fun _ => trivial,fun _ => rfl⟩
  | cons a rest ih =>
    cases result : f a s with
    | mk x t =>
      cases x with
      | error e =>
        rw [show forEach f (a::rest) s = (.error e,t) from bindError result]
        simp [Runs.Guarded,result]
      | ok u =>
        rw [forEachOk result,ih]
        simp [Runs.Guarded,result]

theorem forEachAfter (done : (forEach f items s).1 = .ok ()) :
    (forEach f items s).2 = Runs.run (fun s a => (f a s).2) s items := by
  induction items generalizing s with
  | nil => rfl
  | cons a rest ih =>
    have first := (forEachDone.mp done).1
    have result : f a s = (.ok (),(f a s).2) := Prod.ext first rfl
    rw [forEachOk result] at done ⊢
    exact ih done

theorem okOfBind {x} {f : α → Except ε β} {b} (done : x >>= f = .ok b) :
    ∃ a, x = .ok a ∧ f a = .ok b := by
  cases x with
  | error e => cases done
  | ok a => exact ⟨a,rfl,done⟩

theorem foldlMKeeps {f : σ → α → Except ε σ} {I : σ → Prop}
    (step : ∀ s a t, a ∈ items → I s → f s a = .ok t → I t) {t} (before : I s)
    (done : items.foldlM f s = .ok t) : I t := by
  induction items generalizing s with
  | nil =>
    cases Except.ok.inj done
    exact before
  | cons a rest ih =>
    obtain ⟨next,first,later⟩ := okOfBind done
    exact ih (fun s b t mem => step s b t (List.mem_cons_of_mem a mem))
      (step s a next List.mem_cons_self before first) later

theorem foldlMEach {f : σ → α → Except ε σ} {P : α → σ → Prop}
    (here : ∀ s a t, a ∈ items → f s a = .ok t → P a t)
    (keeps : ∀ s a t b, f s a = .ok t → P b s → P b t) {t} (done : items.foldlM f s = .ok t) :
    ∀ a ∈ items, P a t := by
  induction items generalizing s with
  | nil => exact fun a mem => nomatch mem
  | cons a rest ih =>
    obtain ⟨next,first,later⟩ := okOfBind done
    intro b mem
    rcases List.mem_cons.mp mem with rfl | mem
    · exact foldlMKeeps (fun s c t _ kept step => keeps s c t b step kept)
        (here s b next List.mem_cons_self first) later
    · exact ih (fun s c t inside => here s c t (List.mem_cons_of_mem a inside)) later b mem

theorem foldlMCongr {f g : σ → α → Except ε σ}
    (same : ∀ s, ∀ a ∈ items, f s a = g s a) (s : σ) : items.foldlM f s = items.foldlM g s := by
  induction items generalizing s with
  | nil => rfl
  | cons a rest ih =>
    rw [List.foldlM_cons,same s a List.mem_cons_self]
    congr 1
    funext t
    exact ih (fun s b mem => same s b (List.mem_cons_of_mem a mem)) t

theorem selectReads {test : α → σ → Except ε Bool} (items : List α) (s : σ) :
    (select (fun a => read (test a)) items s).2 = s := by
  induction items with
  | nil => rfl
  | cons a rest ih =>
    cases first : test a s with
    | error e => exact congrArg Prod.snd (readError (by exact first))
    | ok keep =>
      refine (congrArg Prod.snd (readOk (by exact first))).trans ?_
      cases others : select (fun a => read (test a)) rest s with
      | mk result t =>
        have same : t = s := by rw [others] at ih; exact ih
        cases result with
        | error e => exact (congrArg Prod.snd (bindError (by exact others))).trans same
        | ok kept => exact (congrArg Prod.snd (bindOk (by exact others))).trans same

/- The program keeps the invariant, also when it fails, and what it returns has the property. -/
def Keeps (I : σ → Prop) (P : α → Prop) (p : Stateful σ ε α) : Prop :=
  ∀ s, I s → I (p s).2 ∧ ∀ a, (p s).1 = .ok a → P a

section
variable {I : σ → Prop} {P : α → Prop} {Q : β → Prop}

theorem keepsPure {a} (holds : P a) : Keeps I P (pure a : Stateful σ ε α) :=
  fun _ start => ⟨start,fun _ same => Except.ok.inj same ▸ holds⟩

theorem keepsRead {f : σ → Except ε α} (holds : ∀ s a, I s → f s = .ok a → P a) :
    Keeps I P (read f) :=
  fun s start => ⟨start,fun a same => holds s a start same⟩

theorem keepsModify {f} (kept : ∀ s, I s → I (f s)) :
    Keeps I (fun _ => True) (modify f : Stateful σ ε Unit) :=
  fun s start => ⟨kept s start,fun _ _ => trivial⟩

variable {p : Stateful σ ε α}

theorem keepsBind {f} (first : Keeps I P p) (next : ∀ a, P a → Keeps I Q (f a)) :
    Keeps I Q (p >>= f) := by
  intro s start
  obtain ⟨kept,holds⟩ := first s start
  change I (andThen p f s).2 ∧ ∀ b, (andThen p f s).1 = .ok b → Q b
  unfold andThen
  generalize p s = result at kept holds
  obtain ⟨x,t⟩ := result
  cases x with
  | error e => exact ⟨kept,by simp⟩
  | ok a => exact next a (holds a rfl) t kept

theorem keepsAlways {last} (first : Keeps I P p) (closing : Keeps I (fun _ => True) last) :
    Keeps I P (always p last) := by
  intro s start
  obtain ⟨kept,holds⟩ := first s start
  have closed := (closing _ kept).1
  unfold always
  generalize last (p s).2 = result at closed
  obtain ⟨x,t⟩ := result
  cases x with
  | error e => exact ⟨closed,fun a same => nomatch same⟩
  | ok u => exact ⟨closed,holds⟩

theorem keepsRescue {handler} (first : Keeps I P p)
    (handled : ∀ e h, handler e = some h → Keeps I P h) : Keeps I P (rescue p handler) := by
  intro s start
  obtain ⟨kept,holds⟩ := first s start
  unfold rescue
  generalize p s = result at kept holds
  obtain ⟨x,t⟩ := result
  cases x with
  | ok a => exact ⟨kept,holds⟩
  | error e =>
    dsimp only
    split
    · rename_i h found
      exact handled e h found t kept
    · exact ⟨kept,fun a same => nomatch same⟩

theorem keepsForEach {f : α → Stateful σ ε Unit} {items}
    (each : ∀ a ∈ items, Keeps I (fun _ => True) (f a)) : Keeps I (fun _ => True) (forEach f items) := by
  induction items with
  | nil => exact keepsPure trivial
  | cons a rest ih =>
    exact keepsBind (each a (by simp)) fun _ _ => ih fun b mem => each b (by simp [mem])

theorem keepsSelect {test : α → Stateful σ ε Bool} {items}
    (each : ∀ a ∈ items, Keeps I (fun _ => True) (test a)) :
    Keeps I (fun kept => ∀ a ∈ kept, a ∈ items) (select test items) := by
  induction items with
  | nil => exact keepsPure (by simp)
  | cons a rest ih =>
    refine keepsBind (each a (by simp)) fun keep _ => ?_
    refine keepsBind (ih fun b mem => each b (by simp [mem])) fun others inside => ?_
    refine keepsPure fun b mem => ?_
    cases keep with
    | false => exact List.mem_cons_of_mem a (inside b mem)
    | true => exact List.mem_cons.mpr ((List.mem_cons.mp mem).imp_right (inside b))

end

def Agree (Q : α → β → Prop) : Except ε α → Except ε β → Prop
  | .ok a, .ok b => Q a b
  | .error e, .error e' => e = e'
  | _, _ => False

def InStep (R : σ → τ → Prop) (Q : α → β → Prop) (p : Stateful σ ε α) (q : Stateful τ ε β) : Prop :=
  ∀ s t, R s t → Agree Q (p s).1 (q t).1 ∧ R (p s).2 (q t).2

section
variable {R : σ → τ → Prop} {γ δ : Type} {Q : α → β → Prop} {P : γ → δ → Prop}

theorem inStepPure {a b} (related : Q a b) : InStep R Q (pure a : Stateful σ ε α) (pure b) :=
  fun _ _ states => ⟨related,states⟩

theorem inStepRead {f} {g : τ → Except ε β} (related : ∀ s t, R s t → Agree Q (f s) (g t)) :
    InStep R Q (read f) (read g) :=
  fun s t states => ⟨related s t states,states⟩

theorem inStepModify {f g} (related : ∀ s t, R s t → R (f s) (g t)) :
    InStep R Eq (modify f : Stateful σ ε Unit) (modify g) :=
  fun s t states => ⟨rfl,related s t states⟩

theorem inStepBind {p q f} {g : β → Stateful τ ε δ} (first : InStep R Q p q)
    (next : ∀ a b, Q a b → InStep R P (f a) (g b)) : InStep R P (p >>= f) (q >>= g) := by
  intro s t states
  obtain ⟨results,after⟩ := first s t states
  change Agree P (andThen p f s).1 (andThen q g t).1 ∧ R (andThen p f s).2 (andThen q g t).2
  unfold andThen
  generalize p s = left at results after
  generalize q t = right at results after
  obtain ⟨x,s'⟩ := left
  obtain ⟨y,t'⟩ := right
  cases x with
  | error e =>
    cases y with
    | error e' => exact ⟨results,after⟩
    | ok b => exact absurd results id
  | ok a =>
    cases y with
    | error e' => exact absurd results id
    | ok b => exact next a b results s' t' after

theorem inStepForEach {f} {g : β → Stateful τ ε Unit} {φ} {items : List α}
    (each : ∀ a ∈ items, InStep R Eq (f a) (g (φ a))) :
    InStep R Eq (forEach f items) (forEach g (items.map φ)) := by
  induction items with
  | nil => exact inStepPure rfl
  | cons a rest ih =>
    exact inStepBind (each a (by simp)) fun _ _ _ => ih fun b mem => each b (by simp [mem])

theorem inStepSelect {test} {test' : β → Stateful τ ε Bool} {φ} {items : List α}
    (each : ∀ a ∈ items, InStep R Eq (test a) (test' (φ a))) :
    InStep R (fun xs ys => ys = xs.map φ) (select test items) (select test' (items.map φ)) := by
  induction items with
  | nil => exact inStepPure rfl
  | cons a rest ih =>
    refine inStepBind (each a (by simp)) fun keep keep' same => ?_
    refine inStepBind (ih fun b mem => each b (by simp [mem])) fun xs ys mapped => ?_
    subst same mapped
    exact inStepPure (by cases keep <;> rfl)

end
end Stateful
end RedfishCtl
