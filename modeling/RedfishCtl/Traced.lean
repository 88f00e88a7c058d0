import Mathlib.Data.List.Forall2

/-! Fallible computations that record the commands they issue. A failure keeps the
commands issued before it; a sequence of computations stops at the first failure. -/
namespace RedfishCtl

structure Traced (ι ε α : Type) where
  issued : List ι
  result : Except ε α

namespace Traced
variable {ι ε α β : Type}

def ofExcept (x : Except ε α) : Traced ι ε α := ⟨[],x⟩

def issue (i : ι) (answer : Except ε α) : Traced ι ε α := ⟨[i],answer⟩

def andThen (p : Traced ι ε α) (f : α → Traced ι ε β) : Traced ι ε β :=
  match p.result with
  | .error e => ⟨p.issued,.error e⟩
  | .ok a => ⟨p.issued ++ (f a).issued,(f a).result⟩

instance : Monad (Traced ι ε) where
  pure a := ⟨[],.ok a⟩
  bind := andThen

@[simp] theorem pureIssued (a : α) : (pure a : Traced ι ε α).issued = [] := rfl
@[simp] theorem pureResult (a : α) : (pure a : Traced ι ε α).result = .ok a := rfl
@[simp] theorem ofExceptIssued (x : Except ε α) : (ofExcept x : Traced ι ε α).issued = [] := rfl
@[simp] theorem ofExceptResult (x : Except ε α) : (ofExcept x : Traced ι ε α).result = x := rfl
@[simp] theorem issueIssued (i : ι) (x : Except ε α) : (issue i x).issued = [i] := rfl

@[simp] theorem issueResult (i : ι) (x : Except ε α) : (issue i x).result = x := rfl

variable {p : Traced ι ε α}

theorem bindOk {a} (done : p.result = .ok a) (f : α → Traced ι ε β) :
    p >>= f = ⟨p.issued ++ (f a).issued,(f a).result⟩ := by
  simp [bind,andThen,done]

theorem bindError {e} (failed : p.result = .error e) (f : α → Traced ι ε β) :
    p >>= f = ⟨p.issued,.error e⟩ := by
  simp [bind,andThen,failed]

theorem ofExceptOk (a : α) (f : α → Traced ι ε β) : ofExcept (.ok a) >>= f = f a := rfl

theorem resultBind {f} {b : β} :
    (p >>= f).result = .ok b ↔ ∃ a, p.result = .ok a ∧ (f a).result = .ok b := by
  cases h : p.result with
  | error e => simp [bindError h]
  | ok a => simp [bindOk h]

theorem issuedBind {f : α → Traced ι ε β} {i} :
    i ∈ (p >>= f).issued ↔ i ∈ p.issued ∨ ∃ a, p.result = .ok a ∧ i ∈ (f a).issued := by
  cases h : p.result with
  | error e => simp [bindError h]
  | ok a => simp [bindOk h]

@[simp] theorem mapIssued (p : Traced ι ε α) (f : α → β) :
    (p >>= fun a => (pure (f a) : Traced ι ε β)).issued = p.issued := by
  cases h : p.result with
  | error e => rw [bindError h]
  | ok a => simp [bindOk h]

def sequence : List (Traced ι ε α) → Traced ι ε (List α)
  | [] => pure []
  | p::rest => do
      let a ← p
      let done ← sequence rest
      pure (a::done)

variable {ps : List (Traced ι ε α)}

theorem sequenceOk {done} :
    (sequence ps).result = .ok done ↔ List.Forall₂ (fun p a => p.result = .ok a) ps done := by
  induction ps generalizing done with
  | nil => simp [sequence]
  | cons p rest ih =>
    simp only [sequence,resultBind,pureResult,Except.ok.injEq]
    constructor
    · rintro ⟨a,first,others,later,rfl⟩
      exact .cons first (ih.mp later)
    · intro all
      cases all with
      | cons first later => exact ⟨_,first,_,ih.mpr later,rfl⟩

theorem sequenceCompletes :
    (∃ done, (sequence ps).result = .ok done) ↔ ∀ p ∈ ps, ∃ a, p.result = .ok a := by
  simp only [sequenceOk]
  induction ps with
  | nil => exact ⟨fun _ => by simp,fun _ => ⟨[],.nil⟩⟩
  | cons p rest ih =>
    rw [List.forall_mem_cons,← ih]
    constructor
    · rintro ⟨_,all⟩
      cases all with
      | cons first later => exact ⟨⟨_,first⟩,_,later⟩
    · rintro ⟨⟨a,first⟩,done,later⟩
      exact ⟨a::done,.cons first later⟩

theorem sequenceIssued {i : ι} :
    i ∈ (sequence ps).issued ↔ ∃ pre p post, ps = pre ++ p::post ∧
      (∀ q ∈ pre, ∃ a, q.result = .ok a) ∧ i ∈ p.issued := by
  induction ps with
  | nil => simp [sequence]
  | cons p rest ih =>
    simp only [sequence,issuedBind,pureIssued,List.not_mem_nil,and_false,exists_false,or_false,ih]
    constructor
    · rintro (here | ⟨a,first,pre,q,post,rfl,completed,inside⟩)
      · exact ⟨[],p,rest,rfl,by simp,here⟩
      refine ⟨p::pre,q,post,rfl,?_,inside⟩
      intro q mem
      rcases List.mem_cons.mp mem with rfl | mem
      · exact ⟨a,first⟩
      · exact completed q mem
    · rintro ⟨pre,q,post,split,completed,inside⟩
      cases pre with
      | nil =>
        obtain ⟨rfl,-⟩ := List.cons.inj split
        exact .inl inside
      | cons r pre =>
        obtain ⟨rfl,rfl⟩ := List.cons.inj split
        obtain ⟨a,first⟩ := completed p (by simp)
        exact .inr ⟨a,first,pre,q,post,rfl,fun q mem => completed q (by simp [mem]),inside⟩

end Traced
end RedfishCtl
