import Mathlib

/-!
# Asynchronous functions as call trees

An `async` function alternates between its own computation and operations it
awaits. The tree below has one node for each operation and one branch for each
answer; an operation that can fail has `Except` answers, which the function
throws on. Errors are thrown and caught in the tree.
-/

namespace SmsGateway.Lib.Async

inductive Prog (Op : Type) (Ans : Op → Type) (ε α : Type) where
  | ret (a : α)
  | fail (e : ε)
  | call (op : Op) (k : Ans op → Prog Op Ans ε α)

variable {Op : Type} {Ans : Op → Type} {ε α β γ : Type}

namespace Prog

def bind : Prog Op Ans ε α → (α → Prog Op Ans ε β) → Prog Op Ans ε β
  | ret a, f => f a
  | fail e, _ => fail e
  | call op k, f => call op fun r => (k r).bind f

/-- `try { … } catch (e) { … }`. -/
def catchError : Prog Op Ans ε α → (ε → Prog Op Ans ε α) → Prog Op Ans ε α
  | ret a, _ => ret a
  | fail e, h => h e
  | call op k, h => call op fun r => (k r).catchError h

/-- `try { … } finally { … }` for a cleanup that handles its own errors. -/
def andFinally : Prog Op Ans ε α → Prog Op Ans ε Unit → Prog Op Ans ε α
  | ret a, cleanup => cleanup.bind fun _ => ret a
  | fail e, cleanup => cleanup.bind fun _ => fail e
  | call op k, cleanup => call op fun r => (k r).andFinally cleanup

instance : Monad (Prog Op Ans ε) where
  pure := ret
  bind := bind

/-- An operation on its own. -/
def perform (op : Op) : Prog Op Ans ε (Ans op) := call op ret

/-- What awaiting a settled promise does. -/
def ofExcept : Except ε α → Prog Op Ans ε α
  | .ok a => ret a
  | .error e => fail e

@[simp] theorem bind_ret (a : α) (f : α → Prog Op Ans ε β) : (ret a >>= f) = f a := rfl

@[simp] theorem bind_fail (e : ε) (f : α → Prog Op Ans ε β) : (fail e >>= f) = fail e := rfl

@[simp] theorem bind_call (op : Op) (k : Ans op → Prog Op Ans ε α)
    (f : α → Prog Op Ans ε β) : (call op k >>= f) = call op fun r => k r >>= f := rfl

@[simp] theorem pure_eq_ret (a : α) : (pure a : Prog Op Ans ε α) = ret a := rfl

theorem ofExcept_bind (x : Except ε α) (f : α → Except ε β) (g : β → Prog Op Ans ε γ) :
    (ofExcept x >>= fun a => ofExcept (f a) >>= g) = (ofExcept (x >>= f) >>= g) := by
  cases x <;> rfl

theorem bind_eq_ret (p : Prog Op Ans ε α) : p.bind ret = p := by
  induction p with
  | ret a => rfl
  | fail e => rfl
  | call op k ih =>
      simp only [bind]
      congr 1
      funext r
      exact ih r

theorem bind_bind (p : Prog Op Ans ε α) (f : α → Prog Op Ans ε β)
    (g : β → Prog Op Ans ε γ) : (p.bind f).bind g = p.bind fun a => (f a).bind g := by
  induction p with
  | ret a => rfl
  | fail e => rfl
  | call op k ih =>
      simp only [bind]
      congr 1
      funext r
      exact ih r

instance : LawfulMonad (Prog Op Ans ε) :=
  LawfulMonad.mk' (Prog Op Ans ε) (fun p => bind_eq_ret p) (fun _ _ => rfl)
    (fun p f g => bind_bind p f g)

end Prog

open Prog

/-! ## Runs -/

/-- One awaited operation and its answer. -/
structure Done (Op : Type) (Ans : Op → Type) where
  op : Op
  answer : Ans op

/-- How the world answers the `n`-th awaited operation. -/
abbrev Oracle (Op : Type) (Ans : Op → Type) := Nat → (op : Op) → Ans op

/-- The operations a run awaits, in order. -/
def trace (o : Oracle Op Ans) : Nat → Prog Op Ans ε α → List (Done Op Ans)
  | _, ret _ => []
  | _, fail _ => []
  | n, call op k => ⟨op, o n op⟩ :: trace o (n + 1) (k (o n op))

def result (o : Oracle Op Ans) : Nat → Prog Op Ans ε α → Except ε α
  | _, ret a => .ok a
  | _, fail e => .error e
  | n, call op k => result o (n + 1) (k (o n op))

/-- What a function makes of its result is no operation. -/
theorem trace_map (o : Oracle Op Ans) (n : Nat) {p : Prog Op Ans ε α} (f : α → β) :
    trace o n (p >>= fun a => ret (f a)) = trace o n p := by
  induction p generalizing n with
  | ret a => rfl
  | fail e => rfl
  | call op k ih => exact congrArg (_ :: ·) (ih (o n op) (n + 1))

theorem result_perform (o : Oracle Op Ans) (n : Nat) (op : Op) (f : Ans op → Prog Op Ans ε α) :
    result o n (perform op >>= f) = result o (n + 1) (f (o n op)) := rfl

/-! ## Protocols

A protocol follows a run with a stage: which operations may be awaited at a
stage, what a settled operation makes of it, and how a run may end there. -/

structure Protocol (Op : Type) (Ans : Op → Type) (ε α σ : Type) where
  allowed : σ → Op → Prop
  next : σ → (op : Op) → Ans op → σ
  mayReturn : σ → α → Prop
  mayFail : σ → ε → Prop

variable {σ : Type}

def Obeys (P : Protocol Op Ans ε α σ) : σ → Prog Op Ans ε α → Prop
  | s, ret a => P.mayReturn s a
  | s, fail e => P.mayFail s e
  | s, call op k => P.allowed s op ∧ ∀ r, Obeys P (P.next s op r) (k r)

/-- The protocol of the first part of a sequence: it may return where the rest may start. -/
def Protocol.before (P : Protocol Op Ans ε β σ) (f : α → Prog Op Ans ε β) :
    Protocol Op Ans ε α σ :=
  { allowed := P.allowed
    next := P.next
    mayReturn := fun s a => Obeys P s (f a)
    mayFail := P.mayFail }

theorem obeys_bind {P : Protocol Op Ans ε β σ} {f : α → Prog Op Ans ε β} {s : σ}
    {p : Prog Op Ans ε α} (h : Obeys (P.before f) s p) : Obeys P s (p >>= f) := by
  induction p generalizing s with
  | ret a => exact h
  | fail e => exact h
  | call op k ih => exact ⟨h.1, fun r => ih r (h.2 r)⟩

/-- The protocol of a guarded part: it may fail where the handler may start. -/
def Protocol.guarded (P : Protocol Op Ans ε α σ) (g : ε → Prog Op Ans ε α) :
    Protocol Op Ans ε α σ :=
  { P with mayFail := fun s e => Obeys P s (g e) }

theorem obeys_catchError {P : Protocol Op Ans ε α σ} {g : ε → Prog Op Ans ε α} {s : σ}
    {p : Prog Op Ans ε α} (h : Obeys (P.guarded g) s p) : Obeys P s (p.catchError g) := by
  induction p generalizing s with
  | ret a => exact h
  | fail e => exact h
  | call op k ih => exact ⟨h.1, fun r => ih r (h.2 r)⟩

/-- The protocol of a part with a cleanup: it may end where the cleanup may start. -/
def Protocol.cleaned (P : Protocol Op Ans ε α σ) (cleanup : Prog Op Ans ε Unit) :
    Protocol Op Ans ε α σ :=
  { P with
    mayReturn := fun s a => Obeys P s (cleanup.bind fun _ => ret a)
    mayFail := fun s e => Obeys P s (cleanup.bind fun _ => fail e) }

theorem obeys_andFinally {P : Protocol Op Ans ε α σ} {cleanup : Prog Op Ans ε Unit} {s : σ}
    {p : Prog Op Ans ε α} (h : Obeys (P.cleaned cleanup) s p) : Obeys P s (p.andFinally cleanup) := by
  induction p generalizing s with
  | ret a => exact h
  | fail e => exact h
  | call op k ih => exact ⟨h.1, fun r => ih r (h.2 r)⟩

/-- The stage a protocol is in after a trace. -/
def Protocol.after (P : Protocol Op Ans ε α σ) (s : σ) (t : List (Done Op Ans)) : σ :=
  t.foldl (fun s d => P.next s d.op d.answer) s

/-- Every operation of a trace is allowed at the stage it is awaited in. -/
def Protocol.Follows (P : Protocol Op Ans ε α σ) : σ → List (Done Op Ans) → Prop
  | _, [] => True
  | s, d :: t => P.allowed s d.op ∧ P.Follows (P.next s d.op d.answer) t

instance {P : Protocol Op Ans ε α σ} [∀ s op, Decidable (P.allowed s op)] (s : σ)
    (t : List (Done Op Ans)) : Decidable (P.Follows s t) :=
  decFollows s t
where
  decFollows : (s : σ) → (t : List (Done Op Ans)) → Decidable (P.Follows s t)
    | _, [] => .isTrue trivial
    | s, d :: t =>
        @instDecidableAnd _ _ inferInstance (decFollows (P.next s d.op d.answer) t)

theorem obeys_follows {P : Protocol Op Ans ε α σ} {s : σ} {p : Prog Op Ans ε α}
    (h : Obeys P s p) (o : Oracle Op Ans) (n : Nat) : P.Follows s (trace o n p) := by
  induction p generalizing s n with
  | ret a => trivial
  | fail e => trivial
  | call op k ih => exact ⟨h.1, ih (o n op) (h.2 (o n op)) (n + 1)⟩

theorem follows_append {P : Protocol Op Ans ε α σ} {s : σ} {t₁ t₂ : List (Done Op Ans)} :
    P.Follows s (t₁ ++ t₂) ↔ P.Follows s t₁ ∧ P.Follows (P.after s t₁) t₂ := by
  induction t₁ generalizing s with
  | nil => exact ⟨fun h => ⟨trivial, h⟩, fun h => h.2⟩
  | cons d t₁ ih =>
      simp only [List.cons_append, Protocol.Follows, ih, and_assoc]
      rfl

theorem allowed_of_follows {P : Protocol Op Ans ε α σ} {A : Op → Prop}
    (hA : ∀ s op, P.allowed s op → A op) {s : σ} {t : List (Done Op Ans)} (h : P.Follows s t) :
    ∀ d ∈ t, A d.op := by
  induction t generalizing s with
  | nil => simp
  | cons d t ih =>
      intro e he
      rcases List.mem_cons.mp he with rfl | he
      · exact hA s _ h.1
      · exact ih h.2 e he

/-- A run that follows a protocol ends as the protocol allows at its last stage. -/
theorem obeys_result {P : Protocol Op Ans ε α σ} {s : σ} {p : Prog Op Ans ε α}
    (h : Obeys P s p) (o : Oracle Op Ans) (n : Nat) :
    match result o n p with
    | .ok a => P.mayReturn (P.after s (trace o n p)) a
    | .error e => P.mayFail (P.after s (trace o n p)) e := by
  induction p generalizing s n with
  | ret a => exact h
  | fail e => exact h
  | call op k ih => exact ih (o n op) (h.2 (o n op)) (n + 1)

/-! ## What is left of a function -/

/-- What a function still has to do after some of its operations have settled. -/
inductive Rest (p : Prog Op Ans ε α) : Prog Op Ans ε α → Prop where
  | whole : Rest p p
  | after {op : Op} {k : Ans op → Prog Op Ans ε α} (h : Rest p (call op k)) (a : Ans op) :
      Rest p (k a)

/-- What is left of a function that obeys a protocol obeys it too. -/
theorem obeys_rest {P : Protocol Op Ans ε α σ} {s : σ} {p q : Prog Op Ans ε α} (h : Rest p q)
    (hp : Obeys P s p) : ∃ s', Obeys P s' q := by
  induction h with
  | whole => exact ⟨s, hp⟩
  | @after op k _ a ih =>
      obtain ⟨s', -, hnext⟩ := ih
      exact ⟨P.next s' op a, hnext a⟩

/-! ## Operations of one kind -/

/-- Every operation a function can ever await satisfies `A`. -/
def AllOps (A : Op → Prop) : Prog Op Ans ε α → Prop
  | ret _ => True
  | fail _ => True
  | call op k => A op ∧ ∀ r, AllOps A (k r)

section

variable {A : Op → Prop}

theorem allOps_ofExcept (x : Except ε α) : AllOps A (ofExcept x : Prog Op Ans ε α) := by
  cases x <;> trivial

theorem allOps_bind {p : Prog Op Ans ε α} {f : α → Prog Op Ans ε β} (hp : AllOps A p)
    (hf : ∀ a, AllOps A (f a)) : AllOps A (p >>= f) := by
  induction p with
  | ret a => exact hf a
  | fail e => trivial
  | call op k ih => exact ⟨hp.1, fun r => ih r (hp.2 r)⟩

theorem allOps_catchError {p : Prog Op Ans ε α} {g : ε → Prog Op Ans ε α} (hp : AllOps A p)
    (hg : ∀ e, AllOps A (g e)) : AllOps A (p.catchError g) := by
  induction p with
  | ret a => trivial
  | fail e => exact hg e
  | call op k ih => exact ⟨hp.1, fun r => ih r (hp.2 r)⟩

theorem allOps_andFinally {p : Prog Op Ans ε α} {cleanup : Prog Op Ans ε Unit} (hp : AllOps A p)
    (hc : AllOps A cleanup) : AllOps A (p.andFinally cleanup) := by
  induction p with
  | ret a => exact allOps_bind hc fun _ => trivial
  | fail e => exact allOps_bind hc fun _ => trivial
  | call op k ih => exact ⟨hp.1, fun r => ih r (hp.2 r)⟩

/-- A stage that the operations leave as it is. -/
theorem obeys_of_allOps {P : Protocol Op Ans ε α σ} {s : σ} {p : Prog Op Ans ε α}
    (h : AllOps A p) (hA : ∀ op, A op → P.allowed s op ∧ ∀ a, P.next s op a = s)
    (hret : ∀ a, P.mayReturn s a) (hfail : ∀ e, P.mayFail s e) : Obeys P s p := by
  induction p with
  | ret a => exact hret a
  | fail e => exact hfail e
  | call op k ih =>
      obtain ⟨hallowed, hnext⟩ := hA op h.1
      refine ⟨hallowed, fun r => ?_⟩
      rw [hnext]
      exact ih r (h.2 r)

end

end SmsGateway.Lib.Async
