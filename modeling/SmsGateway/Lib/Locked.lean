import SmsGateway.Lib.Async
import SmsGateway.Lib.Runs

/-!
# Calls behind a lock that work on a world

Each call is known by its name. It runs while it has the lock; what it awaits is answered, and
acts on a world that only the calls change. An answer leaves open what the operation did, which
the event says. The preconditions of a call's operations carry over to every run.
-/

namespace SmsGateway.Lib.Locked

open Async

variable {W κ χ Op : Type} {Ans : Op → Type} {ε α β : Type}

/-- The body of each call, and what an answered operation leaves behind. -/
structure Service (W κ χ Op : Type) (Ans : Op → Type) (ε : Type) where
  body : κ → Prog Op Ans ε Unit
  act : W → (op : Op) → Ans op → χ → W

structure State (W κ Op : Type) (Ans : Op → Type) (ε : Type) where
  world : W
  queue : List κ
  running : Option (κ × Prog Op Ans ε Unit)

def start (w : W) : State W κ Op Ans ε := ⟨w, [], none⟩

inductive Event (κ χ Op : Type) (Ans : Op → Type) where
  | submit (c : κ)
  /-- the call in front takes the lock -/
  | take
  /-- the operation that is awaited settles -/
  | answer (answers : (op : Op) → Ans op) (did : χ)
  | finish

def step (S : Service W κ χ Op Ans ε) (s : State W κ Op Ans ε) :
    Event κ χ Op Ans → Option (State W κ Op Ans ε)
  | .submit c => some { s with queue := s.queue ++ [c] }
  | .take =>
      match s.running, s.queue with
      | none, c :: rest => some { s with queue := rest, running := some (c, S.body c) }
      | _, _ => none
  | .answer answers did =>
      match s.running with
      | some (c, .call op k) =>
          some { s with world := S.act s.world op (answers op) did
                        running := some (c, k (answers op)) }
      | _ => none
  | .finish =>
      match s.running with
      | some (_, .ret _) => some { s with running := none }
      | some (_, .fail _) => some { s with running := none }
      | _ => none

/-! ## Preconditions -/

/-- Whatever the answers leave behind, each operation finds its precondition, and the function
ends where `Q` holds. -/
def Wp (act : W → (op : Op) → Ans op → χ → W) (allowed : W → Op → Prop)
    (Q : Except ε α → W → Prop) : Prog Op Ans ε α → W → Prop
  | .ret a, w => Q (.ok a) w
  | .fail e, w => Q (.error e) w
  | .call op k, w => allowed w op ∧ ∀ a did, Wp act allowed Q (k a) (act w op a did)

section

variable {act : W → (op : Op) → Ans op → χ → W} {allowed : W → Op → Prop}

theorem wp_mono {Q R : Except ε α → W → Prop} (hQ : ∀ r w, Q r w → R r w) {p : Prog Op Ans ε α}
    {w : W} (h : Wp act allowed Q p w) : Wp act allowed R p w := by
  induction p generalizing w with
  | ret a => exact hQ _ _ h
  | fail e => exact hQ _ _ h
  | call op k ih => exact ⟨h.1, fun a did => ih a (h.2 a did)⟩

/-- What the first part of a sequence has to reach for the rest. -/
def Then (act : W → (op : Op) → Ans op → χ → W) (allowed : W → Op → Prop)
    (Q : Except ε β → W → Prop) (f : α → Prog Op Ans ε β) : Except ε α → W → Prop
  | .ok a, w => Wp act allowed Q (f a) w
  | .error e, w => Q (.error e) w

theorem wp_bind {Q : Except ε β → W → Prop} {p : Prog Op Ans ε α} {f : α → Prog Op Ans ε β} {w : W}
    (h : Wp act allowed (Then act allowed Q f) p w) : Wp act allowed Q (p >>= f) w := by
  induction p generalizing w with
  | ret a => exact h
  | fail e => exact h
  | call op k ih => exact ⟨h.1, fun a did => ih a (h.2 a did)⟩

/-- What a guarded part has to reach for its handler. -/
def Else (act : W → (op : Op) → Ans op → χ → W) (allowed : W → Op → Prop)
    (Q : Except ε α → W → Prop) (g : ε → Prog Op Ans ε α) : Except ε α → W → Prop
  | .ok a, w => Q (.ok a) w
  | .error e, w => Wp act allowed Q (g e) w

theorem wp_catchError {Q : Except ε α → W → Prop} {p : Prog Op Ans ε α} {g : ε → Prog Op Ans ε α}
    {w : W} (h : Wp act allowed (Else act allowed Q g) p w) :
    Wp act allowed Q (p.catchError g) w := by
  induction p generalizing w with
  | ret a => exact h
  | fail e => exact h
  | call op k ih => exact ⟨h.1, fun a did => ih a (h.2 a did)⟩

/-- What a cleanup has to reach behind a part that came out as `r`. -/
def Afterwards (Q : Except ε α → W → Prop) (r : Except ε α) : Except ε Unit → W → Prop
  | .ok _, w => Q r w
  | .error e, w => Q (.error e) w

theorem wp_andFinally {Q R : Except ε α → W → Prop} {p : Prog Op Ans ε α}
    {cleanup : Prog Op Ans ε Unit} {w : W} (h : Wp act allowed R p w)
    (hc : ∀ r w, R r w → Wp act allowed (Afterwards Q r) cleanup w) :
    Wp act allowed Q (p.andFinally cleanup) w := by
  have hend (r : Except ε α) (last : Prog Op Ans ε α)
      (hlast : ∀ w, Q r w → Wp act allowed Q last w) (w : W) (hw : R r w) :
      Wp act allowed Q (cleanup.bind fun _ => last) w := by
    refine wp_bind (f := fun _ => last) (wp_mono ?_ (hc r w hw))
    intro x w' hx
    cases x with
    | ok a => exact hlast w' hx
    | error e => exact hx
  induction p generalizing w with
  | ret a => exact hend (.ok a) (.ret a) (fun _ hq => hq) w h
  | fail e => exact hend (.error e) (.fail e) (fun _ hq => hq) w h
  | call op k ih => exact ⟨h.1, fun a did => ih a (h.2 a did)⟩

end

/-! ## The rule for the lock -/

/-- The call that runs finds the precondition of each operation it still awaits. -/
def Holds (S : Service W κ χ Op Ans ε) (allowed : κ → W → Op → Prop) (s : State W κ Op Ans ε) :
    Prop :=
  ∀ c p, s.running = some (c, p) → Wp S.act (allowed c) (fun _ _ => True) p s.world

section

variable {S : Service W κ χ Op Ans ε} {allowed : κ → W → Op → Prop}
  {s s' : State W κ Op Ans ε}

/-- A step of a call that runs is what its preconditions speak of; a call that takes the lock
has to bring its own. -/
theorem holds_step {e : Event κ χ Op Ans} (h : Holds S allowed s)
    (htake : e = .take → ∀ c rest, s.queue = c :: rest →
      Wp S.act (allowed c) (fun _ _ => True) (S.body c) s.world)
    (hstep : step S s e = some s') : Holds S allowed s' := by
  intro c p hp
  cases e with
  | submit c' =>
      obtain rfl := Option.some.inj hstep
      exact h c p hp
  | take =>
      cases hr : s.running with
      | some r => simp [step, hr] at hstep
      | none =>
          cases hq : s.queue with
          | nil => simp [step, hr, hq] at hstep
          | cons c' rest =>
              simp only [step, hr, hq, Option.some.injEq] at hstep
              subst hstep
              obtain ⟨rfl, rfl⟩ := Prod.mk.inj (Option.some.inj hp)
              exact htake rfl c' rest hq
  | answer answers did =>
      cases hr : s.running with
      | none => simp [step, hr] at hstep
      | some r =>
          obtain ⟨c', q⟩ := r
          cases q with
          | ret a => simp [step, hr] at hstep
          | fail e => simp [step, hr] at hstep
          | call op k =>
              simp only [step, hr, Option.some.injEq] at hstep
              subst hstep
              obtain ⟨rfl, rfl⟩ := Prod.mk.inj (Option.some.inj hp)
              exact (h c' _ hr).2 (answers op) did
  | finish =>
      have hnone : s'.running = none := by
        cases hr : s.running with
        | none => simp [step, hr] at hstep
        | some r =>
            obtain ⟨c', q⟩ := r
            cases q with
            | call op k => simp [step, hr] at hstep
            | ret a =>
                simp only [step, hr, Option.some.injEq] at hstep
                rw [← hstep]
            | fail e =>
                simp only [step, hr, Option.some.injEq] at hstep
                rw [← hstep]
      rw [hnone] at hp
      cases hp

/-- The call in front of the queue takes the lock in a world that suits it. -/
def suits (entry : κ → W → Bool) (s : State W κ Op Ans ε) : Event κ χ Op Ans → Bool
  | .take =>
      match s.queue with
      | c :: _ => entry c s.world
      | [] => true
  | _ => true

/-- The rule: in a run in which every call takes the lock in a world that suits it, each
operation is awaited where its precondition holds. -/
theorem allowed_run {entry : κ → W → Bool}
    (hbody : ∀ c w, entry c w = true → Wp S.act (allowed c) (fun _ _ => True) (S.body c) w)
    {w : W} {es : List (Event κ χ Op Ans)} (h : Runs.run (step S) (start w) es = some s)
    (hes : Runs.allSteps (step S) (suits entry) (start w) es = true) {c : κ} {op : Op}
    {k : Ans op → Prog Op Ans ε Unit} (hr : s.running = some (c, .call op k)) :
    allowed c s.world op := by
  have hholds : Holds S allowed s := by
    refine Runs.allSteps_induct (P := Holds S allowed) ?_ ?_ hes h
    · intro s e s' hs he hstep
      refine holds_step hs ?_ hstep
      rintro rfl c rest hq
      rw [suits, hq] at he
      exact hbody c s.world he
    · intro c p hp
      cases hp
  exact (hholds c _ hr).1

end

end SmsGateway.Lib.Locked
