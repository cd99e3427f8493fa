import SmsGateway.Lib.Async

/-!
# Functions behind a lock

Calls of asynchronous functions that share a lock run one at a time, in the order
in which they were made. What they await acts on a world, which also changes on its
own. A call is verified on its own, with an assertion for each operation that the
world's own changes keep; the rule for the lock turns this into an invariant.
-/

namespace SmsGateway.Lib.Serialized

open Async

variable {W Op : Type} {Ans : Op → Type} {ε α β : Type}

structure World (W Op : Type) (Ans : Op → Type) where
  /-- an operation may be answered so, and leaves this behind -/
  acts : W → (op : Op) → Ans op → W → Prop
  /-- the changes the calls have no part in -/
  spont : W → W → Prop
  /-- a call takes the lock -/
  enter : W → W

/-! ## The lock -/

structure Sys (W Op : Type) (Ans : Op → Type) (ε α : Type) where
  world : W
  queue : List (Prog Op Ans ε α)
  running : Option (Prog Op Ans ε α)

inductive Step (D : World W Op Ans) (Call : Prog Op Ans ε α → Prop) :
    Sys W Op Ans ε α → Sys W Op Ans ε α → Prop where
  | submit {s : Sys W Op Ans ε α} (p : Prog Op Ans ε α) (hp : Call p) :
      Step D Call s { s with queue := s.queue ++ [p] }
  | start {s : Sys W Op Ans ε α} {p : Prog Op Ans ε α} {rest : List (Prog Op Ans ε α)}
      (hq : s.queue = p :: rest) (hr : s.running = none) :
      Step D Call s ⟨D.enter s.world, rest, some p⟩
  | act {s : Sys W Op Ans ε α} {op : Op} {k : Ans op → Prog Op Ans ε α} {a : Ans op} {w : W}
      (hr : s.running = some (.call op k)) (ha : D.acts s.world op a w) :
      Step D Call s { s with world := w, running := some (k a) }
  | finish {s : Sys W Op Ans ε α} (r : Except ε α) (hr : s.running = some (Prog.ofExcept r)) :
      Step D Call s { s with running := none }
  | spont {s : Sys W Op Ans ε α} {w : W} (hw : D.spont s.world w) :
      Step D Call s { s with world := w }

inductive Reachable (D : World W Op Ans) (Call : Prog Op Ans ε α → Prop) (w : W) :
    Sys W Op Ans ε α → Prop where
  | start : Reachable D Call w ⟨w, [], none⟩
  | step {s s' : Sys W Op Ans ε α} (h : Reachable D Call w s) (hs : Step D Call s s') :
      Reachable D Call w s'

/-! ## One call -/

/-- From here the call keeps `O` and ends in `Q`, whatever the world does. Each
operation has an assertion that holds until it is answered. -/
def Safe (D : World W Op Ans) (O : W → Prop) (Q : Except ε α → W → Prop) :
    Prog Op Ans ε α → W → Prop
  | .ret a, w => Q (.ok a) w
  | .fail e, w => Q (.error e) w
  | .call op k, w => ∃ A : W → Prop, A w ∧ (∀ w, A w → O w) ∧
      (∀ w w', A w → D.spont w w' → A w') ∧
      ∀ w a w', A w → D.acts w op a w' → Safe D O Q (k a) w'

section

variable {D : World W Op Ans} {O : W → Prop} {Q : Except ε α → W → Prop}

theorem safe_call {op : Op} {k : Ans op → Prog Op Ans ε α} {w : W} (A : W → Prop) (hA : A w)
    (hO : ∀ w, A w → O w) (hspont : ∀ w w', A w → D.spont w w' → A w')
    (hk : ∀ w a w', A w → D.acts w op a w' → Safe D O Q (k a) w') :
    Safe D O Q (.call op k) w :=
  ⟨A, hA, hO, hspont, hk⟩

/-- What the first part of a sequence has to reach for the rest. -/
def Then (D : World W Op Ans) (O : W → Prop) (Q : Except ε β → W → Prop)
    (f : α → Prog Op Ans ε β) : Except ε α → W → Prop
  | .ok a, w => Safe D O Q (f a) w
  | .error e, w => Q (.error e) w

theorem safe_bind {p : Prog Op Ans ε α} {f : α → Prog Op Ans ε β} {Q : Except ε β → W → Prop}
    {w : W} (h : Safe D O (Then D O Q f) p w) : Safe D O Q (p >>= f) w := by
  induction p generalizing w with
  | ret a => exact h
  | fail e => exact h
  | call op k ih =>
      obtain ⟨A, hA, hO, hspont, hk⟩ := h
      exact ⟨A, hA, hO, hspont, fun w a w' hw ha => ih a (hk w a w' hw ha)⟩

/-- An operation that rejects ends the sequence. -/
theorem safe_ofExcept_bind {x : Except ε α} {f : α → Prog Op Ans ε β}
    {Q : Except ε β → W → Prop} {w : W} (h : Then D O Q f x w) :
    Safe D O Q (Prog.ofExcept x >>= f) w := by
  cases x with
  | ok a => exact h
  | error e => exact h

/-- What a guarded part has to reach for its handler. -/
def Else (D : World W Op Ans) (O : W → Prop) (Q : Except ε α → W → Prop)
    (g : ε → Prog Op Ans ε α) : Except ε α → W → Prop
  | .ok a, w => Q (.ok a) w
  | .error e, w => Safe D O Q (g e) w

theorem safe_catchError {p : Prog Op Ans ε α} {g : ε → Prog Op Ans ε α} {w : W}
    (h : Safe D O (Else D O Q g) p w) : Safe D O Q (p.catchError g) w := by
  induction p generalizing w with
  | ret a => exact h
  | fail e => exact h
  | call op k ih =>
      obtain ⟨A, hA, hO, hspont, hk⟩ := h
      exact ⟨A, hA, hO, hspont, fun w a w' hw ha => ih a (hk w a w' hw ha)⟩

theorem safe_mono {p : Prog Op Ans ε α} {Q' : Except ε α → W → Prop} {w : W}
    (hQ : ∀ r w, Q r w → Q' r w) (h : Safe D O Q p w) : Safe D O Q' p w := by
  induction p generalizing w with
  | ret a => exact hQ _ w h
  | fail e => exact hQ _ w h
  | call op k ih =>
      obtain ⟨A, hA, hO, hspont, hk⟩ := h
      exact ⟨A, hA, hO, hspont, fun w a w' hw ha => ih a (hk w a w' hw ha)⟩

theorem safe_spont {p : Prog Op Ans ε α} {w w' : W}
    (hQ : ∀ r w w', Q r w → D.spont w w' → Q r w') (h : Safe D O Q p w) (hw : D.spont w w') :
    Safe D O Q p w' := by
  cases p with
  | ret a => exact hQ _ _ _ h hw
  | fail e => exact hQ _ _ _ h hw
  | call op k =>
      obtain ⟨A, hA, hO, hspont, hk⟩ := h
      exact ⟨A, hspont w w' hA hw, hO, hspont, hk⟩

theorem safe_observe {p : Prog Op Ans ε α} {w : W} (hQ : ∀ r w, Q r w → O w)
    (h : Safe D O Q p w) : O w := by
  cases p with
  | ret a => exact hQ _ _ h
  | fail e => exact hQ _ _ h
  | call op k =>
      obtain ⟨A, hA, hO, -, -⟩ := h
      exact hO w hA

end

/-! ## The rule for the lock -/

/-- `I` holds while the lock is free, and `O` at every moment. -/
structure Verified (D : World W Op Ans) (Call : Prog Op Ans ε α → Prop) (I O : W → Prop) : Prop where
  observe : ∀ w, I w → O w
  spont : ∀ w w', I w → D.spont w w' → I w'
  call : ∀ p, Call p → ∀ w, I w → Safe D O (fun _ => I) p (D.enter w)

structure Inv (D : World W Op Ans) (Call : Prog Op Ans ε α → Prop) (I O : W → Prop)
    (s : Sys W Op Ans ε α) : Prop where
  queue : ∀ p ∈ s.queue, Call p
  free : s.running = none → I s.world
  held : ∀ p, s.running = some p → Safe D O (fun _ => I) p s.world

section

variable {D : World W Op Ans} {Call : Prog Op Ans ε α → Prop} {I O : W → Prop}

theorem inv_step (hV : Verified D Call I O) {s s' : Sys W Op Ans ε α} (h : Inv D Call I O s)
    (hs : Step D Call s s') : Inv D Call I O s' := by
  cases hs with
  | submit p hp =>
      refine ⟨?_, h.free, h.held⟩
      intro q hq
      rcases List.mem_append.mp hq with hq | hq
      · exact h.queue q hq
      · rw [List.mem_singleton.mp hq]
        exact hp
  | @start p rest hq hr =>
      refine ⟨fun q hm => h.queue q (by rw [hq]; exact List.mem_cons_of_mem p hm), nofun, ?_⟩
      intro q hq'
      obtain rfl := Option.some.inj hq'
      exact hV.call p (h.queue p (by rw [hq]; exact List.mem_cons_self)) _ (h.free hr)
  | @act op k a w hr ha =>
      refine ⟨h.queue, nofun, ?_⟩
      intro q hq
      obtain rfl := Option.some.inj hq
      obtain ⟨A, hA, -, -, hk⟩ := h.held _ hr
      exact hk _ a w hA ha
  | finish r hr =>
      refine ⟨h.queue, fun _ => ?_, nofun⟩
      have hsafe := h.held _ hr
      cases r with
      | ok a => exact hsafe
      | error e => exact hsafe
  | spont hw =>
      refine ⟨h.queue, fun hr => hV.spont _ _ (h.free hr) hw, ?_⟩
      intro p hp
      exact safe_spont (fun _ w w' hI hs => hV.spont w w' hI hs) (h.held p hp) hw

theorem inv_reachable (hV : Verified D Call I O) {w : W} (hw : I w) {s : Sys W Op Ans ε α}
    (h : Reachable D Call w s) : Inv D Call I O s := by
  induction h with
  | start => exact ⟨fun _ hq => (List.not_mem_nil hq).elim, fun _ => hw, nofun⟩
  | step _ hs ih => exact inv_step hV ih hs

/-- The rule: what every call keeps holds in every reachable state. -/
theorem observe_reachable (hV : Verified D Call I O) {w : W} (hw : I w) {s : Sys W Op Ans ε α}
    (h : Reachable D Call w s) : O s.world := by
  have hinv := inv_reachable hV hw h
  cases hr : s.running with
  | none => exact hV.observe _ (hinv.free hr)
  | some p => exact safe_observe (fun _ => hV.observe) (hinv.held p hr)

end

/-! ## Runs of one call -/

/-- Left to itself the call can end so. -/
inductive Completes (D : World W Op Ans) : W → Prog Op Ans ε α → Except ε α → W → Prop where
  | done (w : W) (r : Except ε α) : Completes D w (Prog.ofExcept r) r w
  | act {w w' w'' : W} {op : Op} {k : Ans op → Prog Op Ans ε α} {a : Ans op} {r : Except ε α}
      (ha : D.acts w op a w') (h : Completes D w' (k a) r w'') : Completes D w (.call op k) r w''
  | spont {w w' w'' : W} {p : Prog Op Ans ε α} {r : Except ε α} (hw : D.spont w w')
      (h : Completes D w' p r w'') : Completes D w p r w''

section

variable {D : World W Op Ans} {β : Type}

theorem Completes.bind {w w' w'' : W} {p : Prog Op Ans ε β} {b : β} {f : β → Prog Op Ans ε α}
    {r : Except ε α} (hp : Completes D w p (.ok b) w') (hf : Completes D w' (f b) r w'') :
    Completes D w (p >>= f) r w'' := by
  generalize hx : Except.ok b = x at hp
  induction hp with
  | done w x =>
      subst hx
      exact hf
  | act ha _ ih => exact .act ha (ih hf hx)
  | spont hw _ ih => exact .spont hw (ih hf hx)

theorem Completes.catchError {w w' : W} {p : Prog Op Ans ε α} {g : ε → Prog Op Ans ε α} {a : α}
    (hp : Completes D w p (.ok a) w') : Completes D w (p.catchError g) (.ok a) w' := by
  generalize hx : Except.ok a = x at hp ⊢
  induction hp with
  | done w x =>
      subst hx
      exact .done w (.ok a)
  | act ha _ ih => exact .act ha (ih hx)
  | spont hw _ ih => exact .spont hw (ih hx)

theorem Reachable.completes {Call : Prog Op Ans ε α → Prop} {w₀ w' : W} {p : Prog Op Ans ε α}
    {r : Except ε α} {s : Sys W Op Ans ε α} (hs : Reachable D Call w₀ s)
    (hr : s.running = some p) (h : Completes D s.world p r w') :
    Reachable D Call w₀ ⟨w', s.queue, none⟩ := by
  generalize hw : s.world = w at h
  induction h generalizing s with
  | done w r =>
      subst hw
      exact hs.step (.finish r hr)
  | act ha _ ih =>
      subst hw
      have hend := ih (hs.step (.act hr ha)) rfl rfl
      exact hend
  | spont hspont _ ih =>
      subst hw
      have hend := ih (hs.step (.spont hspont)) hr rfl
      exact hend

/-- A whole call behind the lock that is free. -/
theorem Reachable.call {Call : Prog Op Ans ε α → Prop} {w₀ w w' : W} {p : Prog Op Ans ε α}
    {r : Except ε α} (hs : Reachable D Call w₀ ⟨w, [], none⟩) (hp : Call p)
    (h : Completes D (D.enter w) p r w') : Reachable D Call w₀ ⟨w', [], none⟩ := by
  have hstarted := (hs.step (.submit p hp)).step (.start rfl rfl)
  have hend := hstarted.completes rfl h
  exact hend

end

end SmsGateway.Lib.Serialized
