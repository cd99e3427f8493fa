import SmsGateway.Lib.Serialized

/-!
# What the calls behind a lock return

The lock of `Serialized` with its calls by name and with a record of those that ended:
the world each took the lock in, the one it left, and its result. A property of one
call, relating the three, holds for every record; an order that the world only goes up
in orders the records.
-/

namespace SmsGateway.Lib.Ledger

open Async Serialized

variable {W Op : Type} {Ans : Op → Type} {ε α κ : Type}

structure Entry (κ W ε α : Type) where
  call : κ
  before : W
  after : W
  result : Except ε α

/-- The call that has the lock, and what is left of it. -/
structure Held (κ W Op : Type) (Ans : Op → Type) (ε α : Type) where
  call : κ
  before : W
  rest : Prog Op Ans ε α

structure Sys (κ W Op : Type) (Ans : Op → Type) (ε α : Type) where
  world : W
  queue : List κ
  held : Option (Held κ W Op Ans ε α)
  ended : List (Entry κ W ε α)

inductive Step (D : World W Op Ans) (body : κ → Prog Op Ans ε α) :
    Sys κ W Op Ans ε α → Sys κ W Op Ans ε α → Prop where
  | submit {s : Sys κ W Op Ans ε α} (c : κ) : Step D body s { s with queue := s.queue ++ [c] }
  | start {s : Sys κ W Op Ans ε α} {c : κ} {rest : List κ} (hq : s.queue = c :: rest)
      (hh : s.held = none) :
      Step D body s { s with world := D.enter s.world, queue := rest,
                             held := some ⟨c, D.enter s.world, body c⟩ }
  | act {s : Sys κ W Op Ans ε α} {c : κ} {w₀ : W} {op : Op} {k : Ans op → Prog Op Ans ε α}
      {a : Ans op} {w : W} (hh : s.held = some ⟨c, w₀, .call op k⟩) (ha : D.acts s.world op a w) :
      Step D body s { s with world := w, held := some ⟨c, w₀, k a⟩ }
  | finish {s : Sys κ W Op Ans ε α} {c : κ} {w₀ : W} (r : Except ε α)
      (hh : s.held = some ⟨c, w₀, Prog.ofExcept r⟩) :
      Step D body s { s with held := none, ended := s.ended ++ [⟨c, w₀, s.world, r⟩] }
  | spont {s : Sys κ W Op Ans ε α} {w : W} (hw : D.spont s.world w) :
      Step D body s { s with world := w }

inductive Reachable (D : World W Op Ans) (body : κ → Prog Op Ans ε α) (w : W) :
    Sys κ W Op Ans ε α → Prop where
  | start : Reachable D body w ⟨w, [], none, []⟩
  | step {s s' : Sys κ W Op Ans ε α} (h : Reachable D body w s) (hs : Step D body s s') :
      Reachable D body w s'

/-! ## Runs of one call -/

section

variable {D : World W Op Ans}

theorem Reachable.completes {body : κ → Prog Op Ans ε α} {w₀ w w' : W} {c : κ}
    {p : Prog Op Ans ε α} {r : Except ε α} {s : Sys κ W Op Ans ε α}
    (hs : Reachable D body w₀ s) (hh : s.held = some ⟨c, w, p⟩) (h : Completes D s.world p r w') :
    Reachable D body w₀ ⟨w', s.queue, none, s.ended ++ [⟨c, w, w', r⟩]⟩ := by
  generalize hw : s.world = v at h
  induction h generalizing s with
  | done v r =>
      subst hw
      exact hs.step (.finish r hh)
  | act ha _ ih =>
      subst hw
      have hnext := hs.step (.act hh ha)
      have hend := ih hnext rfl rfl
      exact hend
  | spont hspont _ ih =>
      subst hw
      have hnext := hs.step (.spont hspont)
      have hend := ih hnext hh rfl
      exact hend

end

/-! ## The rule for a call -/

/-- Every call ends as `P` says, whatever the world does meanwhile. -/
structure Verified (D : World W Op Ans) (body : κ → Prog Op Ans ε α)
    (P : κ → W → Except ε α → W → Prop) : Prop where
  spont : ∀ c w₀ r w w', P c w₀ r w → D.spont w w' → P c w₀ r w'
  call : ∀ c w, Safe D (fun _ => True) (P c w) (body c) w

structure Inv (D : World W Op Ans) (P : κ → W → Except ε α → W → Prop)
    (s : Sys κ W Op Ans ε α) : Prop where
  held : ∀ h, s.held = some h → Safe D (fun _ => True) (P h.call h.before) h.rest s.world
  ended : ∀ e ∈ s.ended, P e.call e.before e.result e.after

section

variable {D : World W Op Ans} {body : κ → Prog Op Ans ε α} {P : κ → W → Except ε α → W → Prop}

theorem inv_step (hV : Verified D body P) {s s' : Sys κ W Op Ans ε α} (h : Inv D P s)
    (hs : Step D body s s') : Inv D P s' := by
  cases hs with
  | submit c => exact ⟨h.held, h.ended⟩
  | @start c rest hq hh =>
      refine ⟨?_, h.ended⟩
      intro held hheld
      obtain rfl := Option.some.inj hheld
      exact hV.call c _
  | @act c w₀ op k a w hh ha =>
      refine ⟨?_, h.ended⟩
      intro held hheld
      obtain rfl := Option.some.inj hheld
      obtain ⟨A, hA, -, -, hk⟩ := h.held _ hh
      exact hk _ a w hA ha
  | @finish c w₀ r hh =>
      refine ⟨nofun, ?_⟩
      intro e he
      rcases List.mem_append.mp he with he | he
      · exact h.ended e he
      · rw [List.mem_singleton.mp he]
        have hsafe := h.held _ hh
        cases r with
        | ok a => exact hsafe
        | error e => exact hsafe
  | spont hw =>
      refine ⟨?_, h.ended⟩
      intro held hheld
      exact safe_spont (fun r w w' => hV.spont _ _ r w w') (h.held held hheld) hw

/-- The rule: what is shown for one call holds for every call that has ended. -/
theorem ended_reachable (hV : Verified D body P) {w : W} {s : Sys κ W Op Ans ε α}
    (h : Reachable D body w s) : ∀ e ∈ s.ended, P e.call e.before e.result e.after := by
  have hinv : Inv D P s := by
    induction h with
    | start => exact ⟨nofun, fun e he => (List.not_mem_nil he).elim⟩
    | step _ hs ih => exact inv_step hV ih hs
  exact hinv.ended

/-- A call nothing is asked of. -/
theorem safe_true (p : Prog Op Ans ε α) (w : W) :
    Safe D (fun _ => True) (fun _ _ => True) p w := by
  induction p generalizing w with
  | ret a => trivial
  | fail e => trivial
  | call op k ih =>
      exact safe_call (fun _ => True) trivial (fun _ _ => trivial) (fun _ _ _ _ => trivial)
        fun _ a w' _ _ => ih a w'

end

section

variable {D : World W Op Ans} {β : Type} {A : W → Prop} {K : Op → Prop}

/-- A part of a call whose operations keep what the world keeps of its own. -/
theorem safe_of_allOps {p : Prog Op Ans ε α} {w : W} (h : AllOps K p)
    (hacts : ∀ w op a w', K op → A w → D.acts w op a w' → A w')
    (hspont : ∀ w w', A w → D.spont w w' → A w') (hw : A w) :
    Safe D (fun _ => True) (fun _ => A) p w := by
  induction p generalizing w with
  | ret a => exact hw
  | fail e => exact hw
  | call op k ih =>
      refine safe_call A hw (fun _ _ => trivial) hspont ?_
      intro w a w' hA ha
      exact ih a (h.2 a) (hacts w op a w' h.1 hA ha)

theorem safe_allOps_bind {p : Prog Op Ans ε β} {f : β → Prog Op Ans ε α}
    {Q : Except ε α → W → Prop} {w : W} (h : AllOps K p)
    (hacts : ∀ w op a w', K op → A w → D.acts w op a w' → A w')
    (hspont : ∀ w w', A w → D.spont w w' → A w') (hw : A w)
    (hf : ∀ a w, A w → Safe D (fun _ => True) Q (f a) w) (hfail : ∀ e w, A w → Q (.error e) w) :
    Safe D (fun _ => True) Q (p >>= f) w := by
  refine safe_bind (safe_mono ?_ (safe_of_allOps h hacts hspont hw))
  intro r w hA
  cases r with
  | ok a => exact hf a w hA
  | error e => exact hfail e w hA

end

/-! ## The rule for the order -/

/-- The world only goes up in `R`. -/
structure Grows (D : World W Op Ans) (R : W → W → Prop) : Prop where
  refl : ∀ w, R w w
  trans : ∀ w₁ w₂ w₃, R w₁ w₂ → R w₂ w₃ → R w₁ w₃
  acts : ∀ w op a w', D.acts w op a w' → R w w'
  spont : ∀ w w', D.spont w w' → R w w'
  enter : ∀ w, R w (D.enter w)

structure Ordered (R : W → W → Prop) (s : Sys κ W Op Ans ε α) : Prop where
  ended : ∀ e ∈ s.ended, R e.after s.world
  held : ∀ h, s.held = some h → R h.before s.world ∧ ∀ e ∈ s.ended, R e.after h.before
  sorted : s.ended.Pairwise fun e f => R e.after f.before

section

variable {D : World W Op Ans} {body : κ → Prog Op Ans ε α} {R : W → W → Prop}

theorem Ordered.world {s : Sys κ W Op Ans ε α} {w : W} (hR : Grows D R) (h : Ordered R s)
    (hw : R s.world w) : Ordered R { s with world := w } :=
  { ended := fun e he => hR.trans _ _ _ (h.ended e he) hw
    held := fun x hx => ⟨hR.trans _ _ _ (h.held x hx).1 hw, (h.held x hx).2⟩
    sorted := h.sorted }

theorem ordered_step (hR : Grows D R) {s s' : Sys κ W Op Ans ε α} (h : Ordered R s)
    (hs : Step D body s s') : Ordered R s' := by
  cases hs with
  | submit c => exact ⟨h.ended, h.held, h.sorted⟩
  | @start c rest hq hh =>
      have hended : ∀ e ∈ s.ended, R e.after (D.enter s.world) :=
        fun e he => hR.trans _ _ _ (h.ended e he) (hR.enter _)
      refine ⟨hended, ?_, h.sorted⟩
      intro held hheld
      obtain rfl := Option.some.inj hheld
      exact ⟨hR.refl _, hended⟩
  | @act c w₀ op k a w hh ha =>
      have hw := h.world hR (hR.acts _ _ _ _ ha)
      refine ⟨hw.ended, ?_, hw.sorted⟩
      intro held hheld
      obtain rfl := Option.some.inj hheld
      obtain ⟨hbefore, hall⟩ := hw.held _ hh
      exact ⟨hbefore, hall⟩
  | @finish c w₀ r hh =>
      obtain ⟨-, hbefore⟩ := h.held _ hh
      refine ⟨?_, nofun, ?_⟩
      · intro e he
        rcases List.mem_append.mp he with he | he
        · exact h.ended e he
        · rw [List.mem_singleton.mp he]
          exact hR.refl _
      · refine List.pairwise_append.mpr ⟨h.sorted, List.pairwise_singleton _ _, ?_⟩
        intro e he f hf
        rw [List.mem_singleton.mp hf]
        exact hbefore e he
  | spont hw => exact h.world hR (hR.spont _ _ hw)

theorem ordered_reachable (hR : Grows D R) {w : W} {s : Sys κ W Op Ans ε α}
    (h : Reachable D body w s) : Ordered R s := by
  induction h with
  | start => exact ⟨fun e he => (List.not_mem_nil he).elim, nofun, .nil⟩
  | step _ hs ih => exact ordered_step hR ih hs

/-- The rule: a call leaves the world below where any later call finds it. -/
theorem sorted_reachable (hR : Grows D R) {w : W} {s : Sys κ W Op Ans ε α}
    (h : Reachable D body w s) : s.ended.Pairwise fun e f => R e.after f.before :=
  (ordered_reachable hR h).sorted

/-- And below where it is now. -/
theorem below_reachable (hR : Grows D R) {w : W} {s : Sys κ W Op Ans ε α}
    (h : Reachable D body w s) : ∀ e ∈ s.ended, R e.after s.world :=
  (ordered_reachable hR h).ended

end

end SmsGateway.Lib.Ledger
