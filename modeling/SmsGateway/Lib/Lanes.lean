import SmsGateway.Lib.Ledger

/-!
# Locks side by side

Several locks, each with its own calls, over one world. What the calls behind one lock do to the
world is to the others a change of the world's own, so each lock goes on as in `Ledger`.
-/

namespace SmsGateway.Lib.Lanes

open Async Serialized Ledger

/-- A lock and its calls, without the world. -/
structure Lane (κ W Op : Type) (Ans : Op → Type) (ε α : Type) where
  queue : List κ
  held : Option (Held κ W Op Ans ε α)
  ended : List (Entry κ W ε α)

section

variable {κ W Op : Type} {Ans : Op → Type} {ε α : Type}

def Lane.over (l : Lane κ W Op Ans ε α) (w : W) : Sys κ W Op Ans ε α :=
  ⟨w, l.queue, l.held, l.ended⟩

def laneOf (s : Sys κ W Op Ans ε α) : Lane κ W Op Ans ε α := ⟨s.queue, s.held, s.ended⟩

/-- How a step may change the world. -/
theorem world_step {D : World W Op Ans} {body : κ → Prog Op Ans ε α} {s s' : Sys κ W Op Ans ε α}
    (h : Ledger.Step D body s s') :
    s'.world = s.world ∨ s'.world = D.enter s.world ∨
      (∃ op a, D.acts s.world op a s'.world) ∨ D.spont s.world s'.world := by
  cases h with
  | submit c => exact Or.inl rfl
  | start hq hh => exact Or.inr (Or.inl rfl)
  | act hh ha => exact Or.inr (Or.inr (Or.inl ⟨_, _, ha⟩))
  | finish r hh => exact Or.inl rfl
  | spont hw => exact Or.inr (Or.inr (Or.inr hw))

end

variable {ι κ W ε α : Type} {Op : ι → Type} {Ans : (i : ι) → Op i → Type}

structure State (κ W : Type) (Op : ι → Type) (Ans : (i : ι) → Op i → Type) (ε α : Type) where
  world : W
  lanes : (i : ι) → Lane κ W (Op i) (Ans i) ε α

def State.lane (t : State κ W Op Ans ε α) (i : ι) : Sys κ W (Op i) (Ans i) ε α :=
  (t.lanes i).over t.world

/-- One lock goes on; the others keep what they have. -/
inductive Step (D : (i : ι) → World W (Op i) (Ans i)) (body : (i : ι) → κ → Prog (Op i) (Ans i) ε α)
    (t t' : State κ W Op Ans ε α) : Prop where
  | lane (i : ι) (hi : Ledger.Step (D i) (body i) (t.lane i) (t'.lane i))
      (hothers : ∀ j, j ≠ i → t'.lanes j = t.lanes j)

inductive Reachable (D : (i : ι) → World W (Op i) (Ans i))
    (body : (i : ι) → κ → Prog (Op i) (Ans i) ε α) (w : W) : State κ W Op Ans ε α → Prop where
  | start : Reachable D body w ⟨w, fun _ => ⟨[], none, []⟩⟩
  | step {t t' : State κ W Op Ans ε α} (h : Reachable D body w t) (ht : Step D body t t') :
      Reachable D body w t'

/-- Each lock expects of its world what the others do to it. -/
structure Expected (D : (i : ι) → World W (Op i) (Ans i)) : Prop where
  enter : ∀ i j w, (D j).spont w ((D i).enter w)
  acts : ∀ i j w op a w', (D i).acts w op a w' → (D j).spont w w'
  spont : ∀ i j w w', (D i).spont w w' → (D j).spont w w'

section

variable {D : (i : ι) → World W (Op i) (Ans i)} {body : (i : ι) → κ → Prog (Op i) (Ans i) ε α}
  {w : W} {t t' : State κ W Op Ans ε α}

/-- The rule: what is shown for one lock holds for it among the others. -/
theorem lane_reachable (hD : Expected D) (h : Reachable D body w t) (j : ι) :
    Ledger.Reachable (D j) (body j) w (t.lane j) := by
  induction h with
  | start => exact .start
  | @step t t' _ ht ih =>
      obtain ⟨i, hi, hothers⟩ := ht
      by_cases hj : j = i
      · subst hj
        exact ih.step hi
      -- to this lock the step of another one is the world's own
      · have hsame : t'.lane j = (t.lanes j).over t'.world := by
          rw [State.lane, hothers j hj]
        rw [hsame]
        have hspont : t'.world = t.world ∨ (D j).spont t.world t'.world := by
          rcases world_step hi with heq | heq | ⟨op, a, ha⟩ | hw
          · exact Or.inl heq
          · have heq' : t'.world = (D i).enter t.world := heq
            exact Or.inr (heq' ▸ hD.enter i j t.world)
          · exact Or.inr (hD.acts i j _ op a _ ha)
          · exact Or.inr (hD.spont i j _ _ hw)
        rcases hspont with heq | hw
        · rw [heq]
          exact ih
        · exact ih.step (.spont hw)

/-! ## A step of one lock -/

/-- The state with one lock elsewhere. -/
def State.move [DecidableEq ι] (t : State κ W Op Ans ε α) (i : ι)
    (s : Sys κ W (Op i) (Ans i) ε α) : State κ W Op Ans ε α :=
  ⟨s.world, Function.update t.lanes i (laneOf s)⟩

theorem lane_move [DecidableEq ι] (t : State κ W Op Ans ε α) (i : ι)
    (s : Sys κ W (Op i) (Ans i) ε α) : (t.move i s).lane i = s := by
  simp only [State.lane, State.move, Function.update_self]
  rfl

theorem Reachable.move [DecidableEq ι] (h : Reachable D body w t) {i : ι}
    {s : Sys κ W (Op i) (Ans i) ε α} (hs : Ledger.Step (D i) (body i) (t.lane i) s) :
    Reachable D body w (t.move i s) := by
  refine h.step (.lane i ((lane_move t i s).symm ▸ hs) ?_)
  intro j hj
  exact Function.update_of_ne hj _ _

theorem self_move [DecidableEq ι] (t : State κ W Op Ans ε α) (i : ι)
    (s : Sys κ W (Op i) (Ans i) ε α) : (t.move i s).lanes i = laneOf s :=
  Function.update_self _ _ _

theorem others_move [DecidableEq ι] (t : State κ W Op Ans ε α) {i j : ι} (h : j ≠ i)
    (s : Sys κ W (Op i) (Ans i) ε α) : (t.move i s).lanes j = t.lanes j :=
  Function.update_of_ne h _ _

/-- The call that has a lock can be brought to its end while the other locks stand still. -/
theorem Reachable.completes [DecidableEq ι] {i : ι} {c : κ} {v v' u : W}
    {p : Prog (Op i) (Ans i) ε α} {r : Except ε α} (h : Reachable D body w t)
    (hh : (t.lane i).held = some ⟨c, v, p⟩) (hv : t.world = u) (hp : Completes (D i) u p r v') :
    ∃ t', Reachable D body w t' ∧ t'.world = v' ∧
      t'.lanes i = ⟨(t.lanes i).queue, none, (t.lanes i).ended ++ [⟨c, v, v', r⟩]⟩ ∧
      ∀ j, j ≠ i → t'.lanes j = t.lanes j := by
  induction hp generalizing t with
  | done u r =>
      subst hv
      have hs : Ledger.Step (D i) (body i) (t.lane i) _ := .finish r hh
      exact ⟨_, h.move hs, rfl, self_move t i _, fun j hj => others_move t hj _⟩
  | @act u u' v' op k a r ha _ ih =>
      subst hv
      have hs : Ledger.Step (D i) (body i) (t.lane i) _ := .act hh ha
      have hlane := lane_move t i { t.lane i with world := u', held := some ⟨c, v, k a⟩ }
      obtain ⟨t', ht', hworld, hi, hothers⟩ := ih (h.move hs) (by rw [hlane]) rfl
      refine ⟨t', ht', hworld, ?_, fun j hj => (hothers j hj).trans (others_move t hj _)⟩
      rw [hi, self_move]
      rfl
  | @spont u u' v' p r hspont _ ih =>
      subst hv
      have hs : Ledger.Step (D i) (body i) (t.lane i) _ := .spont hspont
      have hlane := lane_move t i { t.lane i with world := u' }
      obtain ⟨t', ht', hworld, hi, hothers⟩ := ih (h.move hs) (by rw [hlane]; exact hh) rfl
      refine ⟨t', ht', hworld, ?_, fun j hj => (hothers j hj).trans (others_move t hj _)⟩
      rw [hi, self_move]
      rfl

/-- A whole call behind a lock that is free. -/
theorem Reachable.call [DecidableEq ι] {i : ι} {v : W} {r : Except ε α}
    {ended : List (Entry κ W ε α)} (h : Reachable D body w t)
    (hfree : t.lanes i = ⟨[], none, ended⟩) (c : κ)
    (hp : Completes (D i) ((D i).enter t.world) (body i c) r v) :
    ∃ t', Reachable D body w t' ∧ t'.world = v ∧
      t'.lanes i = ⟨[], none, ended ++ [⟨c, (D i).enter t.world, v, r⟩]⟩ ∧
      ∀ j, j ≠ i → t'.lanes j = t.lanes j := by
  have hlane : t.lane i = ⟨t.world, [], none, ended⟩ := by
    rw [State.lane, hfree]
    rfl
  have hsubmit : Ledger.Step (D i) (body i) (t.lane i) ⟨t.world, [c], none, ended⟩ :=
    hlane ▸ .submit c
  have hqueued := h.move hsubmit
  have hstart : Ledger.Step (D i) (body i) ((t.move i ⟨t.world, [c], none, ended⟩).lane i)
      ⟨(D i).enter t.world, [], some ⟨c, (D i).enter t.world, body i c⟩, ended⟩ := by
    rw [lane_move]
    exact .start rfl rfl
  have hstarted := hqueued.move hstart
  obtain ⟨t', ht', hworld, hi, hothers⟩ := hstarted.completes (by rw [lane_move]) rfl hp
  refine ⟨t', ht', hworld, ?_, ?_⟩
  · rw [hi, self_move]
    rfl
  · intro j hj
    rw [hothers j hj, others_move _ hj, others_move _ hj]

end

end SmsGateway.Lib.Lanes
