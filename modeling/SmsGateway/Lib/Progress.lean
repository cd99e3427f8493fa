import SmsGateway.Lib.Async

/-!
# Steps that come to an end

A relation between the states of a system whose steps lower a well-founded measure, and
the order on what is left of a function.
-/

namespace SmsGateway.Lib.Progress

open Async

section

variable {σ : Type} {R : σ → σ → Prop}

/-- No step leads on from here. -/
def Stuck (R : σ → σ → Prop) (s : σ) : Prop := ∀ s', ¬R s s'

/-- Steps that cannot go on for ever lead to a state that is stuck. -/
theorem exists_stuck {s : σ} (h : Acc (fun s' s => R s s') s) :
    ∃ s', Relation.ReflTransGen R s s' ∧ Stuck R s' := by
  induction h with
  | intro s _ ih =>
      by_cases hstuck : Stuck R s
      · exact ⟨s, .refl, hstuck⟩
      · obtain ⟨s₁, hs₁⟩ : ∃ s₁, R s s₁ := by
          by_contra hnone
          exact hstuck fun s' hs' => hnone ⟨s', hs'⟩
        obtain ⟨s', hsteps, hend⟩ := ih s₁ hs₁
        exact ⟨s', .head hs₁ hsteps, hend⟩

/-- Steps that lower a number cannot go on for ever. -/
theorem acc_of_measure {m : σ → Nat} (h : ∀ s s', R s s' → m s' < m s) (s : σ) :
    Acc (fun s' s => R s s') s :=
  Subrelation.accessible (fun hs => h _ _ hs) ((InvImage.wf m Nat.lt_wfRel.wf).apply s)

end

/-! ## What is left of the parts of a state -/

section

variable {α : Type} {l : List α} {i : Nat} {a : α} {f : α → Nat}

theorem sum_eraseIdx (h : l[i]? = some a) :
    f a + ((l.eraseIdx i).map f).sum = (l.map f).sum := by
  obtain ⟨hi, rfl⟩ := List.getElem?_eq_some_iff.mp h
  have hsum := List.CommMonoid.add_sum_eraseIdx (l := l.map f) (i := i) (by simpa using hi)
  rwa [List.getElem_map, List.eraseIdx_map] at hsum

theorem sum_set (h : l[i]? = some a) (b : α) :
    f b + (l.map f).sum = f a + ((l.set i b).map f).sum := by
  have hi := (List.getElem?_eq_some_iff.mp h).1
  have hb : (l.set i b)[i]? = some b := List.getElem?_set_self hi
  have hold := sum_eraseIdx (f := f) h
  have hnew := sum_eraseIdx (f := f) hb
  rw [List.eraseIdx_set_eq] at hnew
  omega

end

variable {Op : Type} {Ans : Op → Type} {ε α : Type}

/-- What a function is once its operation has been answered. -/
inductive After : Prog Op Ans ε α → Prog Op Ans ε α → Prop where
  | answer (op : Op) (k : Ans op → Prog Op Ans ε α) (a : Ans op) : After (k a) (.call op k)

/-- No function goes on for ever, whatever it is answered. -/
theorem after_wf : WellFounded (After : Prog Op Ans ε α → Prog Op Ans ε α → Prop) := by
  constructor
  intro p
  induction p with
  | ret a => exact ⟨_, fun q hq => by cases hq⟩
  | fail e => exact ⟨_, fun q hq => by cases hq⟩
  | call op k ih =>
      refine ⟨_, fun q hq => ?_⟩
      cases hq with
      | answer _ _ a => exact ih a

/-- The same for a place that a function may have left. -/
inductive Ahead : Option (Prog Op Ans ε α) → Option (Prog Op Ans ε α) → Prop where
  | done (p : Prog Op Ans ε α) : Ahead none (some p)
  | on {q p : Prog Op Ans ε α} (h : After q p) : Ahead (some q) (some p)

theorem ahead_wf : WellFounded (Ahead : Option (Prog Op Ans ε α) → Option (Prog Op Ans ε α) → Prop) := by
  have hnone : Acc Ahead (none : Option (Prog Op Ans ε α)) := ⟨_, fun q hq => by cases hq⟩
  constructor
  intro p
  cases p with
  | none => exact hnone
  | some p =>
      induction after_wf.apply p with
      | intro p _ ih =>
          refine ⟨_, fun q hq => ?_⟩
          cases hq with
          | done => exact hnone
          | on h => exact ih _ h

end SmsGateway.Lib.Progress
