import Mathlib

/-!
# Runs of a step function

A step function gives the next state or refuses the event. A run is a list of
events that it accepts one after the other.
-/

namespace SmsGateway.Lib.Runs

variable {σ ε : Type} {step : σ → ε → Option σ}

def run (step : σ → ε → Option σ) (s : σ) : List ε → Option σ
  | [] => some s
  | e :: es => (step s e).bind fun s => run step s es

/-- A condition on every step of a run. -/
def allSteps (step : σ → ε → Option σ) (c : σ → ε → Bool) : σ → List ε → Bool
  | _, [] => true
  | s, e :: es => c s e &&
      match step s e with
      | some s' => allSteps step c s' es
      | none => true

/-- A property that every step meeting the condition keeps holds after every run of such steps. -/
theorem allSteps_induct {P : σ → Prop} {c : σ → ε → Bool}
    (hstep : ∀ s e s', P s → c s e = true → step s e = some s' → P s') {s s' : σ}
    {es : List ε} (hs : P s) (hes : allSteps step c s es = true) (h : run step s es = some s') :
    P s' := by
  induction es generalizing s with
  | nil =>
      obtain rfl := Option.some.inj h
      exact hs
  | cons e es ih =>
      obtain ⟨s₁, hs₁, hrest⟩ := Option.bind_eq_some_iff.mp h
      rw [allSteps, Bool.and_eq_true, hs₁] at hes
      exact ih (hstep s e s₁ hs hes.1 hs₁) hes.2 hrest

/-- The same for a condition on the events alone. -/
theorem run_induct {P : σ → Prop} {A : ε → Prop}
    (hstep : ∀ s e s', P s → A e → step s e = some s' → P s') {s s' : σ} {es : List ε}
    (hs : P s) (hes : ∀ e ∈ es, A e) (h : run step s es = some s') : P s' := by
  induction es generalizing s with
  | nil =>
      obtain rfl := Option.some.inj h
      exact hs
  | cons e es ih =>
      obtain ⟨s₁, hs₁, hrest⟩ := Option.bind_eq_some_iff.mp h
      exact ih (hstep s e s₁ hs (hes e (by simp)) hs₁)
        (fun e' he' => hes e' (List.mem_cons_of_mem e he')) hrest

/-- A property that a step keeps exactly where it meets the condition holds after a run exactly
when all its steps do. -/
theorem allSteps_iff {P I : σ → Prop} {A : ε → Prop} {c : σ → ε → Bool}
    (hinv : ∀ s e s', I s → A e → step s e = some s' → I s')
    (hstep : ∀ s e s', I s → A e → step s e = some s' → (P s' ↔ P s ∧ c s e = true)) {s s' : σ}
    {es : List ε} (hs : I s) (hes : ∀ e ∈ es, A e) (h : run step s es = some s') :
    P s' ↔ P s ∧ allSteps step c s es = true := by
  induction es generalizing s with
  | nil =>
      obtain rfl := Option.some.inj h
      simp [allSteps]
  | cons e es ih =>
      obtain ⟨s₁, hs₁, hrest⟩ := Option.bind_eq_some_iff.mp h
      have he := hes e List.mem_cons_self
      rw [ih (hinv s e s₁ hs he hs₁) (fun e' he' => hes e' (List.mem_cons_of_mem e he')) hrest,
        hstep s e s₁ hs he hs₁, allSteps, Bool.and_eq_true, hs₁, and_assoc]

theorem run_append {s : σ} {es fs : List ε} :
    run step s (es ++ fs) = (run step s es).bind fun s' => run step s' fs := by
  induction es generalizing s with
  | nil => rfl
  | cons e es ih =>
      simp only [List.cons_append, run, ih, Option.bind_assoc]

/-! ## What a run puts out -/

section

variable {ω : Type} {out : σ → ε → List ω}

/-- What the steps of a run put out, in order. -/
def outputs (step : σ → ε → Option σ) (out : σ → ε → List ω) : σ → List ε → List ω
  | _, [] => []
  | s, e :: es => out s e ++
      match step s e with
      | some s' => outputs step out s' es
      | none => []

/-- A relation between the state and what has been put out so far, kept by every step. -/
theorem outputs_induct {P : σ → List ω → Prop}
    (hstep : ∀ s log e s', P s log → step s e = some s' → P s' (log ++ out s e)) {s s' : σ}
    {log : List ω} {es : List ε} (hs : P s log) (h : run step s es = some s') :
    P s' (log ++ outputs step out s es) := by
  induction es generalizing s log with
  | nil =>
      obtain rfl := Option.some.inj h
      rw [outputs, List.append_nil]
      exact hs
  | cons e es ih =>
      obtain ⟨s₁, hs₁, hrest⟩ := Option.bind_eq_some_iff.mp h
      have hrun := ih (hstep s log e s₁ hs hs₁) hrest
      rwa [List.append_assoc, outputs, hs₁] at *

end

end SmsGateway.Lib.Runs
