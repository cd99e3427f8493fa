import Mathlib

/-!
# Times that keep a distance

Where each time is at least a distance after all the earlier ones, an interval of `k`
distances holds at most `k` of them.
-/

namespace SmsGateway.Lib.Spacing

variable {α : Type} {time : α → Int} {d : Int}

/-- Each entry comes at least `d` after all the entries before it. -/
def Spaced (time : α → Int) (d : Int) (l : List α) : Prop :=
  l.Pairwise fun a b => time a + d ≤ time b

theorem spaced_append {l : List α} (h : Spaced time d l) {x : α}
    (hx : ∀ a ∈ l, time a + d ≤ time x) : Spaced time d (l ++ [x]) := by
  rw [Spaced, List.pairwise_append]
  refine ⟨h, List.pairwise_singleton _ x, ?_⟩
  intro a ha b hb
  rw [List.mem_singleton.mp hb]
  exact hx a ha

theorem countP_spaced {l : List α} (h : Spaced time d l) (first : Int) (k : Nat) :
    l.countP (fun a => first ≤ time a ∧ time a < first + k * d) ≤ k := by
  induction l generalizing first k with
  | nil => exact Nat.zero_le k
  | cons a l ih =>
      obtain ⟨hfar, hrest⟩ := List.pairwise_cons.mp h
      rw [List.countP_cons]
      by_cases ha : first ≤ time a ∧ time a < first + k * d
      · -- the others fall into what is left of the interval one distance on
        cases k with
        | zero =>
            rw [Nat.cast_zero, zero_mul, add_zero] at ha
            omega
        | succ k =>
            have hlater := ih hrest (first + d) k
            have hmono : l.countP (fun b => first ≤ time b ∧ time b < first + (k + 1 : Nat) * d) ≤
                l.countP (fun b => first + d ≤ time b ∧ time b < first + d + k * d) := by
              refine List.countP_mono_left fun b hb hin => ?_
              have hb' := hfar b hb
              rw [decide_eq_true_eq] at hin ⊢
              rw [Nat.cast_succ, add_mul, one_mul] at hin
              omega
            rw [if_pos (by simpa using ha)]
            omega
      · rw [if_neg (by simpa using ha)]
        exact ih hrest first k

end SmsGateway.Lib.Spacing
