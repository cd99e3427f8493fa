import Mathlib

/-!
# Splitting at a separator

A list is read as pieces that each end in a separator and a tail without one.
-/

namespace SmsGateway.Lib.Lines

variable {α : Type} [DecidableEq α]

/-- The complete pieces, without their separators, and the tail. -/
def split (sep : α) : List α → List (List α) × List α
  | [] => ([], [])
  | c :: rest =>
      let r := split sep rest
      if c = sep then ([] :: r.1, r.2)
      else match r.1 with
        | [] => ([], c :: r.2)
        | p :: ps => ((c :: p) :: ps, r.2)

/-- The pieces that one more text completes. -/
def pieces (sep : α) (s : List α) : List (List α) := (split sep s).1

def tail (sep : α) (s : List α) : List α := (split sep s).2

@[simp] theorem pieces_nil (sep : α) : pieces sep [] = [] := rfl

theorem split_piece {sep : α} {p : List α} (hp : sep ∉ p) (rest : List α) :
    split sep (p ++ sep :: rest) = (p :: pieces sep rest, tail sep rest) := by
  induction p with
  | nil => simp [split, pieces, tail]
  | cons c p ih =>
      have hc : c ≠ sep := fun he => hp (he ▸ List.mem_cons_self)
      have hrest := ih fun h => hp (List.mem_cons_of_mem c h)
      rw [List.cons_append, split, hrest]
      simp [hc]

theorem split_tail {sep : α} {p : List α} (hp : sep ∉ p) : split sep p = ([], p) := by
  induction p with
  | nil => rfl
  | cons c p ih =>
      have hc : c ≠ sep := fun he => hp (he ▸ List.mem_cons_self)
      rw [split, ih fun h => hp (List.mem_cons_of_mem c h)]
      simp [hc]

theorem pieces_piece {sep : α} {p : List α} (hp : sep ∉ p) (rest : List α) :
    pieces sep (p ++ sep :: rest) = p :: pieces sep rest := by
  rw [pieces, split_piece hp]

theorem tail_piece {sep : α} {p : List α} (hp : sep ∉ p) (rest : List α) :
    tail sep (p ++ sep :: rest) = tail sep rest := by
  rw [tail, split_piece hp]

/-- A list either holds no separator or starts with a piece that one ends. -/
theorem exists_piece {sep : α} {s : List α} (h : sep ∈ s) :
    ∃ p rest, sep ∉ p ∧ s = p ++ sep :: rest := by
  induction s with
  | nil => simp at h
  | cons c s ih =>
      by_cases hc : c = sep
      · exact ⟨[], s, by simp, by simp [hc]⟩
      · rcases List.mem_cons.mp h with h | h
        · exact absurd h.symm hc
        · obtain ⟨p, rest, hp, rfl⟩ := ih h
          refine ⟨c :: p, rest, ?_, rfl⟩
          simp [hp, Ne.symm hc]

/-- What follows a separator is split on its own. -/
theorem pieces_append (sep : α) (a b : List α) :
    pieces sep (a ++ sep :: b) = pieces sep (a ++ [sep]) ++ pieces sep b := by
  induction hn : a.length using Nat.strong_induction_on generalizing a with
  | _ n ih =>
      by_cases hs : sep ∈ a
      · obtain ⟨p, rest, hp, rfl⟩ := exists_piece hs
        have hlt : rest.length < n := by
          rw [← hn, List.length_append, List.length_cons]
          omega
        have hrest := ih rest.length hlt rest rfl
        rw [List.append_assoc, List.append_assoc, List.cons_append, List.cons_append,
          pieces_piece hp, pieces_piece hp, hrest, List.cons_append]
      · rw [pieces_piece hs, pieces_piece hs, pieces_nil]
        rfl

/-- A text that goes on is split where its tail goes on. -/
theorem split_append (sep : α) (a b : List α) :
    pieces sep (a ++ b) = pieces sep a ++ pieces sep (tail sep a ++ b) ∧
      tail sep (a ++ b) = tail sep (tail sep a ++ b) := by
  induction hn : a.length using Nat.strong_induction_on generalizing a with
  | _ n ih =>
      by_cases hs : sep ∈ a
      · obtain ⟨p, rest, hp, rfl⟩ := exists_piece hs
        have hlt : rest.length < n := by
          rw [← hn, List.length_append, List.length_cons]
          omega
        obtain ⟨hpieces, htail⟩ := ih rest.length hlt rest rfl
        rw [List.append_assoc, List.cons_append, pieces_piece hp, pieces_piece hp, tail_piece hp,
          tail_piece hp, hpieces, htail]
        exact ⟨rfl, rfl⟩
      · have hpieces : pieces sep a = [] := by rw [pieces, split_tail hs]
        have htail : tail sep a = a := by rw [tail, split_tail hs]
        rw [hpieces, htail]
        exact ⟨rfl, rfl⟩

theorem not_mem_tail (sep : α) (s : List α) : sep ∉ tail sep s := by
  induction hn : s.length using Nat.strong_induction_on generalizing s with
  | _ n ih =>
      by_cases hs : sep ∈ s
      · obtain ⟨p, rest, hp, rfl⟩ := exists_piece hs
        have hlt : rest.length < n := by
          rw [← hn, List.length_append, List.length_cons]
          omega
        rw [tail_piece hp]
        exact ih rest.length hlt rest rfl
      · rw [tail, split_tail hs]
        exact hs

theorem not_mem_pieces {sep : α} {s p : List α} (h : p ∈ pieces sep s) : sep ∉ p := by
  induction hn : s.length using Nat.strong_induction_on generalizing s with
  | _ n ih =>
      by_cases hs : sep ∈ s
      · obtain ⟨q, rest, hq, rfl⟩ := exists_piece hs
        have hlt : rest.length < n := by
          rw [← hn, List.length_append, List.length_cons]
          omega
        rw [pieces_piece hq, List.mem_cons] at h
        obtain rfl | h := h
        · exact hq
        · exact ih rest.length hlt h rfl
      · rw [pieces, split_tail hs] at h
        cases h

/-- The pieces and the tail are the split of the list. -/
theorem splitOn_eq (sep : α) (s : List α) : s.splitOn sep = pieces sep s ++ [tail sep s] := by
  induction hn : s.length using Nat.strong_induction_on generalizing s with
  | _ n ih =>
      by_cases hs : sep ∈ s
      · obtain ⟨p, rest, hp, rfl⟩ := exists_piece hs
        have hlt : rest.length < n := by
          rw [← hn, List.length_append, List.length_cons]
          omega
        rw [List.splitOn_append_cons_self_of_not_mem hp, ih rest.length hlt rest rfl,
          pieces_piece hp, tail_piece hp, List.cons_append]
      · rw [List.splitOn_eq_singleton hs, pieces, tail, split_tail hs]
        rfl

end SmsGateway.Lib.Lines
