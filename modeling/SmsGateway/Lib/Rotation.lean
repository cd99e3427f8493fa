import Mathlib

/-!
# Taking turns

A counter that goes up by one and is reduced modulo the length of a list picks the entries
of the list in turn. Every window of consecutive turns is balanced, whatever the counter
starts from.
-/

namespace SmsGateway.Lib.Rotation

/-- The numbers of a window that leave one remainder. -/
theorem count_window {n j : Nat} (hj : j < n) (r k : Nat) :
    Nat.count (fun i => (r + i) % n = j) k = k / n ∨
      Nat.count (fun i => (r + i) % n = j) k = k ⌈/⌉ n := by
  have hn : 0 < n := by omega
  have hr : r % n < n := Nat.mod_lt r hn
  -- the first number at or behind `j` that completes a multiple of `n`
  have hv : r + (j + (n - r % n)) ≡ j [MOD n] := by
    have hsplit := Nat.div_add_mod r n
    have heq : r + (j + (n - r % n)) = j + n * (r / n + 1) := by
      rw [Nat.mul_add, Nat.mul_one]
      omega
    rw [heq, Nat.ModEq, Nat.add_mul_mod_self_left]
  have hiff : ∀ i, (r + i) % n = j ↔ i ≡ j + (n - r % n) [MOD n] := by
    intro i
    have hmod : (r + i) % n = j ↔ r + i ≡ j [MOD n] := by
      rw [Nat.ModEq, Nat.mod_eq_of_lt hj]
    rw [hmod]
    constructor
    · exact fun h => Nat.ModEq.add_left_cancel' r (h.trans hv.symm)
    · exact fun h => (Nat.ModEq.add_left r h).trans hv
  have hcount : Nat.count (fun i => (r + i) % n = j) k =
      Nat.count (· ≡ j + (n - r % n) [MOD n]) k := by
    simp only [hiff]
  rw [hcount, Nat.count_modEq_card k hn, Nat.ceilDiv_eq_add_pred_div]
  have hdiv := Nat.div_add_mod k n
  split
  · rename_i hlt
    right
    have hceil : k + n - 1 = n * (k / n + 1) + (k % n - 1) := by
      rw [Nat.mul_add, Nat.mul_one]
      omega
    have hsmall : k % n - 1 < n := by
      have hk := Nat.mod_lt k hn
      omega
    rw [hceil, Nat.mul_add_div hn, Nat.div_eq_of_lt hsmall, Nat.add_zero]
  · exact Or.inl (Nat.add_zero _)

variable {α : Type} {l : List α} {r k : Nat} {a : α}

/-- The entries at `k` consecutive turns from counter `r` on. -/
def turns (l : List α) (r k : Nat) : List α :=
  (List.range k).filterMap fun i => l[(r + i) % l.length]?

@[simp] theorem turns_zero : turns l r 0 = [] := rfl

theorem turns_succ (ha : l[r % l.length]? = some a) :
    turns l r (k + 1) = a :: turns l (r + 1) k := by
  unfold turns
  rw [List.range_succ_eq_map, List.filterMap_cons, Nat.add_zero, ha, List.filterMap_map]
  simp only [Function.comp_def, Nat.succ_eq_add_one, Nat.add_assoc, Nat.add_comm 1]

theorem count_turns [BEq α] [LawfulBEq α] (hl : l.Nodup) {j : Nat} (hj : j < l.length) (r k : Nat) :
    (turns l r k).count l[j] = Nat.count (fun i => (r + i) % l.length = j) k := by
  induction k generalizing r with
  | zero => simp
  | succ k ih =>
      have hlt : r % l.length < l.length := Nat.mod_lt r (by omega)
      have hlount := Nat.count_add (fun i => (r + i) % l.length = j) 1 k
      have hshift : (fun i => (r + (1 + i)) % l.length = j) =
          fun i => (r + 1 + i) % l.length = j := by
        simp only [Nat.add_assoc]
      rw [turns_succ (List.getElem?_eq_getElem hlt), List.count_cons, ih, Nat.add_comm k 1, hlount]
      simp only [hshift, Nat.count_succ, Nat.count_zero, Nat.add_zero, beq_iff_eq,
        hl.getElem_inj_iff]
      omega

/-- Every entry is picked as often as any other, but for one turn. -/
theorem turns_fair [BEq α] [LawfulBEq α] (hl : l.Nodup) (ha : a ∈ l) (r k : Nat) :
    (turns l r k).count a = k / l.length ∨ (turns l r k).count a = k ⌈/⌉ l.length := by
  obtain ⟨j, hj, rfl⟩ := List.getElem_of_mem ha
  rw [count_turns hl hj]
  exact count_window hj r k

/-- A part of a list without repetitions is determined by its entries. -/
theorem sublist_ext [DecidableEq α] {l l₁ l₂ : List α} (hl : l.Nodup) (h₁ : l₁.Sublist l)
    (h₂ : l₂.Sublist l) (h : ∀ a, a ∈ l₁ ↔ a ∈ l₂) : l₁ = l₂ := by
  have hfilter : ∀ {l' : List α}, l'.Sublist l → l' = l.filter (· ∈ l') := by
    intro l' hl'
    have hsub := hl'.filter (· ∈ l')
    rw [List.filter_eq_self.mpr (by simp)] at hsub
    apply hsub.eq_of_length_le
    apply List.Subperm.length_le
    apply List.subperm_of_subset (hl.filter _)
    intro a ha
    simpa using (List.mem_filter.mp ha).2
  rw [hfilter h₁, hfilter h₂]
  simp only [h]

end SmsGateway.Lib.Rotation
