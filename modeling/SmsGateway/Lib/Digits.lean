import Mathlib

/-!
# Regrouping digits

A list of `w`-bit digits, least significant first, denotes a number; the same
number cut into `v`-bit digits is its regrouping. The accumulator below takes in
one digit at a time and gives out completed ones, with `fill` zero bits in front.
-/

namespace SmsGateway.Lib.Digits

open Nat (ofDigits)

/-- The `w` bits of `n` from bit `off` on. -/
def field (w off n : Nat) : Nat := n / 2 ^ off % 2 ^ w

/-- Consecutive `w`-bit fields of `n`, the first one at bit `fill`. -/
def fields (w fill count n : Nat) : List Nat :=
  (List.range count).map fun i => field w (fill + w * i) n

theorem field_shift (w fill off n : Nat) : field w (fill + off) (2 ^ fill * n) = field w off n := by
  rw [field, field, pow_add, ← Nat.div_div_eq_div_mul, Nat.mul_div_cancel_left _ (by positivity)]

theorem field_ofDigits {w : Nat} {l : List Nat} (hl : ∀ x ∈ l, x < 2 ^ w) {i : Nat}
    (hi : i < l.length) : field w (w * i) (ofDigits (2 ^ w) l) = l[i] := by
  rw [field, pow_mul, Nat.ofDigits_div_pow_eq_ofDigits_drop i (by positivity) l hl,
    List.drop_eq_getElem_cons hi, Nat.ofDigits_cons, Nat.add_mul_mod_self_left,
    Nat.mod_eq_of_lt (hl _ (List.getElem_mem hi))]

/-- Reading the fields back recovers the digits. -/
theorem fields_ofDigits {w : Nat} {l : List Nat} (hl : ∀ x ∈ l, x < 2 ^ w) (fill : Nat) :
    fields w fill l.length (2 ^ fill * ofDigits (2 ^ w) l) = l := by
  apply List.ext_getElem
  · simp [fields]
  · intro i h₁ h₂
    simp only [fields, List.getElem_map, List.getElem_range]
    rw [field_shift, field_ofDigits hl h₂]

/-- What the accumulator maintains: `taken` has gone in, `out` has come out and
`pending` bits with value `acc` are still held. -/
structure Inv (w v fill : Nat) (taken : List Nat) (acc pending : Nat) (out : List Nat) : Prop where
  bits : pending + v * out.length = fill + w * taken.length
  acc_lt : acc < 2 ^ pending
  out_lt : ∀ o ∈ out, o < 2 ^ v
  value : ofDigits (2 ^ v) out + 2 ^ (v * out.length) * acc = 2 ^ fill * ofDigits (2 ^ w) taken

theorem inv_start (w v fill : Nat) : Inv w v fill [] 0 fill [] :=
  ⟨by simp, by positivity, by simp, by simp⟩

theorem inv_push {w v fill : Nat} {taken out : List Nat} {acc pending x : Nat}
    (h : Inv w v fill taken acc pending out) (hx : x < 2 ^ w) :
    Inv w v fill (taken ++ [x]) (acc + 2 ^ pending * x) (pending + w) out := by
  refine ⟨?_, ?_, h.out_lt, ?_⟩
  · have hb := h.bits
    simp only [List.length_append, List.length_singleton, Nat.mul_add]
    omega
  · have ha := h.acc_lt
    have hmul : 2 ^ pending * (x + 1) ≤ 2 ^ pending * 2 ^ w := Nat.mul_le_mul_left _ hx
    rw [pow_add]
    rw [Nat.mul_add] at hmul
    omega
  · have hbits : 2 ^ (v * out.length) * 2 ^ pending = 2 ^ fill * (2 ^ w) ^ taken.length := by
      rw [← pow_add, ← pow_mul, ← pow_add, ← h.bits, Nat.add_comm]
    rw [Nat.ofDigits_append, Nat.ofDigits_singleton, Nat.mul_add, Nat.mul_add, ← h.value,
      ← Nat.mul_assoc, ← Nat.mul_assoc, hbits]
    omega

theorem inv_emit {w v fill : Nat} {taken out : List Nat} {acc pending : Nat}
    (h : Inv w v fill taken acc pending out) (hv : v ≤ pending) :
    Inv w v fill taken (acc / 2 ^ v) (pending - v) (out ++ [acc % 2 ^ v]) := by
  refine ⟨?_, ?_, ?_, ?_⟩
  · have hb := h.bits
    simp only [List.length_append, List.length_singleton, Nat.mul_add]
    omega
  · apply Nat.div_lt_of_lt_mul
    rw [← pow_add, Nat.add_sub_cancel' hv]
    exact h.acc_lt
  · intro o ho
    rcases List.mem_append.mp ho with ho | ho
    · exact h.out_lt o ho
    · rw [List.mem_singleton.mp ho]
      exact Nat.mod_lt _ (by positivity)
  · have hsplit := Nat.mod_add_div acc (2 ^ v)
    rw [← h.value, Nat.ofDigits_append, Nat.ofDigits_singleton, List.length_append,
      List.length_singleton, Nat.mul_add, Nat.mul_one, pow_add, ← pow_mul, Nat.mul_assoc,
      Nat.add_assoc, ← Nat.mul_add, hsplit]

/-- `out` is the regrouping of `taken` behind `fill` zero bits. -/
structure IsRegroup (w v fill : Nat) (taken out : List Nat) : Prop where
  length : out.length = (fill + w * taken.length + (v - 1)) / v
  out_lt : ∀ o ∈ out, o < 2 ^ v
  value : ofDigits (2 ^ v) out = 2 ^ fill * ofDigits (2 ^ w) taken

theorem inv_done {w v fill : Nat} {taken out : List Nat} {acc : Nat} (hv : 0 < v)
    (h : Inv w v fill taken acc 0 out) : IsRegroup w v fill taken out := by
  have hacc : acc = 0 := by simpa using h.acc_lt
  refine ⟨?_, h.out_lt, ?_⟩
  · rw [← h.bits, Nat.zero_add, Nat.mul_add_div hv, Nat.div_eq_of_lt (by omega), Nat.add_zero]
  · simpa [hacc] using h.value

theorem inv_flush {w v fill : Nat} {taken out : List Nat} {acc pending : Nat}
    (h : Inv w v fill taken acc pending out) (hp : 0 < pending) (hlt : pending < v) :
    IsRegroup w v fill taken (out ++ [acc]) := by
  have hacc : acc < 2 ^ v := h.acc_lt.trans (Nat.pow_lt_pow_right (by decide) hlt)
  refine ⟨?_, ?_, ?_⟩
  · rw [← h.bits, List.length_append, List.length_singleton,
      show pending + v * out.length + (v - 1) = v * (out.length + 1) + (pending - 1) by
        rw [Nat.mul_add]; omega,
      Nat.mul_add_div (by omega), Nat.div_eq_of_lt (by omega), Nat.add_zero]
  · intro o ho
    rcases List.mem_append.mp ho with ho | ho
    · exact h.out_lt o ho
    · rwa [List.mem_singleton.mp ho]
  · rw [Nat.ofDigits_append, Nat.ofDigits_singleton, ← pow_mul, h.value]

/-- A regrouping can be read back digit by digit. -/
theorem fields_of_isRegroup {w v fill : Nat} {taken out : List Nat}
    (ht : ∀ x ∈ taken, x < 2 ^ w) (h : IsRegroup w v fill taken out) :
    fields w fill taken.length (ofDigits (2 ^ v) out) = taken := by
  rw [h.value, fields_ofDigits ht]

/-! ## Bits -/

/-- The `w` low bits of `x`, least significant first. -/
def bits (w x : Nat) : List Nat := fields 1 0 w x

theorem bits_eq (w x : Nat) : bits w x = (List.range w).map fun i => x / 2 ^ i % 2 := by
  simp [bits, fields, field]

@[simp] theorem length_bits (w x : Nat) : (bits w x).length = w := by simp [bits, fields]

theorem bits_lt {w x b : Nat} (h : b ∈ bits w x) : b < 2 := by
  rw [bits_eq] at h
  obtain ⟨i, -, rfl⟩ := List.mem_map.mp h
  exact Nat.mod_lt _ (by decide)

theorem bits_succ (w x : Nat) : bits (w + 1) x = bits w x ++ [x / 2 ^ w % 2] := by
  simp only [bits_eq, List.range_succ, List.map_append, List.map_cons, List.map_nil]

theorem ofDigits_bits (w x : Nat) : ofDigits 2 (bits w x) = x % 2 ^ w := by
  induction w with
  | zero => simp [bits_eq, Nat.mod_one]
  | succ w ih =>
      rw [bits_succ, Nat.ofDigits_append, Nat.ofDigits_singleton, length_bits, ih,
        Nat.mod_pow_succ]

theorem length_flatMap_bits (w : Nat) (l : List Nat) : (l.flatMap (bits w)).length = w * l.length := by
  simp [List.length_flatMap, Nat.mul_comm]

/-- The digits written out bit by bit denote the same number. -/
theorem ofDigits_flatMap_bits {w : Nat} {l : List Nat} (hl : ∀ x ∈ l, x < 2 ^ w) :
    ofDigits 2 (l.flatMap (bits w)) = ofDigits (2 ^ w) l := by
  induction l with
  | nil => rfl
  | cons x l ih =>
      have hx := hl x List.mem_cons_self
      have hrest := ih fun y hy => hl y (List.mem_cons_of_mem x hy)
      rw [List.flatMap_cons, Nat.ofDigits_append, ofDigits_bits, length_bits, hrest,
        Nat.mod_eq_of_lt hx, Nat.ofDigits_cons]

/-- Bit by bit a regrouping is the fill, the digits and nothing but zeros behind them. -/
theorem bits_of_isRegroup {w v fill : Nat} {taken out : List Nat} (ht : ∀ x ∈ taken, x < 2 ^ w)
    (hv : 0 < v) (h : IsRegroup w v fill taken out) :
    out.flatMap (bits v) = List.replicate fill 0 ++ taken.flatMap (bits w) ++
      List.replicate (v * out.length - (fill + w * taken.length)) 0 := by
  have hlength : fill + w * taken.length ≤ v * out.length := by
    rw [h.length]
    have hdiv := Nat.div_add_mod (fill + w * taken.length + (v - 1)) v
    have hmod := Nat.mod_lt (fill + w * taken.length + (v - 1)) hv
    omega
  apply Nat.ofDigits_inj_of_len_eq (b := 2) (by decide)
  · simp only [List.length_append, List.length_replicate, length_flatMap_bits]
    omega
  · intro b hb
    obtain ⟨x, -, hx⟩ := List.mem_flatMap.mp hb
    exact bits_lt hx
  · intro b hb
    rcases List.mem_append.mp hb with hb | hb
    · rcases List.mem_append.mp hb with hb | hb
      · have hz := List.eq_of_mem_replicate hb
        omega
      · obtain ⟨x, -, hx⟩ := List.mem_flatMap.mp hb
        exact bits_lt hx
    · have hz := List.eq_of_mem_replicate hb
      omega
  · rw [ofDigits_flatMap_bits h.out_lt, h.value, Nat.ofDigits_append, Nat.ofDigits_append,
      ofDigits_flatMap_bits ht, Nat.ofDigits_replicate_zero, Nat.ofDigits_replicate_zero,
      List.length_replicate]
    omega

/-- Bits put together by disjunction. -/
def orBits (w : Nat) (bit : Nat → Nat) : Nat :=
  (List.range w).foldl (fun v i => v ||| (bit i <<< i)) 0

theorem orBits_bits (w x : Nat) : orBits w (fun i => x / 2 ^ i % 2) = x % 2 ^ w := by
  induction w with
  | zero => simp [orBits, Nat.mod_one]
  | succ w ih =>
      have hlt : x % 2 ^ w < 2 ^ w := Nat.mod_lt _ (by positivity)
      unfold orBits at ih ⊢
      rw [List.range_succ, List.foldl_append, ih, List.foldl_cons, List.foldl_nil, Nat.or_comm,
        ← Nat.shiftLeft_add_eq_or_of_lt hlt, Nat.shiftLeft_eq, Nat.mod_pow_succ, Nat.mul_comm,
        Nat.add_comm]

theorem orBits_congr {w : Nat} {f g : Nat → Nat} (h : ∀ i < w, f i = g i) :
    orBits w f = orBits w g := by
  unfold orBits
  apply List.foldl_ext
  intro v i hi
  rw [h i (List.mem_range.mp hi)]

end SmsGateway.Lib.Digits
