import Mathlib

/-!
# Octets as digits of six bits

Three octets are four digits. A last group of one or two octets is filled up with zero bits
to two or three digits, and reading the digits drops what was filled in.
-/

namespace SmsGateway.Lib.Base64

def sextets : List Nat → List Nat
  | [] => []
  | [a] => [a / 4, a % 4 * 16]
  | [a, b] => [a / 4, a % 4 * 16 + b / 16, b % 16 * 4]
  | a :: b :: c :: rest =>
      a / 4 :: (a % 4 * 16 + b / 16) :: (b % 16 * 4 + c / 64) :: c % 64 :: sextets rest

/-- A last digit on its own holds no octet. -/
def octets : List Nat → List Nat
  | [] => []
  | [_] => []
  | [a, b] => [a * 4 + b / 16]
  | [a, b, c] => [a * 4 + b / 16, b % 16 * 16 + c / 4]
  | a :: b :: c :: d :: rest =>
      (a * 4 + b / 16) :: (b % 16 * 16 + c / 4) :: (c % 4 * 64 + d) :: octets rest

theorem sextets_lt {l : List Nat} (h : ∀ o ∈ l, o < 256) : ∀ d ∈ sextets l, d < 64 := by
  induction l using sextets.induct with
  | case1 => exact nofun
  | case2 a =>
      have ha := h a (by simp)
      simp only [sextets, List.mem_cons, List.not_mem_nil, or_false, forall_eq_or_imp, forall_eq]
      omega
  | case3 a b =>
      have ha := h a (by simp)
      have hb := h b (by simp)
      simp only [sextets, List.mem_cons, List.not_mem_nil, or_false, forall_eq_or_imp, forall_eq]
      omega
  | case4 a b c rest ih =>
      have ha := h a (by simp)
      have hb := h b (by simp)
      have hc := h c (by simp)
      have hrest := ih fun o ho => h o (by simp [ho])
      simp only [sextets, List.forall_mem_cons]
      exact ⟨by omega, by omega, by omega, by omega, hrest⟩

/-- The digits of octets are read back. -/
theorem octets_sextets {l : List Nat} (h : ∀ o ∈ l, o < 256) : octets (sextets l) = l := by
  induction l using sextets.induct with
  | case1 => rfl
  | case2 a =>
      have ha := h a (by simp)
      simp only [sextets, octets, List.cons.injEq, and_true]
      omega
  | case3 a b =>
      have ha := h a (by simp)
      have hb := h b (by simp)
      simp only [sextets, octets, List.cons.injEq, and_true]
      omega
  | case4 a b c rest ih =>
      have ha := h a (by simp)
      have hb := h b (by simp)
      have hc := h c (by simp)
      have hrest := ih fun o ho => h o (by simp [ho])
      simp only [sextets, octets, hrest, List.cons.injEq, and_true]
      omega

end SmsGateway.Lib.Base64
