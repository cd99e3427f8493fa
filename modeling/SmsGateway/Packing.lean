import SmsGateway.Pdu

/-!
# Septet packing, bit by bit

The loops of `packSeptets` one assignment at a time, and the reader `unpackSeptets` of
`test/pdu.test.js`.
-/

namespace SmsGateway.Packing

open SmsGateway Pdu
open Lib Digits

/-! ## The loops -/

/-- Where the loops stand: the septets to come and the variables. -/
structure Loop where
  septets : List Nat
  vars : Pack

/-- An octet goes out while 8 bits are pending; then the next septet comes in. -/
def loopStep (l : Loop) : Option Loop :=
  if l.vars.accBits ≥ 8 then
    some ⟨l.septets, l.vars.acc.sshiftRight 8, l.vars.accBits - 8,
      l.vars.out ++ [(l.vars.acc &&& 0xff#32).toNat]⟩
  else
    match l.septets with
    | [] => none
    | s :: septets => some ⟨septets, l.vars.acc ||| (BitVec.ofNat 32 s <<< (l.vars.accBits % 32)),
        l.vars.accBits + 7, l.vars.out⟩

/-- The loops over `septets` pass through a state. -/
inductive Passes (septets : List Nat) (fillBits : Nat) : Loop → Prop where
  | start : Passes septets fillBits ⟨septets, 0#32, fillBits, []⟩
  | step {l l' : Loop} : Passes septets fillBits l → loopStep l = some l' →
      Passes septets fillBits l'

/-- `if (accBits > 0) out.push(acc & 0xff)`, and the octets. -/
def flushed (p : Pack) : List Nat :=
  if p.accBits > 0 then p.out ++ [(p.acc &&& 0xff#32).toNat] else p.out

theorem loopStep_drain {l : Loop} (h : l.vars.accBits ≥ 8) :
    loopStep l = some ⟨l.septets, l.vars.acc.sshiftRight 8, l.vars.accBits - 8,
      l.vars.out ++ [(l.vars.acc &&& 0xff#32).toNat]⟩ := by
  rw [loopStep, if_pos h]

theorem loopStep_push {p : Pack} (s : Nat) (septets : List Nat) (h : ¬p.accBits ≥ 8) :
    loopStep ⟨s :: septets, p⟩ = some ⟨septets, p.acc ||| (BitVec.ofNat 32 s <<< (p.accBits % 32)),
      p.accBits + 7, p.out⟩ := by
  rw [loopStep, if_neg h]

theorem passes_drain {septets rest : List Nat} {fillBits : Nat} {p : Pack}
    (h : Passes septets fillBits ⟨rest, p⟩) : Passes septets fillBits ⟨rest, drainOctets p⟩ := by
  induction p using drainOctets.induct with
  | case1 p hfull ih =>
      rw [drainOctets, if_pos hfull]
      exact ih (.step h (loopStep_drain hfull))
  | case2 p hfew =>
      rw [drainOctets, if_neg hfew]
      exact h

theorem drainOctets_bits (p : Pack) : (drainOctets p).accBits < 8 := by
  induction p using drainOctets.induct with
  | case1 p hfull ih =>
      rw [drainOctets, if_pos hfull]
      exact ih
  | case2 p hfew =>
      rw [drainOctets, if_neg hfew]
      omega

/-- The loops come to their end with the variables of the fold. -/
theorem passes_fold {septets rest : List Nat} {fillBits : Nat} {p : Pack}
    (h : Passes septets fillBits ⟨rest, p⟩) (hp : p.accBits < 8) :
    Passes septets fillBits ⟨[], rest.foldl packStep p⟩ ∧ (rest.foldl packStep p).accBits < 8 := by
  induction rest generalizing p with
  | nil => exact ⟨h, hp⟩
  | cons s rest ih =>
      have hpush := Passes.step h (loopStep_push s rest (by omega))
      exact ih (passes_drain hpush) (drainOctets_bits _)

theorem packSeptets_ends {septets : List Nat} {fillBits : Nat} (hf : fillBits < 8) :
    ∃ p, Passes septets fillBits ⟨[], p⟩ ∧ loopStep ⟨[], p⟩ = none ∧
      packSeptets septets fillBits = flushed p := by
  obtain ⟨hpass, hbits⟩ := passes_fold (.start : Passes septets fillBits _) hf
  refine ⟨_, hpass, ?_, rfl⟩
  rw [loopStep, if_neg (Nat.not_le.mpr hbits)]

/-! ## The invariant of the loops -/

/-- At most 14 bits are pending, and the septets taken are regrouped. -/
structure LoopInv (septets : List Nat) (fillBits : Nat) (l : Loop) : Prop where
  bits_lt : l.vars.accBits < 15
  regroups : ∃ taken, taken ++ l.septets = septets ∧
    Digits.Inv 7 8 fillBits taken l.vars.acc.toNat l.vars.accBits l.vars.out

theorem LoopInv.acc_lt {septets : List Nat} {fillBits : Nat} {l : Loop}
    (h : LoopInv septets fillBits l) : l.vars.acc.toNat < 2 ^ 15 := by
  obtain ⟨taken, -, hinv⟩ := h.regroups
  have hbits := h.bits_lt
  exact hinv.acc_lt.trans_le (Nat.pow_le_pow_right (by decide) (by omega))

theorem loopInv_step {septets : List Nat} {fillBits : Nat} {l l' : Loop}
    (hs : ∀ s ∈ septets, s < 2 ^ 7) (h : LoopInv septets fillBits l) (hl : loopStep l = some l') :
    LoopInv septets fillBits l' := by
  have hbits := h.bits_lt
  have hacc := h.acc_lt
  obtain ⟨taken, htaken, hinv⟩ := h.regroups
  obtain ⟨rest, p⟩ := l
  by_cases hfull : p.accBits ≥ 8
  · rw [loopStep_drain hfull] at hl
    obtain rfl := Option.some.inj hl
    have hemit := inv_emit hinv hfull
    refine ⟨by dsimp only at hbits ⊢; omega, taken, htaken, ?_⟩
    dsimp only
    rw [sshiftRight_eight hacc, and_0xff]
    exact hemit
  · cases rest with
    | nil =>
        rw [loopStep, if_neg hfull] at hl
        cases hl
    | cons s rest =>
        rw [loopStep_push s rest hfull] at hl
        obtain rfl := Option.some.inj hl
        have hlt : s < 2 ^ 7 := hs s (by simp [← htaken])
        have hfew : p.accBits < 8 := by omega
        have hpush := inv_push hinv hlt
        have hor := or_shiftLeft hfew hinv.acc_lt hlt
        refine ⟨by dsimp only; omega, taken ++ [s], by simpa using htaken, ?_⟩
        dsimp only at hor ⊢
        rw [hor]
        exact hpush

theorem loopInv_passes {septets : List Nat} {fillBits : Nat} {l : Loop} (hf : fillBits < 8)
    (hs : ∀ s ∈ septets, s < 2 ^ 7) (h : Passes septets fillBits l) :
    LoopInv septets fillBits l := by
  induction h with
  | start => exact ⟨by dsimp only; omega, [], rfl, inv_start 7 8 fillBits⟩
  | step _ hl ih => exact loopInv_step hs ih hl

/-- The 32-bit operations of one state are exact: the shift to the right divides, the shift to
the left multiplies and the disjunction adds. -/
structure ExactShifts (l : Loop) : Prop where
  acc_lt : l.vars.acc.toNat < 2 ^ 15
  right : (l.vars.acc.sshiftRight 8).toNat = l.vars.acc.toNat / 2 ^ 8
  left : ∀ s, l.septets.head? = some s → l.vars.accBits < 8 →
    (BitVec.ofNat 32 s <<< (l.vars.accBits % 32)).toNat = 2 ^ l.vars.accBits * s ∧
      (l.vars.acc ||| (BitVec.ofNat 32 s <<< (l.vars.accBits % 32))).toNat =
        l.vars.acc.toNat + 2 ^ l.vars.accBits * s

theorem exactShifts_of_loopInv {septets : List Nat} {fillBits : Nat} {l : Loop}
    (hs : ∀ s ∈ septets, s < 2 ^ 7) (h : LoopInv septets fillBits l) : ExactShifts l := by
  refine ⟨h.acc_lt, sshiftRight_eight h.acc_lt, ?_⟩
  intro s hhead hfew
  obtain ⟨taken, htaken, hinv⟩ := h.regroups
  have hmem : s ∈ septets := by
    rw [← htaken]
    exact List.mem_append_right taken (List.mem_of_head? hhead)
  have hlt := hs s hmem
  have hzero := or_shiftLeft (a := 0#32) hfew (by simp) hlt
  exact ⟨by simpa using hzero, or_shiftLeft hfew hinv.acc_lt hlt⟩

/-! ## Reading the octets back -/

/-- `(b >> i) & 1` for the eight bits of every octet. -/
def octetBits (bytes : List Nat) : List Nat :=
  bytes.flatMap fun b => (List.range 8).map fun i => b / 2 ^ i % 2

/-- `unpackSeptets`: `count` groups of seven bits behind the fill. -/
def unpackSeptets (bytes : List Nat) (count fillBits : Nat) : List Nat :=
  (List.range count).map fun s => orBits 7 fun i => (octetBits bytes).getD (fillBits + s * 7 + i) 0

theorem octetBits_eq (bytes : List Nat) : octetBits bytes = bytes.flatMap (bits 8) := by
  unfold octetBits
  apply List.flatMap_congr
  intro b _
  rw [bits_eq]

/-- What the octets of `septets` have to be. -/
structure PacksExactly (septets : List Nat) (fillBits : Nat) (octets : List Nat) : Prop where
  length : octets.length = (fillBits + 7 * septets.length) ⌈/⌉ 8
  octet_lt : ∀ o ∈ octets, o < 256
  fill_zero : ∀ b ∈ (octetBits octets).take fillBits, b = 0
  rest_zero : ∀ b ∈ (octetBits octets).drop (fillBits + 7 * septets.length), b = 0
  reads_back : unpackSeptets octets septets.length fillBits = septets

/-- Bit `i` of the `s`-th septet. -/
theorem getD_flatMap_bits {septets : List Nat} {s i : Nat} (h : s < septets.length) (hi : i < 7) :
    (septets.flatMap (bits 7)).getD (s * 7 + i) 0 = septets[s] / 2 ^ i % 2 := by
  induction septets generalizing s with
  | nil => simp at h
  | cons x septets ih =>
      rw [List.flatMap_cons]
      cases s with
      | zero =>
          rw [List.getD_append _ _ _ _ (by simpa using hi), bits_eq]
          simp [List.getD_eq_getElem?_getD, hi]
      | succ s =>
          have hlen : (bits 7 x).length ≤ (s + 1) * 7 + i := by
            rw [length_bits]
            omega
          have hrest := ih (by simpa using h)
          rw [List.getD_append_right _ _ _ _ hlen, length_bits,
            show (s + 1) * 7 + i - 7 = s * 7 + i by omega]
          simpa using hrest

theorem unpackSeptets_of_bits {septets bytes : List Nat} {fillBits pad : Nat}
    (hs : ∀ s ∈ septets, s < 2 ^ 7)
    (h : octetBits bytes =
      List.replicate fillBits 0 ++ septets.flatMap (bits 7) ++ List.replicate pad 0) :
    unpackSeptets bytes septets.length fillBits = septets := by
  apply List.ext_getElem
  · simp [unpackSeptets]
  · intro s hlen hlt
    have hbit : ∀ i < 7, (octetBits bytes).getD (fillBits + s * 7 + i) 0 =
        septets[s] / 2 ^ i % 2 := by
      intro i hi
      have hin : s * 7 + i < (septets.flatMap (bits 7)).length := by
        rw [length_flatMap_bits]
        omega
      rw [h, List.append_assoc, List.getD_append_right _ _ _ _ (by simp; omega),
        List.length_replicate, show fillBits + s * 7 + i - fillBits = s * 7 + i by omega,
        List.getD_append _ _ _ _ hin, getD_flatMap_bits hlt hi]
    have hseptet := hs septets[s] (List.getElem_mem hlt)
    simp only [unpackSeptets, List.getElem_map, List.getElem_range]
    rw [orBits_congr hbit, orBits_bits, Nat.mod_eq_of_lt hseptet]

theorem packsExactly_of_isRegroup {septets octets : List Nat} {fillBits : Nat}
    (hs : ∀ s ∈ septets, s < 2 ^ 7) (h : IsRegroup 7 8 fillBits septets octets) :
    PacksExactly septets fillBits octets := by
  have hbits := bits_of_isRegroup hs (by decide) h
  rw [← octetBits_eq] at hbits
  have hfront : (List.replicate fillBits 0 ++ septets.flatMap (bits 7)).length =
      fillBits + 7 * septets.length := by
    rw [List.length_append, List.length_replicate, length_flatMap_bits]
  constructor
  · rw [h.length, Nat.ceilDiv_eq_add_pred_div, Nat.add_sub_assoc (by decide)]
  · exact h.out_lt
  · rw [hbits, List.append_assoc, List.take_left' List.length_replicate]
    exact fun b hb => List.eq_of_mem_replicate hb
  · rw [hbits, List.drop_left' hfront]
    exact fun b hb => List.eq_of_mem_replicate hb
  · exact unpackSeptets_of_bits hs hbits

/-- Packing is exact for every list of septets and every alignment, and the accumulator stays
small in every state of the loops, up to the one whose octets are returned. -/
theorem packSeptets_exact {septets : List Nat} {fillBits : Nat} (hf : fillBits ≤ 7)
    (hs : ∀ s ∈ septets, s < 128) :
    PacksExactly septets fillBits (packSeptets septets fillBits) ∧
      (∀ l, Passes septets fillBits l → ExactShifts l) ∧
      ∃ p, Passes septets fillBits ⟨[], p⟩ ∧ loopStep ⟨[], p⟩ = none ∧
        packSeptets septets fillBits = flushed p := by
  have hlt : fillBits < 8 := by omega
  refine ⟨packsExactly_of_isRegroup hs (packSeptets_isRegroup hlt hs), ?_, packSeptets_ends hlt⟩
  intro l hl
  exact exactShifts_of_loopInv hs (loopInv_passes hlt hs hl)

/-- The septets of "hello" behind one fill bit. -/
theorem packSeptets_exact_hello :
    PacksExactly [0x68, 0x65, 0x6c, 0x6c, 0x6f] 1 [0xd0, 0x65, 0x36, 0xfb, 0x0d] := by
  have hs : ∀ s ∈ [0x68, 0x65, 0x6c, 0x6c, 0x6f], s < 128 := by decide
  have h := (packSeptets_exact (by decide : 1 ≤ 7) hs).1
  have hpacked : packSeptets [0x68, 0x65, 0x6c, 0x6c, 0x6f] 1 = [0xd0, 0x65, 0x36, 0xfb, 0x0d] := by
    simp [packSeptets, packStep, drainOctets]
  rwa [hpacked] at h

end SmsGateway.Packing
