import SmsGateway.SmsEncoding
import SmsGateway.Lib.Digits

/-!
# SMS-SUBMIT PDUs for concatenated messages

`utils/pdu.js`. The builder writes hex text; the second half of the file gives
the octets that text stands for, which is all a decoder can see of it.
-/

namespace SmsGateway.Pdu

open SmsGateway SmsEncoding

/-- `s.padStart(n, c)`. -/
def padStart (s : JsString) (n : Nat) (c : CodeUnit) : JsString :=
  List.replicate (n - s.length) c ++ s

def hex (n : Nat) : JsString := padStart (numberText 16 n) 2 0x30

/-! ## Addresses -/

structure Address where
  toa : Nat
  digits : JsString
  digitCount : Nat

/-- The loop over pairs: `(raw[i + 1] || 'F') + raw[i]`. -/
def swapDigits : JsString → JsString
  | [] => []
  | [a] => js "F" ++ [a]
  | a :: b :: rest => b :: a :: swapDigits rest

def encodeAddress (number : JsString) : Address :=
  let international := startsWith number (js "+")
  let raw := if international then number.drop 1 else number
  { toa := if international then 0x91 else 0x81
    digits := swapDigits raw
    digitCount := raw.length }

/-! ## Septets -/

/-- Text to septet codes; an extension character becomes ESC and its code. -/
def septetsOf : List JsString → Except JsError (List Nat)
  | [] => .ok []
  | ch :: rest =>
      match gsm7Codes.lookup ch with
      | some code => (septetsOf rest).map (code :: ·)
      | none =>
          match gsm7ExtCodes.lookup ch with
          | some code => (septetsOf rest).map (0x1b :: code :: ·)
          | none => .error (newError
              (js "Character not representable in GSM-7: \"" ++ ch ++ js "\""))

def gsm7Septets (text : JsString) : Except JsError (List Nat) := septetsOf (forOf text)

/-- The variables of the loop in `packSeptets`; bit operations act on 32-bit integers. -/
structure Pack where
  acc : BitVec 32
  accBits : Nat
  out : List Nat

/-- The inner `while (accBits >= 8)`. -/
def drainOctets (p : Pack) : Pack :=
  if p.accBits ≥ 8 then
    drainOctets ⟨p.acc.sshiftRight 8, p.accBits - 8, p.out ++ [(p.acc &&& 0xff#32).toNat]⟩
  else p
termination_by p.accBits

def packStep (p : Pack) (s : Nat) : Pack :=
  drainOctets ⟨p.acc ||| (BitVec.ofNat 32 s <<< (p.accBits % 32)), p.accBits + 7, p.out⟩

def packSeptets (septets : List Nat) (fillBits : Nat) : List Nat :=
  let p := septets.foldl packStep ⟨0#32, fillBits, []⟩
  if p.accBits > 0 then p.out ++ [(p.acc &&& 0xff#32).toNat] else p.out

/-! ## The builder -/

structure BuiltPdu where
  pdu : JsString
  length : Nat

structure SubmitRequest where
  recipient : JsString
  text : JsString
  encoding : Encoding
  ref : Nat
  part : Nat
  total : Nat
  smsc : Option JsString

def smscHex (smsc : Option JsString) : JsString :=
  match smsc with
  | none => js "00"
  | some s =>
      if s = [] then js "00"
      else
        let a := encodeAddress s
        hex (1 + a.digits.length / 2) ++ hex a.toa ++ a.digits

/-- The concatenation element: reference, total parts, this part. -/
def udhHex (ref total part : Nat) : JsString :=
  js "05" ++ js "00" ++ js "03" ++ hex (ref &&& 0xff) ++ hex total ++ hex part

/-- User-data length and text octets of one part. -/
def userData (encoding : Encoding) (text : JsString) : Except JsError (Nat × JsString) :=
  match encoding with
  | .GSM =>
      -- the 6-octet UDH occupies 7 septets, 48 bits and 1 fill bit
      (gsm7Septets text).map fun septets =>
        (7 + septets.length, (packSeptets septets 1).flatMap hex)
  | .UCS2 =>
      let body := utf16beOctets text
      .ok (6 + body.length, body.flatMap hexOctet)

def buildSubmitPdu (r : SubmitRequest) : Except JsError BuiltPdu :=
  let da := encodeAddress r.recipient
  (userData r.encoding r.text).map fun (udl, udHex) =>
    let tpduHex :=
      js "51" ++ js "00" ++ hex da.digitCount ++ hex da.toa ++ da.digits ++ js "00" ++
        (if r.encoding = .GSM then js "00" else js "08") ++ js "A7" ++ hex udl ++
        udhHex r.ref r.total r.part ++ udHex
    { pdu := smscHex r.smsc ++ tpduHex, length := tpduHex.length / 2 }

/-- One PDU per part; the first part that cannot be encoded throws. -/
def buildConcatPdus (recipient : JsString) (parts : List JsString) (encoding : Encoding) (ref : Nat)
    (smsc : Option JsString) : Except JsError (List BuiltPdu) :=
  parts.zipIdx.mapM fun (text, i) =>
    buildSubmitPdu
      { recipient, text, encoding, ref, part := i + 1, total := parts.length, smsc }

/-! ## Septet packing is a regrouping -/

open Lib Digits

theorem and_0xff (a : BitVec 32) : (a &&& 0xff#32).toNat = a.toNat % 256 := by
  rw [BitVec.toNat_and]
  exact Nat.and_two_pow_sub_one_eq_mod a.toNat 8

theorem sshiftRight_eight {a : BitVec 32} (h : a.toNat < 2 ^ 15) :
    (a.sshiftRight 8).toNat = a.toNat / 256 := by
  have hm : a.msb = false := by
    rw [BitVec.msb_eq_false_iff_two_mul_lt]
    omega
  rw [BitVec.sshiftRight_eq_of_msb_false hm, BitVec.toNat_ushiftRight, Nat.shiftRight_eq_div_pow]

/-- With at most 7 bits pending, adding a septet loses nothing to the word size. -/
theorem or_shiftLeft {a : BitVec 32} {s bits : Nat} (hb : bits < 8) (ha : a.toNat < 2 ^ bits)
    (hs : s < 2 ^ 7) :
    (a ||| (BitVec.ofNat 32 s <<< (bits % 32))).toNat = a.toNat + 2 ^ bits * s := by
  have hmod : bits % 32 = bits := Nat.mod_eq_of_lt (by omega)
  have hpow : 2 ^ bits ≤ 2 ^ 7 := Nat.pow_le_pow_right (by decide) (by omega)
  have hlt : s <<< bits < 2 ^ 32 := by
    rw [Nat.shiftLeft_eq]
    calc s * 2 ^ bits ≤ 2 ^ 7 * 2 ^ 7 := Nat.mul_le_mul hs.le hpow
      _ < 2 ^ 32 := by decide
  rw [hmod, BitVec.toNat_or, BitVec.toNat_shiftLeft, BitVec.toNat_ofNat,
    Nat.mod_eq_of_lt (by omega : s < 2 ^ 32), Nat.mod_eq_of_lt hlt, Nat.or_comm,
    ← Nat.shiftLeft_add_eq_or_of_lt ha, Nat.shiftLeft_eq]
  rw [Nat.mul_comm, Nat.add_comm]

/-- The loop invariant: fewer than 8 bits are pending between two septets, and the
accumulator, the pending bits and the octets regroup the septets taken so far. -/
structure PackInv (fill : Nat) (taken : List Nat) (p : Pack) : Prop where
  bits_lt : p.accBits < 8
  inv : Digits.Inv 7 8 fill taken p.acc.toNat p.accBits p.out

theorem packStep_inv {fill s : Nat} {taken : List Nat} {p : Pack} (h : PackInv fill taken p)
    (hs : s < 2 ^ 7) : PackInv fill (taken ++ [s]) (packStep p s) := by
  have hb := h.bits_lt
  have hor := or_shiftLeft hb h.inv.acc_lt hs
  have hpush := inv_push h.inv hs
  rw [← hor] at hpush
  have hacc : (p.acc ||| (BitVec.ofNat 32 s <<< (p.accBits % 32))).toNat < 2 ^ 15 :=
    hpush.acc_lt.trans_le (Nat.pow_le_pow_right (by decide) (by omega))
  unfold packStep
  rw [drainOctets]
  by_cases hfull : p.accBits + 7 ≥ 8
  · have hemit := inv_emit hpush hfull
    rw [if_pos hfull, drainOctets, if_neg (by dsimp only; omega)]
    refine ⟨by dsimp only; omega, ?_⟩
    rw [sshiftRight_eight hacc, and_0xff]
    exact hemit
  · rw [if_neg hfull]
    exact ⟨by dsimp only; omega, hpush⟩

theorem packSeptets_fold_inv {fill : Nat} {taken septets : List Nat} {p : Pack}
    (h : PackInv fill taken p) (hs : ∀ s ∈ septets, s < 2 ^ 7) :
    PackInv fill (taken ++ septets) (septets.foldl packStep p) := by
  induction septets generalizing taken p with
  | nil => simpa using h
  | cons s septets ih =>
      have hstep := packStep_inv h (hs s (by simp))
      have hrest := ih hstep fun x hx => hs x (List.mem_cons_of_mem s hx)
      simpa using hrest

/-- The packed octets are the septets regrouped behind the fill bits. -/
theorem packSeptets_isRegroup {septets : List Nat} {fill : Nat} (hf : fill < 8)
    (hs : ∀ s ∈ septets, s < 2 ^ 7) :
    IsRegroup 7 8 fill septets (packSeptets septets fill) := by
  have hstart : PackInv fill [] ⟨0#32, fill, []⟩ := ⟨hf, inv_start 7 8 fill⟩
  have h := packSeptets_fold_inv hstart hs
  rw [List.nil_append] at h
  unfold packSeptets
  generalize septets.foldl packStep ⟨0#32, fill, []⟩ = p at h
  dsimp only
  by_cases hp : p.accBits > 0
  · rw [if_pos hp, and_0xff, Nat.mod_eq_of_lt]
    · exact inv_flush h.inv hp h.bits_lt
    · exact h.inv.acc_lt.trans_le (Nat.pow_le_pow_right (by decide) h.bits_lt.le)
  · have hz : p.accBits = 0 := by omega
    rw [if_neg hp]
    have hinv := h.inv
    rw [hz] at hinv
    exact inv_done (by decide) hinv

/-! ## The hex text is the text of octets -/

theorem hex_eq_hexOctet {n : Nat} (h : n < 256) : hex n = hexOctet n := by
  have hall : ∀ n < 256, hex n = hexOctet n := by decide +kernel
  exact hall n h

theorem flatMap_hex {os : List Nat} (h : ∀ o ∈ os, o < 256) :
    os.flatMap hex = os.flatMap hexOctet :=
  List.flatMap_congr fun o ho => hex_eq_hexOctet (h o ho)

theorem length_flatMap_hexOctet (os : List Nat) : (os.flatMap hexOctet).length = 2 * os.length := by
  induction os with
  | nil => rfl
  | cons o os ih =>
      rw [List.flatMap_cons, List.length_append, ih, List.length_cons]
      simp only [hexOctet, List.length_cons, List.length_nil]
      omega

/-- The value of a decimal digit. -/
def digitValue (c : CodeUnit) : Nat := c.toNat - 0x30

theorem digitValue_lt {c : CodeUnit} (h : isDigit c = true) : digitValue c < 10 := by
  simp only [isDigit, Bool.and_eq_true, decide_eq_true_eq, UInt16.le_iff_toNat_le] at h
  have hc : c.toNat ≤ 0x39 := h.2
  unfold digitValue
  omega

theorem digitUnit_digitValue {c : CodeUnit} (h : isDigit c = true) :
    digitUnit (digitValue c) = c := by
  have hv := digitValue_lt h
  simp only [isDigit, Bool.and_eq_true, decide_eq_true_eq, UInt16.le_iff_toNat_le] at h
  have hc : 0x30 ≤ c.toNat := h.1
  apply UInt16.toNat_inj.mp
  rw [digitUnit_toNat hv, digitValue]
  omega

/-- The octets of the swapped digits: low half first, 0xF in the unused half. -/
def semiOctets : JsString → List Nat
  | [] => []
  | [a] => [0xf0 + digitValue a]
  | a :: b :: rest => (16 * digitValue b + digitValue a) :: semiOctets rest

theorem swapDigits_eq {raw : JsString} (h : ∀ c ∈ raw, isDigit c = true) :
    swapDigits raw = (semiOctets raw).flatMap hexOctet := by
  induction raw using swapDigits.induct with
  | case1 => rfl
  | case2 a =>
      have ha := h a (by simp)
      have hv := digitValue_lt ha
      simp only [swapDigits, semiOctets, List.flatMap_cons, List.flatMap_nil, List.append_nil,
        hexOctet]
      rw [show (0xf0 + digitValue a) / 16 = 15 by omega,
        show (0xf0 + digitValue a) % 16 = digitValue a by omega, digitUnit_digitValue ha]
      rfl
  | case3 a b rest ih =>
      have ha := h a (by simp)
      have hb := h b (by simp)
      have hva := digitValue_lt ha
      have hrest := ih fun c hc => h c (by simp [hc])
      simp only [swapDigits, semiOctets, List.flatMap_cons, hexOctet, hrest]
      rw [show (16 * digitValue b + digitValue a) / 16 = digitValue b by omega,
        show (16 * digitValue b + digitValue a) % 16 = digitValue a by omega,
        digitUnit_digitValue ha, digitUnit_digitValue hb]
      rfl

theorem semiOctets_length (raw : JsString) : (semiOctets raw).length = (raw.length + 1) / 2 := by
  induction raw using semiOctets.induct with
  | case1 => rfl
  | case2 a => simp [semiOctets]
  | case3 a b rest ih =>
      simp only [semiOctets, List.length_cons, ih]
      omega

theorem semiOctets_lt {raw : JsString} (h : ∀ c ∈ raw, isDigit c = true) :
    ∀ o ∈ semiOctets raw, o < 256 := by
  induction raw using semiOctets.induct with
  | case1 => simp [semiOctets]
  | case2 a =>
      have hv := digitValue_lt (h a (by simp))
      intro o ho
      rw [semiOctets, List.mem_singleton] at ho
      omega
  | case3 a b rest ih =>
      have hva := digitValue_lt (h a (by simp))
      have hvb := digitValue_lt (h b (by simp))
      have hrest := ih fun c hc => h c (by simp [hc])
      intro o ho
      rw [semiOctets, List.mem_cons] at ho
      rcases ho with rfl | ho
      · omega
      · exact hrest o ho

end SmsGateway.Pdu
