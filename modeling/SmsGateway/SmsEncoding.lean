import SmsGateway.Js
import SmsGateway.Lib.Cut

/-!
# Charset analysis and message splitting

`utils/sms-encoding.js`: the recipient format, the GSM-7 tables, the two
splitting loops and the analysis every driver and the router share.
-/

namespace SmsGateway.SmsEncoding

open SmsGateway

/-- `PHONE_RE`: an optional plus sign and 7 to 15 digits. -/
def phoneRe (s : JsString) : Bool :=
  let digits := if startsWith s (js "+") then s.drop 1 else s
  7 ≤ digits.length && digits.length ≤ 15 && digits.all isDigit

abbrev maxSegments : Nat := 3

abbrev gsm7Single : Nat := 160
abbrev gsm7PerSegment : Nat := 153
abbrev ucs2Single : Nat := 70
abbrev ucs2PerSegment : Nat := 67

/-! ## The GSM 03.38 tables -/

/-- The basic charset laid out by septet code, without ESC (0x1B). -/
def gsm7Basic : JsString :=
  ['@', '£', '$', '¥', 'è', 'é', 'ù', 'ì', 'ò', 'Ç', '\n', 'Ø', 'ø', '\r', 'Å', 'å', 'Δ', '_',
    'Φ', 'Γ', 'Λ', 'Ω', 'Π', 'Ψ', 'Σ', 'Θ', 'Ξ', 'Æ', 'æ', 'ß', 'É', ' ', '!', '"', '#', '¤', '%',
    '&', '\'', '(', ')', '*', '+', ',', '-', '.', '/', '0', '1', '2', '3', '4', '5', '6', '7',
    '8', '9', ':', ';', '<', '=', '>', '?', '¡', 'A', 'B', 'C', 'D', 'E', 'F', 'G', 'H', 'I', 'J',
    'K', 'L', 'M', 'N', 'O', 'P', 'Q', 'R', 'S', 'T', 'U', 'V', 'W', 'X', 'Y', 'Z', 'Ä', 'Ö', 'Ñ',
    'Ü', '§', '¿', 'a', 'b', 'c', 'd', 'e', 'f', 'g', 'h', 'i', 'j', 'k', 'l', 'm', 'n', 'o', 'p',
    'q', 'r', 's', 't', 'u', 'v', 'w', 'x', 'y', 'z', 'ä', 'ö', 'ñ', 'ü', 'à'].flatMap utf16Encode

/-- `GSM7_CODES`: codes below 0x1B match the index, codes above are index + 1. -/
@[irreducible] def gsm7Codes : List (JsString × Nat) :=
  gsm7Basic.zipIdx.map fun (c, i) => ([c], if i < 0x1b then i else i + 1)

/-- `GSM7_EXT_CODES`: sent as ESC and the code. -/
def gsm7ExtCodes : List (JsString × Nat) :=
  [(js "^", 0x14), (js "\x7b", 0x28), (js "\x7d", 0x29), (js "\\", 0x2f), (js "[", 0x3c),
    (js "~", 0x3d), (js "]", 0x3e), (js "|", 0x40), (js "€", 0x65)]

/-- Septet cost of one character, or `none` if it does not fit the charset. -/
def gsm7Cost (ch : JsString) : Option Nat :=
  if (gsm7Codes.lookup ch).isSome then some 1
  else if (gsm7ExtCodes.lookup ch).isSome then some 2
  else none

/-- Every key of the two tables is one code unit that is no surrogate. -/
def plainKey (ch : JsString) : Bool :=
  ch.length == 1 && ch.all fun c => !isHighSurrogate c && !isLowSurrogate c

theorem gsm7Codes_checked :
    ∀ p ∈ gsm7Codes, plainKey p.1 ∧ p.2 < 128 ∧ p.2 ≠ 0x1b := by decide +kernel

theorem gsm7ExtCodes_checked :
    ∀ p ∈ gsm7ExtCodes, plainKey p.1 ∧ p.2 < 128 ∧ p.2 ≠ 0x1b := by decide +kernel

theorem gsm7Cost_plain {ch : JsString} {n : Nat} (h : gsm7Cost ch = some n) : plainKey ch := by
  unfold gsm7Cost at h
  split at h
  case isTrue hb =>
    obtain ⟨v, hv⟩ := Option.isSome_iff_exists.mp hb
    exact (gsm7Codes_checked _ (mem_of_lookup hv)).1
  case isFalse =>
    split at h
    case isTrue he =>
      obtain ⟨v, hv⟩ := Option.isSome_iff_exists.mp he
      exact (gsm7ExtCodes_checked _ (mem_of_lookup hv)).1
    case isFalse => cases h

theorem gsm7Cost_no_high {ch : JsString} {n : Nat} (h : gsm7Cost ch = some n) :
    ∀ c ∈ ch, isHighSurrogate c = false := by
  intro c hc
  have hp := gsm7Cost_plain h
  simp only [plainKey, Bool.and_eq_true, List.all_eq_true, Bool.not_eq_true'] at hp
  exact (hp.2 c hc).1

theorem gsm7Cost_le {ch : JsString} {n : Nat} (h : gsm7Cost ch = some n) : n = 1 ∨ n = 2 := by
  unfold gsm7Cost at h
  split at h
  · exact Or.inl (Option.some.inj h).symm
  · split at h
    · exact Or.inr (Option.some.inj h).symm
    · cases h

/-! ## Splitting -/

/-- The variables of the loop in `splitGsm7`. -/
structure GsmSplit where
  parts : List JsString
  part : JsString
  septets : Nat

def splitGsm7Step (s : GsmSplit) (ch : JsString) : GsmSplit :=
  -- a character outside the charset has cost null, which adds as zero
  let cost := (gsm7Cost ch).getD 0
  let s := if s.septets + cost > gsm7PerSegment then ⟨s.parts ++ [s.part], [], 0⟩ else s
  { s with part := s.part ++ ch, septets := s.septets + cost }

/-- Greedy split into parts of at most 153 septets. -/
def splitGsm7 (message : JsString) : List JsString :=
  let s := (forOf message).foldl splitGsm7Step ⟨[], [], 0⟩
  if s.part = [] then s.parts else s.parts ++ [s.part]

/-- How many code units the loop of `splitUcs2` takes off the rest of the message. -/
def ucs2Take (rest : JsString) : Nat :=
  let full := min ucs2PerSegment rest.length
  -- a high surrogate at the boundary stays with its other half
  if full < rest.length ∧ isHighSurrogate (rest.getD (full - 1) 0) then full - 1 else full

theorem ucs2Take_le (rest : JsString) :
    ucs2Take rest ≤ ucs2PerSegment ∧ ucs2Take rest ≤ rest.length := by
  unfold ucs2Take
  dsimp only
  split <;> omega

theorem ucs2Take_pos {rest : JsString} (h : rest ≠ []) : 0 < ucs2Take rest := by
  have hl : 0 < rest.length := List.length_pos_of_ne_nil h
  have hc : ucs2PerSegment = 67 := rfl
  unfold ucs2Take
  dsimp only
  split <;> omega

theorem ucs2_progress {rest : JsString} (h : rest ≠ []) :
    (rest.drop (ucs2Take rest)).length < rest.length := by
  have hp := ucs2Take_pos h
  have hl : 0 < rest.length := List.length_pos_of_ne_nil h
  rw [List.length_drop]
  omega

/-- Split into parts of at most 67 code units; the argument is the message from
the loop index on. -/
def splitUcs2 (rest : JsString) : List JsString :=
  if _h : rest = [] then []
  else rest.take (ucs2Take rest) :: splitUcs2 (rest.drop (ucs2Take rest))
termination_by rest.length
decreasing_by exact ucs2_progress ‹_›

/-! ## Analysis -/

inductive Encoding where
  | GSM
  | UCS2
  deriving DecidableEq, Repr

structure MessageInfo where
  encoding : Encoding
  length : Nat
  segments : Nat
  maxLength : Nat
  ok : Bool
  deriving DecidableEq, Repr

/-- The septet count, or `none` at the first character outside the charset. -/
def countSeptets : List JsString → Nat → Option Nat
  | [], septets => some septets
  | ch :: rest, septets =>
      match gsm7Cost ch with
      | none => none
      | some cost => countSeptets rest (septets + cost)

def analyzeMessage (message : JsString) : MessageInfo :=
  match countSeptets (forOf message) 0 with
  | some septets =>
      let segments := if septets ≤ gsm7Single then 1 else (splitGsm7 message).length
      { encoding := .GSM
        length := septets
        segments
        maxLength := gsm7PerSegment * maxSegments
        ok := segments ≤ maxSegments }
  | none =>
      let length := message.length
      let segments := if length ≤ ucs2Single then 1 else (splitUcs2 message).length
      { encoding := .UCS2
        length
        segments
        maxLength := ucs2PerSegment * maxSegments
        ok := segments ≤ maxSegments }

def splitMessage (message : JsString) : List JsString :=
  let info := analyzeMessage message
  if info.segments = 1 then [message]
  else if info.encoding = .GSM then splitGsm7 message
  else splitUcs2 message

theorem analyzeMessage_ok (message : JsString) :
    (analyzeMessage message).ok = decide ((analyzeMessage message).segments ≤ maxSegments) := by
  unfold analyzeMessage
  cases countSeptets (forOf message) 0 <;> rfl

/-! ## UCS2 hex -/

/-- Two upper-case hex digits of an octet, as `toString('hex').toUpperCase()` writes them. -/
def hexOctet (n : Nat) : JsString := [digitUnit (n / 16), digitUnit (n % 16)]

/-- `Buffer.from(s, 'utf16le').swap16()`: the code units, high octet first. -/
def utf16beOctets (s : JsString) : List Nat := s.flatMap fun c => [c.toNat / 256, c.toNat % 256]

/-- `ucs2Hex`. -/
def ucs2Hex (s : JsString) : JsString := (utf16beOctets s).flatMap hexOctet

theorem utf16beOctets_length (s : JsString) : (utf16beOctets s).length = 2 * s.length := by
  induction s with
  | nil => rfl
  | cons c s ih =>
      simp only [utf16beOctets, List.flatMap_cons, List.length_append, List.length_cons,
        List.length_nil] at ih ⊢
      omega

theorem ucs2Hex_length (s : JsString) : (ucs2Hex s).length = 4 * s.length := by
  have hoctets := utf16beOctets_length s
  simp only [ucs2Hex, hexOctet, List.length_flatMap, List.length_cons, List.length_nil,
    List.map_const', List.sum_replicate, smul_eq_mul]
  omega

theorem utf16beOctets_lt (s : JsString) : ∀ o ∈ utf16beOctets s, o < 256 := by
  intro o ho
  simp only [utf16beOctets, List.mem_flatMap, List.mem_cons, List.not_mem_nil, or_false] at ho
  obtain ⟨c, -, rfl | rfl⟩ := ho
  · have := c.toNat_lt; omega
  · exact Nat.mod_lt _ (by decide)

/-! ## What the loops guarantee -/

/-- Every character of the message is in one of the GSM tables. -/
def IsGsm (message : JsString) : Prop := ∀ ch ∈ forOf message, (gsm7Cost ch).isSome

theorem countSeptets_isSome_iff (chs : List JsString) (n : Nat) :
    (countSeptets chs n).isSome ↔ ∀ ch ∈ chs, (gsm7Cost ch).isSome := by
  induction chs generalizing n with
  | nil => simp [countSeptets]
  | cons ch chs ih =>
      cases hc : gsm7Cost ch with
      | none => simp [countSeptets, hc]
      | some cost => simp [countSeptets, hc, ih]

theorem encoding_eq_gsm_iff (message : JsString) :
    (analyzeMessage message).encoding = .GSM ↔ IsGsm message := by
  have h := countSeptets_isSome_iff (forOf message) 0
  rw [IsGsm, ← h]
  unfold analyzeMessage
  cases countSeptets (forOf message) 0 with
  | none => simp
  | some n => simp

theorem no_high_of_isGsm {message : JsString} (h : IsGsm message) :
    ∀ c ∈ message, isHighSurrogate c = false := by
  intro c hc
  rw [← forOf_flatten message] at hc
  obtain ⟨ch, hch, hcc⟩ := List.mem_flatten.mp hc
  obtain ⟨n, hn⟩ := Option.isSome_iff_exists.mp (h ch hch)
  exact gsm7Cost_no_high hn c hcc

/-- A GSM message is iterated code unit by code unit. -/
theorem forOf_of_isGsm {message : JsString} (h : IsGsm message) :
    forOf message = message.map fun c => [c] :=
  forOf_of_no_high (no_high_of_isGsm h)

theorem isGsm_iff {message : JsString} (h : ∀ c ∈ message, isHighSurrogate c = false) :
    IsGsm message ↔ ∀ c ∈ message, (gsm7Cost [c]).isSome := by
  rw [IsGsm, forOf_of_no_high h]
  simp

theorem isGsm_of_forall {message : JsString} (h : ∀ c ∈ message, (gsm7Cost [c]).isSome) :
    IsGsm message := by
  refine (isGsm_iff ?_).mpr h
  intro c hc
  obtain ⟨n, hn⟩ := Option.isSome_iff_exists.mp (h c hc)
  exact gsm7Cost_no_high hn c (by simp)

theorem cost_of_isGsm {message : JsString} (h : IsGsm message) :
    ∀ c ∈ message, (gsm7Cost [c]).isSome :=
  (isGsm_iff (no_high_of_isGsm h)).mp h

open Lib

/-- The cost the splitting loop adds for a character. -/
def septetCost (ch : JsString) : Nat := (gsm7Cost ch).getD 0

theorem septetCost_le (ch : JsString) : septetCost ch ≤ gsm7PerSegment := by
  unfold septetCost
  cases h : gsm7Cost ch with
  | none => exact Nat.zero_le _
  | some n =>
      rcases gsm7Cost_le h with rfl | rfl <;> decide

theorem countSeptets_eq {chs : List JsString} (h : ∀ ch ∈ chs, (gsm7Cost ch).isSome) (n : Nat) :
    countSeptets chs n = some (n + Cut.total septetCost chs) := by
  induction chs generalizing n with
  | nil => rfl
  | cons ch chs ih =>
      obtain ⟨cost, hc⟩ := Option.isSome_iff_exists.mp (h ch (by simp))
      have hr := ih (fun x hx => h x (List.mem_cons_of_mem ch hx)) (n + cost)
      simp only [countSeptets, hc, hr, Cut.total_cons, septetCost, Option.getD_some, Nat.add_assoc]

/-- The loop of `splitGsm7` is the greedy cut of the characters. -/
theorem splitGsm7_fold (chs : List JsString) (s : Cut.State JsString) :
    chs.foldl splitGsm7Step ⟨s.closed.map List.flatten, s.current.flatten, s.used⟩ =
      let t := chs.foldl (Cut.step septetCost gsm7PerSegment) s
      ⟨t.closed.map List.flatten, t.current.flatten, t.used⟩ := by
  induction chs generalizing s with
  | nil => rfl
  | cons ch chs ih =>
      have hs : splitGsm7Step ⟨s.closed.map List.flatten, s.current.flatten, s.used⟩ ch =
          ⟨(Cut.step septetCost gsm7PerSegment s ch).closed.map List.flatten,
            (Cut.step septetCost gsm7PerSegment s ch).current.flatten,
            (Cut.step septetCost gsm7PerSegment s ch).used⟩ := by
        by_cases hfull : s.used + (gsm7Cost ch).getD 0 > gsm7PerSegment
        · simp [splitGsm7Step, Cut.step, septetCost, hfull]
        · simp [splitGsm7Step, Cut.step, septetCost, hfull]
      rw [List.foldl_cons, hs, ih, List.foldl_cons]

/-- A part is the empty string exactly when it holds no character. -/
theorem flatten_eq_nil_iff_of_forOf {chs : List JsString} (h : ∀ ch ∈ chs, ch ≠ []) :
    chs.flatten = [] ↔ chs = [] := by
  rw [List.flatten_eq_nil_iff]
  constructor
  · intro he
    exact List.eq_nil_iff_forall_not_mem.mpr fun ch hch => h ch hch (he ch hch)
  · rintro rfl
    simp

theorem splitGsm7_eq_greedy (message : JsString) :
    splitGsm7 message =
      (Cut.greedy septetCost gsm7PerSegment (forOf message)).map List.flatten := by
  have hi : Cut.Inv septetCost gsm7PerSegment ([] ++ forOf message) _ :=
    Cut.inv_run (Cut.inv_start septetCost gsm7PerSegment) fun x _ => septetCost_le x
  have hf : (forOf message).foldl splitGsm7Step ⟨[], [], 0⟩ = _ :=
    splitGsm7_fold (forOf message) Cut.start
  unfold splitGsm7 Cut.greedy Cut.finish
  generalize (forOf message).foldl (Cut.step septetCost gsm7PerSegment) Cut.start = t at hf hi
  have hne : ∀ ch ∈ t.current, ch ≠ [] := by
    intro ch hch
    have hd := hi.flatten
    rw [List.nil_append] at hd
    exact forOf_ne_nil ch (hd ▸ List.mem_append_right _ hch)
  rw [hf]
  simp only [flatten_eq_nil_iff_of_forOf hne]
  split <;> simp

end SmsGateway.SmsEncoding
