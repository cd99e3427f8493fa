import SmsGateway.Pdu

/-!
# A reference decoder for SMS-SUBMIT

What a network element reads out of a submitted PDU, written from the GSM 03.40
and 03.38 layouts without reference to the builder: the SMSC field, the
destination address in semi-octets, the data coding, the user-data length, the
concatenation element and the text behind it.
-/

namespace SmsGateway.SubmitDecoder

open SmsGateway Lib Digits
open Nat (ofDigits)

/-! ## The default alphabet -/

/-- The GSM 03.38 default alphabet by code; 0x1B is the escape to the extension table. -/
def defaultAlphabet : List CodeUnit :=
  [0x40, 0xa3, 0x24, 0xa5, 0xe8, 0xe9, 0xf9, 0xec, 0xf2, 0xc7, 0x0a, 0xd8, 0xf8, 0x0d, 0xc5, 0xe5,
    0x394, 0x5f, 0x3a6, 0x393, 0x39b, 0x3a9, 0x3a0, 0x3a8, 0x3a3, 0x398, 0x39e, 0xa0, 0xc6, 0xe6,
    0xdf, 0xc9, 0x20, 0x21, 0x22, 0x23, 0xa4, 0x25, 0x26, 0x27, 0x28, 0x29, 0x2a, 0x2b, 0x2c,
    0x2d, 0x2e, 0x2f, 0x30, 0x31, 0x32, 0x33, 0x34, 0x35, 0x36, 0x37, 0x38, 0x39, 0x3a, 0x3b,
    0x3c, 0x3d, 0x3e, 0x3f, 0xa1, 0x41, 0x42, 0x43, 0x44, 0x45, 0x46, 0x47, 0x48, 0x49, 0x4a,
    0x4b, 0x4c, 0x4d, 0x4e, 0x4f, 0x50, 0x51, 0x52, 0x53, 0x54, 0x55, 0x56, 0x57, 0x58, 0x59,
    0x5a, 0xc4, 0xd6, 0xd1, 0xdc, 0xa7, 0xbf, 0x61, 0x62, 0x63, 0x64, 0x65, 0x66, 0x67, 0x68,
    0x69, 0x6a, 0x6b, 0x6c, 0x6d, 0x6e, 0x6f, 0x70, 0x71, 0x72, 0x73, 0x74, 0x75, 0x76, 0x77,
    0x78, 0x79, 0x7a, 0xe4, 0xf6, 0xf1, 0xfc, 0xe0]

/-- The GSM 03.38 extension table: what an escaped code stands for. -/
def extensionTable : List (Nat × CodeUnit) :=
  [(0x0a, 0x0c), (0x14, 0x5e), (0x28, 0x7b), (0x29, 0x7d), (0x2f, 0x5c), (0x3c, 0x5b),
    (0x3d, 0x7e), (0x3e, 0x5d), (0x40, 0x7c), (0x65, 0x20ac)]

def decodeSeptets : List Nat → Option JsString
  | [] => some []
  | [s] => if s = 0x1b then none else (defaultAlphabet[s]?).map fun c => [c]
  | s :: t :: rest =>
      if s = 0x1b then do
        let c ← extensionTable.lookup t
        let text ← decodeSeptets rest
        some (c :: text)
      else do
        let c ← defaultAlphabet[s]?
        let text ← decodeSeptets (t :: rest)
        some (c :: text)

theorem decodeSeptets_basic {s : Nat} (hs : s ≠ 0x1b) (rest : List Nat) :
    decodeSeptets (s :: rest) =
      (defaultAlphabet[s]?).bind fun c => (decodeSeptets rest).map (c :: ·) := by
  cases rest with
  | nil => cases h : defaultAlphabet[s]? <;> simp [decodeSeptets, hs, h]
  | cons t rest =>
      rw [decodeSeptets, if_neg hs]
      cases defaultAlphabet[s]? <;> cases decodeSeptets (t :: rest) <;> rfl

theorem decodeSeptets_escape (t : Nat) (rest : List Nat) :
    decodeSeptets (0x1b :: t :: rest) =
      (extensionTable.lookup t).bind fun c => (decodeSeptets rest).map (c :: ·) := by
  rw [decodeSeptets, if_pos rfl]
  cases extensionTable.lookup t <;> cases decodeSeptets rest <;> rfl

def decodeUtf16be : List Nat → Option JsString
  | [] => some []
  | [_] => none
  | hi :: lo :: rest => (decodeUtf16be rest).map (UInt16.ofNat (256 * hi + lo) :: ·)

/-! ## Octets -/

def hexValue (c : CodeUnit) : Option Nat :=
  let n := c.toNat
  if 0x30 ≤ n ∧ n ≤ 0x39 then some (n - 0x30)
  else if 0x41 ≤ n ∧ n ≤ 0x46 then some (n - 0x37)
  else if 0x61 ≤ n ∧ n ≤ 0x66 then some (n - 0x57)
  else none

/-- Two hex digits per octet, and nothing else. -/
def parseOctets : JsString → Option (List Nat)
  | [] => some []
  | [_] => none
  | a :: b :: rest => do
      let hi ← hexValue a
      let lo ← hexValue b
      let os ← parseOctets rest
      some ((16 * hi + lo) :: os)

def takeOctets (n : Nat) (os : List Nat) : Option (List Nat × List Nat) :=
  if n ≤ os.length then some (os.take n, os.drop n) else none

theorem takeOctets_append (a b : List Nat) : takeOctets a.length (a ++ b) = some (a, b) := by
  simp [takeOctets]

/-! ## Addresses -/

/-- Semi-octets: the low half of an octet comes first. -/
def nibbles (os : List Nat) : List Nat := os.flatMap fun o => [o % 16, o / 16]

/-- Type of address 0x91 is international, 0x81 is unknown. -/
def decodeNumber (toa : Nat) (digits : List Nat) : Option JsString :=
  if digits.all (· < 10) then
    if toa = 0x91 then some (js "+" ++ digits.map digitUnit)
    else if toa = 0x81 then some (digits.map digitUnit)
    else none
  else none

/-- An unused half-octet at the end holds 0xF. -/
def dropFiller (ns : List Nat) : List Nat := if ns.getLast? = some 15 then ns.dropLast else ns

/-- The SMSC field and the octets behind it; length 0 stands for the SIM's service centre. -/
def decodeSmsc : List Nat → Option (Option JsString × List Nat)
  | [] => none
  | len :: os =>
      if len = 0 then some (none, os)
      else do
        let (field, os) ← takeOctets len os
        let (toa, semi) ← match field with
          | [] => none
          | toa :: semi => some (toa, semi)
        let number ← decodeNumber toa (dropFiller (nibbles semi))
        some (some number, os)

/-! ## The TPDU -/

structure Submit where
  octets : List Nat
  smsc : Option JsString
  recipient : JsString
  dcs : Nat
  udl : Nat
  userData : List Nat
  ref : Nat
  total : Nat
  part : Nat
  body : JsString

/-- How many octets of user data a length field announces: it counts septets in
the default alphabet and octets in UCS2. -/
def userDataOctets (dcs udl : Nat) : Nat := if dcs = 0x00 then (7 * udl + 7) / 8 else udl

/-- The text behind a header of 6 octets, that is 7 septets with one fill bit. -/
def decodeText (dcs udl : Nat) (text : List Nat) : Option JsString :=
  if dcs = 0x00 then decodeSeptets (fields 7 1 (udl - 7) (ofDigits (2 ^ 8) text))
  else if dcs = 0x08 then decodeUtf16be text
  else none

/-- First octet of an SMS-SUBMIT with a user-data header and a relative validity period. -/
def isSubmit (first : Nat) : Bool :=
  first % 4 == 1 && first / 8 % 4 == 2 && first / 64 % 2 == 1

def decodeUserData (s : Submit) : Option Submit :=
  if s.userData.length = userDataOctets s.dcs s.udl then
    match s.userData with
    | 5 :: 0 :: 3 :: ref :: total :: part :: text => do
        let body ← decodeText s.dcs s.udl text
        some { s with ref, total, part, body }
    | _ => none
  else none

def decodeTpdu (octets : List Nat) (smsc : Option JsString) : List Nat → Option Submit
  | first :: _mr :: digitCount :: toa :: os =>
      if isSubmit first then do
        let (semi, os) ← takeOctets ((digitCount + 1) / 2) os
        let recipient ← decodeNumber toa ((nibbles semi).take digitCount)
        match os with
        | _pid :: dcs :: _vp :: udl :: userData =>
            decodeUserData
              { octets, smsc, recipient, dcs, udl, userData, ref := 0, total := 0, part := 0
                body := [] }
        | _ => none
      else none
  | _ => none

def decodeSubmit (pdu : JsString) : Option Submit := do
  let octets ← parseOctets pdu
  let (smsc, tpdu) ← decodeSmsc octets
  decodeTpdu octets smsc tpdu

/-- The octets of the SMSC field: its length octet and what that counts. -/
def smscFieldLength (octets : List Nat) : Nat := 1 + octets.headD 0

/-! ## What the builder's octets decode to -/

open SmsEncoding Pdu

theorem hexValue_digitUnit {d : Nat} (h : d < 16) : hexValue (digitUnit d) = some d := by
  have hall : ∀ d < 16, hexValue (digitUnit d) = some d := by decide
  exact hall d h

theorem parseOctets_hexOctet {os : List Nat} (h : ∀ o ∈ os, o < 256) :
    parseOctets (os.flatMap hexOctet) = some os := by
  induction os with
  | nil => rfl
  | cons o os ih =>
      have ho := h o (by simp)
      have hos := ih fun x hx => h x (List.mem_cons_of_mem o hx)
      rw [List.flatMap_cons, hexOctet, List.cons_append, List.cons_append, List.nil_append,
        parseOctets, hexValue_digitUnit (by omega), hexValue_digitUnit (by omega), hos]
      simp only [Option.bind_eq_bind, Option.bind_some]
      rw [show 16 * (o / 16) + o % 16 = o by omega]

theorem nibbles_semiOctets {raw : JsString} (h : ∀ c ∈ raw, isDigit c = true) :
    nibbles (semiOctets raw) =
      raw.map digitValue ++ if raw.length % 2 = 1 then [15] else [] := by
  induction raw using semiOctets.induct with
  | case1 => rfl
  | case2 a =>
      have hv := digitValue_lt (h a (by simp))
      simp [nibbles, semiOctets]
      omega
  | case3 a b rest ih =>
      have hva := digitValue_lt (h a (by simp))
      have hrest := ih fun c hc => h c (by simp [hc])
      have hlen : (a :: b :: rest).length % 2 = rest.length % 2 := by
        simp only [List.length_cons]
        omega
      rw [nibbles] at hrest
      rw [nibbles, semiOctets, List.flatMap_cons, hrest, hlen]
      simp only [List.map_cons, List.cons_append, List.nil_append]
      rw [show (16 * digitValue b + digitValue a) % 16 = digitValue a by omega,
        show (16 * digitValue b + digitValue a) / 16 = digitValue b by omega]

theorem map_digitUnit_digitValue {raw : JsString} (h : ∀ c ∈ raw, isDigit c = true) :
    (raw.map digitValue).map digitUnit = raw := by
  rw [List.map_map]
  conv_rhs => rw [← List.map_id raw]
  exact List.map_congr_left fun c hc => digitUnit_digitValue (h c hc)

theorem all_digitValue_lt {raw : JsString} (h : ∀ c ∈ raw, isDigit c = true) :
    (raw.map digitValue).all (· < 10) = true := by
  simp only [List.all_eq_true, List.mem_map, decide_eq_true_eq]
  rintro d ⟨c, hc, rfl⟩
  exact digitValue_lt (h c hc)

theorem dropFiller_nibbles {raw : JsString} (h : ∀ c ∈ raw, isDigit c = true) :
    dropFiller (nibbles (semiOctets raw)) = raw.map digitValue := by
  rw [nibbles_semiOctets h, dropFiller]
  by_cases hodd : raw.length % 2 = 1
  · simp [hodd]
  · -- a digit is below 10, so an even number ends in no filler
    rw [if_neg hodd, List.append_nil, if_neg]
    intro hl
    have hmem := List.mem_of_getLast? hl
    have hall := all_digitValue_lt h
    simp only [List.all_eq_true, decide_eq_true_eq] at hall
    exact absurd (hall 15 hmem) (by decide)

theorem take_nibbles {raw : JsString} (h : ∀ c ∈ raw, isDigit c = true) :
    (nibbles (semiOctets raw)).take raw.length = raw.map digitValue := by
  rw [nibbles_semiOctets h]
  exact List.take_left' (by simp)

theorem decodeUtf16be_utf16beOctets (s : JsString) : decodeUtf16be (utf16beOctets s) = some s := by
  induction s with
  | nil => rfl
  | cons c s ih =>
      rw [utf16beOctets] at ih
      rw [utf16beOctets, List.flatMap_cons, List.cons_append, List.cons_append, List.nil_append,
        decodeUtf16be, ih, Nat.div_add_mod, UInt16.ofNat_toNat]
      rfl

/-- Every code of `GSM7_CODES` decodes to its own character. -/
theorem gsm7Codes_decode : ∀ p ∈ gsm7Codes, (defaultAlphabet[p.2]?).map (fun c => [c]) = some p.1 := by
  decide +kernel

theorem gsm7ExtCodes_decode :
    ∀ p ∈ gsm7ExtCodes, (extensionTable.lookup p.2).map (fun c => [c]) = some p.1 := by
  decide +kernel

/-- The septets of representable characters decode to those characters, and their
number is what the analysis counts. -/
theorem septetsOf_spec {chs : List JsString} (h : ∀ ch ∈ chs, (gsm7Cost ch).isSome) :
    ∃ septets, septetsOf chs = .ok septets ∧ septets.length = Cut.total septetCost chs ∧
      (∀ s ∈ septets, s < 2 ^ 7) ∧ decodeSeptets septets = some chs.flatten := by
  induction chs with
  | nil => exact ⟨[], rfl, rfl, by simp, rfl⟩
  | cons ch chs ih =>
      obtain ⟨septets, hok, hlen, hlt, hdec⟩ := ih fun x hx => h x (List.mem_cons_of_mem ch hx)
      have hch := h ch (by simp)
      cases hb : gsm7Codes.lookup ch with
      | some code =>
          have hc := gsm7Codes_checked _ (mem_of_lookup hb)
          have hd := gsm7Codes_decode _ (mem_of_lookup hb)
          obtain ⟨c, hget, rfl⟩ := Option.map_eq_some_iff.mp hd
          refine ⟨code :: septets, ?_, ?_, ?_, ?_⟩
          · simp [septetsOf, hb, hok, Except.map]
          · simp [septetCost, gsm7Cost, hb, hlen, Nat.add_comm]
          · intro s hs
            rcases List.mem_cons.mp hs with rfl | hs
            · exact hc.2.1
            · exact hlt s hs
          · rw [decodeSeptets_basic hc.2.2, hget, hdec]
            rfl
      | none =>
          cases he : gsm7ExtCodes.lookup ch with
          | none => simp [gsm7Cost, hb, he] at hch
          | some code =>
              have hc := gsm7ExtCodes_checked _ (mem_of_lookup he)
              have hd := gsm7ExtCodes_decode _ (mem_of_lookup he)
              obtain ⟨c, hget, rfl⟩ := Option.map_eq_some_iff.mp hd
              refine ⟨0x1b :: code :: septets, ?_, ?_, ?_, ?_⟩
              · simp [septetsOf, hb, he, hok, Except.map]
              · simp [septetCost, gsm7Cost, hb, he, hlen]
                omega
              · intro s hs
                rcases List.mem_cons.mp hs with rfl | hs
                · decide
                rcases List.mem_cons.mp hs with rfl | hs
                · exact hc.2.1
                · exact hlt s hs
              · rw [decodeSeptets_escape, hget, hdec]
                rfl

end SmsGateway.SubmitDecoder
