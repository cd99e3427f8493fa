import SmsGateway.Serial.Driver
import SmsGateway.SubmitDecoder
import SmsGateway.Unicode

/-!
# The body of a text-mode submission

A single SMS leaves the port as the UTF-8 octets of its text, and the modem reads
each octet as a code of the character set selected with `AT+CSCS="GSM"`. The
multipart path sends the septet codes of `gsm7Septets` instead.
-/

namespace SmsGateway.Serial.TextMode

open SmsGateway SmsEncoding Pdu SubmitDecoder
open Lib Lib.Async

/-- The septet codes of one character. -/
def charCodes (ch : JsString) : List Nat :=
  match gsm7Codes.lookup ch with
  | some code => [code]
  | none =>
      match gsm7ExtCodes.lookup ch with
      | some code => [0x1b, code]
      | none => []

theorem septetsOf_eq {chs : List JsString} (h : ∀ ch ∈ chs, (gsm7Cost ch).isSome) :
    septetsOf chs = .ok (chs.flatMap charCodes) := by
  induction chs with
  | nil => rfl
  | cons ch chs ih =>
      have hrest := ih fun x hx => h x (List.mem_cons_of_mem ch hx)
      have hch := h ch (by simp)
      cases hb : gsm7Codes.lookup ch with
      | some code => simp [septetsOf, charCodes, hb, hrest, Except.map]
      | none =>
          cases he : gsm7ExtCodes.lookup ch with
          | some code => simp [septetsOf, charCodes, hb, he, hrest, Except.map]
          | none => simp [gsm7Cost, hb, he] at hch

theorem gsm7Septets_eq {message : JsString} (h : IsGsm message) :
    gsm7Septets message = .ok (message.flatMap fun c => charCodes [c]) := by
  rw [gsm7Septets, septetsOf_eq h, forOf_of_isGsm h, List.flatMap_map]

/-- A character outside ASCII is written with octets from 0xC0 on. -/
theorem utf8OfCodePoint_head {n : Nat} (h : 128 ≤ n) :
    ∃ o os, utf8OfCodePoint n = o :: os ∧ 128 ≤ o := by
  have hm : 128 ≤ if 0xd800 ≤ n ∧ n ≤ 0xdfff then 0xfffd else n := by split <;> omega
  unfold utf8OfCodePoint
  generalize (if 0xd800 ≤ n ∧ n ≤ 0xdfff then 0xfffd else n) = m at hm
  dsimp only
  rw [if_neg (by omega)]
  by_cases h2 : m < 0x800
  · rw [if_pos h2]
    exact ⟨_, _, rfl, by omega⟩
  · rw [if_neg h2]
    by_cases h3 : m < 0x10000
    · rw [if_pos h3]
      exact ⟨_, _, rfl, by omega⟩
    · rw [if_neg h3]
      exact ⟨_, _, rfl, by omega⟩

/-- No extension character is the escape itself. -/
theorem extension_ne_escape : ∀ p ∈ gsm7ExtCodes, p.1 ≠ [0x1b] := by decide

/-- The character has one GSM code, and it is the character's own number. -/
def SameCode (c : CodeUnit) : Prop := gsm7Codes.lookup [c] = some c.toNat

theorem charCodes_of_sameCode {c : CodeUnit} (h : SameCode c) :
    charCodes [c] = utf8OfCodePoint c.toNat := by
  have hlt := (gsm7Codes_checked _ (mem_of_lookup h)).2.1
  rw [utf8OfCodePoint_ascii hlt, charCodes, show gsm7Codes.lookup [c] = _ from h]

theorem flatMap_eq_iff {message : JsString} (h : ∀ c ∈ message, (gsm7Cost [c]).isSome) :
    (message.flatMap fun c => utf8OfCodePoint c.toNat) = (message.flatMap fun c => charCodes [c]) ↔
      ∀ c ∈ message, SameCode c := by
  constructor
  · intro heq
    induction message with
    | nil => simp
    | cons c message ih =>
        have hc := h c (by simp)
        have hrest : ∀ d ∈ message, (gsm7Cost [d]).isSome :=
          fun d hd => h d (List.mem_cons_of_mem c hd)
        rw [List.flatMap_cons, List.flatMap_cons] at heq
        cases hb : gsm7Codes.lookup [c] with
        | some code =>
            have hcode := (gsm7Codes_checked _ (mem_of_lookup hb)).2.1
            have hchar : charCodes [c] = [code] := by rw [charCodes, hb]
            rw [hchar] at heq
            by_cases hascii : c.toNat < 128
            · rw [utf8OfCodePoint_ascii hascii] at heq
              obtain ⟨hhead, htail⟩ := List.cons.inj heq
              have hsame : SameCode c := by rw [SameCode, hb, hhead]
              intro d hd
              rcases List.mem_cons.mp hd with rfl | hd
              · exact hsame
              · exact ih hrest htail d hd
            · obtain ⟨o, os, ho, hge⟩ := utf8OfCodePoint_head (Nat.le_of_not_lt hascii)
              rw [ho] at heq
              have hhead := (List.cons.inj heq).1
              omega
        | none =>
            cases he : gsm7ExtCodes.lookup [c] with
            | none => simp [gsm7Cost, hb, he] at hc
            | some code =>
                have hchar : charCodes [c] = [0x1b, code] := by rw [charCodes, hb, he]
                rw [hchar] at heq
                by_cases hascii : c.toNat < 128
                · -- the escape code is not the number of an extension character
                  rw [utf8OfCodePoint_ascii hascii] at heq
                  have hhead := (List.cons.inj heq).1
                  have hesc : c = 0x1b := UInt16.toNat_inj.mp hhead
                  exact absurd (hesc ▸ rfl) (extension_ne_escape _ (mem_of_lookup he))
                · obtain ⟨o, os, ho, hge⟩ := utf8OfCodePoint_head (Nat.le_of_not_lt hascii)
                  rw [ho] at heq
                  have hhead := (List.cons.inj heq).1
                  omega
  · intro hsame
    exact List.flatMap_congr fun c hc => (charCodes_of_sameCode (hsame c hc)).symm

/-! ## What `sendSingle` writes at the prompt -/

/-- Every body command of a program writes the given text and Ctrl+Z. -/
def bodyProtocol (body : JsString) : Protocol Op Ans JsError (Option JsString) Unit :=
  { allowed := fun _ op => ∀ r, op = .transact r → r.label = js "CMGS body" →
      r.write = body ++ ctrlZ
    next := fun _ _ _ => ()
    mayReturn := fun _ _ => True
    mayFail := fun _ _ => True }

theorem sendSingle_body (smsc recipient message : JsString) (info : MessageInfo) :
    Obeys (bodyProtocol (textModeForm info.encoding message)) ()
      (sendSingle smsc recipient message info) := by
  apply obeys_sendSingle
  · intro r _ hl
    refine ⟨?_, fun _ => rfl⟩
    rintro _ ⟨rfl⟩ hlabel
    exact absurd hlabel hl
  · exact fun _ => trivial
  · apply obeys_submitBody
    · rintro _ ⟨rfl⟩ hlabel
      exact absurd (show js "CMGS" = js "CMGS body" from hlabel) (by decide)
    · refine fun e => ⟨?_, fun _ => trivial⟩
      rintro _ ⟨⟩
    · refine fun _ => ⟨?_, ?_⟩
      · rintro _ ⟨rfl⟩ _
        rfl
      · rintro (_ | _)
        · trivial
        · trivial

/-- The port writes these octets at the prompt in some run of `sendSMS`. -/
def Submits (smsc recipient message : JsString) (octets : List Nat) : Prop :=
  ∃ (o : Oracle Op Ans) (d : Done Op Ans) (r : Request),
    d ∈ trace o 0 (sendSMS smsc recipient message) ∧ d.op = .transact r ∧
      r.label = js "CMGS body" ∧ octets = utf8Octets r.write

/-- A port and a modem that answer everything. -/
def answering : Oracle Op Ans := fun _ op =>
  match op with
  | .transact _ => .ok []
  | .writeEsc => ()
  | .waitForUrc _ _ => (0 : Nat)
  | .urc _ => none
  | .persist _ => .ok ()
  | .randomInt _ => (0 : Nat)

theorem trace_transact_answering {α : Type} (n : Nat) (r : Request) (f : List JsString → Prog α) :
    trace answering n (transact r >>= f) =
      ⟨.transact r, .ok []⟩ :: trace answering (n + 1) (f []) := rfl

theorem trace_submitBody_answering (n : Nat) (atCommand label body : JsString) :
    trace answering n (submitBody atCommand label body) =
      [⟨.transact (promptRequest atCommand label), .ok []⟩,
        ⟨.transact (bodyRequest label body), .ok []⟩] := rfl

theorem trace_selectCharset_answering (n : Nat) (encoding : Encoding)
    (f : Unit → Prog (Option JsString)) :
    ∃ setup, trace answering n (selectCharset encoding >>= f) =
      setup ++ trace answering (n + 2) (f ()) := by
  cases encoding
  · exact ⟨[_, _], rfl⟩
  · exact ⟨[_, _], rfl⟩

/-- When everything is answered, `sendSingle` ends with the prompt and the body. -/
theorem mem_trace_sendSingle (smsc recipient message : JsString) (info : MessageInfo) :
    (⟨.transact (bodyRequest (js "CMGS") (textModeForm info.encoding message)), .ok []⟩ :
      Done Op Ans) ∈ trace answering 0 (sendSingle smsc recipient message info) := by
  have hselect (n : Nat) := trace_selectCharset_answering n info.encoding fun _ => submitBody
    (js "AT+CMGS=" ++ quoted (textModeForm info.encoding recipient) ++ js "\r") (js "CMGS")
    (textModeForm info.encoding message)
  unfold sendSingle
  rw [trace_transact_answering]
  dsimp only
  by_cases hs : smsc ≠ []
  · obtain ⟨setup, hsetup⟩ := hselect 2
    rw [if_pos hs, trace_transact_answering, hsetup, trace_submitBody_answering]
    simp
  · obtain ⟨setup, hsetup⟩ := hselect 1
    rw [if_neg hs, hsetup, trace_submitBody_answering]
    simp

theorem submits_iff {smsc recipient message : JsString} (hto : phoneRe recipient = true)
    (hone : (analyzeMessage message).segments = 1) (octets : List Nat) :
    Submits smsc recipient message octets ↔
      octets = utf8Octets (textModeForm (analyzeMessage message).encoding message ++ ctrlZ) := by
  rw [Submits, sendSMS_single hto hone]
  have hbody := sendSingle_body smsc recipient message (analyzeMessage message)
  generalize analyzeMessage message = info at hbody ⊢
  constructor
  · rintro ⟨o, d, r, hd, hop, hlabel, rfl⟩
    rw [allowed_of_follows (fun _ _ h => h) (obeys_follows hbody o 0) d hd r hop hlabel]
  · rintro rfl
    exact ⟨answering, _, _, mem_trace_sendSingle smsc recipient message info, rfl, rfl, rfl⟩

/-- The octets at the prompt are the septet codes of the message, before Ctrl+Z. -/
def SendsSeptets (smsc recipient message : JsString) : Prop :=
  ∀ octets, Submits smsc recipient message octets →
    ∃ septets, gsm7Septets message = .ok septets ∧ octets = septets ++ [0x1a]

/-- A single GSM message is submitted as its septet codes exactly when every
character has the same number in ASCII and in the basic GSM table. -/
theorem sendsSeptets_iff {smsc recipient message : JsString} (hto : phoneRe recipient = true)
    (hgsm : (analyzeMessage message).encoding = .GSM)
    (hone : (analyzeMessage message).segments = 1) :
    SendsSeptets smsc recipient message ↔ ∀ c ∈ message, SameCode c := by
  have hchars := (encoding_eq_gsm_iff message).mp hgsm
  have hplain : ∀ c ∈ message ++ ctrlZ, isHighSurrogate c = false := by
    intro c hc
    rcases List.mem_append.mp hc with hc | hc
    · exact no_high_of_isGsm hchars c hc
    · rw [List.mem_singleton.mp hc]
      rfl
  have hoctets : utf8Octets (message ++ ctrlZ) =
      (message.flatMap fun c => utf8OfCodePoint c.toNat) ++ [0x1a] := by
    rw [utf8Octets_eq hplain, List.flatMap_append]
    rfl
  have hform : textModeForm (analyzeMessage message).encoding message = message := by
    simp [textModeForm, hgsm]
  rw [← flatMap_eq_iff (cost_of_isGsm hchars), SendsSeptets]
  simp only [submits_iff hto hone, hform, forall_eq, hoctets, gsm7Septets_eq hchars,
    Except.ok.injEq, exists_eq_left', List.append_cancel_right_eq]

/-- Letters and digits are their own septet codes. -/
theorem sendsSeptets_iff_letters :
    SendsSeptets [] (js "+99361234567") (js "Hello 123") ↔ ∀ c ∈ js "Hello 123", SameCode c :=
  sendsSeptets_iff (by decide +kernel) (by decide +kernel) (by decide +kernel)

/-- A message of one at sign goes out as octet 0x40, which the GSM set reads as an
inverted exclamation mark. -/
theorem sendsSeptets_at_sign :
    (analyzeMessage (js "@")).encoding = .GSM ∧ (analyzeMessage (js "@")).segments = 1 ∧
      ¬ SendsSeptets [] (js "+99361234567") (js "@") := by
  refine ⟨by decide +kernel, by decide +kernel, ?_⟩
  intro h
  have hsub : Submits [] (js "+99361234567") (js "@") [0x40, 0x1a] := by
    rw [submits_iff (by decide +kernel) (by decide +kernel)]
    decide +kernel
  obtain ⟨septets, hok, heq⟩ := h _ hsub
  have hcodes : gsm7Septets (js "@") = .ok [0] := by
    have hg : IsGsm (js "@") := (encoding_eq_gsm_iff _).mp (by decide +kernel)
    rw [gsm7Septets_eq hg]
    decide +kernel
  rw [hcodes] at hok
  obtain rfl := Except.ok.inj hok
  exact absurd heq (by decide)

end SmsGateway.Serial.TextMode
