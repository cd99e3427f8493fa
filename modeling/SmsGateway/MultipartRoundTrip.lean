import SmsGateway.SubmitDecoder

/-!
# Multipart messages survive the trip through PDUs

Each part becomes a list of octets; the builder writes exactly their hex text,
and the reference decoder reads the recipient, the service centre, the
concatenation element and the part back out of them.
-/

namespace SmsGateway.MultipartRoundTrip

open SmsGateway SmsEncoding Pdu SubmitDecoder
open Lib Digits

/-! ## Numbers -/

/-- A phone number taken apart as `encodeAddress` does. -/
structure DialNumber (number : JsString) (international : Bool) (raw : JsString) : Prop where
  text : number = (if international then js "+" else []) ++ raw
  digits : ∀ c ∈ raw, isDigit c = true
  length_ge : 7 ≤ raw.length
  length_le : raw.length ≤ 15
  encode : encodeAddress number =
    ⟨if international then 0x91 else 0x81, swapDigits raw, raw.length⟩

theorem dialNumber_of_phoneRe {number : JsString} (h : phoneRe number = true) :
    ∃ international raw, DialNumber number international raw := by
  simp only [phoneRe, Bool.and_eq_true, decide_eq_true_eq, List.all_eq_true] at h
  obtain ⟨⟨hge, hle⟩, hdig⟩ := h
  refine ⟨startsWith number (js "+"), _, ?_, hdig, hge, hle, rfl⟩
  cases hs : startsWith number (js "+") with
  | false => simp
  | true =>
      rw [startsWith, List.isPrefixOf_iff_prefix] at hs
      obtain ⟨rest, rfl⟩ := hs
      rfl

def toaOf (international : Bool) : Nat := if international then 0x91 else 0x81

theorem decodeNumber_dial {number raw : JsString} {international : Bool}
    (h : DialNumber number international raw) :
    decodeNumber (toaOf international) (raw.map digitValue) = some number := by
  rw [decodeNumber, if_pos (all_digitValue_lt h.digits), map_digitUnit_digitValue h.digits, h.text]
  cases international <;> rfl

theorem toaOf_lt (international : Bool) : toaOf international < 256 := by
  cases international <;> decide

/-! ## The SMSC field -/

def smscOctets (smsc : Option (Bool × JsString)) : List Nat :=
  match smsc with
  | none => [0]
  | some (international, raw) =>
      (1 + (semiOctets raw).length) :: toaOf international :: semiOctets raw

/-- The configured service centre, taken apart. -/
def IsSmsc (smsc : Option JsString) (parts : Option (Bool × JsString)) : Prop :=
  match smsc, parts with
  | none, none => True
  | some s, some (international, raw) => DialNumber s international raw
  | _, _ => False

theorem isSmsc_of_phoneRe {smsc : Option JsString} (h : ∀ s ∈ smsc, phoneRe s = true) :
    ∃ parts, IsSmsc smsc parts := by
  cases smsc with
  | none => exact ⟨none, trivial⟩
  | some s =>
      obtain ⟨international, raw, hd⟩ := dialNumber_of_phoneRe (h s rfl)
      exact ⟨some (international, raw), hd⟩

theorem smscOctets_lt {smsc : Option JsString} {parts : Option (Bool × JsString)}
    (h : IsSmsc smsc parts) : ∀ o ∈ smscOctets parts, o < 256 := by
  cases parts with
  | none => simp [smscOctets]
  | some p =>
      obtain ⟨international, raw⟩ := p
      cases smsc with
      | none => exact h.elim
      | some s =>
          have hd : DialNumber s international raw := h
          have hle := hd.length_le
          intro o ho
          simp only [smscOctets, List.mem_cons, semiOctets_length] at ho
          rcases ho with rfl | rfl | ho
          · omega
          · exact toaOf_lt international
          · exact semiOctets_lt hd.digits o ho

theorem smscHex_eq {smsc : Option JsString} {parts : Option (Bool × JsString)}
    (h : IsSmsc smsc parts) : smscHex smsc = (smscOctets parts).flatMap hexOctet := by
  cases smsc with
  | none =>
      cases parts with
      | none => rfl
      | some p => exact h.elim
  | some s =>
      cases parts with
      | none => exact h.elim
      | some p =>
          obtain ⟨international, raw⟩ := p
          have hd : DialNumber s international raw := h
          have hle := hd.length_le
          have hlen : (swapDigits raw).length / 2 = (semiOctets raw).length := by
            rw [swapDigits_eq hd.digits, length_flatMap_hexOctet]
            omega
          have hs : s ≠ [] := by
            intro he
            have hraw : raw = [] := by
              have ht := hd.text
              rw [he] at ht
              exact (List.append_eq_nil_iff.mp ht.symm).2
            have hge := hd.length_ge
            rw [hraw] at hge
            exact absurd hge (by decide)
          have hn : 1 + (semiOctets raw).length < 256 := by
            rw [semiOctets_length]
            omega
          simp only [smscHex, if_neg hs, hd.encode, hlen]
          rw [hex_eq_hexOctet hn, ← toaOf, hex_eq_hexOctet (toaOf_lt international),
            swapDigits_eq hd.digits]
          simp only [smscOctets, List.flatMap_cons, List.append_assoc]

theorem decodeSmsc_smscOctets {smsc : Option JsString} {parts : Option (Bool × JsString)}
    (h : IsSmsc smsc parts) (rest : List Nat) :
    decodeSmsc (smscOctets parts ++ rest) = some (smsc, rest) := by
  cases smsc with
  | none =>
      cases parts with
      | none => rfl
      | some p => exact h.elim
  | some s =>
      cases parts with
      | none => exact h.elim
      | some p =>
          obtain ⟨international, raw⟩ := p
          have hd : DialNumber s international raw := h
          have htake := takeOctets_append (toaOf international :: semiOctets raw) rest
          rw [List.length_cons, Nat.add_comm] at htake
          have hnum := decodeNumber_dial hd
          rw [smscOctets, List.cons_append, decodeSmsc, if_neg (by omega), htake]
          simp only [Option.bind_eq_bind, Option.bind_some]
          rw [dropFiller_nibbles hd.digits, hnum]
          rfl

/-! ## User data -/

/-- What the builder puts behind the concatenation element of a part. -/
structure PartOctets (encoding : Encoding) (text : JsString) (udl : Nat) (os : List Nat) : Prop where
  build : userData encoding text = .ok (udl, os.flatMap hexOctet)
  udl_lt : udl < 256
  lt : ∀ o ∈ os, o < 256
  length : os.length + 6 = userDataOctets (if encoding = .GSM then 0x00 else 0x08) udl
  length_le : os.length + 6 ≤ 140
  decode : decodeText (if encoding = .GSM then 0x00 else 0x08) udl os = some text

theorem partOctets_gsm {text : JsString} (hgsm : IsGsm text)
    (hcost : Cut.total septetCost (forOf text) ≤ gsm7PerSegment) :
    ∃ udl os, PartOctets .GSM text udl os := by
  obtain ⟨septets, hok, hlen, hlt, hdec⟩ := septetsOf_spec hgsm
  have hreg : IsRegroup 7 8 1 septets (packSeptets septets 1) :=
    packSeptets_isRegroup (by decide) hlt
  have hfields := fields_of_isRegroup hlt hreg
  have hn : septets.length ≤ gsm7PerSegment := hlen ▸ hcost
  have hcap : gsm7PerSegment = 153 := rfl
  have hosl := hreg.length
  refine ⟨7 + septets.length, packSeptets septets 1, ?_, by omega, hreg.out_lt, ?_, ?_, ?_⟩
  · rw [userData, gsm7Septets, hok]
    simp only [Except.map]
    rw [flatMap_hex hreg.out_lt]
  · rw [userDataOctets, if_pos (by rfl), hosl]
    omega
  · rw [hosl]
    omega
  · rw [decodeText, if_pos (by rfl), show 7 + septets.length - 7 = septets.length by omega,
      hfields, hdec, forOf_flatten]

theorem partOctets_ucs2 {text : JsString} (hlen : text.length ≤ ucs2PerSegment) :
    ∃ udl os, PartOctets .UCS2 text udl os := by
  have hos := utf16beOctets_length text
  have hcap : ucs2PerSegment = 67 := rfl
  refine ⟨6 + (utf16beOctets text).length, utf16beOctets text, rfl, by omega,
    utf16beOctets_lt text, ?_, by omega, ?_⟩
  · rw [userDataOctets, if_neg (by decide)]
    omega
  · rw [decodeText, if_neg (by decide), if_pos (by decide), decodeUtf16be_utf16beOctets]

/-! ## One part -/

def dcsOf (encoding : Encoding) : Nat := if encoding = .GSM then 0x00 else 0x08

/-- The octets of the PDU behind the SMSC field. -/
def tpduOctets (international : Bool) (raw : JsString) (encoding : Encoding)
    (udl ref total part : Nat) (os : List Nat) : List Nat :=
  [0x51, 0x00, raw.length, toaOf international] ++ semiOctets raw ++
    [0x00, dcsOf encoding, 0xa7, udl] ++ [0x05, 0x00, 0x03, ref, total, part] ++ os

/-- What the decoder gets out of the PDU of one part. -/
structure Recovered (recipient : JsString) (smsc : Option JsString) (ref total part : Nat)
    (text : JsString) (p : BuiltPdu) (s : Submit) : Prop where
  decode : decodeSubmit p.pdu = some s
  recipient : s.recipient = recipient
  smsc : s.smsc = smsc
  ref : s.ref = ref
  total : s.total = total
  part : s.part = part
  body : s.body = text
  userData_le : s.userData.length ≤ 140
  userData_udl : s.userData.length = userDataOctets s.dcs s.udl
  octets_lt : ∀ o ∈ s.octets, o < 256
  hex : p.pdu = s.octets.flatMap hexOctet
  length : p.length = s.octets.length - smscFieldLength s.octets

theorem buildSubmitPdu_eq {r : SubmitRequest} {international : Bool} {raw : JsString}
    {parts : Option (Bool × JsString)} {udl : Nat} {os : List Nat}
    (hto : DialNumber r.recipient international raw) (hsmsc : IsSmsc r.smsc parts)
    (hos : PartOctets r.encoding r.text udl os) (href : r.ref < 256) (htotal : r.total < 256)
    (hpart : r.part < 256) :
    let tpdu := tpduOctets international raw r.encoding udl r.ref r.total r.part os
    buildSubmitPdu r =
      .ok { pdu := (smscOctets parts ++ tpdu).flatMap hexOctet, length := tpdu.length } := by
  have hraw := hto.length_le
  have hand : r.ref &&& 0xff = r.ref := by
    rw [show (0xff : Nat) = 2 ^ 8 - 1 by rfl, Nat.and_two_pow_sub_one_eq_mod]
    exact Nat.mod_eq_of_lt href
  have hdcs : (if r.encoding = .GSM then js "00" else js "08") = hexOctet (dcsOf r.encoding) := by
    cases r.encoding <;> rfl
  have htpdu : js "51" ++ js "00" ++ Pdu.hex raw.length ++ Pdu.hex (toaOf international) ++
      swapDigits raw ++ js "00" ++ (if r.encoding = .GSM then js "00" else js "08") ++ js "A7" ++
      Pdu.hex udl ++ udhHex r.ref r.total r.part ++ os.flatMap hexOctet =
      (tpduOctets international raw r.encoding udl r.ref r.total r.part os).flatMap hexOctet := by
    rw [hex_eq_hexOctet (by omega : raw.length < 256), hex_eq_hexOctet (toaOf_lt international),
      hex_eq_hexOctet hos.udl_lt, swapDigits_eq hto.digits, hdcs, udhHex, hand,
      hex_eq_hexOctet href, hex_eq_hexOctet htotal, hex_eq_hexOctet hpart,
      show js "51" = hexOctet 0x51 by rfl, show js "00" = hexOctet 0x00 by rfl,
      show js "A7" = hexOctet 0xa7 by rfl, show js "05" = hexOctet 0x05 by rfl,
      show js "03" = hexOctet 0x03 by rfl]
    simp only [tpduOctets, List.flatMap_append, List.flatMap_cons, List.flatMap_nil,
      List.append_nil, List.append_assoc]
  simp only [buildSubmitPdu, hos.build, Except.map, hto.encode]
  rw [← toaOf, htpdu, smscHex_eq hsmsc, List.flatMap_append, length_flatMap_hexOctet]
  rw [show 2 * (tpduOctets international raw r.encoding udl r.ref r.total r.part os).length / 2 =
    (tpduOctets international raw r.encoding udl r.ref r.total r.part os).length by omega]

theorem tpduOctets_lt {recipient text : JsString} {international : Bool} {raw : JsString}
    {encoding : Encoding} {udl ref total part : Nat} {os : List Nat}
    (hto : DialNumber recipient international raw) (hos : PartOctets encoding text udl os)
    (href : ref < 256) (htotal : total < 256) (hpart : part < 256) :
    ∀ o ∈ tpduOctets international raw encoding udl ref total part os, o < 256 := by
  have hraw := hto.length_le
  have htoa := toaOf_lt international
  have hdcs : dcsOf encoding < 256 := by cases encoding <;> decide
  have hudl := hos.udl_lt
  intro o ho
  simp only [tpduOctets, List.mem_append, List.mem_cons, List.not_mem_nil, or_false] at ho
  rcases ho with (((ho | ho) | ho) | ho) | ho
  · omega
  · exact semiOctets_lt hto.digits o ho
  · omega
  · omega
  · exact hos.lt o ho

theorem decodeTpdu_tpduOctets {recipient text : JsString} {smsc : Option JsString}
    {international : Bool} {raw : JsString} {encoding : Encoding} {udl ref total part : Nat}
    {octets os : List Nat} (hto : DialNumber recipient international raw)
    (hos : PartOctets encoding text udl os) :
    decodeTpdu octets smsc (tpduOctets international raw encoding udl ref total part os) =
      some { octets, smsc, recipient, dcs := dcsOf encoding, udl
             userData := [0x05, 0x00, 0x03, ref, total, part] ++ os, ref, total, part
             body := text } := by
  have htake := takeOctets_append (semiOctets raw)
    ([0x00, dcsOf encoding, 0xa7, udl] ++ [0x05, 0x00, 0x03, ref, total, part] ++ os)
  rw [semiOctets_length] at htake
  have hnum := decodeNumber_dial hto
  have hlen := hos.length
  have hdec := hos.decode
  rw [← dcsOf] at hlen hdec
  simp only [tpduOctets, List.append_assoc, List.cons_append, List.nil_append] at htake ⊢
  rw [decodeTpdu, if_pos (by decide), htake]
  simp only [Option.bind_eq_bind, Option.bind_some, take_nibbles hto.digits, hnum]
  rw [decodeUserData, if_pos (by simp only [List.length_cons]; omega)]
  simp only [hdec, Option.bind_eq_bind, Option.bind_some]

/-- The PDU of one part is built and decodes to what went in. -/
theorem part_recovered {r : SubmitRequest} {udl : Nat} {os : List Nat}
    (hto : phoneRe r.recipient = true) (hsmsc : ∀ s ∈ r.smsc, phoneRe s = true)
    (hos : PartOctets r.encoding r.text udl os) (href : r.ref < 256) (htotal : r.total < 256)
    (hpart : r.part < 256) :
    ∃ p s, buildSubmitPdu r = .ok p ∧
      Recovered r.recipient r.smsc r.ref r.total r.part r.text p s := by
  obtain ⟨international, raw, hdial⟩ := dialNumber_of_phoneRe hto
  obtain ⟨parts, hparts⟩ := isSmsc_of_phoneRe hsmsc
  have hbuild := buildSubmitPdu_eq hdial hparts hos href htotal hpart
  have htpdu := tpduOctets_lt hdial hos href htotal hpart
  have hlt : ∀ o ∈ smscOctets parts ++ tpduOctets international raw r.encoding udl r.ref r.total
      r.part os, o < 256 := by
    intro o ho
    rcases List.mem_append.mp ho with ho | ho
    · exact smscOctets_lt hparts o ho
    · exact htpdu o ho
  let s : Submit :=
    { octets := smscOctets parts ++
        tpduOctets international raw r.encoding udl r.ref r.total r.part os
      smsc := r.smsc, recipient := r.recipient, dcs := dcsOf r.encoding, udl
      userData := [0x05, 0x00, 0x03, r.ref, r.total, r.part] ++ os
      ref := r.ref, total := r.total, part := r.part, body := r.text }
  refine ⟨_, s, hbuild, ?_, rfl, rfl, rfl, rfl, rfl, rfl, ?_, ?_, hlt, rfl, ?_⟩
  · rw [decodeSubmit, parseOctets_hexOctet hlt]
    simp only [Option.bind_eq_bind, Option.bind_some]
    rw [decodeSmsc_smscOctets hparts]
    simp only [Option.bind_some]
    exact decodeTpdu_tpduOctets hdial hos
  · have hle := hos.length_le
    simp only [s, List.length_append, List.length_cons, List.length_nil]
    omega
  · have hlen := hos.length
    rw [← dcsOf] at hlen
    simp only [s, List.length_append, List.length_cons, List.length_nil]
    omega
  · have hfield : smscFieldLength (smscOctets parts ++
        tpduOctets international raw r.encoding udl r.ref r.total r.part os) =
        (smscOctets parts).length := by
      cases parts with
      | none => rfl
      | some p =>
          simp only [smscFieldLength, smscOctets, List.cons_append, List.headD_cons,
            List.length_cons]
          omega
    simp only [s, hfield, List.length_append]
    omega

/-! ## The parts of a message -/

/-- A part that fits one PDU in the given encoding. -/
def Fits (encoding : Encoding) (text : JsString) : Prop :=
  match encoding with
  | .GSM => IsGsm text ∧ Cut.total septetCost (forOf text) ≤ gsm7PerSegment
  | .UCS2 => text.length ≤ ucs2PerSegment

theorem partOctets_of_fits {encoding : Encoding} {text : JsString} (h : Fits encoding text) :
    ∃ udl os, PartOctets encoding text udl os := by
  cases encoding with
  | GSM => exact partOctets_gsm h.1 h.2
  | UCS2 => exact partOctets_ucs2 h

theorem splitUcs2_flatten (rest : JsString) : (splitUcs2 rest).flatten = rest := by
  fun_induction splitUcs2 rest with
  | case1 => rfl
  | case2 rest h ih => rw [List.flatten_cons, ih, List.take_append_drop]

theorem splitUcs2_fits (rest : JsString) : ∀ text ∈ splitUcs2 rest, Fits .UCS2 text := by
  fun_induction splitUcs2 rest with
  | case1 => simp
  | case2 rest h ih =>
      intro text ht
      rcases List.mem_cons.mp ht with rfl | ht
      · have hle := (ucs2Take_le rest).1
        have htake := List.length_take_le (ucs2Take rest) rest
        exact htake.trans hle
      · exact ih text ht

theorem map_singleton_flatten {chs : List JsString} (h : ∀ ch ∈ chs, ∃ c, ch = [c]) :
    chs.flatten.map (fun c => [c]) = chs := by
  induction chs with
  | nil => rfl
  | cons ch chs ih =>
      obtain ⟨c, rfl⟩ := h ch (by simp)
      have hrest := ih fun x hx => h x (List.mem_cons_of_mem _ hx)
      rw [List.flatten_cons, List.map_append, hrest]
      rfl

theorem splitGsm7_flatten (message : JsString) : (splitGsm7 message).flatten = message := by
  have hcut : Cut.IsCut septetCost gsm7PerSegment (forOf message) _ :=
    Cut.greedy_isCut fun x _ => septetCost_le x
  rw [splitGsm7_eq_greedy, ← List.flatten_flatten, hcut.flatten, forOf_flatten]

/-- A piece of the cut is iterated as it was cut. -/
theorem splitGsm7_fits {message : JsString} (h : IsGsm message) :
    ∀ text ∈ splitGsm7 message, Fits .GSM text := by
  have hcut : Cut.IsCut septetCost gsm7PerSegment (forOf message) _ :=
    Cut.greedy_isCut fun x _ => septetCost_le x
  rw [splitGsm7_eq_greedy]
  intro text ht
  obtain ⟨piece, hp, rfl⟩ := List.mem_map.mp ht
  have hsub : ∀ ch ∈ piece, ∃ c ∈ message, ch = [c] := by
    intro ch hch
    have hmem : ch ∈ forOf message := by
      rw [← hcut.flatten]
      exact List.mem_flatten.mpr ⟨piece, hp, hch⟩
    rw [forOf_of_isGsm h] at hmem
    obtain ⟨c, hc, rfl⟩ := List.mem_map.mp hmem
    exact ⟨c, hc, rfl⟩
  have hcost := cost_of_isGsm h
  have hgsm : IsGsm piece.flatten := by
    apply isGsm_of_forall
    intro c hc
    obtain ⟨ch, hch, hcc⟩ := List.mem_flatten.mp hc
    obtain ⟨d, hd, rfl⟩ := hsub ch hch
    rw [List.mem_singleton.mp hcc]
    exact hcost d hd
  have hiter : forOf piece.flatten = piece := by
    rw [forOf_of_isGsm hgsm]
    exact map_singleton_flatten fun ch hch =>
      (hsub ch hch).imp fun c hc => hc.2
  exact ⟨hgsm, hiter.symm ▸ hcut.fits piece hp⟩

theorem splitMessage_of_segments {message : JsString}
    (h : 2 ≤ (analyzeMessage message).segments) :
    (splitMessage message).length = (analyzeMessage message).segments ∧
      (splitMessage message).flatten = message ∧
      ∀ text ∈ splitMessage message, Fits (analyzeMessage message).encoding text := by
  have hne : (analyzeMessage message).segments ≠ 1 := by omega
  have hiff := encoding_eq_gsm_iff message
  rw [splitMessage, if_neg hne]
  cases hcount : countSeptets (forOf message) 0 with
  | some septets =>
      have henc : (analyzeMessage message).encoding = .GSM := by simp [analyzeMessage, hcount]
      simp only [henc, if_true]
      refine ⟨?_, splitGsm7_flatten message, splitGsm7_fits (hiff.mp henc)⟩
      simp only [analyzeMessage, hcount] at hne ⊢
      split at hne
      · exact absurd rfl hne
      · rename_i hlong
        rw [if_neg hlong]
  | none =>
      have henc : (analyzeMessage message).encoding = .UCS2 := by simp [analyzeMessage, hcount]
      simp only [henc, reduceCtorEq, if_false]
      refine ⟨?_, splitUcs2_flatten message, splitUcs2_fits message⟩
      simp only [analyzeMessage, hcount] at hne ⊢
      split at hne
      · exact absurd rfl hne
      · rename_i hlong
        rw [if_neg hlong]

theorem ok_segments_le {message : JsString} (h : (analyzeMessage message).ok = true) :
    (analyzeMessage message).segments ≤ maxSegments := by
  rw [analyzeMessage_ok] at h
  exact of_decide_eq_true h

/-! ## The whole message -/

/-- The PDUs of a message and what the decoder makes of them, part by part. -/
structure RoundTrip (message recipient : JsString) (smsc : Option JsString) (ref : Nat)
    (pdus : List BuiltPdu) (subs : List Submit) : Prop where
  pdus_length : pdus.length = (splitMessage message).length
  subs_length : subs.length = (splitMessage message).length
  part : ∀ (i : Nat) (text : JsString) (p : BuiltPdu) (s : Submit),
    (splitMessage message)[i]? = some text → pdus[i]? = some p → subs[i]? = some s →
    Recovered recipient smsc ref pdus.length (i + 1) text p s
  body : (subs.map Submit.body).flatten = message

theorem mapM_zipIdx_ok {α β γ : Type} {f : α × Nat → Except JsError β}
    {R : Nat → α → β → γ → Prop} {l : List α} {k : Nat}
    (h : ∀ i x, l[i]? = some x → ∃ y z, f (x, k + i) = .ok y ∧ R (k + i) x y z) :
    ∃ (ys : List β) (zs : List γ), (l.zipIdx k).mapM f = .ok ys ∧
      ys.length = l.length ∧ zs.length = l.length ∧
      ∀ i x y z, l[i]? = some x → ys[i]? = some y → zs[i]? = some z → R (k + i) x y z := by
  induction l generalizing k with
  | nil => exact ⟨[], [], rfl, rfl, rfl, by simp⟩
  | cons a l ih =>
      obtain ⟨b, c, hb, hr⟩ := h 0 a rfl
      have htail : ∀ i x, l[i]? = some x →
          ∃ y z, f (x, k + 1 + i) = .ok y ∧ R (k + 1 + i) x y z := by
        intro i x hx
        have hi := h (i + 1) x hx
        rwa [show k + (i + 1) = k + 1 + i by omega] at hi
      obtain ⟨ys, zs, hys, hly, hlz, hall⟩ := ih htail
      refine ⟨b :: ys, c :: zs, ?_, by simp [hly], by simp [hlz], ?_⟩
      · rw [Nat.add_zero] at hb
        rw [List.zipIdx_cons, List.mapM_cons, hb, hys]
        rfl
      · intro i x y z hx hy hz
        cases i with
        | zero =>
            obtain rfl := Option.some.inj hx
            obtain rfl := Option.some.inj hy
            obtain rfl := Option.some.inj hz
            exact hr
        | succ i =>
            have hi := hall i x y z hx hy hz
            rwa [show k + 1 + i = k + (i + 1) by omega] at hi

/-- A multipart message is encoded without an error, and the reference decoder
recovers the recipient, the service centre, one reference, the part numbers in
order and the message. -/
theorem multipart_roundTrip {message recipient : JsString} {smsc : Option JsString} {ref : Nat}
    (hok : (analyzeMessage message).ok = true) (hseg : 2 ≤ (analyzeMessage message).segments)
    (hto : phoneRe recipient = true) (hsmsc : ∀ s ∈ smsc, phoneRe s = true) (href : ref < 256) :
    ∃ pdus subs,
      buildConcatPdus recipient (splitMessage message) (analyzeMessage message).encoding ref smsc =
        .ok pdus ∧
      RoundTrip message recipient smsc ref pdus subs := by
  obtain ⟨hlen, hflat, hfits⟩ := splitMessage_of_segments hseg
  have hmax := ok_segments_le hok
  have hcap : maxSegments = 3 := rfl
  have hparts : ∀ i text, (splitMessage message)[i]? = some text →
      ∃ p s, buildSubmitPdu
          { recipient, text, encoding := (analyzeMessage message).encoding, ref
            part := 0 + i + 1, total := (splitMessage message).length, smsc } = .ok p ∧
        Recovered recipient smsc ref (splitMessage message).length (0 + i + 1) text p s := by
    intro i text hi
    obtain ⟨hlt, -⟩ := List.getElem?_eq_some_iff.mp hi
    obtain ⟨udl, os, hos⟩ := partOctets_of_fits (hfits text (List.mem_of_getElem? hi))
    exact part_recovered
      (r := { recipient, text, encoding := (analyzeMessage message).encoding, ref
              part := 0 + i + 1, total := (splitMessage message).length, smsc })
      hto hsmsc hos href (by dsimp only; omega) (by dsimp only; omega)
  obtain ⟨pdus, subs, hbuild, hpdus, hsubs, hall⟩ := mapM_zipIdx_ok
    (f := fun x => buildSubmitPdu
      { recipient, text := x.1, encoding := (analyzeMessage message).encoding, ref, part := x.2 + 1
        total := (splitMessage message).length, smsc })
    (R := fun i text p s =>
      Recovered recipient smsc ref (splitMessage message).length (i + 1) text p s) hparts
  have hpart : ∀ i text p s, (splitMessage message)[i]? = some text → pdus[i]? = some p →
      subs[i]? = some s →
      Recovered recipient smsc ref (splitMessage message).length (i + 1) text p s := by
    intro i text p s ht hp hs
    have h := hall i text p s ht hp hs
    rwa [Nat.zero_add] at h
  refine ⟨pdus, subs, hbuild, hpdus, hsubs, hpdus ▸ hpart, ?_⟩
  have hbodies : subs.map Submit.body = splitMessage message := by
    apply List.ext_getElem
    · simpa using hsubs
    · intro i h₁ h₂
      have hi : i < subs.length := by simpa using h₁
      rw [List.getElem_map]
      exact (hpart i _ _ _ (List.getElem?_eq_getElem h₂)
        (List.getElem?_eq_getElem (hpdus.symm ▸ h₂)) (List.getElem?_eq_getElem hi)).body
  rw [hbodies, hflat]

/-- 161 letters go out as two PDUs with reference 255. -/
theorem multipart_roundTrip_two_parts :
    ∃ pdus subs,
      buildConcatPdus (js "+4915112345678") (splitMessage (List.replicate 161 97))
        (analyzeMessage (List.replicate 161 97)).encoding 255 (some (js "+4917221110001")) =
        .ok pdus ∧
      RoundTrip (List.replicate 161 97) (js "+4915112345678") (some (js "+4917221110001")) 255
        pdus subs :=
  multipart_roundTrip (by decide +kernel) (by decide +kernel) (by decide +kernel)
    (by intro s hs; obtain rfl := Option.some.inj hs; decide +kernel) (by decide)

end SmsGateway.MultipartRoundTrip
