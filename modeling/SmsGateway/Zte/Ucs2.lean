import SmsGateway.Zte.Inbox

/-!
# UCS2 hex

`ucs2Hex` and `ucs2Decode` against each other, what the decoder turns away, and why an SMS with
a content is never stored without a text.
-/

namespace SmsGateway.Zte

open SmsGateway SmsEncoding Json

/-- `[0-9a-fA-F]`. -/
def isHex (c : CodeUnit) : Bool :=
  (0x30 ≤ c && c ≤ 0x39) || (0x41 ≤ c && c ≤ 0x46) || (0x61 ≤ c && c ≤ 0x66)

/-- `toUpperCase` of an ASCII character. -/
def upperUnit (c : CodeUnit) : CodeUnit := if 0x61 ≤ c && c ≤ 0x7a then c - 0x20 else c

/-! ## One digit -/

theorem isHex_iff (c : CodeUnit) : isHex c = true ↔
    (0x30 ≤ c.toNat ∧ c.toNat ≤ 0x39) ∨ (0x41 ≤ c.toNat ∧ c.toNat ≤ 0x46) ∨
      (0x61 ≤ c.toNat ∧ c.toNat ≤ 0x66) := by
  simp only [isHex, Bool.or_eq_true, Bool.and_eq_true, decide_eq_true_eq, UInt16.le_iff_toNat_le,
    or_assoc]
  rfl

theorem hexDigit_isSome (c : CodeUnit) : (hexDigit c).isSome = isHex c := by
  rw [Bool.eq_iff_iff, isHex_iff]
  unfold hexDigit
  dsimp only
  split_ifs <;> simp <;> omega

theorem digitUnit_toNat_hex {d : Nat} (h : d < 16) :
    (digitUnit d).toNat = if d < 10 then 0x30 + d else 0x37 + d := by
  rw [digitUnit, UInt16.toNat_ofNat', Nat.mod_eq_of_lt]
  split <;> omega

theorem hexDigit_digitUnit {d : Nat} (h : d < 16) : hexDigit (digitUnit d) = some d := by
  have hto := digitUnit_toNat_hex h
  unfold hexDigit
  dsimp only
  split at hto
  · rw [if_pos (by omega), hto]
    exact congrArg some (by omega)
  · rw [if_neg (by omega), if_pos (by omega), hto]
    exact congrArg some (by omega)

theorem upperUnit_toNat (c : CodeUnit) : (upperUnit c).toNat =
    if 0x61 ≤ c.toNat ∧ c.toNat ≤ 0x7a then c.toNat - 0x20 else c.toNat := by
  unfold upperUnit
  simp only [Bool.and_eq_true, decide_eq_true_eq, UInt16.le_iff_toNat_le]
  split
  case isTrue h =>
    have hle : (0x20 : UInt16) ≤ c := by
      have hlow : 0x61 ≤ c.toNat := h.1
      rw [UInt16.le_iff_toNat_le]
      show 0x20 ≤ c.toNat
      omega
    rw [UInt16.toNat_sub_of_le _ _ hle]
    exact (if_pos h).symm
  case isFalse h => exact (if_neg h).symm

/-- A digit is written back in upper case. -/
theorem digitUnit_hexDigit {c : CodeUnit} {d : Nat} (h : hexDigit c = some d) :
    d < 16 ∧ digitUnit d = upperUnit c := by
  have hd : d < 16 := by
    unfold hexDigit at h
    dsimp only at h
    split_ifs at h <;> (obtain rfl := Option.some.inj h; omega)
  refine ⟨hd, ?_⟩
  apply UInt16.toNat_inj.mp
  rw [digitUnit_toNat_hex hd, upperUnit_toNat]
  unfold hexDigit at h
  dsimp only at h
  split_ifs at h <;> (obtain rfl := Option.some.inj h; split_ifs <;> omega)

/-! ## One code unit -/

theorem ucs2Hex_cons (c : CodeUnit) (s : JsString) :
    ucs2Hex (c :: s) = digitUnit (c.toNat / 256 / 16) :: digitUnit (c.toNat / 256 % 16) ::
      digitUnit (c.toNat % 256 / 16) :: digitUnit (c.toNat % 256 % 16) :: ucs2Hex s := rfl

theorem hexUnit_digits (c : CodeUnit) :
    hexUnit (digitUnit (c.toNat / 256 / 16)) (digitUnit (c.toNat / 256 % 16))
      (digitUnit (c.toNat % 256 / 16)) (digitUnit (c.toNat % 256 % 16)) = some c := by
  have hlt : c.toNat < 0x10000 := c.toNat_lt
  have hvalue : 0x1000 * (c.toNat / 256 / 16) + 0x100 * (c.toNat / 256 % 16) +
      0x10 * (c.toNat % 256 / 16) + c.toNat % 256 % 16 = c.toNat := by omega
  rw [hexUnit, hexDigit_digitUnit (by omega), hexDigit_digitUnit (by omega),
    hexDigit_digitUnit (by omega), hexDigit_digitUnit (by omega)]
  simp only [Option.bind_eq_bind, Option.bind_some, hvalue, UInt16.ofNat_toNat]

theorem ucs2Hex_of_hexUnit {a b c d u : CodeUnit} (h : hexUnit a b c d = some u) (s : JsString) :
    ucs2Hex (u :: s) = upperUnit a :: upperUnit b :: upperUnit c :: upperUnit d :: ucs2Hex s := by
  simp only [hexUnit, Option.bind_eq_bind, Option.bind_eq_some_iff, Option.some.injEq] at h
  obtain ⟨na, ha, nb, hb, nc, hc, nd, hd, rfl⟩ := h
  obtain ⟨hna, ha⟩ := digitUnit_hexDigit ha
  obtain ⟨hnb, hb⟩ := digitUnit_hexDigit hb
  obtain ⟨hnc, hc⟩ := digitUnit_hexDigit hc
  obtain ⟨hnd, hd⟩ := digitUnit_hexDigit hd
  have hto : (UInt16.ofNat (0x1000 * na + 0x100 * nb + 0x10 * nc + nd)).toNat =
      0x1000 * na + 0x100 * nb + 0x10 * nc + nd := by
    rw [UInt16.toNat_ofNat', Nat.mod_eq_of_lt (by omega)]
  have h₁ : (0x1000 * na + 0x100 * nb + 0x10 * nc + nd) / 256 / 16 = na := by omega
  have h₂ : (0x1000 * na + 0x100 * nb + 0x10 * nc + nd) / 256 % 16 = nb := by omega
  have h₃ : (0x1000 * na + 0x100 * nb + 0x10 * nc + nd) % 256 / 16 = nc := by omega
  have h₄ : (0x1000 * na + 0x100 * nb + 0x10 * nc + nd) % 256 % 16 = nd := by omega
  rw [ucs2Hex_cons, hto, h₁, h₂, h₃, h₄, ha, hb, hc, hd]

theorem hexUnit_isSome (a b c d : CodeUnit) :
    (hexUnit a b c d).isSome = (isHex a && isHex b && isHex c && isHex d) := by
  rw [← hexDigit_isSome, ← hexDigit_isSome, ← hexDigit_isSome, ← hexDigit_isSome]
  unfold hexUnit
  cases hexDigit a with
  | none => rfl
  | some na =>
      cases hexDigit b with
      | none => rfl
      | some nb =>
          cases hexDigit c with
          | none => rfl
          | some nc => cases hexDigit d <;> rfl

/-! ## Whole strings -/

theorem hexUnits_ucs2Hex (s : JsString) : hexUnits (ucs2Hex s) = some s := by
  induction s with
  | nil => rfl
  | cons c s ih =>
      rw [ucs2Hex_cons, hexUnits, hexUnit_digits, ih]
      rfl

/-- What is decoded is a string of whole units, all of them hex. -/
theorem hexUnits_isSome_iff (h : JsString) :
    (hexUnits h).isSome = true ↔ h.length % 4 = 0 ∧ ∀ c ∈ h, isHex c = true := by
  induction h using hexUnits.induct with
  | case1 => simp [hexUnits]
  | case2 a b c d rest ih =>
      have hunit := hexUnit_isSome a b c d
      have hlen : (a :: b :: c :: d :: rest).length % 4 = rest.length % 4 := by
        simp only [List.length_cons]
        omega
      rw [hexUnits, hlen]
      simp only [List.forall_mem_cons]
      cases hu : hexUnit a b c d with
      | none =>
          rw [hu] at hunit
          simp only [Option.isSome_none, Bool.false_eq, Bool.and_eq_false_iff] at hunit
          simp only [Option.bind_eq_bind, Option.bind_none, Option.isSome_none, Bool.false_eq_true,
            false_iff]
          rintro ⟨-, ha, hb, hc, hd, -⟩
          simp [ha, hb, hc, hd] at hunit
      | some u =>
          rw [hu] at hunit
          have hall : isHex a = true ∧ isHex b = true ∧ isHex c = true ∧ isHex d = true := by
            simpa [and_assoc] using hunit.symm
          simp only [Option.bind_eq_bind, Option.bind_some, Option.isSome_bind, hall, true_and]
          rw [← ih]
          cases hexUnits rest <;> rfl
  | case3 h hnil hshort =>
      rcases h with _ | ⟨a, _ | ⟨b, _ | ⟨c, _ | ⟨d, rest⟩⟩⟩⟩
      · exact absurd rfl hnil
      · simp [hexUnits]
      · simp [hexUnits]
      · simp [hexUnits]
      · exact absurd rfl (hshort a b c d rest)

theorem ucs2Hex_hexUnits {h s : JsString} (hs : hexUnits h = some s) : ucs2Hex s = h.map upperUnit := by
  induction h using hexUnits.induct generalizing s with
  | case1 =>
      obtain rfl := Option.some.inj hs
      rfl
  | case2 a b c d rest ih =>
      simp only [hexUnits, Option.bind_eq_bind, Option.bind_eq_some_iff, Option.some.injEq] at hs
      obtain ⟨u, hu, us, hus, rfl⟩ := hs
      rw [ucs2Hex_of_hexUnit hu, ih hus]
      rfl
  | case3 h hnil hshort => simp [hexUnits] at hs

theorem hexUnits_nil_iff {h : JsString} (hs : hexUnits h = some []) : h = [] := by
  have hhex := ucs2Hex_hexUnits hs
  exact List.map_eq_nil_iff.mp hhex.symm

/-! ## The decoder -/

/-- Hex digits of either case, four for each unit. -/
def IsUcs2Hex (h : JsString) : Prop := h.length % 4 = 0 ∧ ∀ c ∈ h, isHex c = true

/-- Empty, no string, of the wrong length or not all hex. -/
def Undecodable (v : JsValue) : Prop :=
  ∀ h, v = .str h → h = [] ∨ h.length % 4 ≠ 0 ∨ ∃ c ∈ h, isHex c = false

theorem ucs2Decode_eq_nil_iff (v : JsValue) : ucs2Decode v = [] ↔ Undecodable v := by
  cases v with
  | str h =>
      have hiff := hexUnits_isSome_iff h
      constructor
      · intro hnil h' heq
        obtain rfl := JsValue.str.inj heq
        cases hs : hexUnits h with
        | none =>
            rw [hs] at hiff
            by_contra hgood
            simp only [not_or, not_not, not_exists, not_and, Bool.not_eq_false] at hgood
            exact absurd (hiff.mpr hgood.2) (by simp)
        | some s =>
            have hnil' : s = [] := by
              rw [ucs2Decode, hs] at hnil
              exact hnil
            rw [hnil'] at hs
            exact Or.inl (hexUnits_nil_iff hs)
      · intro hbad
        rcases hbad h rfl with rfl | hlen | ⟨c, hc, hhex⟩
        · rfl
        · have hnone : hexUnits h = none := by
            rw [← Option.not_isSome_iff_eq_none, hiff]
            exact fun hgood => hlen hgood.1
          rw [ucs2Decode, hnone]
          rfl
        · have hnone : hexUnits h = none := by
            rw [← Option.not_isSome_iff_eq_none, hiff]
            intro hgood
            rw [hgood.2 c hc] at hhex
            cases hhex
          rw [ucs2Decode, hnone]
          rfl
  | undefined => exact iff_of_true rfl (by rintro h ⟨⟩)
  | null => exact iff_of_true rfl (by rintro h ⟨⟩)
  | bool b => exact iff_of_true rfl (by rintro h ⟨⟩)
  | num text => exact iff_of_true rfl (by rintro h ⟨⟩)
  | arr items => exact iff_of_true rfl (by rintro h ⟨⟩)
  | obj fields => exact iff_of_true rfl (by rintro h ⟨⟩)

/-! ## The text of a stored SMS -/

/-- A string, a number, null or nothing. -/
def isPlain : JsValue → Bool
  | .str _ => true
  | .num _ => true
  | .null => true
  | .undefined => true
  | _ => false

/-- There is no content. -/
def NoContent (content : JsValue) : Prop :=
  content = .str [] ∨ content = .null ∨ content = .undefined

theorem textOf_eq_nil {content : JsValue} (hspelled : Spelled content)
    (hplain : isPlain content = true) (h : Inbox.textOf content = []) : NoContent content := by
  unfold Inbox.textOf at h
  by_cases hnil : ucs2Decode content = []
  · rw [if_pos hnil] at h
    cases content with
    | str s =>
        have hs : s = [] := by simpa [orElse, toStr] using h
        exact Or.inl (congrArg JsValue.str hs)
    | num text =>
        have htext : text ≠ [] := hspelled
        exact absurd (by simpa [orElse, toStr] using h) htext
    | null => exact Or.inr (Or.inl rfl)
    | undefined => exact Or.inr (Or.inr rfl)
    | bool b => cases hplain
    | arr items => cases hplain
    | obj fields => cases hplain
  · rw [if_neg hnil] at h
    exact absurd h hnil

theorem bind_eq_ok {ε α β : Type} {x : Except ε α} {f : α → Except ε β} {b : β}
    (h : x >>= f = .ok b) : ∃ a, x = .ok a ∧ f a = .ok b := by
  cases x with
  | error e => cases h
  | ok a => exact ⟨a, rfl, h⟩

/-- An entry is reported with the text of its content. -/
theorem toMessage_text {m content : JsValue} {message : Message} (h : toMessage m = .ok message)
    (hcontent : prop m (js "content") = .ok content) : message.text = Inbox.textOf content := by
  obtain ⟨tag, -, h⟩ := bind_eq_ok h
  obtain ⟨number, -, h⟩ := bind_eq_ok h
  obtain ⟨date, -, h⟩ := bind_eq_ok h
  obtain ⟨text, -, h⟩ := bind_eq_ok h
  obtain ⟨content', hcontent', h⟩ := bind_eq_ok h
  obtain rfl := Except.ok.inj (hcontent.symm.trans hcontent')
  obtain rfl := Except.ok.inj h
  rfl

theorem forall₂_of_mapM {ε α β : Type} {f : α → Except ε β} {l : List α} {r : List β}
    (h : l.mapM f = .ok r) : List.Forall₂ (fun a b => f a = .ok b) l r := by
  induction l generalizing r with
  | nil =>
      obtain rfl := Except.ok.inj h
      exact .nil
  | cons a l ih =>
      rw [List.mapM_cons] at h
      obtain ⟨b, hb, h⟩ := bind_eq_ok h
      obtain ⟨bs, hbs, h⟩ := bind_eq_ok h
      obtain rfl := Except.ok.inj h
      exact .cons hb (ih hbs)

theorem mem_of_filterAuxM {ε α : Type} {f : α → Except ε Bool} {l acc r : List α}
    (h : l.filterAuxM f acc = .ok r) : ∀ a ∈ r, a ∈ l ∨ a ∈ acc := by
  induction l generalizing acc with
  | nil =>
      obtain rfl := Except.ok.inj h
      exact fun a ha => Or.inr ha
  | cons x l ih =>
      obtain ⟨b, -, h⟩ := bind_eq_ok h
      intro a ha
      rcases ih h a ha with hl | hacc
      · exact Or.inl (List.mem_cons_of_mem x hl)
      · cases b with
        | false => exact Or.inr hacc
        | true =>
            rcases List.mem_cons.mp hacc with rfl | hacc
            · exact Or.inl List.mem_cons_self
            · exact Or.inr hacc

theorem mem_of_filterM {ε α : Type} {f : α → Except ε Bool} {l r : List α}
    (h : l.filterM f = .ok r) : ∀ a ∈ r, a ∈ l := by
  obtain ⟨kept, hkept, h⟩ := bind_eq_ok h
  obtain rfl := Except.ok.inj h
  intro a ha
  rcases mem_of_filterAuxM hkept a (List.mem_reverse.mp ha) with hl | hnil
  · exact hl
  · exact absurd hnil List.not_mem_nil

/-- The numbers of a response have a text, and so those of the listed entries. -/
theorem spelled_response {a : Except NetError HttpResponse} {data : JsValue}
    (h : readResponse a = .ok data) : Spelled data := by
  cases a with
  | error e => cases h
  | ok res =>
      rw [readResponse] at h
      split at h
      · cases h
      · split at h
        case h_1 v hv =>
          obtain rfl := Except.ok.inj h
          exact spelled_parse hv
        case h_2 => cases h

theorem spelled_raw {data : JsValue} {raw : List JsValue} (hdata : Spelled data)
    (h : rawMessages data = .ok raw) : ∀ m ∈ raw, Spelled m := by
  obtain ⟨messages, hmessages, h⟩ := bind_eq_ok h
  have hspelled := spelled_prop hdata hmessages
  cases messages with
  | arr items =>
      obtain rfl := Except.ok.inj h
      exact spelled_of_mem hspelled
  | undefined | null | bool b | num text | str s | obj fields =>
      obtain rfl := Except.ok.inj h
      exact fun m hm => absurd hm List.not_mem_nil

/-- An SMS of a listing whose content is a string, a number, null or missing is reported, and
stored, without a text only when it has no content. -/
def KeepsContent (entry : JsValue) (message : Message) : Prop :=
  ∀ content, prop entry (js "content") = .ok content → isPlain content = true →
    message.text = [] → NoContent content

theorem keepsContent_of {entries : List JsValue} {messages : List Message}
    (hall : List.Forall₂ (fun m message => toMessage m = .ok message) entries messages)
    (hspelled : ∀ m ∈ entries, Spelled m) : List.Forall₂ KeepsContent entries messages := by
  induction hall with
  | nil => exact .nil
  | cons hmessage _ ih =>
      refine .cons ?_ (ih fun m hm => hspelled m (List.mem_cons_of_mem _ hm))
      intro content hcontent hplain htext
      rw [toMessage_text hmessage hcontent] at htext
      exact textOf_eq_nil (spelled_prop (hspelled _ List.mem_cons_self) hcontent) hplain htext

theorem readInbox_keeps {a : Except NetError HttpResponse} {data : JsValue} {inbox : List JsValue}
    {messages : List Message} (hdata : readResponse a = .ok data)
    (h : readInbox data = .ok (inbox, messages)) : List.Forall₂ KeepsContent inbox messages := by
  obtain ⟨raw, hraw, h⟩ := bind_eq_ok h
  obtain ⟨inbox', hinbox, h⟩ := bind_eq_ok h
  obtain ⟨messages', hmessages, h⟩ := bind_eq_ok h
  obtain ⟨rfl, rfl⟩ := Prod.mk.inj (Except.ok.inj h)
  have hspelled := spelled_raw (spelled_response hdata) hraw
  have hmem := mem_of_filterM hinbox
  exact keepsContent_of (forall₂_of_mapM hmessages) fun m hm => hspelled m (hmem m hm)

/-- The hex codec, and what the inbox makes of it. -/
structure Ucs2Codec : Prop where
  decode_encode : ∀ s, ucs2Decode (.str (ucs2Hex s)) = s
  encode_decode : ∀ h, IsUcs2Hex h → ucs2Hex (ucs2Decode (.str h)) = h.map upperUnit
  rejects : ∀ v, ucs2Decode v = [] ↔ Undecodable v
  keeps : ∀ a data inbox messages, readResponse a = .ok data →
    readInbox data = .ok (inbox, messages) → List.Forall₂ KeepsContent inbox messages

/-- Encoding and decoding are inverse to each other, the decoder turns away exactly what is no
UCS2 hex, and no SMS with a content is stored empty. -/
theorem ucs2_codec : Ucs2Codec := by
  constructor
  · intro s
    rw [ucs2Decode, hexUnits_ucs2Hex]
    rfl
  · intro h hhex
    obtain ⟨s, hs⟩ := Option.isSome_iff_exists.mp ((hexUnits_isSome_iff h).mpr hhex)
    rw [ucs2Decode, hs]
    exact ucs2Hex_hexUnits hs
  · exact ucs2Decode_eq_nil_iff
  · intro a data inbox messages hdata h
    exact readInbox_keeps hdata h

end SmsGateway.Zte
