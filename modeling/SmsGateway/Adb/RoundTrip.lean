import SmsGateway.Adb.Bridge
import SmsGateway.Unicode

/-!
# The bridge file, octet by octet

What `SmsReceiver.java` appends to the log in UTF-8, what the adb transport may make of its line
breaks, and what `getMessages` reads out of it.
-/

namespace SmsGateway.Adb

open SmsGateway Json
open Lib Lib.Async

def lfOctet : Nat := 0x0a
def crOctet : Nat := 0x0d

/-- The file after the app has appended a line for each SMS. -/
def fileOctets (sms : List Captured) : List Nat := sms.flatMap fun c => utf8Octets (line c ++ [LF])

/-- What arrives of a file: each line feed as it is or with a carriage return before it. -/
inductive Transported : List Nat → List Nat → Prop where
  | nil : Transported [] []
  | octet {b : Nat} (hb : b ≠ lfOctet) {file out : List Nat} (h : Transported file out) :
      Transported (b :: file) (b :: out)
  | lf {file out : List Nat} (h : Transported file out) :
      Transported (lfOctet :: file) (lfOctet :: out)
  | crlf {file out : List Nat} (h : Transported file out) :
      Transported (lfOctet :: file) (crOctet :: lfOctet :: out)

/-- Every line feed with a carriage return before it. -/
def crlfOctets (file : List Nat) : List Nat :=
  file.flatMap fun b => if b = lfOctet then [crOctet, lfOctet] else [b]

theorem transported_same (file : List Nat) : Transported file file := by
  induction file with
  | nil => exact .nil
  | cons b file ih =>
      by_cases hb : b = lfOctet
      · subst hb
        exact .lf ih
      · exact .octet hb ih

theorem transported_crlf (file : List Nat) : Transported file (crlfOctets file) := by
  induction file with
  | nil => exact .nil
  | cons b file ih =>
      rw [crlfOctets, List.flatMap_cons]
      by_cases hb : b = lfOctet
      · subst hb
        exact .crlf ih
      · rw [if_neg hb]
        exact .octet hb ih

/-- The SMS as it was captured: same sender, same text, the ISO form of its time. -/
structure SameSms (c : Captured) (m : Message) : Prop where
  sender : m.sender = .str c.sender
  text : m.text = .str c.text
  date : toISOString c.date = .ok m.date

/-! ## Well-formed lines -/

def ascii (s : JsString) : Bool := s.all fun c => c < 0x80

theorem lt_of_ascii {s : JsString} (h : ascii s = true) : ∀ c ∈ s, c.toNat < 0xd800 := by
  intro c hc
  have hlt : c.toNat < 0x80 :=
    UInt16.lt_iff_toNat_lt.mp (of_decide_eq_true (List.all_eq_true.mp h c hc))
  omega

/-- What is escaped becomes ASCII. -/
theorem escUnit_cases (c : CodeUnit) :
    (c.toNat < 0x80 ∧ ascii (escUnit c) = true) ∨ escUnit c = [c] := by
  by_cases hc : c < 0x20
  · have hlt : c.toNat < 0x20 := UInt16.lt_iff_toNat_lt.mp hc
    exact Or.inl ⟨by omega, units_below (fun c => ascii (escUnit c) = true) (by decide +kernel) hc⟩
  by_cases hquote : c = 0x22
  · subst hquote
    exact Or.inl (by decide)
  by_cases hslash : c = 0x5c
  · subst hslash
    exact Or.inl (by decide)
  have hlow (k : CodeUnit) (hk : k < 0x20) : c ≠ k := by
    rintro rfl
    exact hc hk
  right
  rw [escUnit, if_neg hquote, if_neg hslash, if_neg (hlow 0x0a (by decide)),
    if_neg (hlow 0x0d (by decide)), if_neg (hlow 0x09 (by decide)), if_neg hc]

theorem escUnit_surrogate {c : CodeUnit} (h : 0xd800 ≤ c.toNat) : escUnit c = [c] := by
  rcases escUnit_cases c with ⟨hlt, -⟩ | heq
  · omega
  · exact heq

theorem wellFormed_escChar {ch : JsString} (h : isScalar ch = true) : isWellFormed (esc ch) = true := by
  rcases ch with _ | ⟨c, _ | ⟨d, _ | ⟨e, rest⟩⟩⟩
  · rfl
  · rw [esc, List.flatMap_singleton]
    rcases escUnit_cases c with ⟨-, hascii⟩ | hplain
    · exact wellFormed_of_lt (lt_of_ascii hascii)
    · rw [hplain, isWellFormed, forOf, List.all_cons, h]
      rfl
  · have hpair := h
    simp only [isScalar, Bool.and_eq_true] at hpair
    have hsurrogates := hpair
    rw [isHighSurrogate_iff, isLowSurrogate_iff] at hsurrogates
    rw [esc, List.flatMap_cons, List.flatMap_singleton, escUnit_surrogate hsurrogates.1.1,
      escUnit_surrogate (by omega)]
    simp [isWellFormed, forOf, isScalar, hpair.1, hpair.2]
  · simp [isScalar] at h

theorem wellFormed_esc {s : JsString} (h : isWellFormed s = true) : isWellFormed (esc s) = true := by
  have hchars : esc s = (forOf s).flatMap esc := by
    conv_lhs => rw [← forOf_flatten s]
    rw [esc, List.flatten_eq_flatMap, List.flatMap_assoc]
    rfl
  rw [hchars]
  exact wellFormed_flatMap fun ch hch => wellFormed_escChar (List.all_eq_true.mp h ch hch)

theorem wellFormed_integerText (n : Int) : isWellFormed (integerText n) = true := by
  unfold integerText
  split
  · exact wellFormed_append (by decide) (wellFormed_decimal _)
  · exact wellFormed_decimal _

/-- Sender and text are Unicode. -/
def Captured.wellFormed (c : Captured) : Bool := isWellFormed c.sender && isWellFormed c.text

theorem wellFormed_line {c : Captured} (h : c.wellFormed = true) : isWellFormed (line c) = true := by
  obtain ⟨hsender, htext⟩ := Bool.and_eq_true_iff.mp h
  unfold line
  refine wellFormed_append (wellFormed_append (wellFormed_append (wellFormed_append
    (wellFormed_append (wellFormed_append ?_ (wellFormed_esc hsender)) ?_) (wellFormed_esc htext)) ?_)
    (wellFormed_integerText c.date)) ?_
  all_goals decide

/-! ## Line feeds in the file -/

/-- Only a line feed of the text is a line feed of the file. -/
theorem lf_not_mem_octets {s : JsString} (h : LF ∉ s) : lfOctet ∉ utf8Octets s :=
  ascii_not_mem_octets (c := LF) (by decide) h

/-- Octets without a line feed arrive as they are. -/
theorem transported_line {a file out : List Nat} (ha : lfOctet ∉ a)
    (h : Transported (a ++ lfOctet :: file) out) :
    ∃ eol rest, IsEol eol ∧ out = a ++ utf8Octets (eol ++ [LF]) ++ rest ∧ Transported file rest := by
  induction a generalizing out with
  | nil =>
      cases h with
      | octet hb h => exact absurd rfl hb
      | lf h => exact ⟨[], _, Or.inl rfl, rfl, h⟩
      | crlf h => exact ⟨[CR], _, Or.inr rfl, rfl, h⟩
  | cons b a ih =>
      have hb : b ≠ lfOctet := fun he => ha (he ▸ List.mem_cons_self)
      cases h with
      | octet _ h =>
          obtain ⟨eol, rest, heol, rfl, hrest⟩ := ih (fun hm => ha (List.mem_cons_of_mem b hm)) h
          exact ⟨eol, rest, heol, rfl, hrest⟩
      | lf h => exact absurd rfl hb
      | crlf h => exact absurd rfl hb

theorem wellFormed_eol {eol : JsString} (h : IsEol eol) : isWellFormed (eol ++ [LF]) = true := by
  rcases h with rfl | rfl <;> decide

theorem wellFormed_arrived {l : Captured × JsString} (hc : l.1.wellFormed = true) (heol : IsEol l.2) :
    isWellFormed (line l.1 ++ l.2 ++ [LF]) = true := by
  rw [List.append_assoc]
  exact wellFormed_append (wellFormed_line hc) (wellFormed_eol heol)

/-- What arrives of the file is the text of its lines. -/
theorem transported_file {sms : List Captured} (hsms : ∀ c ∈ sms, c.wellFormed = true)
    {out : List Nat} (h : Transported (fileOctets sms) out) :
    ∃ lines : List (Captured × JsString), lines.map Prod.fst = sms ∧ (∀ l ∈ lines, IsEol l.2) ∧
      out = utf8Octets (arrivedText lines) := by
  induction sms generalizing out with
  | nil =>
      cases h
      exact ⟨[], rfl, fun l hl => absurd hl List.not_mem_nil, rfl⟩
  | cons c sms ih =>
      have hc := hsms c List.mem_cons_self
      have hfile : fileOctets (c :: sms) = utf8Octets (line c) ++ lfOctet :: fileOctets sms := by
        rw [fileOctets, List.flatMap_cons, utf8Octets_append (wellFormed_line hc), List.append_assoc]
        rfl
      rw [hfile] at h
      obtain ⟨eol, rest, heol, rfl, hrest⟩ :=
        transported_line (lf_not_mem_octets (lf_not_mem_line c)) h
      obtain ⟨lines, hlines, heols, rfl⟩ := ih (fun x hx => hsms x (List.mem_cons_of_mem c hx)) hrest
      refine ⟨(c, eol) :: lines, by rw [List.map_cons, hlines], ?_, ?_⟩
      · intro l hl
        rcases List.mem_cons.mp hl with rfl | hl
        · exact heol
        · exact heols l hl
      · have hline := wellFormed_arrived (l := (c, eol)) hc heol
        rw [arrivedText_cons, utf8Octets_append hline, List.append_assoc (line c),
          utf8Octets_append (wellFormed_line hc)]

/-! ## Reading the file -/

/-- The device is there, the drain prints `out`, and saving succeeds. -/
structure Prints (out : List Nat) (o : Oracle Op Ans) : Prop where
  connected : ∀ n, o n .isConnected = true
  drain : ∀ n, o n (.adb [js "shell", Adb.drain] adbTimeoutMs) = .ok (utf8Decode out)
  persist : ∀ n messages, o n (.persist messages) = .ok ()

section

variable {α : Type} {o : Oracle Op Ans}

theorem result_adb_ok {n : Nat} {args : List JsString} {out : JsString}
    (h : o n (.adb args adbTimeoutMs) = .ok out) (g : JsError → Prog JsString) (f : JsString → Prog α) :
    result o n ((adb args).catchError g >>= f) = result o (n + 1) (f out) := by
  have hcall : result o n ((adb args).catchError g >>= f) =
      result o (n + 1) ((Prog.ofExcept (o n (.adb args adbTimeoutMs))).catchError g >>= f) := rfl
  rw [hcall, h]
  rfl

/-- Whatever a command whose errors are caught does, the call goes on. -/
theorem result_adb_caught (n : Nat) (args : List JsString) (fallback : JsString) (a : α) :
    result o n ((adb args).catchError (fun _ => return fallback) >>= fun _ => return a) = .ok a := by
  have hcall : result o n ((adb args).catchError (fun _ => return fallback) >>= fun _ => return a) =
      result o (n + 1) ((Prog.ofExcept (o n (.adb args adbTimeoutMs))).catchError
        (fun _ => return fallback) >>= fun _ => return a) := rfl
  rw [hcall]
  cases o n (.adb args adbTimeoutMs) <;> rfl

theorem result_callPersist_ok {n : Nat} {messages : List Message}
    (h : o n (.persist messages) = .ok ()) (f : Unit → Prog α) :
    result o n (callPersist messages >>= f) = result o (n + 1) (f ()) := by
  have hcall : result o n (callPersist messages >>= f) =
      result o (n + 1) (Prog.ofExcept (o n (.persist messages)) >>= f) := rfl
  rw [hcall, h]
  rfl

/-- A call reports what it reads in the output of the drain. -/
theorem result_getMessages {out : List Nat} (h : Prints out o)
    (otherDate : JsValue → Except JsError JsString) (pkg : JsString) (persist : Bool) :
    result o 0 (getMessages otherDate (some pkg) persist) =
      .ok (readLines otherDate (utf8Decode out)) := by
  rw [getMessages, if_neg (Option.some_ne_none pkg), perform, result_perform, h.connected 0]
  simp only [Bool.not_true, Bool.false_eq_true, if_false]
  rw [result_adb_ok (h.drain 1)]
  generalize readLines otherDate (utf8Decode out) = messages
  by_cases hp : messages ≠ [] ∧ persist = true
  · rw [if_pos hp, result_callPersist_ok (h.persist 2 messages), result_adb_caught]
  · rw [if_neg hp, result_adb_caught]

end

theorem sameSms_report {c : Captured} (h : c.date ≠ 0) : SameSms c (report c) := by
  refine ⟨rfl, rfl, ?_⟩
  obtain ⟨s, hs, hget⟩ := toISOString_date c
  show toISOString c.date = .ok (dateOf c)
  rw [dateOf, if_neg h, hget, hs]

/-- Whatever the transport does to the line breaks, the driver reads back the SMS that the app has
captured, in order. -/
theorem bridge_roundTrip {sms : List Captured} (hsms : ∀ c ∈ sms, c.wellFormed = true ∧ c.date ≠ 0)
    {out : List Nat} (hout : Transported (fileOctets sms) out) {o : Oracle Op Ans} (ho : Prints out o)
    (otherDate : JsValue → Except JsError JsString) (pkg : JsString) (persist : Bool) :
    ∃ messages, result o 0 (getMessages otherDate (some pkg) persist) = .ok messages ∧
      List.Forall₂ SameSms sms messages := by
  obtain ⟨lines, rfl, heol, rfl⟩ := transported_file (fun c hc => (hsms c hc).1) hout
  have hwellFormed : isWellFormed (arrivedText lines) = true := by
    apply wellFormed_flatMap
    intro l hl
    exact wellFormed_arrived (hsms l.1 (List.mem_map_of_mem hl)).1 (heol l hl)
  refine ⟨lines.map fun l => report l.1, ?_, ?_⟩
  · rw [result_getMessages ho, utf8Decode_utf8Octets hwellFormed, readLines_arrived otherDate heol]
  · rw [List.forall₂_map_left_iff, List.forall₂_map_right_iff, List.forall₂_same]
    intro l hl
    exact sameSms_report (hsms l.1 (List.mem_map_of_mem hl)).2

theorem date_ok_quoted : (1714550400123 : Int).natAbs ≤ maxTime := by decide

/-- A name with a quote, a text with a line break, a backslash and an emoji. -/
def quoted : Captured :=
  ⟨0, js "Bob \"B\"", js "a\\b\r\nc 😀", 1714550400123, date_ok_quoted⟩

/-- The shell's answers to a call. -/
def printing (out : List Nat) : Oracle Op Ans := fun _ op =>
  match op with
  | .isConnected => true
  | .adb _ _ => .ok (utf8Decode out)
  | .persist _ => .ok ()

theorem prints_printing (out : List Nat) : Prints out (printing out) :=
  ⟨fun _ => rfl, fun _ => rfl, fun _ _ => rfl⟩

theorem bridge_roundTrip_quoted : ∃ messages,
    result (printing (crlfOctets (fileOctets [quoted, quoted]))) 0
      (getMessages (fun _ => .ok []) (some (js "com.gateway.smsbridge")) true) = .ok messages ∧
      List.Forall₂ SameSms [quoted, quoted] messages :=
  bridge_roundTrip (by decide +kernel) (transported_crlf _) (prints_printing _) _ _ _

end SmsGateway.Adb
