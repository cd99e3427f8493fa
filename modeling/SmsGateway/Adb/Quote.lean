import SmsGateway.Adb.Send
import SmsGateway.Lib.Shell
import SmsGateway.Unicode

/-!
# What the shell of the device makes of a send

`sendOne` of `utils/adb.js` writes one command line for the shell of the device. The shell is held
to it both in code units and in the octets that adb passes on.
-/

namespace SmsGateway.Adb

open Send
open Lib.Shell hiding step read State Mode Token Piece

/-- The shell reads the line as these words and nothing else, whether it takes the line as code
units or as octets. -/
def ShellReads (line : JsString) (words : List JsString) : Prop :=
  Reads UInt16.toNat line words ∧ Reads id (utf8Octets line) (words.map utf8Octets)

/-- The words of an `isms` call. -/
def callWords (config : Config) (recipient text : JsString) : List JsString :=
  [js "service", js "call", js "isms", decimal config.smsTxn, js "s16", config.callingPkg,
    js "s16", recipient, js "s16", js "null", js "s16", text, js "i32", js "0", js "i32", js "0"]

/-- As `sendOne` writes them. -/
def callTexts (config : Config) (recipient text : JsString) : List JsString :=
  [js "call", js "isms", decimal config.smsTxn, js "s16", shQuote config.callingPkg,
    js "s16", shQuote recipient, js "s16", shQuote (js "null"), js "s16", shQuote text, js "i32",
    js "0", js "i32", js "0"]

/-! ## One word -/

/-- A word in both readings. -/
def IsShellWord (text value : JsString) : Prop :=
  IsWord UInt16.toNat text value ∧ IsWord id (utf8Octets text) (utf8Octets value)

def quoteOctet : Nat := 0x27
def backslashOctet : Nat := 0x5c

theorem shQuote_eq (s : JsString) : shQuote s = quoteWord UInt16.toNat 0x27 0x5c s := by
  have hunit (c : CodeUnit) :
      (if c = 0x27 then js "'\\''" else [c]) = quoteUnit UInt16.toNat 0x27 0x5c c := by
    have hquote : isQuote UInt16.toNat c = true ↔ c = 0x27 := by
      rw [isQuote, beq_iff_eq]
      exact UInt16.toNat_inj (b := 0x27)
    by_cases hc : c = 0x27
    · rw [if_pos hc, quoteUnit, if_pos (hquote.mpr hc)]
      rfl
    · rw [if_neg hc, quoteUnit, if_neg (mt hquote.mp hc)]
  rw [shQuote, quoteWord]
  simp only [hunit]
  rfl

theorem octets_quoteUnits {n : Nat} (h : n ≠ quoteOctet) :
    (utf8OfCodePoint n).flatMap (quoteUnit id quoteOctet backslashOctet) = utf8OfCodePoint n := by
  have hsame (o : Nat) (ho : o ∈ utf8OfCodePoint n) :
      quoteUnit id quoteOctet backslashOctet o = [o] := by
    have hne : ¬ isQuote id o = true := by
      intro hq
      have hoq : o = quoteOctet := by simpa [isQuote, quoteOctet] using hq
      exact h ((ascii_mem_octets (by rw [hoq]; decide) ho).trans hoq)
    rw [quoteUnit, if_neg hne]
  rw [List.flatMap_congr hsame]
  exact List.flatMap_singleton' _

theorem octets_shQuoteUnit (c : CodeUnit) :
    utf8Octets (if c = 0x27 then js "'\\''" else [c]) =
      (utf8Octets [c]).flatMap (quoteUnit id quoteOctet backslashOctet) := by
  by_cases hc : c = 0x27
  · subst hc
    decide
  · have hcode : codePoint [c] ≠ quoteOctet := fun he => hc (UInt16.toNat_inj.mp he)
    simp [hc, utf8Octets, forOf, octets_quoteUnits hcode]

/-- Quoting a text is quoting its octets. -/
theorem octets_shQuoteUnits (s : JsString) :
    utf8Octets (s.flatMap fun c => if c = 0x27 then js "'\\''" else [c]) =
      (utf8Octets s).flatMap (quoteUnit id quoteOctet backslashOctet) := by
  induction s using forOf.induct with
  | case1 => rfl
  | case2 c => rw [List.flatMap_singleton, octets_shQuoteUnit]
  | case3 c d rest hp ih =>
      have hsurrogates := hp
      rw [Bool.and_eq_true, isHighSurrogate_iff, isLowSurrogate_iff] at hsurrogates
      have hc : c ≠ 0x27 := by
        rintro rfl
        exact absurd hsurrogates.1.1 (by decide)
      have hd : d ≠ 0x27 := by
        rintro rfl
        exact absurd hsurrogates.2.1 (by decide)
      have hcode : codePoint [c, d] ≠ quoteOctet := by
        rw [codePoint_pair]
        simp only [quoteOctet]
        omega
      rw [utf8Octets] at ih ⊢
      simp [hc, hd, forOf, hp, utf8Octets, octets_quoteUnits hcode, ih]
  | case4 c d rest hp ih =>
      have hsplits : splitsPair (if c = 0x27 then js "'\\''" else [c])
          ((d :: rest).flatMap fun c => if c = 0x27 then js "'\\''" else [c]) = false := by
        by_cases hc : c = 0x27
        · rw [if_pos hc]
          rfl
        by_cases hd : d = 0x27
        · subst hd
          simp [splitsPair, hc, js, utf16Encode, isLowSurrogate]
        · simpa [splitsPair, hc, hd] using hp
      have hhead : utf8Octets (c :: d :: rest) = utf8Octets [c] ++ utf8Octets (d :: rest) := by
        simp [utf8Octets, forOf, hp]
      rw [List.flatMap_cons, utf8Octets_join hsplits, octets_shQuoteUnit, ih, hhead, List.flatMap_append]

theorem octets_shQuote (s : JsString) :
    utf8Octets (shQuote s) = quoteWord id quoteOctet backslashOctet (utf8Octets s) := by
  have hclose (a : JsString) : utf8Octets (a ++ js "'") = utf8Octets a ++ [quoteOctet] :=
    utf8Octets_join (by simp [splitsPair, js, utf16Encode, isLowSurrogate])
  rw [shQuote, hclose, utf8Octets_append (by decide), octets_shQuoteUnits]
  rfl

/-- A quoted value is one word. -/
theorem isShellWord_shQuote {s : JsString} (h : 0 ∉ s) : IsShellWord (shQuote s) s := by
  constructor
  · rw [shQuote_eq]
    have hquote : UInt16.toNat 0x27 = 0x27 := rfl
    have hbackslash : UInt16.toNat 0x5c = 0x5c := rfl
    refine isWord_quoteWord hquote hbackslash ?_ ?_
    · intro c hc
      exact UInt16.toNat_inj.mp (by simpa [isQuote] using hc)
    · intro c hc hnul
      have hzero : c = 0 := UInt16.toNat_inj.mp hnul
      exact h (hzero ▸ hc)
  · rw [octets_shQuote]
    have hquote : id quoteOctet = 0x27 := rfl
    have hbackslash : id backslashOctet = 0x5c := rfl
    refine isWord_quoteWord hquote hbackslash ?_ ?_
    · intro o ho
      simpa [isQuote, quoteOctet] using ho
    · intro o ho hnul
      have hzero : o = (0 : CodeUnit).toNat := hnul
      exact ascii_not_mem_octets (by decide) h (hzero ▸ ho)

/-- A word that needs no quotes. -/
theorem isShellWord_inert {s : JsString} (hne : s ≠ [])
    (h : s.all (fun c => isInert UInt16.toNat c && c < 0x80) = true) : IsShellWord s s := by
  have hunits : ∀ c ∈ s, isInert UInt16.toNat c = true ∧ c.toNat < 0x80 := by
    intro c hc
    have hboth := List.all_eq_true.mp h c hc
    rw [Bool.and_eq_true, decide_eq_true_eq, UInt16.lt_iff_toNat_lt] at hboth
    exact hboth
  have hoctets : utf8Octets s = s.map UInt16.toNat := by
    have hhigh : ∀ c ∈ s, isHighSurrogate c = false := by
      intro c hc
      have hlt := (hunits c hc).2
      rw [← Bool.not_eq_true, isHighSurrogate_iff]
      omega
    have hone (c : CodeUnit) (hc : c ∈ s) : utf8OfCodePoint c.toNat = [c.toNat] :=
      utf8OfCodePoint_ascii (hunits c hc).2
    rw [utf8Octets_eq hhigh, List.flatMap_congr hone]
    exact List.flatMap_pure_eq_map _ _
  constructor
  · exact isWord_inert hne fun c hc => (hunits c hc).1
  · rw [hoctets]
    apply isWord_inert
    · simpa using hne
    · intro o ho
      obtain ⟨c, hc, rfl⟩ := List.mem_map.mp ho
      exact (hunits c hc).1

theorem isShellWord_decimal (n : Nat) : IsShellWord (decimal n) (decimal n) := by
  apply isShellWord_inert (decimal_ne_nil n)
  rw [List.all_eq_true]
  intro c hc
  have hdigit := decimal_digits n c hc
  simp only [isDigit, Bool.and_eq_true, decide_eq_true_eq, UInt16.le_iff_toNat_le] at hdigit
  have hlow : 0x30 ≤ c.toNat := hdigit.1
  have hhigh : c.toNat ≤ 0x39 := hdigit.2
  clear hdigit
  have hascii : c < 0x80 := by
    rw [UInt16.lt_iff_toNat_lt]
    exact Nat.lt_of_le_of_lt hhigh (by decide)
  have hinert : isInert UInt16.toNat c = true := by
    simp only [isInert, isQuote, isDoubleQuote, isBackslash, startsExpansion, isBlank, isOperator,
      isLineBreak, isHash, isActive, List.contains_cons, List.contains_nil, Bool.and_eq_true,
      Bool.not_eq_true', Bool.or_eq_false_iff, bne_iff_ne, beq_eq_false_iff_ne, and_true]
    and_intros <;> omega
  rw [hinert, decide_eq_true hascii, Bool.and_self]

/-! ## The command -/

theorem remote_eq (config : Config) (recipient text : JsString) :
    remote config recipient text =
      js "service" ++ (callTexts config recipient text).flatMap (0x20 :: ·) := by
  have hlead : js "service call isms " =
      js "service" ++ 0x20 :: js "call" ++ 0x20 :: js "isms" ++ [0x20] := by decide
  have hstring : js " s16 " = 0x20 :: js "s16" ++ [0x20] := by decide
  have hnull : js " s16 'null' s16 " =
      0x20 :: js "s16" ++ 0x20 :: shQuote (js "null") ++ 0x20 :: js "s16" ++ [0x20] := by decide
  have htail : js " i32 0 i32 0" =
      0x20 :: js "i32" ++ 0x20 :: js "0" ++ 0x20 :: js "i32" ++ 0x20 :: js "0" := by decide
  rw [remote, hlead, hstring, hnull, htail]
  simp [callTexts, List.append_assoc]

theorem callTexts_isShellWord {config : Config} {recipient text : JsString}
    (hpkg : 0 ∉ config.callingPkg) (hrecipient : 0 ∉ recipient) (htext : 0 ∉ text) :
    List.Forall₂ IsShellWord (callTexts config recipient text)
      (callWords config recipient text).tail := by
  have hcall : IsShellWord (js "call") (js "call") := isShellWord_inert (by decide) (by decide)
  have hisms : IsShellWord (js "isms") (js "isms") := isShellWord_inert (by decide) (by decide)
  have hs16 : IsShellWord (js "s16") (js "s16") := isShellWord_inert (by decide) (by decide)
  have hi32 : IsShellWord (js "i32") (js "i32") := isShellWord_inert (by decide) (by decide)
  have hzero : IsShellWord (js "0") (js "0") := isShellWord_inert (by decide) (by decide)
  have hnull : IsShellWord (shQuote (js "null")) (js "null") := isShellWord_shQuote (by decide)
  simp [callTexts, callWords, hcall, hisms, hs16, hi32, hzero, hnull, isShellWord_decimal,
    isShellWord_shQuote hpkg, isShellWord_shQuote hrecipient, isShellWord_shQuote htext]

theorem octets_words (text : JsString) (texts : List JsString) :
    utf8Octets (text ++ texts.flatMap (0x20 :: ·)) =
      utf8Octets text ++ (texts.map utf8Octets).flatMap (0x20 :: ·) := by
  induction texts generalizing text with
  | nil => simp [utf8Octets]
  | cons next texts ih =>
      have hword : splitsPair text (0x20 :: next ++ texts.flatMap (0x20 :: ·)) = false := by
        simp [splitsPair, isLowSurrogate]
      have hblank (b : JsString) : utf8Octets (0x20 :: b) = 0x20 :: utf8Octets b :=
        utf8Octets_append (a := [0x20]) (by decide) b
      rw [List.flatMap_cons, utf8Octets_join hword, List.cons_append, hblank, ih]
      rfl

/-- Words with blanks between them are read as what they stand for. -/
theorem shellReads_words {text value : JsString} {texts values : List JsString}
    (h : IsShellWord text value) (hs : List.Forall₂ IsShellWord texts values) :
    ShellReads (text ++ texts.flatMap (0x20 :: ·)) (value :: values) := by
  constructor
  · have hblank : UInt16.toNat 0x20 = 0x20 := rfl
    exact reads_words hblank h.1 (hs.imp fun _ _ hword => hword.1)
  · have hblank : id 0x20 = 0x20 := rfl
    rw [octets_words, List.map_cons]
    refine reads_words hblank h.2 ?_
    rw [List.forall₂_map_left_iff, List.forall₂_map_right_iff]
    exact hs.imp fun _ _ hword => hword.2

/-- A quoted string is one word equal to the string, and a send is the words of its `isms` call
with recipient, package and text as literal arguments. -/
theorem quoting_exact :
    (∀ s, 0 ∉ s → ShellReads (shQuote s) [s]) ∧
      ∀ config recipient text, 0 ∉ config.callingPkg → 0 ∉ recipient → 0 ∉ text →
        ShellReads (remote config recipient text) (callWords config recipient text) := by
  constructor
  · intro s hs
    simpa using shellReads_words (isShellWord_shQuote hs) (List.Forall₂.nil)
  · intro config recipient text hpkg hrecipient htext
    have hservice : IsShellWord (js "service") (js "service") :=
      isShellWord_inert (by decide) (by decide)
    rw [remote_eq]
    exact shellReads_words hservice (callTexts_isShellWord hpkg hrecipient htext)

/-- A text that tries to end its quotes, run a command and expand a variable. -/
def hostile : JsString := js "a'; reboot #\\'\n$(id)`id` \"$HOME\" > /x"

theorem quoting_exact_hostile :
    ShellReads (shQuote hostile) [hostile] ∧
      ShellReads (remote ⟨js "adb", 6, js "com.android.shell"⟩ (js "+491701234567") hostile)
        (callWords ⟨js "adb", 6, js "com.android.shell"⟩ (js "+491701234567") hostile) :=
  ⟨quoting_exact.1 hostile (by decide),
    quoting_exact.2 ⟨js "adb", 6, js "com.android.shell"⟩ (js "+491701234567") hostile (by decide)
      (by decide) (by decide)⟩

end SmsGateway.Adb
