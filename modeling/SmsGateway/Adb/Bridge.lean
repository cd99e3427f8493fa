import SmsGateway.Adb.Driver

/-!
# The lines of the bridge app

`SmsReceiver.java` appends each captured SMS to `incoming.jsonl` as one line of JSON,
which the driver reads back.
-/

namespace SmsGateway.Adb

open SmsGateway Json
open Lib

/-! ## Writing -/

/-- One character of `Json.esc`. -/
def escUnit (c : CodeUnit) : JsString :=
  if c = 0x22 then js "\\\""
  else if c = 0x5c then js "\\\\"
  else if c = 0x0a then js "\\n"
  else if c = 0x0d then js "\\r"
  else if c = 0x09 then js "\\t"
  else if c < 0x20 then js "\\u00" ++ [hexLower (c.toNat / 16), hexLower (c.toNat % 16)]
  else [c]

def esc (s : JsString) : JsString := s.flatMap escUnit

/-- An integer in a Java string. -/
def integerText (n : Int) : JsString :=
  if n < 0 then js "-" ++ decimal n.natAbs else decimal n.natAbs

/-- An SMS as the app captured it, with the time of its last part; `uid` tells it from
every other one. -/
structure Captured where
  uid : Nat
  sender : JsString
  text : JsString
  date : Int
  date_ok : date.natAbs ≤ maxTime
  deriving DecidableEq

def line (c : Captured) : JsString :=
  js "\x7b\"from\":\"" ++ esc c.sender ++ js "\",\"text\":\"" ++ esc c.text ++ js "\",\"date\":" ++
    integerText c.date ++ js "\x7d"

/-! ## Reading back -/

theorem units_below (p : CodeUnit → Prop) [DecidablePred p]
    (h : ∀ n < 0x20, p (UInt16.ofNat n)) {c : CodeUnit} (hc : c < 0x20) : p c := by
  have hn : c.toNat < 0x20 := UInt16.lt_iff_toNat_lt.mp hc
  have hp := h c.toNat hn
  rwa [UInt16.ofNat_toNat] at hp

theorem hexUnit_control {c : CodeUnit} (hc : c < 0x20) :
    hexUnit 0x30 0x30 (hexLower (c.toNat / 16)) (hexLower (c.toNat % 16)) = some c :=
  units_below (fun c => hexUnit 0x30 0x30 (hexLower (c.toNat / 16)) (hexLower (c.toNat % 16)) = some c)
    (by decide +kernel) hc

/-- One more character of a string. -/
def consUnit (c : CodeUnit) : Option (JsString × JsString) → Option (JsString × JsString) :=
  Option.map fun p => (c :: p.1, p.2)

theorem stringBody_simple {e u : CodeUnit} (h : simpleEscape e = some u) (rest : JsString) :
    stringBody (0x5c :: e :: rest) = consUnit u (stringBody rest) := by
  have he : e ≠ 0x75 := by
    rintro rfl
    cases h
  rw [stringBody.eq_4 _ _ fun _ _ _ _ _ hu => absurd hu he, h]
  cases stringBody rest <;> rfl

theorem stringBody_unicode {a b c d u : CodeUnit} (h : hexUnit a b c d = some u) (rest : JsString) :
    stringBody (0x5c :: 0x75 :: a :: b :: c :: d :: rest) = consUnit u (stringBody rest) := by
  rw [stringBody.eq_3, h]
  cases stringBody rest <;> rfl

theorem stringBody_plain {c : CodeUnit} (hquote : c ≠ 0x22) (hslash : c ≠ 0x5c) (hc : ¬ c < 0x20)
    (rest : JsString) : stringBody (c :: rest) = consUnit c (stringBody rest) := by
  rw [stringBody.eq_5 _ _ hquote (fun _ _ _ _ _ he => absurd he hslash)
    (fun _ _ he => absurd he hslash), if_neg (not_or.mpr ⟨hc, hslash⟩)]
  cases stringBody rest <;> rfl

theorem stringBody_escUnit (c : CodeUnit) (rest : JsString) :
    stringBody (escUnit c ++ rest) = consUnit c (stringBody rest) := by
  unfold escUnit
  split
  case isTrue h => exact h ▸ stringBody_simple rfl rest
  split
  case isTrue h => exact h ▸ stringBody_simple rfl rest
  split
  case isTrue h => exact h ▸ stringBody_simple rfl rest
  split
  case isTrue h => exact h ▸ stringBody_simple rfl rest
  split
  case isTrue h => exact h ▸ stringBody_simple rfl rest
  split
  case isTrue h => exact stringBody_unicode (hexUnit_control h) rest
  case isFalse hquote hslash _ _ _ hc => exact stringBody_plain hquote hslash hc rest

/-- The parser reads back what the app escapes. -/
theorem stringBody_esc (s rest : JsString) : stringBody (esc s ++ 0x22 :: rest) = some (s, rest) := by
  induction s with
  | nil => rfl
  | cons c s ih =>
      rw [esc, List.flatMap_cons, List.append_assoc, stringBody_escUnit, ← esc, ih]
      rfl

/-! ## Numbers -/

/-- The decimal form of a positive number starts with another digit than 0. -/
theorem decimal_head {n : Nat} (hn : n ≠ 0) : ∃ d ds, decimal n = d :: ds ∧ d ≠ 0x30 := by
  have hlast := Nat.getLast_digit_ne_zero 10 hn
  have hne : (Nat.digits 10 n).reverse ≠ [] := by
    simpa using Nat.digits_ne_nil_iff_ne_zero.mpr hn
  obtain ⟨d, ds, hd⟩ := List.exists_cons_of_ne_nil hne
  have hhead : d = (Nat.digits 10 n).getLast (Nat.digits_ne_nil_iff_ne_zero.mpr hn) := by
    rw [← List.head_reverse hne]
    simp [hd]
  have hlt : d < 10 := by
    rw [hhead]
    exact Nat.digits_lt_base (by decide) (List.getLast_mem _)
  refine ⟨digitUnit d, ds.map digitUnit, ?_, ?_⟩
  · rw [decimal, numberText, if_neg hn, hd, List.map_cons]
  · intro he
    have hv := congrArg UInt16.toNat he
    rw [digitUnit_toNat hlt] at hv
    have h0 : d ≠ 0 := hhead ▸ hlast
    have : (0x30 : CodeUnit).toNat = 0x30 := rfl
    omega
theorem spanDigits_decimal (n : Nat) {c : CodeUnit} (hc : isDigit c = false) (rest : JsString) :
    spanDigits (decimal n ++ c :: rest) = (decimal n, c :: rest) := by
  have hall := decimal_digits n
  rw [spanDigits, List.takeWhile_append_of_pos hall, List.dropWhile_append_of_pos hall]
  simp [hc]

theorem numberTail_brace (rest : JsString) : numberTail (0x7d :: rest) = some ([], 0x7d :: rest) := by
  rfl


theorem number_signed {sign : JsString} (hsign : sign = [] ∨ sign = [0x2d]) {n : Nat} (hn : n ≠ 0)
    (rest : JsString) :
    number (sign ++ decimal n ++ 0x7d :: rest) =
      some (.num (sign ++ decimal n), 0x7d :: rest) := by
  obtain ⟨d, ds, hd, hne⟩ := decimal_head hn
  have hdigit : isDigit d = true := decimal_digits n d (hd ▸ List.mem_cons_self)
  have hminus : d ≠ 0x2d := by
    rintro rfl
    revert hdigit
    decide
  have hspan := spanDigits_decimal n (c := 0x7d) (by decide) rest
  rw [hd, List.cons_append] at hspan
  have htail := numberTail_brace rest
  rw [List.append_assoc, hd, List.cons_append]
  rcases hsign with rfl | rfl
  · simp [number, hminus, hne, hspan, htail]
  · simp [number, hne, hspan, htail]

theorem number_integerText (n : Int) (rest : JsString) :
    number (integerText n ++ 0x7d :: rest) = some (.num (integerText n), 0x7d :: rest) := by
  by_cases hn : n = 0
  · subst hn
    rfl
  · have habs : n.natAbs ≠ 0 := by omega
    unfold integerText
    split
    · exact number_signed (Or.inr rfl) habs rest
    · exact number_signed (Or.inl rfl) habs rest

/-! ## Lines -/

theorem value_str (fuel : Nat) (s rest : JsString) :
    value (fuel + 1) (0x22 :: (esc s ++ 0x22 :: rest)) = some (.str s, rest) := by
  rw [value, show skipSpace (0x22 :: (esc s ++ 0x22 :: rest)) = 0x22 :: (esc s ++ 0x22 :: rest) by rfl]
  simp only [stringBody_esc]
  rfl

theorem integerText_head (n : Int) :
    ∃ c cs, integerText n = c :: cs ∧ (c = 0x2d ∨ isDigit c = true) := by
  unfold integerText
  split
  · exact ⟨_, _, rfl, Or.inl rfl⟩
  · obtain ⟨d, ds, hd⟩ := List.exists_cons_of_ne_nil (decimal_ne_nil n.natAbs)
    exact ⟨d, ds, hd, Or.inr (decimal_digits n.natAbs d (hd ▸ List.mem_cons_self))⟩

theorem value_number {c : CodeUnit} (hc : c = 0x2d ∨ isDigit c = true) (fuel : Nat) (s : JsString) :
    value (fuel + 1) (c :: s) = number (c :: s) := by
  have hclass : isJsonSpace c = false ∧ c ≠ 0x7b ∧ c ≠ 0x5b ∧ c ≠ 0x22 ∧ c ≠ 0x6e ∧ c ≠ 0x74 ∧
      c ≠ 0x66 := by
    rcases hc with rfl | hc
    · decide
    · refine ⟨?_, ?_, ?_, ?_, ?_, ?_, ?_⟩
      · simp only [isDigit, Bool.and_eq_true, decide_eq_true_eq, UInt16.le_iff_toNat_le] at hc
        simp only [isJsonSpace, Bool.or_eq_false_iff, beq_eq_false_iff_ne, ne_eq,
          ← UInt16.toNat_inj]
        simp only [UInt16.reduceToNat] at hc ⊢
        omega
      all_goals
        rintro rfl
        revert hc
        decide
  obtain ⟨hspace, h₁, h₂, h₃, h₄, h₅, h₆⟩ := hclass
  have hskip : skipSpace (c :: s) = c :: s := by
    rw [skipSpace, List.dropWhile_cons, if_neg (by simp [hspace])]
  rw [value, hskip]
  simp only [h₁, h₂, h₃, h₄, h₅, h₆, if_false]

theorem value_integer (fuel : Nat) (n : Int) (rest : JsString) :
    value (fuel + 1) (integerText n ++ 0x7d :: rest) = some (.num (integerText n), 0x7d :: rest) := by
  obtain ⟨c, cs, hn, hc⟩ := integerText_head n
  have hnum := number_integerText n rest
  rw [hn, List.cons_append] at hnum ⊢
  rw [value_number hc, hnum]

/-- The text of a member whose key needs no escape, from behind the key's opening quote. -/
theorem members_member {k : JsString} (hk : esc k = k) (fuel : Nat) {s rest : JsString} {v : JsValue}
    (hv : value fuel s = some (v, rest)) :
    members (fuel + 1) (0x22 :: (k ++ 0x22 :: 0x3a :: s)) =
      match skipSpace rest with
      | c :: rest =>
          if c = 0x2c then do
            let (fields, rest) ← members fuel rest
            some ((k, v) :: fields, rest)
          else if c = 0x7d then some ([(k, v)], rest)
          else none
      | [] => none := by
  have hkey := stringBody_esc k (0x3a :: s)
  rw [hk] at hkey
  rw [members, show skipSpace (0x22 :: (k ++ 0x22 :: 0x3a :: s)) = 0x22 :: (k ++ 0x22 :: 0x3a :: s)
    by rfl]
  simp only [hkey, Option.bind_eq_bind, Option.bind_some]
  rw [show skipSpace (0x3a :: s) = 0x3a :: s by rfl]
  show (value fuel s).bind _ = _
  rw [hv]
  rfl

theorem value_members {fuel : Nat} {s : JsString} {fields : List (JsString × JsValue)}
    {tail : JsString} (h : members fuel (0x22 :: s) = some (fields, tail)) :
    value (fuel + 1) (0x7b :: 0x22 :: s) = some (.obj fields, tail) := by
  rw [value, show skipSpace (0x7b :: 0x22 :: s) = 0x7b :: 0x22 :: s by rfl]
  simp only [if_true]
  rw [show skipSpace (0x22 :: s) = 0x22 :: s by rfl]
  show ((members fuel (0x22 :: s)).bind fun p => some (JsValue.obj p.1, p.2)) = _
  rw [h]
  rfl

/-- What the app writes of an SMS. -/
def lineValue (c : Captured) : JsValue :=
  .obj [(js "from", .str c.sender), (js "text", .str c.text), (js "date", .num (integerText c.date))]

theorem line_eq (c : Captured) : line c =
    0x7b :: 0x22 :: (js "from" ++ 0x22 :: 0x3a :: 0x22 :: (esc c.sender ++ 0x22 :: 0x2c ::
      0x22 :: (js "text" ++ 0x22 :: 0x3a :: 0x22 :: (esc c.text ++ 0x22 :: 0x2c ::
        0x22 :: (js "date" ++ 0x22 :: 0x3a :: (integerText c.date ++ [0x7d])))))) := by
  simp only [line, List.append_assoc]
  rfl

/-- A string member with more members behind it. -/
theorem members_str {k : JsString} (hk : esc k = k) {fuel : Nat} (s : JsString) {rest : JsString}
    {fields : List (JsString × JsValue)} {tail : JsString}
    (hrest : members (fuel + 1) rest = some (fields, tail)) :
    members (fuel + 2) (0x22 :: (k ++ 0x22 :: 0x3a :: 0x22 :: (esc s ++ 0x22 :: 0x2c :: rest))) =
      some ((k, .str s) :: fields, tail) := by
  rw [members_member hk (fuel + 1) (value_str fuel s (0x2c :: rest)),
    show skipSpace (0x2c :: rest) = 0x2c :: rest by rfl]
  simp only [if_true, hrest, Option.bind_eq_bind, Option.bind_some]

/-- Every line of the app is an object of its SMS. -/
theorem parse_line (c : Captured) : Json.parse (line c) = some (lineValue c) := by
  have hlen : 5 ≤ 2 * (line c).length + 2 := by
    rw [line_eq]
    simp only [List.length_cons]
    omega
  obtain ⟨fuel, hfuel⟩ := Nat.exists_eq_add_of_le' hlen
  have hdate : members (fuel + 2) (0x22 :: (js "date" ++ 0x22 :: 0x3a ::
      (integerText c.date ++ [0x7d]))) =
      some ([(js "date", .num (integerText c.date))], []) :=
    members_member (by decide) (fuel + 1) (value_integer fuel c.date [])
  have htext := members_str (by decide : esc (js "text") = js "text") c.text hdate
  have hfrom := members_str (by decide : esc (js "from") = js "from") c.sender htext
  have hvalue : value (fuel + 5) (line c) = some (lineValue c, []) := by
    rw [line_eq]
    exact value_members hfrom
  rw [Json.parse, hfuel, hvalue]
  rfl

/-! ### One line each -/

/-- The text has no control characters. -/
def visible (s : JsString) : Bool := s.all fun u => !decide (u < 0x20)

theorem visible_append (s t : JsString) : visible (s ++ t) = (visible s && visible t) :=
  List.all_append

theorem lf_not_mem_of_visible {s : JsString} (h : visible s = true) : LF ∉ s := by
  intro hm
  exact absurd (List.all_eq_true.mp h LF hm) (by decide)

theorem visible_escUnit (c : CodeUnit) : visible (escUnit c) = true := by
  unfold escUnit
  split
  case isTrue => decide
  split
  case isTrue => decide
  split
  case isTrue => decide
  split
  case isTrue => decide
  split
  case isTrue => decide
  split
  case isTrue h =>
    exact units_below (fun c => visible (js "\\u00" ++ [hexLower (c.toNat / 16),
      hexLower (c.toNat % 16)]) = true) (by decide +kernel) h
  case isFalse h => simp [visible, h]

theorem visible_esc (s : JsString) : visible (esc s) = true := by
  induction s with
  | nil => rfl
  | cons c s ih =>
      rw [esc, List.flatMap_cons, visible_append, visible_escUnit, ← esc, ih]
      rfl

theorem visible_decimal (n : Nat) : visible (decimal n) = true := by
  refine List.all_eq_true.mpr fun c hc => ?_
  have h := decimal_digits n c hc
  simp only [isDigit, Bool.and_eq_true, decide_eq_true_eq, UInt16.le_iff_toNat_le] at h
  rw [Bool.not_eq_true', decide_eq_false_iff_not, UInt16.lt_iff_toNat_lt]
  simp only [UInt16.reduceToNat] at h ⊢
  omega

theorem visible_line (c : Captured) : visible (line c) = true := by
  have hdate : visible (integerText c.date) = true := by
    unfold integerText
    split
    · rw [visible_append, visible_decimal]
      rfl
    · exact visible_decimal _
  simp only [line, visible_append, visible_esc, hdate]
  decide

theorem lf_not_mem_line (c : Captured) : LF ∉ line c := lf_not_mem_of_visible (visible_line c)

theorem trim_line (c : Captured) : trim (line c) = line c := by
  have hshape : line c = 0x7b :: ((js "\"from\":\"" ++ esc c.sender ++ js "\",\"text\":\"" ++
      esc c.text ++ js "\",\"date\":" ++ integerText c.date) ++ [0x7d]) := by
    simp only [line, List.append_assoc]
    rfl
  rw [hshape]
  exact trim_eq_self (by decide) (by decide)

theorem readInteger_decimal (n : Nat) :
    decimal n ≠ [] ∧ (decimal n).all isDigit = true ∧ parseInt (decimal n) = n :=
  ⟨decimal_ne_nil n, List.all_eq_true.mpr (decimal_digits n), parseInt_decimal n⟩

theorem readInteger_integerText (n : Int) : readInteger (integerText n) = some n := by
  obtain ⟨hne, hall, hparse⟩ := readInteger_decimal n.natAbs
  unfold integerText
  split
  case isTrue h =>
    show (if decimal n.natAbs ≠ [] ∧ (decimal n.natAbs).all isDigit = true then
      some (parseInt (decimal n.natAbs)) else none).map (fun n : Nat => -(n : Int)) = some n
    rw [if_pos ⟨hne, hall⟩, hparse]
    show some (-(n.natAbs : Int)) = some n
    congr 1
    omega
  case isFalse h =>
    obtain ⟨d, ds, hd⟩ := List.exists_cons_of_ne_nil hne
    have hminus : d ≠ 0x2d := by
      rintro rfl
      have hdigit := decimal_digits n.natAbs 0x2d (hd ▸ List.mem_cons_self)
      revert hdigit
      decide
    have hread : readInteger (decimal n.natAbs) =
        Option.map (fun m : Nat => (m : Int)) (if decimal n.natAbs ≠ [] ∧
          (decimal n.natAbs).all isDigit = true then some (parseInt (decimal n.natAbs))
          else none) := by
      rw [hd]
      unfold readInteger
      split
      case h_1 hm => exact absurd (List.cons.inj hm).1 hminus
      case h_2 => rfl
    rw [hread, if_pos ⟨hne, hall⟩, hparse]
    show some (n.natAbs : Int) = some n
    congr 1
    omega

theorem integerText_eq_zero {n : Int} : integerText n = js "0" ↔ n = 0 := by
  constructor
  · intro h
    have hread := readInteger_integerText n
    rw [h] at hread
    exact (Option.some.inj hread).symm
  · rintro rfl
    rfl

/-- The date of an SMS as the driver reports it; a time of 0 counts as none. -/
def dateOf (c : Captured) : JsString :=
  if c.date = 0 then [] else ((toISOString c.date).toOption).getD []

def report (c : Captured) : Message :=
  { status := js "REC UNREAD", sender := .str c.sender, date := dateOf c, text := .str c.text }

theorem orEmpty_str (s : JsString) : orEmpty (.str s) = .str s := by
  cases s <;> rfl

theorem toISOString_date (c : Captured) :
    ∃ s, toISOString c.date = .ok s ∧ (toISOString c.date).toOption.getD [] = s := by
  unfold toISOString
  rw [if_pos c.date_ok]
  exact ⟨_, rfl, rfl⟩

theorem toMessage_lineValue (otherDate : JsValue → Except JsError JsString) (c : Captured) :
    toMessage otherDate (lineValue c) = .ok (report c) := by
  have hfrom : prop (lineValue c) (js "from") = .ok (.str c.sender) := rfl
  have hdate : prop (lineValue c) (js "date") = .ok (.num (integerText c.date)) := rfl
  have htext : prop (lineValue c) (js "text") = .ok (.str c.text) := rfl
  by_cases hzero : c.date = 0
  · simp only [toMessage, hfrom, hdate, htext, bind, Except.bind, orEmpty_str, report, dateOf,
      hzero, if_true]
    rfl
  · have htrue : truthy (.num (integerText c.date)) = true := by
      simpa [truthy] using mt integerText_eq_zero.mp hzero
    obtain ⟨s, hs, hget⟩ := toISOString_date c
    have hstamp : dateString otherDate (.num (integerText c.date)) = .ok s := by
      rw [dateString, readInteger_integerText]
      exact hs
    simp only [toMessage, hfrom, hdate, htext, bind, Except.bind, htrue, if_true, hstamp,
      orEmpty_str, report, dateOf, hzero, if_false, hget]
    rfl

/-- The driver reads back what the app wrote, also from behind a carriage return. -/
theorem readLine_line (otherDate : JsValue → Except JsError JsString) (c : Captured)
    {eol : JsString} (heol : eol = [] ∨ eol = [CR]) :
    readLine otherDate (line c ++ eol) = some (report c) := by
  have htrim : trim (line c ++ eol) = line c := by
    rcases heol with rfl | rfl
    · rw [List.append_nil, trim_line]
    · rw [trim_append_space (by decide), trim_line]
  have hne : line c ≠ [] := by
    rw [line_eq]
    exact List.cons_ne_nil _ _
  unfold readLine
  rw [htrim, if_neg hne, parse_line]
  dsimp only
  rw [toMessage_lineValue]
  rfl

/-! ### Many lines -/

/-- The end of a line as it may arrive. -/
def IsEol (eol : JsString) : Prop := eol = [] ∨ eol = [CR]

/-- The lines as they arrive, each with the end it has got. -/
def arrivedText (lines : List (Captured × JsString)) : JsString :=
  lines.flatMap fun l => line l.1 ++ l.2 ++ [LF]

theorem arrivedText_cons (c : Captured) (eol : JsString) (lines : List (Captured × JsString)) :
    arrivedText ((c, eol) :: lines) = line c ++ eol ++ [LF] ++ arrivedText lines := rfl

theorem splitLines_arrived {lines : List (Captured × JsString)} (h : ∀ l ∈ lines, IsEol l.2) :
    splitLines (arrivedText lines) = (lines.map fun l => line l.1 ++ l.2) ++ [[]] := by
  induction lines with
  | nil => rfl
  | cons l lines ih =>
      have hrest := ih fun x hx => h x (List.mem_cons_of_mem l hx)
      have hlf : LF ∉ line l.1 ++ l.2 := by
        have heol : LF ∉ l.2 := by
          rcases h l List.mem_cons_self with he | he
          · simp [he]
          · rw [he]; decide
        simp [lf_not_mem_line, heol]
      have hcons : arrivedText (l :: lines) = line l.1 ++ l.2 ++ LF :: arrivedText lines := by
        simp [arrivedText]
      rw [splitLines, hcons, Lines.pieces_piece hlf, Lines.tail_piece hlf, List.cons_append,
        ← splitLines, hrest]
      rfl

/-- Each line is reported, whichever end it has got. -/
theorem readLines_arrived (otherDate : JsValue → Except JsError JsString)
    {lines : List (Captured × JsString)} (h : ∀ l ∈ lines, IsEol l.2) :
    readLines otherDate (arrivedText lines) = lines.map fun l => report l.1 := by
  have hlast : List.filterMap (readLine otherDate) [[]] = [] := rfl
  rw [readLines, splitLines_arrived h, List.filterMap_append, hlast, List.append_nil,
    List.filterMap_map, ← List.filterMap_eq_map]
  apply List.filterMap_congr
  intro l hl
  rw [Function.comp_apply, readLine_line otherDate l.1 (h l hl)]
  rfl

end SmsGateway.Adb
