import SmsGateway.Adb.Torn

/-!
# The bridge's files

A file is kept as the lines it was written from, so that an SMS can be followed through
copies of it. A copy may be cut off after any character.
-/

namespace SmsGateway.Adb

open SmsGateway Json
open Lib

/-- A line as the app wrote it, or its first characters where a copy was cut off. -/
inductive Entry where
  | whole (c : Captured)
  | torn (c : Captured) (length : Nat)
  deriving DecidableEq

abbrev File := List Entry

def Entry.sms : Entry → Captured
  | .whole c => c
  | .torn c _ => c

/-- The text of an entry; a terminal may put a carriage return before the line feed. -/
def Entry.text (eol : JsString) : Entry → JsString
  | .whole c => line c ++ eol ++ [LF]
  | .torn c n => (line c ++ eol).take n

def fileText (eol : JsString) (f : File) : JsString := f.flatMap (Entry.text eol)

/-- The first `n` characters of a file. -/
def cutAt (eol : JsString) : Nat → File → File
  | _, [] => []
  | 0, _ :: _ => []
  | n + 1, e :: f =>
      if (e.text eol).length ≤ n + 1 then e :: cutAt eol (n + 1 - (e.text eol).length) f
      else [.torn e.sms (n + 1)]

theorem text_take {eol : JsString} {e : Entry} {n : Nat} (h : n < (e.text eol).length) :
    (Entry.torn e.sms n).text eol = (e.text eol).take n := by
  cases e with
  | whole c =>
      have hn : n ≤ (line c ++ eol).length := by
        simp only [Entry.text, List.length_append, List.length_singleton] at h ⊢
        omega
      exact (List.take_append_of_le_length hn).symm
  | torn c m =>
      have hn : n ≤ m := by
        simp only [Entry.text, List.length_take] at h
        omega
      show (line c ++ eol).take n = ((line c ++ eol).take m).take n
      rw [List.take_take, Nat.min_eq_left hn]

/-- A cut falls after any character of the text. -/
theorem fileText_cutAt (eol : JsString) (n : Nat) (f : File) :
    fileText eol (cutAt eol n f) = (fileText eol f).take n := by
  induction f generalizing n with
  | nil => cases n <;> rfl
  | cons e f ih =>
      cases n with
      | zero => rfl
      | succ n =>
          have htext : fileText eol (e :: f) = e.text eol ++ fileText eol f := rfl
          rw [cutAt, htext, List.take_append]
          split
          case isTrue h =>
            rw [List.take_of_length_le h, ← ih]
            rfl
          case isFalse h =>
            have hlt := Nat.lt_of_not_le h
            rw [Nat.sub_eq_zero_of_le hlt.le, List.take_zero, List.append_nil, ← text_take hlt]
            exact List.append_nil _

/-! ## What the driver reads of a file -/

/-- What a line holds so far. -/
inductive Held where
  | nothing
  | only (c : Captured)
  | broken
  deriving DecidableEq

/-- The line goes on with the first characters of the line of an SMS. -/
def Held.extend (h : Held) (c : Captured) (n : Nat) : Held :=
  if n = 0 then h
  else if h = .nothing ∧ (line c).length ≤ n then .only c
  else .broken

/-- The SMS that have a line of the file to themselves, whole but for its end: a torn line is
continued by the next one, and the last line needs no line feed. -/
def readable : Held → File → List Captured
  | .only c, [] => [c]
  | _, [] => []
  | .nothing, .whole c :: f => c :: readable .nothing f
  | _, .whole _ :: f => readable .nothing f
  | h, .torn c n :: f => readable (h.extend c n) f

/-- The text of a line that holds so much. -/
def Held.Of : Held → JsString → Prop
  | .nothing, s => s = []
  | .only c, s => ∃ eol, IsEol eol ∧ s = line c ++ eol
  | .broken, s => Broken s

theorem joined_take (c : Captured) {eol : JsString} (heol : IsEol eol) (n : Nat) :
    Joined ((line c ++ eol).take n) := by
  have hline : Joined (line c ++ eol) := by
    refine .part List.prefix_rfl (line_ne_nil c) ?_
    rw [← List.append_nil eol]
    exact joined_eol heol .nil
  exact hline.of_prefix (List.take_prefix n _)

theorem eol_take {eol : JsString} (heol : IsEol eol) (n : Nat) : IsEol (eol.take n) := by
  rcases heol with rfl | rfl
  · exact Or.inl List.take_nil
  · cases n with
    | zero => exact Or.inl rfl
    | succ n => exact Or.inr (List.take_of_length_le (by simp))

/-- Behind the text of an SMS, any beginning of another line breaks it. -/
theorem broken_only (c e : Captured) {eol tail : JsString} (heol : IsEol eol)
    (htail : IsEol tail) {n : Nat} (hn : n ≠ 0) :
    Broken (line c ++ eol ++ (line e ++ tail).take n) := by
  have hjoined := joined_take e htail n
  obtain ⟨t, ht⟩ := line_head e
  obtain ⟨m, rfl⟩ := Nat.exists_eq_succ_of_ne_zero hn
  rw [ht, List.cons_append, List.take_succ_cons] at hjoined ⊢
  exact .long c heol hjoined

theorem Held.Of.extend {h : Held} {pre : JsString} (hpre : h.Of pre) (c : Captured)
    {eol : JsString} (heol : IsEol eol) (n : Nat) :
    (h.extend c n).Of (pre ++ (line c ++ eol).take n) := by
  by_cases hn : n = 0
  · rw [Held.extend, if_pos hn, hn, List.take_zero, List.append_nil]
    exact hpre
  rw [Held.extend, if_neg hn]
  cases h with
  | nothing =>
      rw [show pre = [] from hpre, List.nil_append]
      by_cases hfull : (line c).length ≤ n
      · rw [if_pos ⟨rfl, hfull⟩, List.take_append, List.take_of_length_le hfull]
        exact ⟨_, eol_take heol _, rfl⟩
      · rw [if_neg fun h => hfull h.2]
        have hlt := Nat.lt_of_not_le hfull
        rw [List.take_append_of_le_length hlt.le, ← List.append_nil (List.take n (line c))]
        refine .short (List.take_prefix n _) ?_ ?_ .nil
        · intro hnil
          rcases List.take_eq_nil_iff.mp hnil with h | h
          · exact hn h
          · exact line_ne_nil c h
        · intro he
          have hlen := congrArg List.length he
          rw [List.length_take] at hlen
          omega
  | only d =>
      rw [if_neg fun h => by cases h.1]
      obtain ⟨tail, htail, rfl⟩ := hpre
      exact broken_only d c htail heol hn
  | broken =>
      rw [if_neg fun h => by cases h.1]
      exact Broken.append hpre (joined_take c heol n)

/-- What is read of a line that goes on with a whole one. -/
theorem readLine_whole (otherDate : JsValue → Except JsError JsString) {h : Held}
    {pre : JsString} (hpre : h.Of pre) (c : Captured) {eol : JsString} (heol : IsEol eol) :
    readLine otherDate (pre ++ line c ++ eol) =
      if h = .nothing then some (report c) else none := by
  cases h with
  | nothing =>
      rw [show pre = [] from hpre, List.nil_append, if_pos rfl]
      exact readLine_line otherDate c heol
  | only d =>
      obtain ⟨tail, htail, rfl⟩ := hpre
      rw [if_neg nofun, List.append_assoc]
      have hpos : (line c ++ eol).length ≠ 0 := by
        have hline := List.length_pos_of_ne_nil (line_ne_nil c)
        rw [List.length_append]
        omega
      have hbroken := broken_only d c htail heol hpos
      rw [List.take_length] at hbroken
      exact readLine_broken otherDate hbroken
  | broken =>
      rw [if_neg nofun, List.append_assoc]
      refine readLine_broken otherDate (Broken.append hpre ?_)
      rw [← List.take_length (l := line c ++ eol)]
      exact joined_take c heol _

/-- What is read of the last line. -/
theorem readLine_last (otherDate : JsValue → Except JsError JsString) {h : Held}
    {pre : JsString} (hpre : h.Of pre) :
    (readLine otherDate pre).toList = (readable h []).map report := by
  cases h with
  | nothing =>
      rw [show pre = [] from hpre]
      rfl
  | only c =>
      obtain ⟨eol, heol, rfl⟩ := hpre
      rw [readLine_line otherDate c heol]
      rfl
  | broken =>
      rw [readLine_broken otherDate hpre]
      rfl

theorem splitLines_piece {p : JsString} (hp : LF ∉ p) (s : JsString) :
    splitLines (p ++ LF :: s) = p :: splitLines s := by
  rw [splitLines, Lines.pieces_piece hp, Lines.tail_piece hp, List.cons_append, ← splitLines]

theorem lf_not_mem_eol {eol : JsString} (heol : IsEol eol) : LF ∉ eol := by
  rcases heol with rfl | rfl <;> decide

theorem readLines_held (otherDate : JsValue → Except JsError JsString) {eol : JsString}
    (heol : IsEol eol) (f : File) {h : Held} {pre : JsString} (hpre : h.Of pre) (hlf : LF ∉ pre) :
    readLines otherDate (pre ++ fileText eol f) = (readable h f).map report := by
  induction f generalizing h pre with
  | nil =>
      have hsplit : splitLines pre = [pre] := by
        rw [splitLines, Lines.pieces, Lines.tail, Lines.split_tail hlf]
        rfl
      rw [fileText, List.flatMap_nil, List.append_nil, readLines, hsplit,
        ← readLine_last otherDate hpre]
      cases hr : readLine otherDate pre <;> simp [hr]
  | cons e f ih =>
      cases e with
      | whole c =>
          have hpiece : LF ∉ pre ++ line c ++ eol := by
            simp only [List.mem_append, not_or]
            exact ⟨⟨hlf, lf_not_mem_line c⟩, lf_not_mem_eol heol⟩
          have htext : pre ++ fileText eol (.whole c :: f) =
              (pre ++ line c ++ eol) ++ LF :: fileText eol f := by
            simp [fileText, Entry.text]
          have hrest := @ih .nothing [] rfl List.not_mem_nil
          rw [List.nil_append, readLines] at hrest
          rw [htext, readLines, splitLines_piece hpiece, List.filterMap_cons, hrest,
            readLine_whole otherDate hpre c heol]
          cases h <;> rfl
      | torn c n =>
          have htext : pre ++ fileText eol (.torn c n :: f) =
              (pre ++ (line c ++ eol).take n) ++ fileText eol f := by
            simp [fileText, Entry.text]
          have hnext : LF ∉ pre ++ (line c ++ eol).take n := by
            have hline : LF ∉ line c ++ eol := by
              simp only [List.mem_append, not_or]
              exact ⟨lf_not_mem_line c, lf_not_mem_eol heol⟩
            simp only [List.mem_append, not_or]
            exact ⟨hlf, fun hm => hline (List.mem_of_mem_take hm)⟩
          have hread : readable h (.torn c n :: f) = readable (h.extend c n) f := by
            cases h <;> rfl
          rw [htext, hread]
          exact ih (hpre.extend c heol n) hnext

/-- The driver reports exactly the readable SMS of the file, in their order. -/
theorem readLines_fileText (otherDate : JsValue → Except JsError JsString) {eol : JsString}
    (heol : IsEol eol) (f : File) :
    readLines otherDate (fileText eol f) = (readable .nothing f).map report :=
  @readLines_held otherDate eol heol f .nothing [] rfl List.not_mem_nil

end SmsGateway.Adb
