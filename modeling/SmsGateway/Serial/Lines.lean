import SmsGateway.Js
import SmsGateway.Lib.Lines

/-!
# Lines of the modem's text

The loop of `handleData` cuts the received text at line breaks, trims each line
and skips the empty ones.
-/

namespace SmsGateway.Serial

open SmsGateway Lib

/-- `rxBuffer.search(/\r\n|\n/)`: the text before the line break and the text behind it. -/
def cutLine : JsString → Option (JsString × JsString)
  | [] => none
  | c :: rest =>
      if c = LF then some ([], rest)
      else if c = CR ∧ rest.head? = some LF then some ([], rest.tail)
      else (cutLine rest).map fun (line, rest) => (c :: line, rest)

theorem cutLine_length {rx line rest : JsString} (h : cutLine rx = some (line, rest)) :
    rest.length < rx.length := by
  induction rx generalizing line with
  | nil => simp [cutLine] at h
  | cons c rx ih =>
      unfold cutLine at h
      split at h
      · obtain ⟨-, rfl⟩ := Prod.mk.inj (Option.some.inj h)
        simp
      · split at h
        · obtain ⟨-, rfl⟩ := Prod.mk.inj (Option.some.inj h)
          simp only [List.length_tail, List.length_cons]
          omega
        · obtain ⟨⟨l, r⟩, hl, he⟩ := Option.map_eq_some_iff.mp h
          obtain ⟨-, rfl⟩ := Prod.mk.inj he
          have hlt := ih hl
          simp only [List.length_cons]
          omega

/-- The `while` loop of `handleData`: the lines it hands on and the text it leaves. -/
def readLines (rx : JsString) : List JsString × JsString :=
  match _h : cutLine rx with
  | none => ([], rx)
  | some (line, rest) =>
      let r := readLines rest
      (if trim line = [] then r.1 else trim line :: r.1, r.2)
termination_by rx.length
decreasing_by exact cutLine_length _h

/-! ## The loop splits at line feeds -/

/-- The line break search finds the first line feed; a return before it belongs to the break. -/
theorem cutLine_piece {p : JsString} (hp : LF ∉ p) (rest : JsString) :
    ∃ line, cutLine (p ++ LF :: rest) = some (line, rest) ∧ (p = line ∨ p = line ++ [CR]) := by
  induction p with
  | nil => exact ⟨[], by simp [cutLine], Or.inl rfl⟩
  | cons c p ih =>
      have hc : c ≠ LF := fun he => hp (he ▸ List.mem_cons_self)
      obtain ⟨line, hline, hcases⟩ := ih fun h => hp (List.mem_cons_of_mem c h)
      rw [List.cons_append, cutLine, if_neg hc]
      by_cases hbreak : c = CR ∧ (p ++ LF :: rest).head? = some LF
      · have hnil : p = [] := by
          cases p with
          | nil => rfl
          | cons d p =>
              have hd : d = LF := by simpa using hbreak.2
              exact absurd (by simp [hd]) hp
        subst hnil
        exact ⟨[], by rw [if_pos hbreak]; rfl, Or.inr (by rw [hbreak.1]; rfl)⟩
      · rw [if_neg hbreak, hline]
        refine ⟨c :: line, rfl, ?_⟩
        rcases hcases with rfl | rfl
        · exact Or.inl rfl
        · exact Or.inr rfl

theorem trim_cutLine {p line : JsString} (h : p = line ∨ p = line ++ [CR]) : trim line = trim p := by
  rcases h with rfl | rfl
  · rfl
  · exact (trim_append_space (by decide) line).symm

theorem cutLine_none {s : JsString} (h : LF ∉ s) : cutLine s = none := by
  induction s with
  | nil => rfl
  | cons c s ih =>
      have hc : c ≠ LF := fun he => h (he ▸ List.mem_cons_self)
      have hs : LF ∉ s := fun hm => h (List.mem_cons_of_mem c hm)
      have hhead : ¬(c = CR ∧ s.head? = some LF) := by
        rintro ⟨-, hh⟩
        exact hs (List.mem_of_head? hh)
      rw [cutLine, if_neg hc, if_neg hhead, ih hs]
      rfl

/-- The lines of a text: its pieces, trimmed, without the empty ones. -/
def linesOf (text : JsString) : List JsString :=
  ((Lines.pieces LF text).map trim).filter (· ≠ [])

theorem readLines_eq (rx : JsString) : readLines rx = (linesOf rx, Lines.tail LF rx) := by
  induction hn : rx.length using Nat.strong_induction_on generalizing rx with
  | _ n ih =>
      rw [readLines]
      by_cases hlf : LF ∈ rx
      · obtain ⟨p, rest, hp, rfl⟩ := Lines.exists_piece hlf
        obtain ⟨line, hline, hcases⟩ := cutLine_piece hp rest
        have htrim := trim_cutLine hcases
        have hlt : rest.length < n := by
          rw [← hn, List.length_append, List.length_cons]
          omega
        have hrest := ih rest.length hlt rest rfl
        split
        case h_1 hnone => rw [hline] at hnone; cases hnone
        case h_2 l r hsome =>
          rw [hline] at hsome
          obtain ⟨rfl, rfl⟩ := Prod.mk.inj (Option.some.inj hsome)
          rw [hrest, htrim, Lines.tail_piece hp, linesOf, linesOf, Lines.pieces_piece hp]
          by_cases he : trim p = []
          · simp [he]
          · simp [he]
      · have hnone := cutLine_none hlf
        split
        case h_1 => simp [linesOf, Lines.pieces, Lines.tail, Lines.split_tail hlf]
        case h_2 l r hsome => rw [hnone] at hsome; cases hsome

theorem linesOf_append (a b : JsString) :
    linesOf (a ++ LF :: b) = linesOf (a ++ [LF]) ++ linesOf b := by
  rw [linesOf, Lines.pieces_append, List.map_append, List.filter_append]
  rfl

/-- Chunks are read like their text. -/
theorem readLines_append (a b : JsString) :
    readLines (a ++ b) = (linesOf a ++ linesOf (Lines.tail LF a ++ b), Lines.tail LF (Lines.tail LF a ++ b)) := by
  obtain ⟨hpieces, htail⟩ := Lines.split_append LF a b
  rw [readLines_eq, linesOf, hpieces, htail, List.map_append, List.filter_append]
  rfl

theorem linesOf_tail_append (a b : JsString) :
    linesOf (a ++ b) = linesOf a ++ linesOf (Lines.tail LF a ++ b) := by
  have h := readLines_append a b
  rw [readLines_eq] at h
  exact (Prod.mk.inj h).1

theorem trim_eq_nil_iff {s : JsString} : trim s = [] ↔ ∀ c ∈ s, isSpace c = true := by
  rw [trim, trimEnd, List.reverse_eq_nil_iff, List.dropWhile_eq_nil_iff]
  constructor
  · intro h c hc
    have hall : ∀ x ∈ trimStart s, isSpace x = true := fun x hx => h x (List.mem_reverse.mpr hx)
    rw [← List.takeWhile_append_dropWhile (p := isSpace) (l := s)] at hc
    obtain hc | hc := List.mem_append.mp hc
    · exact List.mem_takeWhile_imp hc
    · exact hall c hc
  · intro h c hc
    exact h c ((List.dropWhile_suffix isSpace).subset (List.mem_reverse.mp hc))

/-- What follows a text without lines to come has none of its own. -/
theorem linesOf_eq_nil_right {a b : JsString} (h : linesOf (a ++ b) = []) : linesOf b = [] := by
  rw [linesOf_tail_append, List.append_eq_nil_iff] at h
  obtain ⟨-, h⟩ := h
  have htail := Lines.not_mem_tail LF a
  generalize Lines.tail LF a = t at h htail
  by_cases hlf : LF ∈ b
  · obtain ⟨p, rest, hp, rfl⟩ := Lines.exists_piece hlf
    have htp : LF ∉ t ++ p := by
      rw [List.mem_append, not_or]
      exact ⟨htail, hp⟩
    rw [← List.append_assoc, linesOf, Lines.pieces_piece htp, List.map_cons, List.filter_cons] at h
    have hblank : trim (t ++ p) = [] := by
      by_contra hne
      simp [hne] at h
    have hblank' : trim p = [] :=
      trim_eq_nil_iff.mpr fun c hc => trim_eq_nil_iff.mp hblank c (List.mem_append_right t hc)
    have hrest : linesOf rest = [] := by simpa [hblank, linesOf] using h
    rw [linesOf, Lines.pieces_piece hp, List.map_cons, List.filter_cons, hblank']
    simpa [linesOf] using hrest
  · rw [linesOf, Lines.pieces, Lines.split_tail hlf]
    rfl

/-- Blanks before a line make no difference to it. -/
theorem lines_congr {a b : JsString} (h : trimStart a = trimStart b) (ha : LF ∉ a) (hb : LF ∉ b)
    (c : JsString) : linesOf (a ++ c) = linesOf (b ++ c) ∧
      trimStart (Lines.tail LF (a ++ c)) = trimStart (Lines.tail LF (b ++ c)) := by
  have hstart (d : JsString) : trimStart (a ++ d) = trimStart (b ++ d) := by
    simp only [trimStart] at h
    simp only [trimStart, List.dropWhile_append, h]
  by_cases hc : LF ∈ c
  · obtain ⟨p, rest, hp, rfl⟩ := Lines.exists_piece hc
    have hap : LF ∉ a ++ p := by simp [ha, hp]
    have hbp : LF ∉ b ++ p := by simp [hb, hp]
    have htrim : trim (a ++ p) = trim (b ++ p) := by rw [trim, trim, hstart]
    rw [← List.append_assoc, ← List.append_assoc, Lines.tail_piece hap, Lines.tail_piece hbp, linesOf,
      linesOf, Lines.pieces_piece hap, Lines.pieces_piece hbp, List.map_cons, List.map_cons, htrim]
    exact ⟨rfl, rfl⟩
  · have hac : LF ∉ a ++ c := by simp [ha, hc]
    have hbc : LF ∉ b ++ c := by simp [hb, hc]
    simp only [linesOf, Lines.pieces, Lines.tail, Lines.split_tail hac, Lines.split_tail hbc]
    exact ⟨trivial, hstart c⟩

end SmsGateway.Serial
