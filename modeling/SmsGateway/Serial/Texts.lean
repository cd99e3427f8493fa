import SmsGateway.Serial.Inbox

/-!
# The text of a listed message

The driver trims the lines of a listing and skips the empty ones before it puts the text of a
message together again.
-/

namespace SmsGateway.Serial.Texts

open SmsGateway Lib Lib.Async
open Listing (Stored Answers crlf listingText upToTerminal greeting listing answers_listing
  run_getMessages)
open Inbox (Clean joinLines reportedText listed parseListing_listingText)

/-- The lines of a text, `s.split('\n')`. -/
def textLines (s : JsString) : List JsString := s.splitOn LF

/-- A line that is handed on, and as it is. -/
def IsKept (line : JsString) : Prop := line ≠ [] ∧ trim line = line

instance : DecidablePred IsKept := fun _ => inferInstanceAs (Decidable (_ ∧ _))

/-- A text without blank lines, all of them without blanks at their ends; or no text at all. -/
def IsUnaltered (text : JsString) : Prop := text = [] ∨ ∀ line ∈ textLines text, IsKept line

instance : DecidablePred IsUnaltered := fun _ => inferInstanceAs (Decidable (_ ∨ _))

/-- A stored message as the caller is to get it. -/
def message (m : Stored) : Message :=
  { status := m.status, sender := m.sender, date := m.date, text := m.text }

/-- The call reports exactly the stored messages, in order. -/
def Inverts (l : List Stored) (persist : Bool) (o : Oracle Op Ans) : Prop :=
  result o 0 (getMessages persist) = .ok (l.map message)

/-! ## Lines and their text -/

/-- The joiner once there is a text. -/
theorem foldl_joiner {text : JsString} (hne : text ≠ []) (lines : List JsString) :
    lines.foldl (fun text line => text ++ (if text = [] then [] else [LF]) ++ line) text =
      [LF].intercalate (text :: lines) := by
  induction lines generalizing text with
  | nil => simp
  | cons line lines ih =>
      have hnext : text ++ [LF] ++ line ≠ [] := by simp
      rw [List.foldl_cons, if_neg hne, ih hnext]
      cases lines with
      | nil => simp
      | cons next lines => simp

theorem joinLines_eq {lines : List JsString} (h : ∀ line ∈ lines, line ≠ []) :
    joinLines lines = [LF].intercalate lines := by
  cases lines with
  | nil => rfl
  | cons line lines =>
      have hjoined := foldl_joiner (h line List.mem_cons_self) lines
      simpa [joinLines] using hjoined

theorem textLines_joinLines {lines : List JsString} (hne : lines ≠ [])
    (h : ∀ line ∈ lines, line ≠ [] ∧ LF ∉ line) : textLines (joinLines lines) = lines := by
  rw [joinLines_eq fun line hline => (h line hline).1]
  exact List.splitOn_intercalate LF (fun line hline => (h line hline).2) hne

/-- The lines of a text as they are handed on. -/
theorem linesOf_crlf (text : JsString) :
    linesOf (text ++ crlf) = ((textLines text).map trim).filter (· ≠ []) := by
  have htail : LF ∉ Lines.tail LF text ++ [CR] := by
    rw [List.mem_append, not_or]
    exact ⟨Lines.not_mem_tail LF text, by decide⟩
  have htrim : trim (Lines.tail LF text ++ [CR]) = trim (Lines.tail LF text) :=
    trim_append_space (by decide) _
  have hpieces : Lines.pieces LF (text ++ crlf) =
      Lines.pieces LF text ++ [Lines.tail LF text ++ [CR]] := by
    rw [(Lines.split_append LF text crlf).1,
      show Lines.tail LF text ++ crlf = (Lines.tail LF text ++ [CR]) ++ [LF] by simp [crlf],
      Lines.pieces_piece htail, Lines.pieces_nil]
  rw [linesOf, hpieces, textLines, Lines.splitOn_eq, List.map_append, List.map_append,
    List.map_singleton, List.map_singleton, htrim]

/-- An unaltered text is handed on line by line. -/
theorem linesOf_unaltered {text : JsString} (h : IsUnaltered text) :
    linesOf (text ++ crlf) = if text = [] then [] else textLines text := by
  rw [linesOf_crlf]
  obtain rfl | hkept := h
  · decide
  · have hne : text ≠ [] := by
      rintro rfl
      exact (hkept [] (by decide)).1 rfl
    have hsame : (textLines text).map trim = textLines text := by
      conv_rhs => rw [← List.map_id (textLines text)]
      exact List.map_congr_left fun line hline => (hkept line hline).2
    rw [if_neg hne, hsame, List.filter_eq_self]
    intro line hline
    simpa using (hkept line hline).1

theorem reportedText_unaltered {text : JsString} (h : IsUnaltered text) :
    reportedText text = text := by
  rw [reportedText, linesOf_unaltered h]
  by_cases hnil : text = []
  · rw [if_pos hnil, hnil]
    rfl
  · have hkept : ∀ line ∈ textLines text, IsKept line := h.resolve_left hnil
    rw [if_neg hnil, joinLines_eq fun line hline => (hkept line hline).1]
    exact List.intercalate_splitOn LF

/-! ## Texts that the parser can make -/

/-- A text put together from lines that are handed on. -/
def IsMade (text : JsString) : Prop :=
  ∃ lines : List JsString, (∀ line ∈ lines, IsKept line ∧ LF ∉ line) ∧ text = joinLines lines

theorem IsMade.unaltered {text : JsString} (h : IsMade text) : IsUnaltered text := by
  obtain ⟨lines, hlines, rfl⟩ := h
  by_cases hnil : lines = []
  · subst hnil
    exact Or.inl rfl
  · right
    have hsplit := textLines_joinLines hnil fun line hline =>
      ⟨(hlines line hline).1.1, (hlines line hline).2⟩
    rw [hsplit]
    exact fun line hline => (hlines line hline).1

theorem IsMade.addLine {m : Listed} {line : JsString} (h : IsMade m.message.text)
    (hline : IsKept line ∧ LF ∉ line) : IsMade (m.addLine line).message.text := by
  obtain ⟨lines, hlines, htext⟩ := h
  refine ⟨lines ++ [line], ?_, ?_⟩
  · intro l hl
    obtain hl | hl := List.mem_append.mp hl
    · exact hlines l hl
    · rw [List.mem_singleton.mp hl]
      exact hline
  · rw [joinLines, List.foldl_append, ← joinLines, ← htext]
    rfl

theorem made_listingStep {messages : List Listed} {line : JsString}
    (h : ∀ m ∈ messages, IsMade m.message.text) (hline : IsKept line ∧ LF ∉ line) :
    ∀ m ∈ listingStep messages line, IsMade m.message.text := by
  intro m hm
  unfold listingStep at hm
  split at hm
  · obtain hm | hm := List.mem_append.mp hm
    · exact h m hm
    · rw [List.mem_singleton.mp hm]
      exact ⟨[], by simp, rfl⟩
  · split at hm
    · exact h m hm
    · next current hlast =>
        split at hm
        · exact h m hm
        · obtain hm | hm := List.mem_append.mp hm
          · exact h m (List.dropLast_subset messages hm)
          · rw [List.mem_singleton.mp hm]
            exact (h current (List.mem_of_getLast? hlast)).addLine hline

theorem made_parseListing {lines : List JsString} (h : ∀ line ∈ lines, IsKept line ∧ LF ∉ line) :
    ∀ m ∈ parseListing lines, IsMade m.message.text := by
  induction lines using List.reverseRecOn with
  | nil => simp [parseListing]
  | append_singleton lines line ih =>
      have hinit := ih fun l hl => h l (List.mem_append_left _ hl)
      rw [parseListing] at hinit
      rw [parseListing, List.foldl_append]
      exact made_listingStep hinit (h line (by simp))

/-- What the loop of `handleData` hands on is trimmed and not empty. -/
theorem kept_linesOf {text line : JsString} (h : line ∈ linesOf text) : IsKept line ∧ LF ∉ line := by
  rw [linesOf, List.mem_filter, List.mem_map] at h
  obtain ⟨⟨piece, hpiece, rfl⟩, hne⟩ := h
  refine ⟨⟨by simpa using hne, trim_trim piece⟩, fun hlf => ?_⟩
  exact Lines.not_mem_pieces hpiece (mem_of_mem_trim hlf)

theorem upToTerminal_subset (lines : List JsString) : upToTerminal lines ⊆ lines := by
  induction lines with
  | nil => exact fun _ h => h
  | cons line lines ih =>
      intro l hl
      rw [upToTerminal] at hl
      by_cases hterm : isTerminalLine line = true
      · rw [if_pos hterm] at hl
        rw [List.mem_singleton.mp hl]
        exact List.mem_cons_self
      · rw [if_neg hterm] at hl
        obtain rfl | hl := List.mem_cons.mp hl
        · exact List.mem_cons_self
        · exact List.mem_cons_of_mem line (ih hl)

/-! ## One call -/

theorem clean_bodyLines {text : JsString} (hkept : IsUnaltered text)
    (hclean : ∀ line ∈ textLines text, Clean line) :
    ∀ line ∈ linesOf (text ++ crlf), Clean line := by
  rw [linesOf_unaltered hkept]
  by_cases hnil : text = []
  · rw [if_pos hnil]
    simp
  · rw [if_neg hnil]
    exact hclean

/-- The call reports the stored messages exactly when no text has a blank line or blanks at the
ends of a line. -/
theorem inverts_iff {l : List Stored} {o : Oracle Op Ans} (persist : Bool) (h : Answers l o)
    (hclean : ∀ m ∈ l, ∀ line ∈ textLines m.text, Clean line) :
    Inverts l persist o ↔ ∀ m ∈ l, IsUnaltered m.text := by
  obtain ⟨-, hresult⟩ := run_getMessages h persist
  rw [Inverts, hresult]
  constructor
  · intro hreport m hm
    have hmap := Except.ok.inj hreport
    have hmem : message m ∈ l.map message := List.mem_map_of_mem hm
    rw [← hmap] at hmem
    obtain ⟨parsed, hparsed, heq⟩ := List.mem_map.mp hmem
    have hmade := made_parseListing (fun line hline =>
      kept_linesOf (upToTerminal_subset _ hline)) parsed hparsed
    have htext : parsed.message.text = m.text := congrArg Message.text heq
    rw [← htext]
    exact hmade.unaltered
  · intro hkept
    have hlisted := parseListing_listingText fun m hm =>
      clean_bodyLines (hkept m hm) (hclean m hm)
    have hsame : (l.map listed).map (·.message) = l.map message := by
      rw [List.map_map]
      apply List.map_congr_left
      intro m hm
      simp [listed, message, reportedText_unaltered (hkept m hm)]
    rw [hlisted, hsame]

theorem inverts_iff_greeting :
    Inverts [greeting] true (listing [greeting]) ↔ ∀ m ∈ [greeting], IsUnaltered m.text :=
  inverts_iff true (answers_listing _) (by decide +kernel)

/-- Two paragraphs with an empty line between them. -/
def letter : Stored := { greeting with text := js "Hello\n\nBye" }

/-- The empty line is lost, and the message is deleted. -/
theorem letter_not_inverted :
    Answers [letter] (listing [letter]) ∧ letter.alpha = [] ∧
      (∀ line ∈ textLines letter.text, Clean line) ∧
      ¬Inverts [letter] true (listing [letter]) ∧
      result (listing [letter]) 0 (getMessages true) =
        .ok [{ message letter with text := js "Hello\nBye" }] ∧
      Listing.issued (trace (listing [letter]) 0 (getMessages true)) = [cmgd 1] := by
  have hclean : ∀ line ∈ textLines letter.text, Clean line := by decide +kernel
  obtain ⟨hissued, hresult⟩ := run_getMessages (answers_listing [letter]) true
  have hparsed : parseListing (upToTerminal (linesOf (listingText [letter]))) =
      [⟨1, { message letter with text := js "Hello\nBye" }⟩] := by decide +kernel
  rw [hparsed] at hissued hresult
  refine ⟨answers_listing _, rfl, hclean, ?_, hresult, hissued⟩
  rw [Inverts, hresult]
  decide +kernel

end SmsGateway.Serial.Texts
