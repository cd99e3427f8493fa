import Mathlib

/-!
# How a POSIX shell reads a command line

The characters are of any type with a character code. A line is cut into words and operators
character by character; quotes and backslashes take their characters literally, a dollar sign or a
backquote outside single quotes starts an expansion.
-/

namespace SmsGateway.Lib.Shell

/-- A character of a word as it is written: bare, quoted, or the start of an expansion. -/
inductive Piece (α : Type) where
  | plain (c : α)
  | quoted (c : α)
  | expansion
  deriving DecidableEq

/-- A line break is an operator too. -/
inductive Token (α : Type) where
  | word (pieces : List (Piece α))
  | operator (c : α)
  deriving DecidableEq

/-- Where the reader stands; a backslash in double quotes is kept until its character is known. -/
inductive Mode (α : Type) where
  | bare
  | bareEscape
  | single
  | double
  | doubleEscape (backslash : α)
  | comment
  deriving DecidableEq

structure State (α : Type) where
  mode : Mode α
  word : Option (List (Piece α))
  done : List (Token α)
  deriving DecidableEq

section

variable {α : Type} (code : α → Nat)

def isBlank (c : α) : Bool := code c == 0x20 || code c == 0x09

def isLineBreak (c : α) : Bool := code c == 0x0a

/-- `| & ; < > ( )` and the line break. -/
def isOperator (c : α) : Bool :=
  isLineBreak code c || [0x7c, 0x26, 0x3b, 0x3c, 0x3e, 0x28, 0x29].contains (code c)

/-- `$` and the backquote. -/
def startsExpansion (c : α) : Bool := code c == 0x24 || code c == 0x60

def isQuote (c : α) : Bool := code c == 0x27
def isDoubleQuote (c : α) : Bool := code c == 0x22
def isBackslash (c : α) : Bool := code c == 0x5c
def isHash (c : α) : Bool := code c == 0x23

/-- Bare characters that patterns, tildes, assignments and reserved words are made of. -/
def isActive (c : α) : Bool :=
  [0x2a, 0x3f, 0x5b, 0x5d, 0x7e, 0x3d, 0x7b, 0x7d, 0x21].contains (code c)

variable {code}

def State.push (s : State α) (p : Piece α) : State α := { s with word := some (s.word.getD [] ++ [p]) }

def State.open (s : State α) : State α := { s with word := some (s.word.getD []) }

def State.close (s : State α) : State α :=
  { s with word := none, done := s.done ++ (s.word.map Token.word).toList }

variable (code)

/-- One character; a command line holds no NUL. -/
def step (s : State α) (c : α) : Option (State α) :=
  if code c = 0 then none
  else
    match s.mode with
    | .bare =>
        some (
          if isQuote code c then { s.open with mode := .single }
          else if isDoubleQuote code c then { s.open with mode := .double }
          else if isBackslash code c then { s with mode := .bareEscape }
          else if startsExpansion code c then s.push .expansion
          else if isBlank code c then s.close
          else if isOperator code c then { s.close with done := s.close.done ++ [.operator c] }
          else if isHash code c && s.word.isNone then { s with mode := .comment }
          else s.push (.plain c))
    | .bareEscape =>
        let s := { s with mode := .bare }
        some (if isLineBreak code c then s else s.push (.quoted c))
    | .single => some (if isQuote code c then { s with mode := .bare } else s.push (.quoted c))
    | .double =>
        some (
          if isDoubleQuote code c then { s with mode := .bare }
          else if isBackslash code c then { s with mode := .doubleEscape c }
          else if startsExpansion code c then s.push .expansion
          else s.push (.quoted c))
    | .doubleEscape backslash =>
        let s := { s with mode := .double }
        some (
          if isLineBreak code c then s
          else if startsExpansion code c || isDoubleQuote code c || isBackslash code c then
            s.push (.quoted c)
          else (s.push (.quoted backslash)).push (.quoted c))
    | .comment =>
        some (if isLineBreak code c then { s with mode := .bare, done := s.done ++ [.operator c] }
          else s)

def read (s : State α) (line : List α) : Option (State α) := line.foldlM (step code) s

/-- The tokens of a line, unless a quote or an escape is left open. -/
def tokenize (line : List α) : Option (List (Token α)) :=
  (read code ⟨.bare, none, []⟩ line).bind fun s =>
    match s.mode with
    | .bare => some s.close.done
    | .comment => some s.close.done
    | _ => none

/-- What a piece stands for when nothing more is made of it. -/
def Piece.value : Piece α → Option α
  | .plain c => if isActive code c then none else some c
  | .quoted c => some c
  | .expansion => none

/-- The text of a word that is passed on as it is. -/
def Token.literal : Token α → Option (List α)
  | .word pieces => pieces.mapM (Piece.value code)
  | .operator _ => none

/-- The line is read as these words, all of them literal. -/
def Reads (line : List α) (words : List (List α)) : Prop :=
  ∃ tokens, tokenize code line = some tokens ∧ tokens.map (Token.literal code) = words.map some

end

section

variable {α : Type} {code : α → Nat}

theorem read_append (s : State α) (a b : List α) :
    read code s (a ++ b) = (read code s a).bind fun s => read code s b :=
  List.foldlM_append

/-- Single quotes take everything but themselves. -/
theorem read_single {w : List (Piece α)} {done : List (Token α)} {cs : List α}
    (h : ∀ c ∈ cs, code c ≠ 0 ∧ isQuote code c = false) :
    read code ⟨.single, some w, done⟩ cs = some ⟨.single, some (w ++ cs.map .quoted), done⟩ := by
  induction cs generalizing w with
  | nil => simp [read]
  | cons c cs ih =>
      obtain ⟨hnul, hquote⟩ := h c List.mem_cons_self
      have hstep : step code ⟨.single, some w, done⟩ c =
          some ⟨.single, some (w ++ [.quoted c]), done⟩ := by
        simp [step, hnul, hquote, State.push]
      have hrest := ih (w := w ++ [.quoted c]) fun x hx => h x (List.mem_cons_of_mem c hx)
      rw [read] at hrest ⊢
      rw [List.foldlM_cons, hstep]
      simpa using hrest

variable (code)

/-- Bare, the character stands for itself wherever it is in a word. -/
def isInert (c : α) : Bool :=
  code c != 0 && !isQuote code c && !isDoubleQuote code c && !isBackslash code c &&
    !startsExpansion code c && !isBlank code c && !isOperator code c && !isHash code c &&
    !isActive code c

/-- The text is read as one word of these pieces, and leaves the reader in that word. -/
def Spells (text : List α) (pieces : List (Piece α)) : Prop :=
  ∀ done, read code ⟨.bare, none, done⟩ text = some ⟨.bare, some pieces, done⟩

/-- The text is one word, and the word stands for this value. -/
def IsWord (text value : List α) : Prop :=
  ∃ pieces, Spells code text pieces ∧ (Token.word pieces).literal code = some value

variable {code}

theorem step_inert {c : α} (h : isInert code c = true) (word : Option (List (Piece α)))
    (done : List (Token α)) :
    step code ⟨.bare, word, done⟩ c = some ⟨.bare, some (word.getD [] ++ [.plain c]), done⟩ := by
  simp only [isInert, Bool.and_eq_true, Bool.not_eq_true', bne_iff_ne, ne_eq] at h
  obtain ⟨⟨⟨⟨⟨⟨⟨⟨hnul, hquote⟩, hdouble⟩, hback⟩, hexp⟩, hblank⟩, hop⟩, hhash⟩, -⟩ := h
  simp [step, hnul, hquote, hdouble, hback, hexp, hblank, hop, hhash, State.push]

theorem read_inert {w : List (Piece α)} {done : List (Token α)} {cs : List α}
    (h : ∀ c ∈ cs, isInert code c = true) :
    read code ⟨.bare, some w, done⟩ cs = some ⟨.bare, some (w ++ cs.map .plain), done⟩ := by
  induction cs generalizing w with
  | nil => simp [read]
  | cons c cs ih =>
      have hrest := ih (w := w ++ [.plain c]) fun x hx => h x (List.mem_cons_of_mem c hx)
      rw [read] at hrest ⊢
      rw [List.foldlM_cons, step_inert (h c List.mem_cons_self)]
      simpa using hrest

theorem literal_quoted (cs : List α) :
    (Token.word (cs.map Piece.quoted)).literal code = some cs := by
  induction cs with
  | nil => rfl
  | cons c cs ih =>
      have hrest : (cs.map Piece.quoted).mapM (Piece.value code) = some cs := ih
      simp [Token.literal, Piece.value, hrest]

theorem literal_plain {cs : List α} (h : ∀ c ∈ cs, isInert code c = true) :
    (Token.word (cs.map Piece.plain)).literal code = some cs := by
  induction cs with
  | nil => rfl
  | cons c cs ih =>
      have hrest : (cs.map Piece.plain).mapM (Piece.value code) = some cs :=
        ih fun x hx => h x (List.mem_cons_of_mem c hx)
      have hc := h c List.mem_cons_self
      simp only [isInert, Bool.and_eq_true, Bool.not_eq_true'] at hc
      simp [Token.literal, Piece.value, hc.2, hrest]

/-- A bare word. -/
theorem isWord_inert {cs : List α} (hne : cs ≠ []) (h : ∀ c ∈ cs, isInert code c = true) :
    IsWord code cs cs := by
  obtain ⟨c, cs, rfl⟩ := List.exists_cons_of_ne_nil hne
  refine ⟨(c :: cs).map .plain, fun done => ?_, literal_plain h⟩
  have hrest : read code ⟨.bare, some [.plain c], done⟩ cs =
      some ⟨.bare, some ([.plain c] ++ cs.map .plain), done⟩ :=
    read_inert fun x hx => h x (List.mem_cons_of_mem c hx)
  rw [read] at hrest ⊢
  rw [List.foldlM_cons, step_inert (h c List.mem_cons_self)]
  simpa using hrest

/-! ## Quoting a text -/

/-- In single quotes, where a quote closes them, stands behind a backslash and opens them again. -/
def quoteUnit (code : α → Nat) (quote backslash : α) (c : α) : List α :=
  if isQuote code c then [quote, backslash, quote, quote] else [c]

def quoteWord (code : α → Nat) (quote backslash : α) (cs : List α) : List α :=
  quote :: cs.flatMap (quoteUnit code quote backslash) ++ [quote]

theorem read_quoteUnits {quote backslash : α} (hq : code quote = 0x27) (hb : code backslash = 0x5c)
    (hinj : ∀ c, isQuote code c = true → c = quote) {w : List (Piece α)} {done : List (Token α)}
    {cs : List α} (h : ∀ c ∈ cs, code c ≠ 0) :
    read code ⟨.single, some w, done⟩ (cs.flatMap (quoteUnit code quote backslash)) =
      some ⟨.single, some (w ++ cs.map .quoted), done⟩ := by
  induction cs generalizing w with
  | nil => simp [read]
  | cons c cs ih =>
      have hunit : read code ⟨.single, some w, done⟩ (quoteUnit code quote backslash c) =
          some ⟨.single, some (w ++ [.quoted c]), done⟩ := by
        by_cases hc : isQuote code c = true
        · have hcq := hinj c hc
          subst hcq
          simp [quoteUnit, read, step, isQuote, isDoubleQuote, isBackslash, isLineBreak,
            State.open, State.push, hq, hb]
        · have hcf : isQuote code c = false := by simpa using hc
          have hone : read code ⟨.single, some w, done⟩ [c] =
              some ⟨.single, some (w ++ [c].map .quoted), done⟩ :=
            read_single (by simpa using ⟨h c List.mem_cons_self, hcf⟩)
          simpa [quoteUnit, hcf] using hone
      have hrest := ih (w := w ++ [.quoted c]) fun x hx => h x (List.mem_cons_of_mem c hx)
      rw [List.flatMap_cons, read_append, hunit]
      simpa using hrest

/-- A quoted text is one word that stands for the text. -/
theorem isWord_quoteWord {quote backslash : α} (hq : code quote = 0x27)
    (hb : code backslash = 0x5c) (hinj : ∀ c, isQuote code c = true → c = quote) {cs : List α}
    (h : ∀ c ∈ cs, code c ≠ 0) : IsWord code (quoteWord code quote backslash cs) cs := by
  refine ⟨cs.map .quoted, fun done => ?_, literal_quoted cs⟩
  have hopen : read code ⟨.bare, none, done⟩ [quote] = some ⟨.single, some [], done⟩ := by
    simp [read, step, isQuote, State.open, hq]
  have hclose : read code ⟨.single, some (cs.map Piece.quoted), done⟩ [quote] =
      some ⟨.bare, some (cs.map Piece.quoted), done⟩ := by
    simp [read, step, isQuote, hq]
  have hinside : read code ⟨.single, some [], done⟩ (cs.flatMap (quoteUnit code quote backslash)) =
      some ⟨.single, some ([] ++ cs.map .quoted), done⟩ := read_quoteUnits hq hb hinj h
  rw [quoteWord, ← List.singleton_append, read_append, read_append, hopen, Option.bind_some,
    hinside, List.nil_append, Option.bind_some, hclose]

/-! ## Words with blanks between them -/

theorem read_blank {blank : α} (hblank : code blank = 0x20) (pieces : List (Piece α))
    (done : List (Token α)) :
    read code ⟨.bare, some pieces, done⟩ [blank] =
      some ⟨.bare, none, done ++ [.word pieces]⟩ := by
  simp [read, step, isQuote, isDoubleQuote, isBackslash, startsExpansion, isBlank, State.close,
    hblank]

/-- The last word of the line is still open. -/
theorem read_words {blank : α} (hblank : code blank = 0x20) {text value : List α}
    {texts values : List (List α)} (h : IsWord code text value)
    (hs : List.Forall₂ (IsWord code) texts values) (done : List (Token α)) :
    ∃ read' last, read code ⟨.bare, none, done⟩ (text ++ texts.flatMap (blank :: ·)) =
        some ⟨.bare, some last, done ++ read'⟩ ∧
      (read' ++ [Token.word last]).map (Token.literal code) = (value :: values).map some := by
  obtain ⟨pieces, hspells, hliteral⟩ := h
  induction hs generalizing text value pieces done with
  | nil =>
      exact ⟨[], pieces, by simpa using hspells done, by simpa using hliteral⟩
  | @cons next nextValue texts values hnext _ ih =>
      obtain ⟨nextPieces, hnextSpells, hnextLiteral⟩ := hnext
      obtain ⟨tokens, last, hread, htokens⟩ :=
        ih (done ++ [.word pieces]) nextPieces hnextSpells hnextLiteral
      refine ⟨.word pieces :: tokens, last, ?_, ?_⟩
      · have hline : text ++ (next :: texts).flatMap (blank :: ·) =
            text ++ ([blank] ++ (next ++ texts.flatMap (blank :: ·))) := by simp
        rw [hline, read_append, hspells done, Option.bind_some, read_append,
          read_blank hblank, Option.bind_some, hread]
        simp
      · rw [List.cons_append, List.map_cons, htokens, hliteral]
        rfl

/-- A line of words is read as just these words. -/
theorem reads_words {blank : α} (hblank : code blank = 0x20) {text value : List α}
    {texts values : List (List α)} (h : IsWord code text value)
    (hs : List.Forall₂ (IsWord code) texts values) :
    Reads code (text ++ texts.flatMap (blank :: ·)) (value :: values) := by
  obtain ⟨tokens, last, hread, htokens⟩ := read_words hblank h hs []
  refine ⟨tokens ++ [.word last], ?_, htokens⟩
  rw [tokenize, hread]
  simp [State.close]

theorem IsWord.reads {text value : List α} (h : IsWord code text value) :
    Reads code text [value] := by
  obtain ⟨pieces, hspells, hliteral⟩ := h
  refine ⟨[.word pieces], ?_, by simpa using hliteral⟩
  rw [tokenize, hspells []]
  simp [State.close]

end

end SmsGateway.Lib.Shell
