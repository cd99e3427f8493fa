import SmsGateway.Serial.Wire

/-!
# Commands and their own answers

The modem answers what is written in order. The driver tells answers apart by their position
alone: what comes in belongs to the current command.
-/

namespace SmsGateway.Serial.Answers

open SmsGateway Serial Machine Wire
open Lib Lib.Runs

/-! ## The modem -/

/-- The answer has come in: a terminal line, or the prompt. -/
def answeredBy (r : Request) (text : JsString) : Bool :=
  (linesOf text).any isTerminalLine ||
    (r.expectPrompt && startsWith (trimStart (Lines.tail LF text)) (js ">"))

/-- The modem may still send a part of the answer. Once the command's timer has fired it does so
for `late` milliseconds at most. -/
def mayAnswer (late now : Nat) (x : Exchange) : Bool :=
  !x.gone &&
    match x.firedAt with
    | some t => decide (now < t + late)
    | none => !answeredBy x.request x.answer

/-- Text of another source starts on a line of its own. -/
def joins : List Piece → List Piece → Bool
  | _, [] => true
  | heard, p :: pieces =>
      (heard.getLast?.map (·.source) == some p.source ||
        trimStart (Lines.tail LF (chunk heard)) == []) && joins (heard ++ [p]) pieces

/-- The modem's part in an event. The runs are those of calls, timers and answers: the driver is not
closed, and a write that fails has not left the port. -/
def modem (late : Nat) (w : Watched) : WireEvent → Bool
  | .data pieces =>
      (pieces.all fun p => match p.source with
        | some number => (w.exchanges[number]?).any (mayAnswer late w.driver.now)
        | none => true) &&
      match w.pending with
      | some x => joins x.heard pieces && !answeredBy x.request (textFrom none (x.heard ++ pieces))
      | none => true
  | .driver (.writeFailed _ reached) => !reached
  | .driver .close => false
  | .driver _ => true

/-! ## Text of several sources -/

/-- Every line of a text comes from one source. -/
structure Interleaved (heard : List Piece) : Prop where
  last : ∀ source, heard.getLast?.map (·.source) = some source →
    trimStart (Lines.tail LF (textFrom source heard)) = trimStart (Lines.tail LF (chunk heard))
  others : ∀ source, heard.getLast?.map (·.source) ≠ some source →
    trimStart (Lines.tail LF (textFrom source heard)) = []
  lines : ∀ line ∈ linesOf (chunk heard), ∃ source, line ∈ linesOf (textFrom source heard)

section

variable {heard : List Piece} {p : Piece}

theorem textFrom_append (source : Option Nat) (a b : List Piece) :
    textFrom source (a ++ b) = textFrom source a ++ textFrom source b := by
  rw [textFrom, List.filter_append, chunk_append]
  rfl

theorem textFrom_self (p : Piece) : textFrom p.source [p] = p.text := by
  simp [textFrom, chunk]

theorem textFrom_other {source : Option Nat} (h : source ≠ p.source) : textFrom source [p] = [] := by
  simp [textFrom, chunk, Ne.symm h]

theorem linesOf_mono {a : JsString} (b : JsString) {line : JsString} (h : line ∈ linesOf a) :
    line ∈ linesOf (a ++ b) := by
  rw [linesOf_tail_append]
  exact List.mem_append_left _ h

theorem interleaved_nil : Interleaved [] :=
  ⟨fun _ => nofun, fun _ _ => rfl, fun _ h => (List.not_mem_nil h).elim⟩

/-- The text goes on with its last source, or with another one after a line. -/
theorem Interleaved.concat (h : Interleaved heard)
    (hjoin : heard.getLast?.map (·.source) = some p.source ∨
      trimStart (Lines.tail LF (chunk heard)) = []) : Interleaved (heard ++ [p]) := by
  have hown : trimStart (Lines.tail LF (textFrom p.source heard)) =
      trimStart (Lines.tail LF (chunk heard)) := by
    by_cases hlast : heard.getLast?.map (·.source) = some p.source
    · exact h.last p.source hlast
    · rw [h.others p.source hlast, hjoin.resolve_left hlast]
  obtain ⟨hlines, htail⟩ := lines_congr hown (Lines.not_mem_tail LF _) (Lines.not_mem_tail LF _) p.text
  have hlast : (heard ++ [p]).getLast?.map (·.source) = some p.source := by
    rw [List.getLast?_concat, Option.map_some]
  have hchunk : chunk (heard ++ [p]) = chunk heard ++ p.text := by
    rw [chunk_append]
    simp [chunk]
  refine ⟨?_, ?_, ?_⟩
  · intro source hsource
    obtain rfl := Option.some.inj (hlast.symm.trans hsource)
    rw [textFrom_append, textFrom_self, hchunk, (Lines.split_append LF _ _).2,
      (Lines.split_append LF (chunk heard) _).2]
    exact htail
  · intro source hsource
    have hne : source ≠ p.source := fun he => hsource (by rw [hlast, he])
    rw [textFrom_append, textFrom_other hne, List.append_nil]
    by_cases hwas : heard.getLast?.map (·.source) = some source
    · rw [h.last source hwas]
      refine hjoin.resolve_left ?_
      rw [hwas]
      exact fun he => hne (Option.some.inj he)
    · exact h.others source hwas
  · intro line hline
    rw [hchunk, linesOf_tail_append] at hline
    rcases List.mem_append.mp hline with hline | hline
    · obtain ⟨source, hsource⟩ := h.lines line hline
      refine ⟨source, ?_⟩
      rw [textFrom_append]
      exact linesOf_mono _ hsource
    · refine ⟨p.source, ?_⟩
      rw [textFrom_append, textFrom_self, linesOf_tail_append, hlines]
      exact List.mem_append_right _ hline

theorem Interleaved.joins {pieces : List Piece} (h : Interleaved heard)
    (hjoins : joins heard pieces = true) : Interleaved (heard ++ pieces) := by
  induction pieces generalizing heard with
  | nil =>
      rw [List.append_nil]
      exact h
  | cons p pieces ih =>
      rw [Answers.joins, Bool.and_eq_true, Bool.or_eq_true, beq_iff_eq, beq_iff_eq] at hjoins
      have hrest := ih (h.concat hjoins.1) hjoins.2
      rw [List.append_assoc] at hrest
      exact hrest

end

/-! ## The answer of the current command -/

/-- What was heard while a command was current: its own answer, and lines that answer nothing. -/
structure Heard (number : Nat) (x : Exchange) : Prop where
  fired : x.firedAt = none
  answer : x.answer = textFrom (some number) x.heard
  sources : ∀ p ∈ x.heard, p.source = some number ∨ p.source = none
  unsolicited : answeredBy x.request (textFrom none x.heard) = false
  interleaved : Interleaved x.heard

/-- A command that has resolved with these lines did so by its own answer. -/
structure ByOwnAnswer (number : Nat) (x : Exchange) (lines : List JsString) : Prop where
  sources : ∀ p ∈ x.heard, p.source = some number ∨ p.source = none
  read : ∀ line ∈ lines, line ∈ linesOf (textFrom (some number) x.heard) ∨
    line ∈ linesOf (textFrom none x.heard)
  last : (∃ line, lines.getLast? = some line ∧ isTerminalLine line = true ∧
      line ∈ linesOf (textFrom (some number) x.heard)) ∨
    (x.request.expectPrompt = true ∧
      startsWith (trimStart (Lines.tail LF (textFrom (some number) x.heard))) (js ">") = true)

section

variable {number : Nat} {x : Exchange} {s : State} {c : Command}

theorem heard_new (call : Nat) (r : Request) : Heard number (.new call r) := by
  refine ⟨rfl, rfl, fun _ hp => (List.not_mem_nil hp).elim, ?_, interleaved_nil⟩
  rw [answeredBy, Bool.or_eq_false_iff, Bool.and_eq_false_imp]
  exact ⟨rfl, fun _ => rfl⟩

theorem exists_source {source : Option Nat} {heard : List Piece}
    (h : ∃ line, line ∈ linesOf (textFrom source heard)) : ∃ p ∈ heard, p.source = source := by
  obtain ⟨line, hline⟩ := h
  cases hfilter : heard.filter (·.source == source) with
  | nil =>
      rw [textFrom, hfilter] at hline
      cases hline
  | cons p pieces =>
      have hp : p ∈ heard.filter (·.source == source) := by rw [hfilter]; exact List.mem_cons_self
      rw [List.mem_filter, beq_iff_eq] at hp
      exact ⟨p, hp⟩

theorem Heard.line (h : Heard number x) {line : JsString} (hline : line ∈ linesOf (chunk x.heard)) :
    line ∈ linesOf (textFrom (some number) x.heard) ∨ line ∈ linesOf (textFrom none x.heard) := by
  obtain ⟨source, hsource⟩ := h.interleaved.lines line hline
  obtain ⟨p, hp, rfl⟩ := exists_source ⟨line, hsource⟩
  rcases h.sources p hp with hp | hp
  · exact Or.inl (hp ▸ hsource)
  · exact Or.inr (hp ▸ hsource)

/-- A terminal line answers the command. -/
theorem Heard.terminal (h : Heard number x) {line : JsString} (hline : line ∈ linesOf (chunk x.heard))
    (hterminal : isTerminalLine line = true) : line ∈ linesOf (textFrom (some number) x.heard) := by
  refine (h.line hline).resolve_right ?_
  intro hnone
  have hunsolicited := h.unsolicited
  rw [answeredBy, Bool.or_eq_false_iff, List.any_eq_false] at hunsolicited
  exact hunsolicited.1 line hnone hterminal

/-- So does a prompt. -/
theorem Heard.prompt (h : Heard number x) (hexpects : x.request.expectPrompt = true)
    (hprompt : startsWith (trimStart (Lines.tail LF (chunk x.heard))) (js ">") = true) :
    startsWith (trimStart (Lines.tail LF (textFrom (some number) x.heard))) (js ">") = true := by
  cases hlast : x.heard.getLast? with
  | none =>
      rw [List.getLast?_eq_none_iff.mp hlast] at hprompt
      cases hprompt
  | some p =>
      have hsource : x.heard.getLast?.map (·.source) = some p.source := by rw [hlast]; rfl
      rw [← h.interleaved.last p.source hsource] at hprompt
      rcases h.sources p (List.mem_of_getLast? hlast) with hp | hp
      · rw [hp] at hprompt
        exact hprompt
      · rw [hp] at hprompt
        have hunsolicited := h.unsolicited
        rw [answeredBy, hexpects, hprompt, Bool.true_and, Bool.or_true] at hunsolicited
        cases hunsolicited

/-- Only the answer of the current command settles it in the loop of `handleData`. -/
theorem Heard.settles (h : Heard number x) (hc : Awaited s x c) {a : Except JsError (List JsString)}
    (ha : settlement s c .scan = some a) : answeredBy x.request x.answer = true ∧
      ∀ lines, a = .ok lines → ByOwnAnswer number x lines := by
  obtain ⟨handled, hhandled, hlines⟩ := hc.lines
  have hread (line : JsString) (hline : line ∈ c.lines) : line ∈ linesOf (chunk x.heard) := by
    rw [hhandled]
    exact List.mem_append_left _ (hlines.subset hline)
  rw [answeredBy, h.answer]
  rcases settlement_scan ha with ⟨line, rest, hscan, -, hterminal, ha⟩ | ⟨hscan, hexpects, hprompt, ha⟩
  · have hline : line ∈ linesOf (chunk x.heard) := by
      rw [hhandled, hscan]
      simp
    have hown := h.terminal hline hterminal
    refine ⟨?_, ?_⟩
    · rw [Bool.or_eq_true, List.any_eq_true]
      exact Or.inl ⟨line, hown, hterminal⟩
    · rintro lines rfl
      split at ha
      case isTrue => cases ha
      case isFalse =>
        obtain rfl := Except.ok.inj ha
        refine ⟨h.sources, ?_, Or.inl ⟨line, List.getLast?_concat, hterminal, hown⟩⟩
        intro l hl
        rcases List.mem_append.mp hl with hl | hl
        · exact h.line (hread l hl)
        · rw [List.mem_singleton.mp hl]
          exact Or.inl hown
  · rw [hc.buffer] at hprompt
    rw [hc.request] at hexpects
    have hown := h.prompt hexpects hprompt
    refine ⟨?_, ?_⟩
    · rw [hexpects, hown, Bool.true_and, Bool.or_true]
    · rintro lines rfl
      obtain rfl := Except.ok.inj ha
      exact ⟨h.sources, fun l hl => h.line (hread l hl), Or.inr ⟨hexpects, hown⟩⟩

end

/-! ## The answers of earlier commands -/

/-- The modem sends nothing more for the command once the quiet window is over. -/
def Done (quietUntil : Nat) (x : Exchange) : Prop :=
  x.gone = true ∨ (x.firedAt = none ∧ answeredBy x.request x.answer = true) ∨
    ∃ t, x.firedAt = some t ∧ t + quietMs ≤ quietUntil

structure AnswerInv (w : Watched) : Prop where
  sleeps : SleepsUntil w.driver
  awake : w.pending ≠ none → w.driver.quietUntil ≤ w.driver.now
  past : ∀ x ∈ w.past, Done w.driver.quietUntil x
  resolved : ∀ n x, w.ledger[n]? = some x → ∀ lines, .ok lines ∈ x.settlements → ByOwnAnswer n x lines
  pending : ∀ x, w.pending = some x → Heard w.past.length x

section

variable {w w' : Watched} {x : Exchange} {quietUntil : Nat}

theorem Done.mono (h : Done quietUntil x) {later : Nat} (hle : quietUntil ≤ later) : Done later x := by
  rcases h with h | h | ⟨t, hfired, ht⟩
  · exact Or.inl h
  · exact Or.inr (Or.inl h)
  · exact Or.inr (Or.inr ⟨t, hfired, ht.trans hle⟩)

theorem done_drop {e : Event} {past : List Exchange} (h : ∀ x ∈ past, Done quietUntil x) :
    ∀ x ∈ drop e past, Done quietUntil x := by
  intro x hx
  rcases mem_drop hx with hx | ⟨y, -, rfl⟩
  · exact h x hx
  · exact Or.inl rfl

theorem Done.silent (h : Done quietUntil x) {now : Nat} (hnow : quietUntil ≤ now) :
    mayAnswer quietMs now x = false := by
  unfold mayAnswer
  rcases h with h | ⟨hfired, h⟩ | ⟨t, hfired, ht⟩
  · rw [h, Bool.not_true, Bool.false_and]
  · rw [hfired, h, Bool.not_true, Bool.and_false]
  · have hlate : decide (now < t + quietMs) = false := decide_eq_false (Nat.not_lt.mpr (ht.trans hnow))
    simp only [hfired, hlate, Bool.and_false]

/-- What the modem sends changes nothing about an answer that is complete. -/
theorem Done.receive (h : Done quietUntil x) (late now : Nat) {n : Nat} {pieces : List Piece}
    (hmay : ∀ p ∈ pieces, p.source = some n → mayAnswer late now x = true) :
    Done quietUntil (x.answered (textFrom (some n) pieces)) := by
  rcases h with h | ⟨hfired, h⟩ | h
  · exact Or.inl h
  · have hnone : pieces.filter (·.source == some n) = [] := by
      rw [List.filter_eq_nil_iff]
      intro p hp hsource
      have := hmay p hp (beq_iff_eq.mp hsource)
      rw [mayAnswer, hfired, h, Bool.not_true, Bool.and_false] at this
      cases this
    refine Or.inr (Or.inl ⟨hfired, ?_⟩)
    change answeredBy x.request (x.answer ++ textFrom (some n) pieces) = true
    rw [textFrom, hnone]
    change answeredBy x.request (x.answer ++ []) = true
    rw [List.append_nil]
    exact h
  · exact Or.inr (Or.inr h)

theorem answerInv_start (smsc : JsString) : AnswerInv (Wire.start smsc) := by
  refine ⟨nofun, fun h => (h rfl).elim, fun _ h => (List.not_mem_nil h).elim, ?_, nofun⟩
  intro n x hx
  cases hx

/-- The modem's part in a chunk. -/
theorem modem_data {late : Nat} {pieces : List Piece} (h : modem late w (.data pieces) = true) :
    (∀ p ∈ pieces, ∀ n, p.source = some n →
      ∃ x, w.exchanges[n]? = some x ∧ mayAnswer late w.driver.now x = true) ∧
    ∀ x, w.pending = some x → joins x.heard pieces = true ∧
      answeredBy x.request (textFrom none (x.heard ++ pieces)) = false := by
  rw [modem, Bool.and_eq_true, List.all_eq_true] at h
  refine ⟨?_, ?_⟩
  · intro p hp n hsource
    have hpiece := h.1 p hp
    rw [hsource] at hpiece
    exact (Option.any_eq_true _ _).mp hpiece
  · intro x hx
    have hpending := h.2
    rw [hx] at hpending
    simpa using hpending

/-- What a settled command leaves for the modem to send. -/
theorem done_settledBy {e : Event} {c : Command} {a : Except JsError (List JsString)}
    (hstep : Machine.step w.driver e = some w'.driver) (hmodem : modem quietMs w (.driver e) = true)
    (hheard : Heard w.past.length x) (hc : Awaited w.driver x c)
    (ha : settlement w.driver c e = some a) (past : List Exchange) :
    ∀ y ∈ drop e (past ++ [x.settledBy w.driver.now a e]),
      y ∈ drop e past ∨ Done w'.driver.quietUntil y := by
  have hdrop (hne : e ≠ .portClosed) (l : List Exchange) : drop e l = l := by
    unfold drop
    split
    · exact absurd rfl hne
    · rfl
  have hlast (hne : e ≠ .portClosed) (hdone : Done w'.driver.quietUntil (x.settledBy w.driver.now a e)) :
      ∀ y ∈ drop e (past ++ [x.settledBy w.driver.now a e]),
        y ∈ drop e past ∨ Done w'.driver.quietUntil y := by
    intro y hy
    rw [hdrop hne] at hy
    rw [hdrop hne]
    rcases List.mem_append.mp hy with hy | hy
    · exact Or.inl hy
    · rw [List.mem_singleton.mp hy]
      exact Or.inr hdone
  cases e with
  | scan =>
      refine hlast nofun (Or.inr (Or.inl ⟨hheard.fired, ?_⟩))
      exact (hheard.settles hc ha).1
  | commandTimeout =>
      refine hlast nofun (Or.inr (Or.inr ⟨w.driver.now, rfl, ?_⟩))
      exact (step_timeout hstep).ge
  | writeFailed message reached =>
      rw [modem, Bool.not_eq_true'] at hmodem
      subst hmodem
      exact hlast nofun (Or.inl rfl)
  | portClosed =>
      intro y hy
      obtain ⟨z, -, rfl⟩ := List.mem_map.mp hy
      exact Or.inr (Or.inl rfl)
  | close => cases hmodem
  | _ => cases ha

/-- The quiet window ends no earlier than before. -/
theorem quietUntil_le (h : AnswerInv w) (hw : WireInv w) {e : Event}
    (hstep : Machine.step w.driver e = some w'.driver) : w.driver.quietUntil ≤ w'.driver.quietUntil := by
  rcases (step_clock hstep).2 with hsame | ⟨-, hcurrent, hlater⟩
  · exact hsame.ge
  · have hpending : w.pending ≠ none := fun hnone => hcurrent (hw.idle hnone)
    have hawake := h.awake hpending
    rw [hlater]
    exact hawake.trans (Nat.le_add_right _ _)

theorem answerInv_step (hw : WireInv w) (h : AnswerInv w) {e : WireEvent}
    (hmodem : modem quietMs w e = true) (hstep : w.step e = some w') : AnswerInv w' := by
  cases step_follows hw hstep with
  | hears pieces hs h' =>
      obtain ⟨-, -, hdriver⟩ := step_data hs
      have hquiet : w'.driver.quietUntil = w.driver.quietUntil := by rw [hdriver]
      have hnow : w'.driver.now = w.driver.now := by rw [hdriver]
      have hledger : w'.ledger = w.ledger := by rw [h', ledger_receive]
      have hlength : w'.past.length = w.past.length := by
        rw [h', Watched.receive, List.length_mapIdx]
      obtain ⟨hmay, hjoins⟩ := modem_data hmodem
      refine ⟨sleepsUntil_step h.sleeps hs, ?_, ?_, hledger ▸ h.resolved, ?_⟩
      · intro hpending
        rw [hquiet, hnow]
        refine h.awake fun hnone => hpending ?_
        rw [h', Watched.receive, hnone]
        rfl
      · intro y hy
        rw [h', Watched.receive] at hy
        obtain ⟨n, hn, rfl⟩ := List.mem_mapIdx.mp hy
        rw [hquiet]
        refine (h.past w.past[n] (List.getElem_mem hn)).receive quietMs w.driver.now ?_
        intro p hp hsource
        obtain ⟨x, hx, hmayAnswer⟩ := hmay p hp n hsource
        rw [Watched.exchanges, List.getElem?_append_left hn, List.getElem?_eq_getElem hn] at hx
        rw [Option.some.inj hx]
        exact hmayAnswer
      · intro x hx
        rw [hlength]
        rw [h', Watched.receive] at hx
        obtain ⟨y, hy, rfl⟩ := Option.map_eq_some_iff.mp hx
        obtain ⟨hjoin, hunsolicited⟩ := hjoins y hy
        have hheard := h.pending y hy
        have hawake := h.awake (by rw [hy]; exact Option.some_ne_none y)
        refine ⟨hheard.fired, ?_, ?_, hunsolicited, hheard.interleaved.joins hjoin⟩
        · change y.answer ++ _ = textFrom _ (y.heard ++ pieces)
          rw [hheard.answer, textFrom_append]
        · intro p hp
          rcases List.mem_append.mp hp with hp | hp
          · exact hheard.sources p hp
          · cases hsource : p.source with
            | none => exact Or.inr rfl
            | some n =>
                obtain ⟨x, hx, hmayAnswer⟩ := hmay p hp n hsource
                refine Or.inl (congrArg some ?_)
                rcases Nat.lt_trichotomy n w.past.length with hn | hn | hn
                · rw [Watched.exchanges, List.getElem?_append_left hn] at hx
                  have hdone := (h.past x (List.mem_of_getElem? hx)).silent hawake
                  rw [hdone] at hmayAnswer
                  cases hmayAnswer
                · exact hn
                · rw [Watched.exchanges, hy, Option.toList_some, List.getElem?_eq_none
                    (by rw [List.length_append, List.length_singleton]; omega)] at hx
                  cases hx
  | settles e hs x c a hx hc ha h' =>
      have hheard := h.pending x hx
      have hledger : w'.ledger = w.ledger ++ [(x.settle a).core] := by
        rw [h', Watched.ledger, ledger_drop, List.map_append, List.map_singleton, core_settledBy]
        rfl
      have hlength : w.ledger.length = w.past.length := List.length_map _
      have hpending : w'.pending = none := by rw [h']
      refine ⟨sleepsUntil_step h.sleeps hs, fun hne => absurd hpending hne, ?_, ?_, ?_⟩
      · intro y hy
        rw [h'] at hy
        rcases done_settledBy hs hmodem hheard hc ha w.past y hy with hy | hdone
        · exact done_drop (fun z hz => (h.past z hz).mono (quietUntil_le h hw hs)) y hy
        · exact hdone
      · intro n y hy lines hlines
        rw [hledger] at hy
        rcases Nat.lt_trichotomy n w.ledger.length with hn | hn | hn
        · rw [List.getElem?_append_left hn] at hy
          exact h.resolved n y hy lines hlines
        · rw [hn, List.getElem?_concat_length] at hy
          obtain rfl := Option.some.inj hy
          have hsettlements : (x.settle a).core.settlements = [a] := by
            change x.settlements ++ [a] = [a]
            rw [hc.settlements, List.nil_append]
          rw [hsettlements] at hlines
          obtain rfl := List.mem_singleton.mp hlines
          obtain ⟨rfl, -⟩ := settlement_ok ha
          have hown := (hheard.settles hc ha).2 lines rfl
          rw [hn, hlength]
          exact ⟨hown.sources, hown.read, hown.last⟩
        · rw [List.getElem?_eq_none (by rw [List.length_append, List.length_singleton]; omega)] at hy
          cases hy
      · rw [hpending]
        simp
  | awaits e hs x c hx hc ha h' =>
      obtain ⟨hnow, hquiet⟩ := step_clock hs
      have hsame : w'.driver.quietUntil = w.driver.quietUntil := by
        rcases hquiet with hsame | ⟨rfl, -⟩
        · exact hsame
        · cases ha
      have hpast : w'.past = w.past := by rw [h']
      have hpending : w'.pending = w.pending := by rw [h']
      refine ⟨sleepsUntil_step h.sleeps hs, ?_, ?_, ?_, ?_⟩
      · rw [hpending, hsame]
        exact fun hne => (h.awake hne).trans hnow
      · rw [hpast, hsame]
        exact h.past
      · rw [Watched.ledger, hpast]
        exact h.resolved
      · rw [hpending, hpast]
        exact h.pending
  | issues e hs hx r req k hr hprog hconnected hscan hquiet hdriver h' =>
      have hpast : w'.past = w.past := by rw [h']
      have hpending : w'.pending = some (.new r.id req) := by rw [h']
      have hawake : w.driver.quietUntil ≤ w.driver.now := by
        rcases hquiet with hle | ⟨deadline, hph, hle⟩
        · exact hle
        · rw [← h.sleeps r deadline req k hr hph]
          exact hle
      have hsame : w'.driver.quietUntil = w.driver.quietUntil := by rw [hdriver]; rfl
      have hnow : w'.driver.now = w.driver.now := by rw [hdriver]; rfl
      refine ⟨sleepsUntil_step h.sleeps hs, ?_, ?_, ?_, ?_⟩
      · rw [hsame, hnow]
        exact fun _ => hawake
      · rw [hpast, hsame]
        exact h.past
      · rw [Watched.ledger, hpast]
        exact h.resolved
      · intro x hx'
        rw [hpending] at hx'
        obtain rfl := Option.some.inj hx'
        exact heard_new r.id req
  | goes e hs hx hgoes hcurrent h' =>
      have hledger : w'.ledger = w.ledger := by
        rw [h', Watched.ledger, ledger_drop]
        rfl
      have hpending : w'.pending = none := by rw [h']
      refine ⟨sleepsUntil_step h.sleeps hs, fun hne => absurd hpending hne, ?_, hledger ▸ h.resolved, ?_⟩
      · rw [h']
        exact done_drop fun y hy => (h.past y hy).mono (quietUntil_le h hw hs)
      · rw [hpending]
        simp

/-! ## Runs -/

/-- Every command is settled once, and resolves by its own answer. -/
structure SettledOnce (w : Watched) : Prop where
  past : ∀ x ∈ w.past, ∃ a, x.settlements = [a]
  idle : w.pending = none → current w.driver = none
  /-- the last command is still the current one, and its timer is set -/
  pending : ∀ x, w.pending = some x → x.settlements = [] ∧ ∃ c,
    current w.driver = some (x.call, c) ∧ c.request = x.request ∧
      (w.driver.scan = none → c.deadline ≤ w.driver.now →
        (w.step (.driver .commandTimeout)).isSome = true)
  resolved : ∀ n x, w.exchanges[n]? = some x → ∀ lines, .ok lines ∈ x.settlements →
    ByOwnAnswer n x lines

theorem settledOnce (hw : WireInv w) (h : AnswerInv w) : SettledOnce w := by
  refine ⟨hw.settled, hw.idle, ?_, ?_⟩
  · intro x hx
    obtain ⟨c, hc⟩ := hw.awaited x hx
    refine ⟨hc.settlements, c, hc.current, hc.request, ?_⟩
    intro hscan hdeadline
    have hstep : w.step (.driver .commandTimeout) =
        (Machine.step w.driver .commandTimeout).map (w.follow .commandTimeout) := rfl
    rw [hstep, Option.isSome_map]
    exact timeout_enabled hc.current hscan hdeadline
  · intro n x hx lines hlines
    rcases Nat.lt_or_ge n w.past.length with hn | hn
    · rw [Watched.exchanges, List.getElem?_append_left hn] at hx
      have hcore : w.ledger[n]? = some x.core := by
        rw [Watched.ledger, List.getElem?_map, hx]
        rfl
      have hown := h.resolved n x.core hcore lines hlines
      exact ⟨hown.sources, hown.read, hown.last⟩
    · rw [Watched.exchanges, List.getElem?_append_right hn] at hx
      obtain ⟨c, hc⟩ := hw.awaited x (Option.mem_toList.mp (List.mem_of_getElem? hx))
      rw [hc.settlements] at hlines
      cases hlines

theorem answerInv_run {smsc : JsString} {es : List WireEvent}
    (hmodem : allSteps Watched.step (modem quietMs) (Wire.start smsc) es = true)
    (hrun : Wire.run (Wire.start smsc) es = some w) : WireInv w ∧ AnswerInv w := by
  have hstep (w₀ : Watched) (e : WireEvent) (w₁ : Watched) (h : WireInv w₀ ∧ AnswerInv w₀)
      (hm : modem quietMs w₀ e = true) (hs : w₀.step e = some w₁) : WireInv w₁ ∧ AnswerInv w₁ :=
    ⟨wireInv_step h.1 hs, answerInv_step h.1 h.2 hm hs⟩
  have hstart := And.intro (wireInv_start smsc) (answerInv_start smsc)
  exact allSteps_induct hstep hstart hmodem hrun

/-- A modem that is silent about a command from the end of the quiet window on never answers
another one with it. -/
theorem answers_own (smsc : JsString) (es : List WireEvent)
    (hmodem : allSteps Watched.step (modem quietMs) (Wire.start smsc) es = true)
    (hrun : Wire.run (Wire.start smsc) es = some w) : SettledOnce w := by
  obtain ⟨hw, h⟩ := answerInv_run hmodem hrun
  exact settledOnce hw h

end

/-! ## Two runs -/

/-- A part of the answer to a command. -/
def answerOf (number : Nat) (text : JsString) : List WireEvent := [.data [⟨some number, text⟩], .driver .scan]

/-- The port opens, `initModem` runs through, and a ping is not answered in time. -/
def pingTimesOut : List WireEvent :=
  [.driver (.opened true), .driver (.microtask 0), .driver (.microtask 0)] ++
    answerOf 0 (js "OK\r\n") ++ [.driver .scan, .driver (.microtask 0)] ++
    answerOf 1 (js "OK\r\n") ++ [.driver .scan, .driver (.microtask 0)] ++
    answerOf 2 (js "OK\r\n") ++ [.driver .scan, .driver (.microtask 0)] ++
    [.driver (.call .ping), .driver (.microtask 0), .driver (.microtask 0), .driver (.tick 3000),
      .driver .commandTimeout, .driver (.microtask 0),
      .driver (.call .ping), .driver (.microtask 0), .driver (.microtask 0)]

/-- It is answered in the quiet window, and the next ping on time, in two chunks with a line of the
network in between. -/
def lateInTime : List WireEvent :=
  pingTimesOut ++ [.driver (.tick 1999)] ++ answerOf 3 (js "OK\r\n") ++ [.driver .scan,
    .driver (.tick 1), .driver .quietOver,
    .data [⟨some 4, js "\r\n"⟩, ⟨none, js "+CREG: 1\r\n"⟩, ⟨some 4, js "O"⟩], .driver .scan, .driver .scan] ++
    answerOf 4 (js "K\r\n") ++ [.driver .scan, .driver (.microtask 0)]

theorem lateInTime_isSome : (Wire.run (Wire.start []) lateInTime).isSome = true := by decide +kernel

theorem answers_own_lateInTime :
    let w := (Wire.run (Wire.start []) lateInTime).get lateInTime_isSome
    SettledOnce w ∧ w.past.length = 5 ∧
      ∃ x ∈ w.past, x.settlements = [.ok [js "+CREG: 1", js "OK"]] := by
  refine ⟨?_, by decide +kernel, by decide +kernel⟩
  exact answers_own [] lateInTime (by decide +kernel) (Option.some_get lateInTime_isSome).symm

/-- It is answered when the quiet window is over, and the next ping has been written. -/
def lateOnTheDot : List WireEvent :=
  pingTimesOut ++ [.driver (.tick 2000), .driver .quietOver] ++ answerOf 3 (js "OK\r\n")

theorem lateOnTheDot_isSome : (Wire.run (Wire.start []) lateOnTheDot).isSome = true := by decide +kernel

/-- 2000 ms after the timer are one too late. -/
theorem stale_answer_settles_next :
    let w := (Wire.run (Wire.start []) lateOnTheDot).get lateOnTheDot_isSome
    allSteps Watched.step (modem (quietMs + 1)) (Wire.start []) lateOnTheDot = true ∧
      ¬ SettledOnce w := by
  refine ⟨by decide +kernel, ?_⟩
  intro h
  have hpong : ∃ x, ((Wire.run (Wire.start []) lateOnTheDot).get lateOnTheDot_isSome).exchanges[4]? = some x ∧
      x.settlements = [.ok [js "OK"]] ∧ x.heard = [⟨some 3, js "OK\r\n"⟩] := by
    decide +kernel
  obtain ⟨x, hx, hsettlements, hheard⟩ := hpong
  have hown := h.resolved 4 x hx [js "OK"] (by rw [hsettlements]; exact List.mem_singleton_self _)
  have hsource := hown.sources ⟨some 3, js "OK\r\n"⟩ (by rw [hheard]; exact List.mem_singleton_self _)
  exact absurd hsource (by decide)

end SmsGateway.Serial.Answers
