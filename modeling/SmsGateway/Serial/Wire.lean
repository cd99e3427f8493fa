import SmsGateway.Serial.Current

/-!
# Commands and answers on the wire

The driver with a record of every command it has written: what came in while the command was
current, what the modem has sent in answer to it, and how it was settled. A chunk of the port is
given in pieces, each of them a part of the answer to a command or unsolicited.
-/

namespace SmsGateway.Serial.Wire

open SmsGateway Serial Machine
open Lib

/-- A part of a chunk, with the number of the command it answers. -/
structure Piece where
  source : Option Nat
  text : JsString
  deriving DecidableEq, Repr

def chunk (pieces : List Piece) : JsString := pieces.flatMap (·.text)

/-- The text of one source. -/
def textFrom (source : Option Nat) (pieces : List Piece) : JsString :=
  chunk (pieces.filter (·.source == source))

/-- A command the driver has written. -/
structure Exchange where
  call : Nat
  request : Request
  /-- what came in while it was the current command -/
  heard : List Piece
  /-- the modem's answer, as far as it has come in -/
  answer : JsString
  settlements : List (Except JsError (List JsString))
  /-- when its timer fired -/
  firedAt : Option Nat
  /-- the modem does not answer it any more: it did not leave the port, or the port closed -/
  gone : Bool

/-- The commands are numbered as they are written; the pending one comes last. -/
structure Watched where
  driver : State
  past : List Exchange
  pending : Option Exchange

def Watched.exchanges (w : Watched) : List Exchange := w.past ++ w.pending.toList

def start (smsc : JsString) : Watched := ⟨Machine.start smsc, [], none⟩

inductive WireEvent where
  | data (pieces : List Piece)
  | driver (e : Event)

def Exchange.new (call : Nat) (request : Request) : Exchange :=
  { call, request, heard := [], answer := [], settlements := [], firedAt := none, gone := false }

def Exchange.answered (x : Exchange) (text : JsString) : Exchange := { x with answer := x.answer ++ text }

def Exchange.hear (x : Exchange) (pieces : List Piece) : Exchange := { x with heard := x.heard ++ pieces }

def Exchange.lose (x : Exchange) : Exchange := { x with gone := true }

def Exchange.settle (x : Exchange) (a : Except JsError (List JsString)) : Exchange :=
  { x with settlements := x.settlements ++ [a] }

/-- The record of an event that settles the pending command. -/
def Exchange.settledBy (x : Exchange) (now : Nat) (a : Except JsError (List JsString)) :
    Event → Exchange
  | .commandTimeout => { x.settle a with firedAt := some now }
  | .writeFailed _ false => (x.settle a).lose
  | _ => x.settle a

/-- Closing the port drops what the modem has still to answer. -/
def drop (e : Event) (past : List Exchange) : List Exchange :=
  match e with
  | .portClosed => past.map Exchange.lose
  | _ => past

/-- The record of a step, from the driver's states before and after it. -/
def Watched.follow (w : Watched) (e : Event) (driver : State) : Watched :=
  match current w.driver with
  | some (_, c) =>
      match settlement w.driver c e with
      | some a =>
          let settled := w.pending.map fun x => x.settledBy w.driver.now a e
          { driver, past := drop e (w.past ++ settled.toList), pending := none }
      | none => { w with driver }
  | none =>
      match current driver with
      | some (call, c) =>
          { driver, past := w.past ++ w.pending.toList, pending := some (.new call c.request) }
      | none => { w with driver, past := drop e w.past }

/-- The record of a chunk. -/
def Watched.receive (w : Watched) (pieces : List Piece) (driver : State) : Watched :=
  { driver
    past := w.past.mapIdx fun number x => x.answered (textFrom (some number) pieces)
    pending := w.pending.map fun x => (x.hear pieces).answered (textFrom (some w.past.length) pieces) }

def Watched.step (w : Watched) : WireEvent → Option Watched
  | .data pieces => (Machine.step w.driver (.data (chunk pieces))).map (w.receive pieces)
  | .driver (.data _) => none
  | .driver e => (Machine.step w.driver e).map (w.follow e)

abbrev run : Watched → List WireEvent → Option Watched := Runs.run Watched.step

/-- A driver's run, whose chunks answer no command. -/
def unsolicited : Event → WireEvent
  | .data text => .data [⟨none, text⟩]
  | e => .driver e

/-! ## The port and the current command -/

/-- The driver waits for the port to come back only while it is gone, and for an answer only
while it is there. -/
structure Link (s : State) : Prop where
  connected : s.connected = true → s.reconnectTimer = none ∧ s.opening = false
  opening : s.opening = true → s.reconnectTimer = none
  current : current s ≠ none → s.connected = true

section

variable {s s' : State} {e : Event}

theorem current_settles {id : Nat} {p : Prog Result} (h : Settles s' id p) : current s' = none := by
  obtain ⟨r', hr', -, hph⟩ := h
  exact current_of_phase hr' (fun c k hc => by rw [hph] at hc; cases hc)

/-- A command is current after a step because it was before, or because it was issued. -/
theorem current_step (h : step s e = some s') (hcurrent : current s' ≠ none) :
    (∃ id c, current s = some (id, c) ∧ settlement s c e = none) ∨
      (current s = none ∧ s.connected = true) := by
  cases hs : current s with
  | some ic =>
      obtain ⟨id, c⟩ := ic
      obtain ⟨r, k, hr, rfl, hph⟩ := current_eq_some hs
      refine Or.inl ⟨r.id, c, rfl, ?_⟩
      cases ha : settlement s c e with
      | none => rfl
      | some a => exact absurd (current_settles ((step_current h hr hph).1 a ha)) hcurrent
  | none =>
      refine Or.inr ⟨rfl, ?_⟩
      obtain ⟨r, req, k, -, -, hconnected, -⟩ := (step_goes h hs).issued hcurrent
      exact hconnected

theorem Link.same (h : Link s) (hsame : Same s s')
    (hcurrent : Machine.current s' ≠ none → s.connected = true) : Link s' := by
  refine ⟨?_, ?_, ?_⟩
  · rw [hsame.connected, hsame.reconnectTimer, hsame.opening]
    exact h.connected
  · rw [hsame.opening, hsame.reconnectTimer]
    exact h.opening
  · rw [hsame.connected]
    exact hcurrent

theorem link_step (h : Link s) (hstep : step s e = some s') : Link s' := by
  have hwas (hcurrent : current s' ≠ none) : s.connected = true := by
    rcases current_step hstep hcurrent with ⟨id, c, hc, -⟩ | ⟨-, hconnected⟩
    · exact h.current (by rw [hc]; exact Option.some_ne_none _)
    · exact hconnected
  cases step_fields hstep with
  | line line rest hscan hsame =>
      exact Link.same (s := { s with scan := some rest }) ⟨h.connected, h.opening, h.current⟩ hsame hwas
  | prompt hscan hexpects hprompt hsame =>
      exact Link.same (s := { s with scan := none, rxBuffer := [] })
        ⟨h.connected, h.opening, h.current⟩ hsame hwas
  | scanned hscan hsame =>
      exact Link.same (s := { s with scan := none }) ⟨h.connected, h.opening, h.current⟩ hsame hwas
  | same _ hscan hsame => exact h.same hsame hwas
  | issued _ hscan hfree hcurrent hconnected hsame =>
      exact Link.same (s := { s with rxBuffer := [] }) ⟨h.connected, h.opening, h.current⟩ hsame hwas
  | data text hscan hconnected hsame =>
      refine ⟨?_, ?_, ?_⟩
      · rw [hsame.connected, hsame.reconnectTimer, hsame.opening]
        exact h.connected
      · rw [hsame.opening, hsame.reconnectTimer]
        exact h.opening
      · intro _
        exact hsame.connected.trans hconnected
  | timeout hscan hcurrent hsame =>
      exact Link.same (s := { s with quietUntil := s.now + quietMs })
        ⟨h.connected, h.opening, h.current⟩ hsame hwas
  | tick ms hscan hsame =>
      exact Link.same (s := { s with now := s.now + ms }) ⟨h.connected, h.opening, h.current⟩ hsame hwas
  | opened hscan hopening hsame =>
      refine ⟨?_, ?_, ?_⟩
      · intro _
        exact ⟨hsame.reconnectTimer.trans (h.opening hopening), hsame.opening⟩
      · intro hopen
        rw [hsame.opening] at hopen
        cases hopen
      · intro _
        exact hsame.connected
  | notOpened hscan hopening timer hsame =>
      have hoff : s.connected = false := by
        cases hconnected : s.connected with
        | false => rfl
        | true =>
            rw [(h.connected hconnected).2] at hopening
            cases hopening
      refine ⟨?_, ?_, ?_⟩
      · intro hconnected
        rw [hsame.connected] at hconnected
        rw [hoff] at hconnected
        cases hconnected
      · intro hopen
        rw [hsame.opening] at hopen
        cases hopen
      · intro hcurrent
        have hconnected := hwas hcurrent
        rw [hoff] at hconnected
        cases hconnected
  | closed hscan hconnected timer hsame =>
      refine ⟨?_, ?_, ?_⟩
      · intro hc
        rw [hsame.connected] at hc
        cases hc
      · intro hopen
        have hopening := hsame.opening.symm.trans hopen
        rw [(h.connected hconnected).2] at hopening
        cases hopening
      · intro hcurrent
        rcases current_step hstep hcurrent with ⟨id, c, -, hsettlement⟩ | ⟨hnone, -⟩
        · cases hsettlement
        · obtain ⟨r, req, k, -, -, -, -, -, h'⟩ := (step_goes hstep hnone).issued hcurrent
          rw [h'] at hsame
          have hoff : s.connected = false := hsame.connected
          rw [hconnected] at hoff
          cases hoff
  | reconnect hscan timer htimer hsame =>
      have hoff : s.connected = false := by
        cases hconnected : s.connected with
        | false => rfl
        | true =>
            rw [(h.connected hconnected).1] at htimer
            cases htimer
      have hnone (hcurrent : current s' ≠ none) : False := by
        have hconnected := hwas hcurrent
        rw [hoff] at hconnected
        cases hconnected
      rcases hsame with hsame | hsame
      · refine ⟨?_, fun _ => hsame.reconnectTimer, fun hcurrent => (hnone hcurrent).elim⟩
        intro hconnected
        rw [hsame.connected] at hconnected
        rw [hoff] at hconnected
        cases hconnected
      · refine ⟨?_, fun _ => hsame.reconnectTimer, fun hcurrent => (hnone hcurrent).elim⟩
        intro hconnected
        rw [hsame.connected] at hconnected
        rw [hoff] at hconnected
        cases hconnected
  | close hscan hsame =>
      refine ⟨?_, fun _ => hsame.reconnectTimer, ?_⟩
      · intro hconnected
        rw [hsame.connected] at hconnected
        exact ⟨hsame.reconnectTimer, hsame.opening.trans (h.connected hconnected).2⟩
      · intro hcurrent
        exact hsame.connected.trans (hwas hcurrent)

end

/-! ## The ledger -/

/-- What is settled about a command stays. -/
def Exchange.core (x : Exchange) : Exchange := { x with answer := [], firedAt := none, gone := false }

def Watched.ledger (w : Watched) : List Exchange := w.past.map Exchange.core

theorem core_settledBy (x : Exchange) (now : Nat) (a : Except JsError (List JsString)) (e : Event) :
    (x.settledBy now a e).core = (x.settle a).core := by
  unfold Exchange.settledBy
  split <;> rfl

theorem ledger_drop (e : Event) (past : List Exchange) :
    (drop e past).map Exchange.core = past.map Exchange.core := by
  unfold drop
  split
  · rw [List.map_map]
    rfl
  · rfl

theorem ledger_receive (w : Watched) (pieces : List Piece) (driver : State) :
    (w.receive pieces driver).ledger = w.ledger := by
  refine List.ext_getElem? fun n => ?_
  simp only [Watched.ledger, Watched.receive, List.getElem?_map, List.getElem?_mapIdx, Option.map_map]
  rfl

/-! ## Every command is settled once -/

/-- The current command and its record. -/
structure Awaited (s : State) (x : Exchange) (c : Command) : Prop where
  current : current s = some (x.call, c)
  request : c.request = x.request
  settlements : x.settlements = []
  buffer : s.rxBuffer = Lines.tail LF (chunk x.heard)
  /-- its lines are among those that have been handed on -/
  lines : ∃ handled, linesOf (chunk x.heard) = handled ++ s.scan.getD [] ∧
    List.Sublist c.lines handled
  nonterminal : ∀ line ∈ c.lines, isTerminalLine line = false

structure WireInv (w : Watched) : Prop where
  link : Link w.driver
  idle : w.pending = none → current w.driver = none
  awaited : ∀ x, w.pending = some x → ∃ c, Awaited w.driver x c
  settled : ∀ x ∈ w.past, ∃ a, x.settlements = [a]

theorem wireInv_start (smsc : JsString) : WireInv (start smsc) := by
  refine ⟨⟨nofun, fun _ => rfl, fun h => (h rfl).elim⟩, fun _ => rfl, nofun, ?_⟩
  intro x hx
  cases hx

/-- What a step makes of the record. -/
inductive Follows (w w' : Watched) : WireEvent → Prop where
  | hears (pieces : List Piece) (h : Machine.step w.driver (.data (chunk pieces)) = some w'.driver)
      (h' : w' = w.receive pieces w'.driver) : Follows w w' (.data pieces)
  | settles (e : Event) (h : Machine.step w.driver e = some w'.driver) (x : Exchange) (c : Command)
      (a : Except JsError (List JsString)) (hx : w.pending = some x) (hc : Awaited w.driver x c)
      (ha : settlement w.driver c e = some a)
      (h' : w' = ⟨w'.driver, drop e (w.past ++ [x.settledBy w.driver.now a e]), none⟩) :
      Follows w w' (.driver e)
  | awaits (e : Event) (h : Machine.step w.driver e = some w'.driver) (x : Exchange) (c : Command)
      (hx : w.pending = some x) (hc : Awaited w.driver x c) (ha : settlement w.driver c e = none)
      (h' : w' = { w with driver := w'.driver }) : Follows w w' (.driver e)
  | issues (e : Event) (h : Machine.step w.driver e = some w'.driver) (hx : w.pending = none)
      (r : Running) (req : Request) (k : Except JsError (List JsString) → Prog Result)
      (hr : w.driver.running = some r) (hprog : r.phase.prog = .call (.transact req) k)
      (hconnected : w.driver.connected = true) (hscan : w.driver.scan = none)
      (hquiet : w.driver.quietUntil ≤ w.driver.now ∨
        ∃ deadline, r.phase = .quiet deadline req k ∧ deadline ≤ w.driver.now)
      (hdriver : w'.driver = issue w.driver r req k)
      (h' : w' = ⟨w'.driver, w.past, some (.new r.id req)⟩) : Follows w w' (.driver e)
  | goes (e : Event) (h : Machine.step w.driver e = some w'.driver) (hx : w.pending = none)
      (hgoes : Goes w.driver w'.driver) (hcurrent : current w'.driver = none)
      (h' : w' = ⟨w'.driver, drop e w.past, none⟩) : Follows w w' (.driver e)

section

variable {w w' : Watched}

theorem current_issue {s : State} {r : Running} {req : Request}
    {k : Except JsError (List JsString) → Prog Result} (hconnected : s.connected = true) :
    current (issue s r req k) = some (r.id, ⟨req, [], s.now + req.timeoutMs⟩) := by
  simp [issue, Running.issue, hconnected, current]

theorem follows_follow (hw : WireInv w) {e : Event} {driver : State}
    (h : Machine.step w.driver e = some driver) : Follows w (w.follow e driver) (.driver e) := by
  cases hx : w.pending with
  | some x =>
      obtain ⟨c, hc⟩ := hw.awaited x hx
      cases ha : settlement w.driver c e with
      | some a =>
          have hfollow : w.follow e driver =
              ⟨driver, drop e (w.past ++ [x.settledBy w.driver.now a e]), none⟩ := by
            simp only [Watched.follow, hc.current, ha, hx, Option.map_some, Option.toList_some]
          rw [hfollow]
          exact .settles e h x c a hx hc ha rfl
      | none =>
          have hfollow : w.follow e driver = { w with driver } := by
            simp only [Watched.follow, hc.current, ha]
          rw [hfollow]
          exact .awaits e h x c hx hc ha rfl
  | none =>
      have hnone := hw.idle hx
      have hgoes := step_goes h hnone
      cases hcurrent : current driver with
      | none =>
          have hfollow : w.follow e driver = ⟨driver, drop e w.past, none⟩ := by
            simp only [Watched.follow, hnone, hcurrent, hx]
          rw [hfollow]
          exact .goes e h hx hgoes hcurrent rfl
      | some ic =>
          obtain ⟨r, req, k, hr, hprog, hconnected, hscan, hquiet, hdriver⟩ :=
            hgoes.issued (by rw [hcurrent]; exact Option.some_ne_none _)
          have hfollow : w.follow e driver = ⟨driver, w.past, some (.new r.id req)⟩ := by
            rw [hdriver, current_issue hconnected] at hcurrent
            simp only [Watched.follow, hnone, hdriver, current_issue hconnected, hx,
              Option.toList_none, List.append_nil]
          rw [hfollow]
          exact .issues e h hx r req k hr hprog hconnected hscan hquiet hdriver rfl

/-- The cases of a step. -/
theorem step_follows (hw : WireInv w) {e : WireEvent} (h : w.step e = some w') : Follows w w' e := by
  cases e with
  | data pieces =>
      obtain ⟨driver, hdriver, rfl⟩ := Option.map_eq_some_iff.mp h
      exact .hears pieces hdriver rfl
  | driver e =>
      cases e with
      | data text => cases h
      | _ =>
          obtain ⟨driver, hdriver, rfl⟩ := Option.map_eq_some_iff.mp h
          exact follows_follow hw hdriver

theorem step_data {s s' : State} {text : JsString} (h : Machine.step s (.data text) = some s') :
    s.scan = none ∧ s.connected = true ∧ s' = { s with
      rxBuffer := (readLines (s.rxBuffer ++ text)).2
      scan := some (readLines (s.rxBuffer ++ text)).1 } := by
  rcases step_cases h with ⟨he, -⟩ | ⟨random, he, -⟩ | ⟨hscan, -, hreact⟩
  · cases he
  · cases he
  · rw [react] at hreact
    split at hreact
    case isTrue hconnected => exact ⟨hscan, hconnected, (Option.some.inj hreact).symm⟩
    case isFalse => cases hreact

@[simp] theorem chunk_append (a b : List Piece) : chunk (a ++ b) = chunk a ++ chunk b :=
  List.flatMap_append

/-- A chunk goes on where the text before it ended. -/
theorem Awaited.hear {s s' : State} {x : Exchange} {c : Command} (hc : Awaited s x c)
    {pieces : List Piece} (text : JsString) (h : Machine.step s (.data (chunk pieces)) = some s') :
    Awaited s' ((x.hear pieces).answered text) c := by
  obtain ⟨hscan, -, rfl⟩ := step_data h
  have hread : readLines (chunk x.heard ++ chunk pieces) = (linesOf (chunk x.heard) ++
      linesOf (s.rxBuffer ++ chunk pieces), Lines.tail LF (s.rxBuffer ++ chunk pieces)) := by
    rw [readLines_append, hc.buffer]
  obtain ⟨handled, hhandled, hlines⟩ := hc.lines
  refine ⟨hc.current, hc.request, hc.settlements, ?_, ⟨linesOf (chunk x.heard), ?_, ?_⟩,
    hc.nonterminal⟩
  · change (readLines (s.rxBuffer ++ chunk pieces)).2 = Lines.tail LF (chunk (x.heard ++ pieces))
    rw [readLines_eq, chunk_append, ← (Prod.mk.inj ((readLines_eq _).symm.trans hread)).2]
  · change linesOf (chunk (x.heard ++ pieces)) =
      linesOf (chunk x.heard) ++ (readLines (s.rxBuffer ++ chunk pieces)).1
    rw [readLines_eq, chunk_append, (Prod.mk.inj ((readLines_eq _).symm.trans hread)).1]
  · rw [hhandled]
    exact hlines.trans (List.sublist_append_left _ _)

theorem Awaited.issued {s : State} {r : Running} {req : Request}
    {k : Except JsError (List JsString) → Prog Result} (hconnected : s.connected = true)
    (hscan : s.scan = none) :
    Awaited (issue s r req k) (.new r.id req) ⟨req, [], s.now + req.timeoutMs⟩ := by
  refine ⟨current_issue hconnected, rfl, rfl, ?_, ⟨[], ?_, List.nil_sublist _⟩,
    fun _ h => (List.not_mem_nil h).elim⟩
  · simp only [issue, hconnected, if_true]
    rfl
  · simp only [issue, hscan]
    rfl

/-- Only the loop of `handleData` hands lines on while a command is current, and nothing else
touches the buffer. -/
theorem Awaited.fields {s s' : State} {e : Event} {x : Exchange} {c : Command} (hlink : Link s)
    (hc : Awaited s x c) (he : ∀ text, e ≠ .data text) (h : Machine.step s e = some s')
    (ha : settlement s c e = none) : s'.rxBuffer = s.rxBuffer ∧
      ((s.scan.getD [] = [] ∧ s'.scan.getD [] = []) ∨
        ∃ line rest, s.scan = some (line :: rest) ∧ s'.scan = some rest) := by
  have hquiet (hscan : s.scan = none) (hscan' : s'.scan = s.scan) :
      s.scan.getD [] = [] ∧ s'.scan.getD [] = [] := by
    rw [hscan', hscan]
    exact ⟨rfl, rfl⟩
  cases step_fields h with
  | line line rest hscan hsame => exact ⟨hsame.rxBuffer, Or.inr ⟨line, rest, hscan, hsame.scan⟩⟩
  | prompt hscan hexpects hprompt hsame =>
      obtain ⟨r, k, hr, -, hph⟩ := current_eq_some hc.current
      simp only [expectsPrompt, hr, hph] at hexpects
      rw [settlement_end hscan, promptSettlement, hexpects, hprompt] at ha
      cases ha
  | scanned hscan hsame =>
      refine ⟨hsame.rxBuffer, Or.inl ?_⟩
      rw [hsame.scan, hscan]
      exact ⟨rfl, rfl⟩
  | same _ hscan hsame => exact ⟨hsame.rxBuffer, Or.inl (hquiet hscan hsame.scan)⟩
  | issued _ hscan hfree hcurrent hconnected hsame =>
      rw [hc.current] at hfree
      cases hfree
  | data text hscan hconnected hsame => exact absurd rfl (he text)
  | timeout hscan hcurrent hsame => exact ⟨hsame.rxBuffer, Or.inl (hquiet hscan hsame.scan)⟩
  | tick ms hscan hsame => exact ⟨hsame.rxBuffer, Or.inl (hquiet hscan hsame.scan)⟩
  | opened hscan hopening hsame => exact ⟨hsame.rxBuffer, Or.inl (hquiet hscan hsame.scan)⟩
  | notOpened hscan hopening timer hsame =>
      exact ⟨hsame.rxBuffer, Or.inl (hquiet hscan hsame.scan)⟩
  | closed hscan hconnected timer hsame => exact ⟨hsame.rxBuffer, Or.inl (hquiet hscan hsame.scan)⟩
  | reconnect hscan timer htimer hsame =>
      have hconnected := hlink.current (by rw [hc.current]; exact Option.some_ne_none _)
      rw [(hlink.connected hconnected).1] at htimer
      cases htimer
  | close hscan hsame => exact ⟨hsame.rxBuffer, Or.inl (hquiet hscan hsame.scan)⟩

/-- A command that goes on waiting keeps its record. -/
theorem Awaited.awaits {s s' : State} {e : Event} {x : Exchange} {c : Command} (hlink : Link s)
    (hc : Awaited s x c) (he : ∀ text, e ≠ .data text) (h : Machine.step s e = some s')
    (ha : settlement s c e = none) : ∃ c', Awaited s' x c' := by
  obtain ⟨r, k, hr, hid, hph⟩ := current_eq_some hc.current
  obtain ⟨more, hmore, r', hr', hid', hph'⟩ := (step_current h hr hph).2 ha
  obtain ⟨handled, hhandled, hlines⟩ := hc.lines
  obtain ⟨hbuffer, hscan⟩ := hc.fields hlink he h ha
  refine ⟨{ c with lines := c.lines ++ more }, ?_, hc.request, hc.settlements, ?_, ?_, ?_⟩
  · rw [current_of_command hr' hph', hid', hid]
  · rw [hbuffer, hc.buffer]
  · rcases hscan with ⟨hs, hs'⟩ | ⟨line, rest, hs, hs'⟩
    · have hnil : more = [] := by
        rcases hmore with hnil | ⟨line, rest, hline, -⟩
        · exact hnil
        · rw [hline] at hs
          cases hs
      refine ⟨handled, ?_, ?_⟩
      · rw [hhandled, hs, hs']
      · rw [hnil, List.append_nil]
        exact hlines
    · refine ⟨handled ++ [line], ?_, ?_⟩
      · rw [hhandled, hs, hs', List.append_assoc]
        rfl
      · refine hlines.append ?_
        rcases hmore with hnil | ⟨line', rest', hline, hsome, -⟩
        · rw [hnil]
          exact List.nil_sublist _
        · rw [hs] at hline
          obtain ⟨rfl, -⟩ := List.cons.inj (Option.some.inj hline)
          rw [hsome]
  · intro line hline
    rcases List.mem_append.mp hline with hline | hline
    · exact hc.nonterminal line hline
    · rcases hmore with rfl | ⟨line', rest, -, rfl, hterminal⟩
      · cases hline
      · rw [List.mem_singleton.mp hline]
        exact hterminal

theorem mem_drop {e : Event} {past : List Exchange} {x : Exchange} (h : x ∈ drop e past) :
    x ∈ past ∨ ∃ y ∈ past, x = y.lose := by
  unfold drop at h
  split at h
  · obtain ⟨y, hy, rfl⟩ := List.mem_map.mp h
    exact Or.inr ⟨y, hy, rfl⟩
  · exact Or.inl h

theorem settledBy_settlements (x : Exchange) (now : Nat) (a : Except JsError (List JsString))
    (e : Event) : (x.settledBy now a e).settlements = x.settlements ++ [a] := by
  unfold Exchange.settledBy
  split <;> rfl

theorem settled_drop {e : Event} {past : List Exchange}
    (h : ∀ x ∈ past, ∃ a, x.settlements = [a]) : ∀ x ∈ drop e past, ∃ a, x.settlements = [a] := by
  intro x hx
  rcases mem_drop hx with hx | ⟨y, hy, rfl⟩
  · exact h x hx
  · exact h y hy

theorem wireInv_step (hw : WireInv w) {e : WireEvent} (h : w.step e = some w') : WireInv w' := by
  cases step_follows hw h with
  | hears pieces hs h' =>
      have hcurrent : current w'.driver = current w.driver := by
        obtain ⟨-, -, hdriver⟩ := step_data hs
        rw [hdriver]
        rfl
      rw [h']
      refine ⟨link_step hw.link hs, ?_, ?_, ?_⟩
      · intro hpending
        have hnone : w.pending = none := Option.map_eq_none_iff.mp hpending
        exact hcurrent.trans (hw.idle hnone)
      · intro x hx
        obtain ⟨x₀, hx₀, rfl⟩ := Option.map_eq_some_iff.mp hx
        obtain ⟨c, hc⟩ := hw.awaited x₀ hx₀
        exact ⟨c, hc.hear _ hs⟩
      · intro x hx
        obtain ⟨n, hn, rfl⟩ := List.mem_mapIdx.mp hx
        exact hw.settled w.past[n] (List.getElem_mem hn)
  | settles e hs x c a hx hc ha h' =>
      obtain ⟨r, k, hr, -, hph⟩ := current_eq_some hc.current
      rw [h']
      refine ⟨link_step hw.link hs, fun _ => current_settles ((step_current hs hr hph).1 a ha), nofun,
        settled_drop ?_⟩
      intro y hy
      rcases List.mem_append.mp hy with hy | hy
      · exact hw.settled y hy
      · rw [List.mem_singleton.mp hy, settledBy_settlements, hc.settlements]
        exact ⟨a, rfl⟩
  | awaits e hs x c hx hc ha h' =>
      have hcurrent' : ∃ c', Awaited w'.driver x c' := by
        refine hc.awaits hw.link ?_ hs ha
        rintro text rfl
        cases h
      rw [h']
      refine ⟨link_step hw.link hs, ?_, ?_, hw.settled⟩
      · intro hpending
        exact absurd (hx.symm.trans hpending) (Option.some_ne_none x)
      · intro y hy
        obtain rfl := Option.some.inj (hx.symm.trans hy)
        exact hcurrent'
  | issues e hs hx r req k hr hprog hconnected hscan hquiet hdriver h' =>
      rw [h', hdriver]
      refine ⟨hdriver ▸ link_step hw.link hs, nofun, ?_, hw.settled⟩
      intro y hy
      obtain rfl := Option.some.inj hy
      exact ⟨_, Awaited.issued hconnected hscan⟩
  | goes e hs hx hgoes hcurrent h' =>
      rw [h']
      exact ⟨link_step hw.link hs, fun _ => hcurrent, nofun, settled_drop hw.settled⟩

end

end SmsGateway.Serial.Wire
