import SmsGateway.Serial.Answers
import SmsGateway.Serial.Inbox
import SmsGateway.Serial.Waiters

/-!
# What a command reads

On the wire a command that resolves has read the lines of its own answer, up to the terminal
one. So the world in which inboxes are read gives a listing the answer that the driver gets.
-/

namespace SmsGateway.Serial.Reading

open SmsGateway Serial Machine Wire Answers Ussd
open Lib Lib.Runs
open SmsGateway.Serial.Listing (upToTerminal upToTerminal_line listingText greeting)

/-- No line of the text is one that waiters take. -/
def Unclaimed (text : JsString) : Prop := ∀ line ∈ linesOf text, startsWith line cusd = false

/-! ## The lines of the current command -/

/-- The command has read the lines that have been handed on. -/
def ReadSoFar (s : State) (x : Exchange) (c : Command) : Prop :=
  ∃ handled, linesOf (chunk x.heard) = handled ++ s.scan.getD [] ∧
    ((∀ line ∈ handled, startsWith line cusd = false) → c.lines = handled)

/-- A command that has resolved has read what came in while it was current. -/
def ReadAll (x : Exchange) : Prop :=
  x.request.expectPrompt = false → Unclaimed (chunk x.heard) → ∀ lines, .ok lines ∈ x.settlements →
    lines = upToTerminal (linesOf (chunk x.heard))

structure ReadInv (w : Watched) : Prop where
  pending : ∀ x id c, w.pending = some x → current w.driver = some (id, c) → ReadSoFar w.driver x c
  past : ∀ x ∈ w.past, ReadAll x

section

variable {s s' : State} {r : Running} {c : Command} {x : Exchange} {e : Event}
  {k : Except JsError (List JsString) → Prog Result} {line : JsString} {rest : List JsString}

/-- A line that no waiter takes is read. -/
theorem current_line (hr : s.running = some r) (hph : r.phase = .command c k)
    (hscan : s.scan = some (line :: rest)) (hfind : s.urcWaiters.find? (takes line) = none)
    (hnone : settlement s c .scan = none) (hs : step s .scan = some s') :
    current s' = some (r.id, { c with lines := c.lines ++ [line] }) := by
  have hterminal : isTerminalLine line = false := by
    rw [settlement_line hscan, lineSettlement, hfind] at hnone
    cases hterminal : isTerminalLine line with
    | false => rfl
    | true =>
        rw [hterminal] at hnone
        simp only [Option.isSome_none, Bool.not_true, Bool.or_self, Bool.false_eq_true, if_false] at hnone
        split at hnone <;> cases hnone
  obtain ⟨hid, hphase⟩ := receive_phase hph line
  rw [hterminal] at hphase
  have hstate : s' = ({ s with scan := some rest }).mapRunning (·.receive line) := by
    have hrun : runScan s = some s' := hs
    rw [runScan, hscan] at hrun
    rw [← Option.some.inj hrun, handleLine, hfind]
  have hrunning : s'.running = some (r.receive line) := by
    rw [hstate, State.mapRunning, hr, Option.map_some]
  rw [current_of_command hrunning hphase, hid]

theorem ReadSoFar.step (hlink : Link s) (hreg : Registered s) (hc : Awaited s x c)
    (h : ReadSoFar s x c) (he : ∀ text, e ≠ .data text) (hs : Machine.step s e = some s')
    (hnone : settlement s c e = none) {id : Nat} {c' : Command} (hcurrent : current s' = some (id, c')) :
    ReadSoFar s' x c' := by
  obtain ⟨r, k, hr, -, hph⟩ := current_eq_some hc.current
  obtain ⟨more, hmore, r', hr', -, hph'⟩ := (step_current hs hr hph).2 hnone
  rw [current_of_command hr' hph'] at hcurrent
  obtain ⟨-, rfl⟩ := Prod.mk.inj (Option.some.inj hcurrent)
  obtain ⟨handled, hhandled, hlines⟩ := h
  obtain ⟨-, ⟨hnil, hnil'⟩ | ⟨line, rest, hscan, hscan'⟩⟩ := hc.fields hlink he hs hnone
  · have hsame : more = [] := by
      rcases hmore with hmore | ⟨line, rest, hscan, -⟩
      · exact hmore
      · rw [hscan] at hnil
        cases hnil
    refine ⟨handled, by rw [hhandled, hnil, hnil'], ?_⟩
    rw [hsame, List.append_nil]
    exact hlines
  · refine ⟨handled ++ [line], by rw [hhandled, hscan, hscan', List.append_assoc]; rfl, ?_⟩
    intro hunclaimed
    have hline := hunclaimed line (List.mem_append_right _ List.mem_cons_self)
    have hscanned : e = .scan := by
      rcases step_cases hs with ⟨he, -⟩ | ⟨random, -, hidle, -⟩ | ⟨hidle, -, -⟩
      · exact he
      · rw [hidle] at hscan
        cases hscan
      · rw [hidle] at hscan
        cases hscan
    subst hscanned
    have hread := current_line hr hph hscan (find_passed hreg.pre hline) hnone hs
    rw [current_of_command hr' hph'] at hread
    have hmore := congrArg Command.lines (Prod.mk.inj (Option.some.inj hread)).2
    rw [hmore, hlines fun l hl => hunclaimed l (List.mem_append_left _ hl)]

/-- The terminal line ends what has been read. -/
theorem ReadSoFar.settles (hc : Awaited s x c) (h : ReadSoFar s x c) {a : Except JsError (List JsString)}
    (ha : settlement s c e = some a) (now : Nat) : ReadAll (x.settledBy now a e) := by
  intro hprompt hunclaimed lines hlines
  have hheard : (x.settledBy now a e).heard = x.heard := by
    unfold Exchange.settledBy
    split <;> rfl
  have hrequest : (x.settledBy now a e).request = x.request := by
    unfold Exchange.settledBy
    split <;> rfl
  rw [settledBy_settlements, hc.settlements, List.nil_append, List.mem_singleton] at hlines
  subst hlines
  rw [hheard] at hunclaimed ⊢
  rw [hrequest] at hprompt
  obtain ⟨-, ⟨rest, hscan, -, rfl⟩ | ⟨-, hexpects, -⟩⟩ := settlement_ok ha
  · obtain ⟨handled, hhandled, hread⟩ := h
    rw [hscan, Option.getD_some] at hhandled
    have hlines : c.lines = handled := by
      refine hread fun line hline => hunclaimed line ?_
      rw [hhandled]
      exact List.mem_append_left _ hline
    rw [hhandled, ← hlines, upToTerminal_line rest hc.nonterminal (by decide)]
  · rw [hc.request, hprompt] at hexpects
    cases hexpects

theorem readAll_drop {past : List Exchange} (h : ∀ x ∈ past, ReadAll x) : ∀ x ∈ drop e past, ReadAll x := by
  intro x hx
  rcases mem_drop hx with hx | ⟨y, hy, rfl⟩
  · exact h x hx
  · exact h y hy

end

section

variable {w w' : Watched}

theorem readInv_step (hw : WireInv w) (hreg : Registered w.driver) (h : ReadInv w) {e : WireEvent}
    (hs : w.step e = some w') : ReadInv w' := by
  cases step_follows hw hs with
  | hears pieces hdata h' =>
      obtain ⟨hscan, -, hdriver⟩ := step_data hdata
      refine ⟨?_, ?_⟩
      · intro x id c hx hcurrent
        rw [h'] at hx
        obtain ⟨y, hy, rfl⟩ := Option.map_eq_some_iff.mp hx
        have hwas : current w.driver = some (id, c) := by
          rw [hdriver] at hcurrent
          exact hcurrent
        obtain ⟨c', hc⟩ := hw.awaited y hy
        have hread : readLines (chunk y.heard ++ chunk pieces) = (linesOf (chunk y.heard) ++
            linesOf (w.driver.rxBuffer ++ chunk pieces),
              Lines.tail LF (w.driver.rxBuffer ++ chunk pieces)) := by
          rw [readLines_append, hc.buffer]
        obtain ⟨handled, hhandled, hlines⟩ := h.pending y id c hy hwas
        rw [hscan, Option.getD_none, List.append_nil] at hhandled
        refine ⟨handled, ?_, hlines⟩
        rw [hdriver]
        change linesOf (chunk (y.heard ++ pieces)) =
          handled ++ (readLines (w.driver.rxBuffer ++ chunk pieces)).1
        rw [readLines_eq, chunk_append, (Prod.mk.inj ((readLines_eq _).symm.trans hread)).1, hhandled]
      · intro x hx
        rw [h'] at hx
        obtain ⟨n, hn, rfl⟩ := List.mem_mapIdx.mp hx
        exact h.past w.past[n] (List.getElem_mem hn)
  | settles e hstep x c a hx hc ha h' =>
      rw [h']
      refine ⟨nofun, readAll_drop ?_⟩
      intro y hy
      rcases List.mem_append.mp hy with hy | hy
      · exact h.past y hy
      · rw [List.mem_singleton.mp hy]
        exact (h.pending x _ c hx hc.current).settles hc ha _
  | awaits e hstep x c hx hc ha h' =>
      rw [h']
      refine ⟨?_, h.past⟩
      intro y id c' hy hcurrent
      obtain rfl := Option.some.inj (hx.symm.trans hy)
      refine (h.pending x _ c hx hc.current).step hw.link hreg hc ?_ hstep ha hcurrent
      rintro text rfl
      cases hs
  | issues e hstep hx r req k hr hprog hconnected hscan hquiet hdriver h' =>
      rw [h']
      refine ⟨?_, h.past⟩
      intro y id c hy hcurrent
      obtain rfl := Option.some.inj hy
      have hissued : current (issue w.driver r req k) =
          some (r.id, ⟨req, [], w.driver.now + req.timeoutMs⟩) := current_issue hconnected
      rw [← hdriver, hcurrent] at hissued
      obtain ⟨-, rfl⟩ := Prod.mk.inj (Option.some.inj hissued)
      refine ⟨[], ?_, fun _ => rfl⟩
      rw [hdriver]
      show linesOf [] = [] ++ w.driver.scan.getD []
      rw [hscan]
      rfl
  | goes e hstep hx hgoes hcurrent h' =>
      rw [h']
      exact ⟨nofun, readAll_drop h.past⟩

/-- The driver of a run on the wire is in a run of its own. -/
theorem driver_step {e : WireEvent} (hs : w.step e = some w') :
    ∃ e', Machine.step w.driver e' = some w'.driver := by
  cases e with
  | data pieces =>
      obtain ⟨driver, hdriver, rfl⟩ := Option.map_eq_some_iff.mp hs
      exact ⟨_, hdriver⟩
  | driver e =>
      have hfollow (e : Event) (driver : State) : (w.follow e driver).driver = driver := by
        unfold Watched.follow
        split
        · split <;> rfl
        · split <;> rfl
      cases e with
      | data text => cases hs
      | _ =>
          obtain ⟨driver, hdriver, rfl⟩ := Option.map_eq_some_iff.mp hs
          rw [hfollow]
          exact ⟨_, hdriver⟩

/-- What holds along a run on the wire. -/
structure Read (smsc : JsString) (w : Watched) : Prop where
  wire : WireInv w
  driver : ∃ es, Machine.run (Machine.start smsc) es = some w.driver
  read : ReadInv w

theorem read_run {smsc : JsString} {es : List WireEvent} (h : Wire.run (Wire.start smsc) es = some w) :
    Read smsc w := by
  refine run_induct (P := Read smsc) (A := fun _ => True) ?_ ?_ (fun _ _ => trivial) h
  · rintro w e w' ⟨hw, ⟨es, hes⟩, hread⟩ _ hs
    refine ⟨wireInv_step hw hs, ?_, readInv_step hw (registered_run hes) hread hs⟩
    obtain ⟨e', he'⟩ := driver_step hs
    refine ⟨es ++ [e'], ?_⟩
    show Runs.run Machine.step (Machine.start smsc) (es ++ [e']) = some w'.driver
    rw [run_append, show Runs.run Machine.step (Machine.start smsc) es = some w.driver from hes,
      Option.bind_some, Runs.run, he']
    rfl
  · refine ⟨wireInv_start smsc, ⟨[], rfl⟩, ?_, ?_⟩
    · intro x id c hpending
      cases hpending
    · intro x hx
      cases hx

end

/-! ## The answers of a run -/

section

variable {smsc : JsString} {es : List WireEvent} {w : Watched} {n : Nat} {x : Exchange}
  {lines : List JsString}

theorem upToTerminal_append {lines : List JsString} (rest : List JsString)
    (h : ∃ l ∈ lines, isTerminalLine l = true) : upToTerminal (lines ++ rest) = upToTerminal lines := by
  induction lines with
  | nil =>
      obtain ⟨l, hl, -⟩ := h
      cases hl
  | cons l lines ih =>
      rw [List.cons_append, upToTerminal, upToTerminal]
      by_cases hterminal : isTerminalLine l = true
      · rw [if_pos hterminal, if_pos hterminal]
      · obtain ⟨l', hl', hterminal'⟩ := h
        rw [if_neg hterminal, if_neg hterminal]
        refine congrArg (l :: ·) (ih ⟨l', ?_, hterminal'⟩)
        rcases List.mem_cons.mp hl' with rfl | hl'
        · exact absurd hterminal' hterminal
        · exact hl'

theorem textFrom_eq_chunk {source : Option Nat} {heard : List Piece}
    (h : ∀ p ∈ heard, p.source = source) : textFrom source heard = chunk heard := by
  rw [textFrom, List.filter_eq_self.mpr]
  intro p hp
  rw [beq_iff_eq]
  exact h p hp

/-- A command that nothing unsolicited interrupts has read the answer that the modem was sending. -/
theorem reads_own (hmodem : allSteps Watched.step (modem quietMs) (Wire.start smsc) es = true)
    (hrun : Wire.run (Wire.start smsc) es = some w) (hx : w.exchanges[n]? = some x)
    (hok : .ok lines ∈ x.settlements) (hprompt : x.request.expectPrompt = false)
    (hown : ∀ p ∈ x.heard, p.source ≠ none) {answer : JsString}
    (hanswer : textFrom (some n) x.heard <+: answer)
    (hunclaimed : Unclaimed (textFrom (some n) x.heard)) :
    lines = upToTerminal (linesOf answer) := by
  obtain ⟨hw, h⟩ := answerInv_run hmodem hrun
  have howner := (settledOnce hw h).resolved n x hx lines hok
  have hchunk : textFrom (some n) x.heard = chunk x.heard :=
    textFrom_eq_chunk fun p hp => (howner.sources p hp).resolve_right (hown p hp)
  have hpast : x ∈ w.past := by
    rcases List.mem_append.mp (List.mem_of_getElem? hx) with hpast | hpending
    · exact hpast
    · obtain ⟨c, hc⟩ := hw.awaited x (Option.mem_toList.mp hpending)
      rw [hc.settlements] at hok
      cases hok
  have hread : lines = upToTerminal (linesOf (textFrom (some n) x.heard)) := by
    rw [hchunk] at hunclaimed ⊢
    exact (read_run hrun).read.past x hpast hprompt hunclaimed lines hok
  have hterminal : ∃ line ∈ linesOf (textFrom (some n) x.heard), isTerminalLine line = true := by
    rcases howner.last with ⟨line, -, hterminal, hline⟩ | ⟨hexpects, -⟩
    · exact ⟨line, hline, hterminal⟩
    · rw [hprompt] at hexpects
      cases hexpects
  obtain ⟨rest, rfl⟩ := hanswer
  rw [linesOf_tail_append, upToTerminal_append _ hterminal]
  exact hread

/-- A listing is answered as the inbox's world answers it. -/
theorem listing_transacts
    (hmodem : allSteps Watched.step (modem quietMs) (Wire.start smsc) es = true)
    (hrun : Wire.run (Wire.start smsc) es = some w) (hx : w.exchanges[n]? = some x)
    (hok : .ok lines ∈ x.settlements) (hwrite : x.request.write = Serial.Inbox.listWrite)
    (hprompt : x.request.expectPrompt = false) (hown : ∀ p ∈ x.heard, p.source ≠ none)
    {b : SmsGateway.Inbox.Box Serial.Inbox.SimSms} {l : List (SmsGateway.Inbox.Sms Serial.Inbox.SimSms)}
    (hl : l.Perm b.stored) {shown : List Listing.Stored}
    (hshown : List.Forall₂ Serial.Inbox.Shows shown (l.map (·.content)))
    (hanswer : textFrom (some n) x.heard <+: listingText shown)
    (hunclaimed : Unclaimed (textFrom (some n) x.heard)) :
    Serial.Inbox.Transacts b x.request (.ok lines) (b.list l false) := by
  rw [reads_own hmodem hrun hx hok hprompt hown hanswer hunclaimed]
  exact .listed hwrite l hl shown hshown

end

/-! ## A listing -/

/-- The modem's answer to a command, in so many lines. -/
def answerLines (number : Nat) (text : JsString) (lines : Nat) : List WireEvent :=
  .data [⟨some number, text⟩] ::
    (List.replicate (lines + 1) (.driver .scan) ++ [.driver (.microtask 0)])

/-- The port opens, `initModem` runs through, and the SIM is listed. -/
def readingRun : List WireEvent :=
  [.driver (.opened true), .driver (.microtask 0), .driver (.microtask 0)] ++
    ([0, 1, 2].flatMap fun n => answerLines n (js "OK\r\n") 1) ++
    [.driver (.call (.getMessages true)), .driver (.microtask 0), .driver (.microtask 0)] ++
    ([3, 4, 5].flatMap fun n => answerLines n (js "OK\r\n") 1) ++
    answerLines 6 (listingText [greeting]) 3

theorem readingRun_isSome : (Wire.run (Wire.start []) readingRun).isSome = true := by decide +kernel

/-- The SMS on the SIM. -/
def onSim : SmsGateway.Inbox.Sms Serial.Inbox.SimSms :=
  ⟨0, { slot := greeting.slot, sender := greeting.sender, date := greeting.date
        text := greeting.text, clean := by decide +kernel }⟩

def onlyGreeting : SmsGateway.Inbox.Box Serial.Inbox.SimSms := SmsGateway.Inbox.empty.arrive onSim

/-- The SIM is listed as in the inbox's world. -/
theorem listing_transacts_greeting : ∃ x lines,
    ((Wire.run (Wire.start []) readingRun).get readingRun_isSome).exchanges[6]? = some x ∧
      lines.length = 3 ∧ x.settlements = [.ok lines] ∧
      Serial.Inbox.Transacts onlyGreeting x.request (.ok lines) (onlyGreeting.list [onSim] false) := by
  have hlisted : ∃ x, ((Wire.run (Wire.start []) readingRun).get readingRun_isSome).exchanges[6]? = some x ∧
      x.request.write = Serial.Inbox.listWrite ∧ x.request.expectPrompt = false ∧
      x.settlements = [.ok (linesOf (listingText [greeting]))] ∧
      x.heard = [⟨some 6, listingText [greeting]⟩] := by
    decide +kernel
  obtain ⟨x, hx, hwrite, hprompt, hsettlements, hheard⟩ := hlisted
  have hlines : (linesOf (listingText [greeting])).length = 3 := by decide +kernel
  have hshown : List.Forall₂ Serial.Inbox.Shows [greeting] ([onSim].map (·.content)) :=
    .cons ⟨rfl, rfl, rfl, rfl⟩ .nil
  have hanswer : textFrom (some 6) x.heard = listingText [greeting] := by
    rw [hheard]
    exact List.append_nil _
  have hunclaimed : Unclaimed (listingText [greeting]) := by
    unfold Unclaimed
    decide +kernel
  have hmodem : allSteps Watched.step (modem quietMs) (Wire.start []) readingRun = true := by
    decide +kernel
  refine ⟨x, _, hx, hlines, hsettlements, ?_⟩
  refine listing_transacts hmodem (Option.some_get readingRun_isSome).symm hx ?_ hwrite hprompt ?_
    (List.Perm.refl _) hshown ?_ ?_
  · rw [hsettlements]
    exact List.mem_singleton_self _
  · intro p hp
    rw [hheard] at hp
    rw [List.mem_singleton.mp hp]
    exact Option.some_ne_none _
  · rw [hanswer]
  · rw [hanswer]
    exact hunclaimed

end SmsGateway.Serial.Reading
