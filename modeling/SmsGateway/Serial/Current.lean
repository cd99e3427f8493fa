import SmsGateway.Serial.Machine

/-!
# The current command

What a step of the driver does to `currentCommand`: it goes on waiting, it is settled, or the
holder of the lock issues the next one. A command is settled by a terminal line, by the prompt it
expects, by its timer, by a failed write, or with the port.
-/

namespace SmsGateway.Serial.Machine

open SmsGateway Serial
open Lib

/-- `currentCommand`, with the call that awaits it. -/
def current (s : State) : Option (Nat × Command) :=
  match s.running with
  | some r =>
      match r.phase with
      | .command c _ => some (r.id, c)
      | _ => none
  | none => none

/-- What a line settles the current command with. -/
def lineSettlement (s : State) (c : Command) (line : JsString) :
    Option (Except JsError (List JsString)) :=
  if (s.urcWaiters.find? (takes line)).isSome || !isTerminalLine line then none
  else if isErrorLine line then some (.error (respondedError line c.request.label))
  else some (.ok (c.lines ++ [line]))

/-- The prompt that the command expects is there. -/
def promptSettlement (s : State) (c : Command) : Option (Except JsError (List JsString)) :=
  if c.request.expectPrompt && startsWith (trimStart s.rxBuffer) (js ">") then some (.ok c.lines)
  else none

/-- What an event settles the current command with. -/
def settlement (s : State) (c : Command) : Event → Option (Except JsError (List JsString))
  | .scan =>
      match s.scan with
      | some (line :: _) => lineSettlement s c line
      | some [] => promptSettlement s c
      | none => none
  | .commandTimeout => some (.error (timeoutError c.request.label))
  | .writeFailed message _ => some (.error (writeFailedError message))
  | .portClosed => some (.error portClosedError)
  | .close => some (.error shuttingDown)
  | _ => none

section

variable {s s' : State} {r : Running} {c : Command}
  {k : Except JsError (List JsString) → Prog Result}

theorem current_eq_some {id : Nat} (h : current s = some (id, c)) :
    ∃ r k, s.running = some r ∧ r.id = id ∧ r.phase = .command c k := by
  unfold current at h
  split at h
  case h_1 r hr =>
    split at h
    case h_1 c' k hph =>
      obtain ⟨rfl, rfl⟩ := Prod.mk.inj (Option.some.inj h)
      exact ⟨r, k, hr, rfl, hph⟩
    case h_2 => cases h
  case h_2 => cases h

theorem current_of_command (hr : s.running = some r) (hph : r.phase = .command c k) :
    current s = some (r.id, c) := by
  simp only [current, hr, hph]

/-- The holder after the command is settled. -/
def Settles (s' : State) (id : Nat) (p : Prog Result) : Prop :=
  ∃ r', s'.running = some r' ∧ r'.id = id ∧ r'.phase = .ready p

/-- The holder when it goes on waiting. -/
def Awaits (s' : State) (id : Nat) (c : Command) (k : Except JsError (List JsString) → Prog Result) :
    Prop :=
  ∃ r', s'.running = some r' ∧ r'.id = id ∧ r'.phase = .command c k

theorem settle_phase (hph : r.phase = .command c k) (err : Option JsError) :
    (r.settle err).id = r.id ∧ (r.settle err).phase =
      .ready (k (err.elim (.ok c.lines) .error)) := by
  unfold Running.settle
  rw [hph]
  cases err <;> exact ⟨rfl, rfl⟩

theorem abandon_phase (hph : r.phase = .command c k) (err : JsError) :
    (r.abandon err).id = r.id ∧ (r.abandon err).phase = .ready (k (.error err)) := by
  have hsettle := settle_phase hph (some err)
  unfold Running.abandon
  rw [hph]
  exact hsettle

theorem failWrite_phase (hph : r.phase = .command c k) (message : JsString) (reached : Bool) :
    (r.failWrite message reached).id = r.id ∧
      (r.failWrite message reached).phase = .ready (k (.error (writeFailedError message))) := by
  unfold Running.failWrite
  cases reached
  · have hsettle := settle_phase hph (some (writeFailedError message))
    simp only [Bool.false_eq_true, if_false, hph]
    exact hsettle
  · exact abandon_phase hph _

theorem receive_phase (hph : r.phase = .command c k) (line : JsString) :
    (r.receive line).id = r.id ∧ (r.receive line).phase =
      if isTerminalLine line then
        .ready (k (if isErrorLine line then .error (respondedError line c.request.label)
          else .ok (c.lines ++ [line])))
      else .command { c with lines := c.lines ++ [line] } k := by
  unfold Running.receive
  rw [hph]
  dsimp only
  cases isTerminalLine line with
  | false => exact ⟨rfl, rfl⟩
  | true =>
      cases isErrorLine line with
      | false => exact ⟨rfl, rfl⟩
      | true => exact ⟨rfl, rfl⟩

theorem resolveUrc_phase (hph : r.phase = .command c k) (waiter : Nat) (line : Option JsString) :
    (r.resolveUrc waiter line).id = r.id ∧ (r.resolveUrc waiter line).phase = .command c k := by
  unfold Running.resolveUrc
  rw [hph]
  exact ⟨rfl, hph⟩

/-- Waiters that are resolved leave a holder alone that does not await one. -/
theorem foldl_resolveWaiter (ws : List Waiter) {id : Nat} {p : Prog Result}
    (h : Settles s id p) :
    Settles (ws.foldl (fun s w => resolveWaiter s w none) s) id p := by
  induction ws generalizing s with
  | nil => exact h
  | cons w ws ih =>
      obtain ⟨r', hr', hid, hph⟩ := h
      refine ih ⟨r'.resolveUrc w.id none, ?_, ?_, ?_⟩
      · simp only [resolveWaiter, hr', Option.map_some]
      · rw [Running.resolveUrc, hph]
        exact hid
      · rw [Running.resolveUrc, hph]
        exact hph

theorem failCurrentCommand_settles (hr : s.running = some r) (hph : r.phase = .command c k)
    (err : JsError) : Settles (failCurrentCommand s err) r.id (k (.error err)) := by
  obtain ⟨hid, hphase⟩ := abandon_phase hph err
  refine foldl_resolveWaiter _ ⟨r.abandon err, ?_, hid, hphase⟩
  simp [State.mapRunning, hr]

theorem scheduleReconnect_running (s : State) : (scheduleReconnect s).running = s.running := by
  unfold scheduleReconnect
  split <;> rfl

theorem handleLine_current (hr : s.running = some r) (hph : r.phase = .command c k)
    (line : JsString) :
    (∀ a, lineSettlement s c line = some a → Settles (handleLine s line) r.id (k a)) ∧
    (lineSettlement s c line = none →
      ∃ heard, (heard = [] ∨ heard = [line] ∧ isTerminalLine line = false) ∧
        Awaits (handleLine s line) r.id { c with lines := c.lines ++ heard } k) := by
  unfold handleLine lineSettlement
  cases hw : s.urcWaiters.find? (takes line) with
  | some w =>
      obtain ⟨hid, hphase⟩ := resolveUrc_phase hph w.id (some line)
      refine ⟨by simp, ?_⟩
      intro _
      refine ⟨[], Or.inl rfl, r.resolveUrc w.id (some line), ?_, hid, ?_⟩
      · simp only [resolveWaiter, hr, Option.map_some]
      · rw [List.append_nil]
        exact hphase
  | none =>
      obtain ⟨hid, hphase⟩ := receive_phase hph line
      have hmap : (s.mapRunning (·.receive line)).running = some (r.receive line) := by
        simp [State.mapRunning, hr]
      cases hterminal : isTerminalLine line with
      | false =>
          rw [hterminal] at hphase
          exact ⟨by simp, fun _ => ⟨[line], Or.inr ⟨rfl, rfl⟩, _, hmap, hid, hphase⟩⟩
      | true =>
          rw [hterminal] at hphase
          cases herror : isErrorLine line with
          | false =>
              refine ⟨?_, by simp⟩
              intro a ha
              obtain rfl : Except.ok (c.lines ++ [line]) = a := by simpa using ha
              exact ⟨_, hmap, hid, by rw [hphase, herror]; rfl⟩
          | true =>
              refine ⟨?_, by simp⟩
              intro a ha
              obtain rfl : Except.error (respondedError line c.request.label) = a := by simpa using ha
              exact ⟨_, hmap, hid, by rw [hphase, herror]; rfl⟩

theorem settlement_line {line : JsString} {rest : List JsString} (h : s.scan = some (line :: rest)) :
    settlement s c .scan = lineSettlement s c line := by
  simp only [settlement, h]

theorem settlement_end (h : s.scan = some []) : settlement s c .scan = promptSettlement s c := by
  simp only [settlement, h]

/-- What the loop of `handleData` settles a command with. -/
theorem settlement_scan {a : Except JsError (List JsString)} (h : settlement s c .scan = some a) :
    (∃ line rest, s.scan = some (line :: rest) ∧ s.urcWaiters.find? (takes line) = none ∧
        isTerminalLine line = true ∧
        a = if isErrorLine line then .error (respondedError line c.request.label)
          else .ok (c.lines ++ [line])) ∨
      (s.scan = some [] ∧ c.request.expectPrompt = true ∧
        startsWith (trimStart s.rxBuffer) (js ">") = true ∧ a = .ok c.lines) := by
  cases hscan : s.scan with
  | none => simp [settlement, hscan] at h
  | some todo =>
      cases todo with
      | nil =>
          rw [settlement_end hscan, promptSettlement] at h
          split at h
          case isTrue hprompt =>
            rw [Bool.and_eq_true] at hprompt
            exact Or.inr ⟨rfl, hprompt.1, hprompt.2, (Option.some.inj h).symm⟩
          case isFalse => cases h
      | cons line rest =>
          rw [settlement_line hscan, lineSettlement] at h
          split at h
          case isTrue => cases h
          case isFalse hread =>
            simp only [Bool.or_eq_true, Bool.not_eq_true', not_or, Bool.not_eq_true,
              Option.isSome_eq_false_iff, Option.isNone_iff_eq_none, Bool.not_eq_false] at hread
            refine Or.inl ⟨line, rest, rfl, hread.1, hread.2, ?_⟩
            split at h
            case isTrue herror => rw [if_pos herror, Option.some.inj h]
            case isFalse herror => rw [if_neg herror, Option.some.inj h]

/-- A command resolves with the line OK, or with the prompt it expects. -/
theorem settlement_ok {e : Event} {lines : List JsString}
    (h : settlement s c e = some (.ok lines)) : e = .scan ∧
      ((∃ rest, s.scan = some (js "OK" :: rest) ∧ s.urcWaiters.find? (takes (js "OK")) = none ∧
          lines = c.lines ++ [js "OK"]) ∨
        (s.scan = some [] ∧ c.request.expectPrompt = true ∧
          startsWith (trimStart s.rxBuffer) (js ">") = true ∧ lines = c.lines)) := by
  cases e with
  | scan =>
      refine ⟨rfl, ?_⟩
      rcases settlement_scan h with ⟨line, rest, hscan, hwaiter, hterminal, ha⟩ |
        ⟨hscan, hexpects, hprompt, ha⟩
      · split at ha
        case isTrue => cases ha
        case isFalse herror =>
          obtain rfl : line = js "OK" := by simpa [isErrorLine, hterminal] using herror
          exact Or.inl ⟨rest, hscan, hwaiter, Except.ok.inj ha⟩
      · exact Or.inr ⟨hscan, hexpects, hprompt, Except.ok.inj ha⟩
  | _ => cases h

theorem awaits_same (hr : s'.running = some r) (hph : r.phase = .command c k) : ∃ heard,
    (heard = [] ∨ ∃ line rest, s.scan = some (line :: rest) ∧ heard = [line] ∧
      isTerminalLine line = false) ∧ Awaits s' r.id { c with lines := c.lines ++ heard } k :=
  ⟨[], Or.inl rfl, r, hr, rfl, by rw [List.append_nil]; exact hph⟩

/-- A step settles the current command, or it goes on waiting, with one more line at most. -/
theorem step_current {e : Event} (h : step s e = some s') (hr : s.running = some r)
    (hph : r.phase = .command c k) :
    (∀ a, settlement s c e = some a → Settles s' r.id (k a)) ∧
    (settlement s c e = none → ∃ heard,
      (heard = [] ∨ ∃ line rest, s.scan = some (line :: rest) ∧ heard = [line] ∧
        isTerminalLine line = false) ∧ Awaits s' r.id { c with lines := c.lines ++ heard } k) := by
  rcases step_cases h with ⟨rfl, hscan⟩ | ⟨random, rfl, -, htask⟩ | ⟨-, -, hreact⟩
  · unfold runScan at hscan
    split at hscan
    case h_1 => cases hscan
    case h_2 line rest hlines =>
      obtain rfl := Option.some.inj hscan
      have hline := handleLine_current (s := { s with scan := some rest }) hr hph line
      rw [settlement_line hlines]
      refine ⟨hline.1, ?_⟩
      intro hnone
      obtain ⟨heard, hheard, hawaits⟩ := hline.2 hnone
      refine ⟨heard, ?_, hawaits⟩
      exact hheard.imp_right fun hh => ⟨line, rest, hlines, hh⟩
    case h_3 hend =>
      have hexpects : expectsPrompt s = c.request.expectPrompt := by
        simp only [expectsPrompt, hr, hph]
      rw [hexpects] at hscan
      rw [settlement_end hend, promptSettlement]
      split at hscan
      case isTrue hprompt =>
        obtain rfl := Option.some.inj hscan
        obtain ⟨hid, hphase⟩ := settle_phase hph none
        simp only [hprompt, if_true]
        refine ⟨?_, fun hnone => absurd hnone (Option.some_ne_none _)⟩
        intro a ha
        obtain rfl := Option.some.inj ha
        exact ⟨r.settle none, by simp [State.mapRunning, hr], hid, hphase⟩
      case isFalse hprompt =>
        obtain rfl := Option.some.inj hscan
        rw [if_neg hprompt]
        exact ⟨fun _ ha => absurd ha.symm (Option.some_ne_none _), fun _ => awaits_same hr hph⟩
  · unfold runMicrotask at htask
    simp [hr, hph] at htask
  · cases e with
    | call job =>
        obtain rfl := Option.some.inj hreact
        exact ⟨fun _ ha => absurd ha.symm (Option.some_ne_none _), fun _ => awaits_same hr hph⟩
    | data text =>
        rw [react] at hreact
        split at hreact
        · obtain rfl := Option.some.inj hreact
          exact ⟨fun _ ha => absurd ha.symm (Option.some_ne_none _), fun _ => awaits_same hr hph⟩
        · cases hreact
    | scan => cases hreact
    | microtask random => cases hreact
    | commandTimeout =>
        rw [react] at hreact
        simp only [hr, hph] at hreact
        split at hreact
        · obtain rfl := Option.some.inj hreact
          obtain ⟨hid, hphase⟩ := settle_phase hph (some (timeoutError c.request.label))
          refine ⟨?_, fun hnone => absurd hnone (Option.some_ne_none _)⟩
          intro a ha
          obtain rfl := Option.some.inj ha
          exact ⟨_, by simp only [State.mapRunning, Option.map_some], hid, hphase⟩
        · cases hreact
    | waiterTimeout waiter =>
        rw [react] at hreact
        split at hreact
        case h_1 w hw =>
          split at hreact
          · obtain rfl := Option.some.inj hreact
            obtain ⟨hid, hphase⟩ := resolveUrc_phase hph w.id none
            refine ⟨fun _ ha => absurd ha.symm (Option.some_ne_none _), fun _ => ?_⟩
            refine ⟨[], Or.inl rfl, r.resolveUrc w.id none, ?_, hid, ?_⟩
            · simp only [resolveWaiter, hr, Option.map_some]
            · rw [List.append_nil]
              exact hphase
          · cases hreact
        case h_2 => cases hreact
    | quietOver =>
        rw [react] at hreact
        simp [hr, hph] at hreact
    | writeFailed message reached =>
        obtain rfl := Option.some.inj hreact
        obtain ⟨hid, hphase⟩ := failWrite_phase hph message reached
        refine ⟨?_, fun hnone => absurd hnone (Option.some_ne_none _)⟩
        intro a ha
        obtain rfl := Option.some.inj ha
        exact ⟨_, by simp only [State.mapRunning, hr, Option.map_some], hid, hphase⟩
    | persisted answer =>
        rw [react] at hreact
        simp [hr, hph] at hreact
    | opened ok =>
        rw [react] at hreact
        split at hreact
        · split at hreact
          · obtain rfl := Option.some.inj hreact
            exact ⟨fun _ ha => absurd ha.symm (Option.some_ne_none _), fun _ => awaits_same hr hph⟩
          · obtain rfl := Option.some.inj hreact
            refine ⟨fun _ ha => absurd ha.symm (Option.some_ne_none _), fun _ => awaits_same ?_ hph⟩
            rw [scheduleReconnect_running]
            exact hr
        · cases hreact
    | portClosed =>
        rw [react] at hreact
        split at hreact
        · obtain rfl := Option.some.inj hreact
          refine ⟨?_, fun hnone => absurd hnone (Option.some_ne_none _)⟩
          intro a ha
          obtain rfl := Option.some.inj ha
          have hfail := failCurrentCommand_settles (s := { s with connected := false }) hr hph
            portClosedError
          rw [Settles, scheduleReconnect_running]
          exact hfail
        · cases hreact
    | reconnect =>
        rw [react] at hreact
        split at hreact
        case h_1 t ht =>
          split at hreact
          · obtain rfl := Option.some.inj hreact
            refine ⟨fun _ ha => absurd ha.symm (Option.some_ne_none _), fun _ => awaits_same ?_ hph⟩
            unfold connect
            split <;> exact hr
          · cases hreact
        case h_2 => cases hreact
    | close =>
        obtain rfl := Option.some.inj hreact
        refine ⟨?_, fun hnone => absurd hnone (Option.some_ne_none _)⟩
        intro a ha
        obtain rfl := Option.some.inj ha
        exact failCurrentCommand_settles
          (s := { s with closing := true, reconnectTimer := none }) hr hph shuttingDown
    | tick ms =>
        obtain rfl := Option.some.inj hreact
        exact ⟨fun _ ha => absurd ha.symm (Option.some_ne_none _), fun _ => awaits_same hr hph⟩

end

/-! ## Between commands -/

/-- What a step makes of a holder of the lock that awaits no command. -/
inductive Goes (s s' : State) : Prop where
  | idle (h' : s'.running = none)
  /-- the next call takes the lock -/
  | starts (id : Nat) (job : Job) (h : s.running = none)
      (h' : s'.running = some ⟨id, job, .ready (job.prog s.smsc), false, false, false⟩)
  | stays (r r' : Running) (h : s.running = some r) (h' : s'.running = some r') (hid : r'.id = r.id)
      (hprog : r'.phase.prog = r.phase.prog) (hcurrent : current s' = none)
      (hquiet : ∀ deadline req k, r'.phase = .quiet deadline req k →
        r.phase = .quiet deadline req k ∨ deadline = s.quietUntil)
  | answers (r r' : Running) (h : s.running = some r) (h' : s'.running = some r') (hid : r'.id = r.id)
      (op : Op) (k : Ans op → Prog Result) (a : Ans op) (hop : ∀ req, op ≠ .transact req)
      (hprog : r.phase.prog = .call op k) (hphase : r'.phase = .ready (k a))
  | refused (r r' : Running) (h : s.running = some r) (h' : s'.running = some r') (hid : r'.id = r.id)
      (req : Request) (k : Except JsError (List JsString) → Prog Result)
      (hprog : r.phase.prog = .call (.transact req) k)
      (hphase : r'.phase = .ready (k (.error notConnected)))
  /-- the next command is written -/
  | issues (r : Running) (h : s.running = some r) (req : Request)
      (k : Except JsError (List JsString) → Prog Result)
      (hprog : r.phase.prog = .call (.transact req) k) (hconnected : s.connected = true)
      (hscan : s.scan = none)
      (hquiet : s.quietUntil ≤ s.now ∨ ∃ deadline, r.phase = .quiet deadline req k ∧ deadline ≤ s.now)
      (h' : s' = issue s r req k)

section

variable {s s' : State} {r : Running}

theorem current_of_running_none (h : s.running = none) : current s = none := by
  simp only [current, h]

theorem current_of_phase (h : s.running = some r) (hph : ∀ c k, r.phase ≠ .command c k) :
    current s = none := by
  unfold current
  rw [h]
  dsimp only
  split
  case h_1 c k hc => exact absurd hc (hph c k)
  case h_2 => rfl

theorem phase_of_current (h : s.running = some r) (hnone : current s = none) :
    ∀ c k, r.phase ≠ .command c k := by
  intro c k hph
  rw [current_of_command h hph] at hnone
  cases hnone

/-- The holder of the lock is left as it is. -/
theorem Goes.same (hnone : current s = none) (h : s'.running = s.running) : Goes s s' := by
  cases hr : s.running with
  | none => exact .idle (h.trans hr)
  | some r =>
      refine .stays r r hr (h.trans hr) rfl rfl ?_ fun _ _ _ => Or.inl
      exact current_of_phase (h.trans hr) (phase_of_current hr hnone)

/-- The holder of the lock is told that a waiter is resolved. -/
theorem Goes.resolve (hnone : current s = none) {waiter : Nat} {line : Option JsString}
    (h : s'.running = s.running.map (·.resolveUrc waiter line)) : Goes s s' := by
  cases hr : s.running with
  | none =>
      rw [hr] at h
      exact .idle h
  | some r =>
      rw [hr, Option.map_some] at h
      cases hph : r.phase with
      | urc w k =>
          by_cases hw : w = waiter
          · refine .answers r _ hr h ?_ (.urc w) k line (fun _ => nofun) (by rw [hph]; rfl) ?_
            · simp only [Running.resolveUrc, hph, hw, if_true]
            · simp only [Running.resolveUrc, hph, hw, if_true]
          · have hsame : r.resolveUrc waiter line = r := by
              simp only [Running.resolveUrc, hph, hw, if_false]
            rw [hsame] at h
            exact .same hnone (h.trans hr.symm)
      | _ =>
          have hsame : r.resolveUrc waiter line = r := by
            simp only [Running.resolveUrc, hph]
          rw [hsame] at h
          exact .same hnone (h.trans hr.symm)

/-- A command that has become current was issued. -/
theorem Goes.issued (h : Goes s s') (hcurrent : current s' ≠ none) :
    ∃ r req k, s.running = some r ∧ r.phase.prog = .call (.transact req) k ∧
      s.connected = true ∧ s.scan = none ∧
      (s.quietUntil ≤ s.now ∨ ∃ deadline, r.phase = .quiet deadline req k ∧ deadline ≤ s.now) ∧
      s' = issue s r req k := by
  cases h with
  | idle h' => exact absurd (current_of_running_none h') hcurrent
  | starts id job h h' => exact absurd (current_of_phase h' (fun _ _ => nofun)) hcurrent
  | stays r r' h h' hid hprog hnone hquiet => exact absurd hnone hcurrent
  | answers r r' h h' hid op k a hop hprog hphase =>
      refine absurd (current_of_phase h' ?_) hcurrent
      intro c k' hc
      rw [hphase] at hc
      cases hc
  | refused r r' h h' hid req k hprog hphase =>
      refine absurd (current_of_phase h' ?_) hcurrent
      intro c k' hc
      rw [hphase] at hc
      cases hc
  | issues r h req k hprog hconnected hscan hquiet h' =>
      exact ⟨r, req, k, h, hprog, hconnected, hscan, hquiet, h'⟩

/-- Waiters may be resolved once the holder has been told of one. -/
theorem Goes.foldl (ws : List Waiter) {t : State} (hnone : current s = none)
    (h : t.running = s.running)
    (h' : s'.running = (ws.foldl (fun s w => resolveWaiter s w none) t).running) : Goes s s' := by
  induction ws generalizing t with
  | nil => exact .same hnone (h'.trans h)
  | cons w ws ih =>
      rw [List.foldl_cons] at h'
      by_cases hsame : (resolveWaiter t w none).running = s.running
      · exact ih hsame h'
      · cases hr : s.running with
        | none =>
            refine absurd ?_ hsame
            simp only [resolveWaiter, h, hr, Option.map_none]
        | some r =>
            cases hph : r.phase with
            | urc w' k =>
                by_cases hw : w' = w.id
                · have hready : Settles (resolveWaiter t w none) r.id (k none) := by
                    refine ⟨r.resolveUrc w.id none, ?_, ?_, ?_⟩
                    · simp only [resolveWaiter, h, hr, Option.map_some]
                    · simp only [Running.resolveUrc, hph, hw, if_true]
                    · simp only [Running.resolveUrc, hph, hw, if_true]
                  obtain ⟨r', hr', hid, hphase⟩ := foldl_resolveWaiter ws hready
                  exact .answers r r' hr (h'.trans hr') hid (.urc w') k none (fun _ => nofun)
                    (by rw [hph]; rfl) hphase
                · refine absurd ?_ hsame
                  simp only [resolveWaiter, h, hr, Option.map_some, Running.resolveUrc, hph, hw,
                    if_false]
            | _ =>
                refine absurd ?_ hsame
                simp only [resolveWaiter, h, hr, Option.map_some, Running.resolveUrc, hph]

theorem Goes.failCurrentCommand (hnone : current s = none) {t : State} (err : JsError)
    (ht : t.running = s.running) (h' : s'.running = (failCurrentCommand t err).running) :
    Goes s s' := by
  refine Goes.foldl t.urcWaiters hnone ?_ h'
  rw [State.mapRunning, ht]
  cases hr : s.running with
  | none => rfl
  | some r =>
      have hph := phase_of_current hr hnone
      have hsame : r.abandon err = r := by
        unfold Running.abandon
        split
        case h_1 c k hc => exact absurd hc (hph c k)
        case h_2 => rfl
      rw [Option.map_some, hsame]

theorem Goes.handleLine (hnone : current s = none) (line : JsString) {t : State}
    (ht : t.running = s.running) : Goes s (handleLine t line) := by
  unfold Machine.handleLine
  split
  case h_1 w hw =>
    have hresolve : (resolveWaiter { t with urcWaiters := t.urcWaiters.eraseP (takes line) } w
        (some line)).running = s.running.map (·.resolveUrc w.id (some line)) := by
      simp only [resolveWaiter, ht]
    exact Goes.resolve hnone hresolve
  case h_2 =>
    refine Goes.same hnone ?_
    rw [State.mapRunning, ht]
    cases hr : s.running with
    | none => rfl
    | some r =>
        have hph := phase_of_current hr hnone
        have hsame : r.receive line = r := by
          unfold Running.receive
          split
          case h_1 c k hc => exact absurd hc (hph c k)
          case h_2 => rfl
        rw [Option.map_some, hsame]

theorem Goes.advance {p : Prog Result} (hr : s.running = some r) (hph : r.phase = .ready p)
    (hscan : s.scan = none) (random : Nat) : Goes s (advance s r p random) := by
  have hprog : r.phase.prog = p := by
    rw [hph]
    rfl
  have hready {op : Op} {k : Ans op → Prog Result} (a : Ans op) {t : State} (hp : p = .call op k)
      (ht : t.running = some { r with phase := .ready (k a) }) (hop : ∀ req, op ≠ .transact req) :
      Goes s t :=
    .answers r _ hr ht rfl op k a hop (hprog.trans hp) rfl
  have hawait (ph : Phase) {t : State} (hp : ph.prog = p)
      (ht : t.running = some { r with phase := ph }) (hne : ∀ c k, ph ≠ .command c k)
      (hquiet : ∀ deadline req k, ph = .quiet deadline req k → deadline = s.quietUntil) : Goes s t :=
    .stays r _ hr ht rfl (hp.trans hprog.symm) (current_of_phase ht hne)
      fun deadline req k hph' => Or.inr (hquiet deadline req k hph')
  cases p with
  | ret a => exact .idle rfl
  | fail e => exact .idle rfl
  | call op k =>
      cases op with
      | transact req =>
          rw [advance_transact]
          split
          · refine hawait (.quiet s.quietUntil req k) rfl rfl (fun _ _ => nofun) ?_
            intro deadline req' k' hph'
            exact (Phase.quiet.inj hph').1.symm
          · rename_i hquiet
            cases hconnected : s.connected with
            | true =>
                exact .issues r hr req k hprog hconnected hscan (Or.inl (Nat.le_of_not_lt hquiet)) rfl
            | false =>
                refine .refused r _ hr rfl ?_ req k hprog ?_
                · simp only [Running.issue, hconnected, Bool.false_eq_true, if_false]
                · simp only [Running.issue, hconnected, Bool.false_eq_true, if_false]
      | writeEsc => exact hready () rfl rfl (fun _ => nofun)
      | waitForUrc pre timeoutMs => exact hready s.nextWaiter rfl rfl (fun _ => nofun)
      | urc w =>
          rw [advance_urc]
          split
          · exact hready _ rfl rfl (fun _ => nofun)
          · exact hawait (.urc w k) rfl rfl (fun _ _ => nofun) fun _ _ _ => nofun
      | persist messages => exact hawait (.persist messages k) rfl rfl (fun _ _ => nofun) fun _ _ _ => nofun
      | randomInt max => exact hready (random % max) rfl rfl (fun _ => nofun)

/-- What every step does when no command is awaited. -/
theorem step_goes {e : Event} (h : step s e = some s') (hnone : current s = none) : Goes s s' := by
  have hcommand (r : Running) (hr : s.running = some r) := phase_of_current hr hnone
  rcases step_cases h with ⟨rfl, hscan⟩ | ⟨random, rfl, hscan, htask⟩ | ⟨hscan, -, hreact⟩
  · unfold runScan at hscan
    split at hscan
    case h_1 => cases hscan
    case h_2 line rest hlines =>
      obtain rfl := Option.some.inj hscan
      exact Goes.handleLine hnone line rfl
    case h_3 hend =>
      have hexpects : expectsPrompt s = false := by
        unfold expectsPrompt
        split
        case h_1 r hr =>
          split
          case h_1 c k hc => exact absurd hc (hcommand r hr c k)
          case h_2 => rfl
        case h_2 => rfl
      rw [hexpects, Bool.false_and] at hscan
      obtain rfl := Option.some.inj hscan
      exact .same hnone rfl
  · unfold runMicrotask at htask
    split at htask
    case h_1 r hr =>
      split at htask
      case h_1 p hph =>
        obtain rfl := Option.some.inj htask
        exact Goes.advance hr hph hscan random
      case h_2 => cases htask
    case h_2 hr =>
      split at htask
      case h_1 => cases htask
      case h_2 id job queue hq =>
        obtain rfl := Option.some.inj htask
        exact .starts id job hr rfl
  · cases e with
    | call job =>
        obtain rfl := Option.some.inj hreact
        exact .same hnone rfl
    | data text =>
        rw [react] at hreact
        split at hreact
        · obtain rfl := Option.some.inj hreact
          exact .same hnone rfl
        · cases hreact
    | scan => cases hreact
    | microtask random => cases hreact
    | commandTimeout =>
        rw [react] at hreact
        split at hreact
        case h_1 r hr =>
          split at hreact
          case h_1 c k hc => exact absurd hc (hcommand r hr c k)
          case h_2 => cases hreact
        case h_2 => cases hreact
    | waiterTimeout waiter =>
        rw [react] at hreact
        split at hreact
        case h_1 w hw =>
          split at hreact
          · obtain rfl := Option.some.inj hreact
            exact .resolve hnone rfl
          · cases hreact
        case h_2 => cases hreact
    | quietOver =>
        rw [react] at hreact
        split at hreact
        case h_1 r hr =>
          split at hreact
          case h_1 deadline req k hph =>
            split at hreact
            case isTrue hle =>
              obtain rfl := Option.some.inj hreact
              have hprog : r.phase.prog = .call (.transact req) k := by
                rw [hph]
                rfl
              cases hconnected : s.connected with
              | true =>
                  exact .issues r hr req k hprog hconnected hscan (Or.inr ⟨deadline, hph, hle⟩) rfl
              | false =>
                  refine .refused r _ hr rfl ?_ req k hprog ?_
                  · simp only [Running.issue, hconnected, Bool.false_eq_true, if_false]
                  · simp only [Running.issue, hconnected, Bool.false_eq_true, if_false]
            case isFalse => cases hreact
          case h_2 => cases hreact
        case h_2 => cases hreact
    | writeFailed message reached =>
        obtain rfl := Option.some.inj hreact
        refine Goes.same hnone ?_
        rw [State.mapRunning]
        cases hr : s.running with
        | none => rfl
        | some r =>
            have hsame : r.failWrite message reached = r := by
              unfold Running.failWrite Running.abandon
              split
              · split
                case h_1 c k hc => exact absurd hc (hcommand r hr c k)
                case h_2 => rfl
              · split
                case h_1 c k hc => exact absurd hc (hcommand r hr c k)
                case h_2 => rfl
            rw [Option.map_some, hsame]
    | persisted answer =>
        rw [react] at hreact
        split at hreact
        case h_1 r hr =>
          split at hreact
          case h_1 messages k hph =>
            obtain rfl := Option.some.inj hreact
            exact .answers r _ hr rfl rfl (.persist messages) k answer (by simp)
              (by rw [hph]; rfl) rfl
          case h_2 => cases hreact
        case h_2 => cases hreact
    | opened ok =>
        rw [react] at hreact
        split at hreact
        · split at hreact
          · obtain rfl := Option.some.inj hreact
            exact .same hnone rfl
          · obtain rfl := Option.some.inj hreact
            exact .same hnone (scheduleReconnect_running _)
        · cases hreact
    | portClosed =>
        rw [react] at hreact
        split at hreact
        · obtain rfl := Option.some.inj hreact
          exact .failCurrentCommand hnone (t := { s with connected := false }) portClosedError rfl
            (scheduleReconnect_running _)
        · cases hreact
    | reconnect =>
        rw [react] at hreact
        split at hreact
        case h_1 t ht =>
          split at hreact
          · obtain rfl := Option.some.inj hreact
            refine Goes.same hnone ?_
            unfold connect
            split <;> rfl
          · cases hreact
        case h_2 => cases hreact
    | close =>
        obtain rfl := Option.some.inj hreact
        exact .failCurrentCommand hnone (t := { s with closing := true, reconnectTimer := none })
          shuttingDown rfl rfl
    | tick ms =>
        obtain rfl := Option.some.inj hreact
        exact .same hnone rfl

end

/-! ## The port, the clock and the buffer -/

/-- The fields that belong to no call. -/
structure Same (s s' : State) : Prop where
  now : s'.now = s.now
  quietUntil : s'.quietUntil = s.quietUntil
  connected : s'.connected = s.connected
  opening : s'.opening = s.opening
  reconnectTimer : s'.reconnectTimer = s.reconnectTimer
  rxBuffer : s'.rxBuffer = s.rxBuffer
  scan : s'.scan = s.scan

/-- What an event does to these fields. -/
inductive Fields (s s' : State) : Event → Prop where
  | line (line : JsString) (rest : List JsString) (hscan : s.scan = some (line :: rest))
      (h : Same { s with scan := some rest } s') : Fields s s' .scan
  | prompt (hscan : s.scan = some []) (hexpects : expectsPrompt s = true)
      (hprompt : startsWith (trimStart s.rxBuffer) (js ">") = true)
      (h : Same { s with scan := none, rxBuffer := [] } s') : Fields s s' .scan
  | scanned (hscan : s.scan = some []) (h : Same { s with scan := none } s') : Fields s s' .scan
  | same (e : Event) (hscan : s.scan = none) (h : Same s s') : Fields s s' e
  | issued (e : Event) (hscan : s.scan = none) (hfree : current s = none) (hcurrent : current s' ≠ none)
      (hconnected : s.connected = true) (h : Same { s with rxBuffer := [] } s') : Fields s s' e
  | data (text : JsString) (hscan : s.scan = none) (hconnected : s.connected = true)
      (h : Same { s with
        rxBuffer := (readLines (s.rxBuffer ++ text)).2
        scan := some (readLines (s.rxBuffer ++ text)).1 } s') : Fields s s' (.data text)
  | timeout (hscan : s.scan = none) (hcurrent : current s ≠ none)
      (h : Same { s with quietUntil := s.now + quietMs } s') :
      Fields s s' .commandTimeout
  | opened (hscan : s.scan = none) (hopening : s.opening = true)
      (h : Same { s with opening := false, connected := true } s') : Fields s s' (.opened true)
  | notOpened (hscan : s.scan = none) (hopening : s.opening = true) (timer : Option Nat)
      (h : Same { s with opening := false, reconnectTimer := timer } s') : Fields s s' (.opened false)
  | closed (hscan : s.scan = none) (hconnected : s.connected = true) (timer : Option Nat)
      (h : Same { s with connected := false, reconnectTimer := timer } s') : Fields s s' .portClosed
  | reconnect (hscan : s.scan = none) (timer : Nat) (htimer : s.reconnectTimer = some timer)
      (h : Same { s with reconnectTimer := none } s' ∨
        Same { s with reconnectTimer := none, rxBuffer := [], opening := true } s') :
      Fields s s' .reconnect
  | close (hscan : s.scan = none) (h : Same { s with reconnectTimer := none } s') :
      Fields s s' .close
  | tick (ms : Nat) (hscan : s.scan = none) (h : Same { s with now := s.now + ms } s') :
      Fields s s' (.tick ms)

section

variable {s s' : State}

theorem Same.refl (s : State) : Same s s := ⟨rfl, rfl, rfl, rfl, rfl, rfl, rfl⟩

theorem Same.handleLine (s : State) (line : JsString) : Same s (handleLine s line) := by
  unfold Machine.handleLine
  split
  · exact ⟨rfl, rfl, rfl, rfl, rfl, rfl, rfl⟩
  · exact ⟨rfl, rfl, rfl, rfl, rfl, rfl, rfl⟩

theorem Same.foldl (ws : List Waiter) {t : State} (h : Same s t) :
    Same s (ws.foldl (fun s w => resolveWaiter s w none) t) := by
  induction ws generalizing t with
  | nil => exact h
  | cons w ws ih =>
      refine ih ?_
      exact ⟨h.now, h.quietUntil, h.connected, h.opening, h.reconnectTimer, h.rxBuffer, h.scan⟩

theorem Same.failCurrentCommand (s : State) (err : JsError) : Same s (failCurrentCommand s err) :=
  Same.foldl _ ⟨rfl, rfl, rfl, rfl, rfl, rfl, rfl⟩

theorem Same.scheduleReconnect (h : Same s s') :
    ∃ timer, Same { s with reconnectTimer := timer } (scheduleReconnect s') := by
  unfold Machine.scheduleReconnect
  split
  · exact ⟨s'.reconnectTimer, h.now, h.quietUntil, h.connected, h.opening, rfl, h.rxBuffer, h.scan⟩
  · exact ⟨some (s'.now + reconnectDelayMs), h.now, h.quietUntil, h.connected, h.opening, rfl,
      h.rxBuffer, h.scan⟩

theorem fields_issue {r : Running} {req : Request} {k : Except JsError (List JsString) → Prog Result}
    {e : Event} (hscan : s.scan = none) (hfree : current s = none) : Fields s (issue s r req k) e := by
  cases hconnected : s.connected with
  | true =>
      refine .issued e hscan hfree ?_ hconnected ⟨rfl, rfl, rfl, rfl, rfl, ?_, rfl⟩
      · simp [issue, Running.issue, hconnected, current]
      · simp only [issue, hconnected, if_true]
  | false =>
      refine .same e hscan ⟨rfl, rfl, rfl, rfl, rfl, ?_, rfl⟩
      simp only [issue, hconnected, Bool.false_eq_true, if_false]

theorem fields_advance {r : Running} {p : Prog Result} {e : Event} (hscan : s.scan = none)
    (hr : s.running = some r) (hph : r.phase = .ready p) (random : Nat) :
    Fields s (advance s r p random) e := by
  have hfree : current s = none := by
    refine current_of_phase hr ?_
    intro c k hc
    rw [hph] at hc
    cases hc
  have hsame {t : State} (h : Same s t) : Fields s t e := .same e hscan h
  cases p with
  | ret a => exact hsame ⟨rfl, rfl, rfl, rfl, rfl, rfl, rfl⟩
  | fail err => exact hsame ⟨rfl, rfl, rfl, rfl, rfl, rfl, rfl⟩
  | call op k =>
      cases op with
      | transact req =>
          rw [advance_transact]
          split
          · exact hsame ⟨rfl, rfl, rfl, rfl, rfl, rfl, rfl⟩
          · exact fields_issue hscan hfree
      | writeEsc => exact hsame ⟨rfl, rfl, rfl, rfl, rfl, rfl, rfl⟩
      | waitForUrc pre timeoutMs => exact hsame ⟨rfl, rfl, rfl, rfl, rfl, rfl, rfl⟩
      | urc w =>
          rw [advance_urc]
          split
          · exact hsame ⟨rfl, rfl, rfl, rfl, rfl, rfl, rfl⟩
          · exact hsame ⟨rfl, rfl, rfl, rfl, rfl, rfl, rfl⟩
      | persist messages => exact hsame ⟨rfl, rfl, rfl, rfl, rfl, rfl, rfl⟩
      | randomInt max => exact hsame ⟨rfl, rfl, rfl, rfl, rfl, rfl, rfl⟩

theorem fields_react {e : Event} (hscan : s.scan = none) (h : react s e = some s') :
    Fields s s' e := by
  cases e with
  | call job =>
      obtain rfl := Option.some.inj h
      exact .same _ hscan ⟨rfl, rfl, rfl, rfl, rfl, rfl, rfl⟩
  | data text =>
      rw [react] at h
      split at h
      case isTrue hconnected =>
        obtain rfl := Option.some.inj h
        exact .data text hscan hconnected ⟨rfl, rfl, rfl, rfl, rfl, rfl, rfl⟩
      case isFalse => cases h
  | scan => cases h
  | microtask random => cases h
  | commandTimeout =>
      rw [react] at h
      split at h
      case h_1 r hr =>
        split at h
        case h_1 c k hph =>
          split at h
          · obtain rfl := Option.some.inj h
            refine .timeout hscan ?_ ⟨rfl, rfl, rfl, rfl, rfl, rfl, rfl⟩
            rw [current_of_command hr hph]
            exact Option.some_ne_none _
          · cases h
        case h_2 => cases h
      case h_2 => cases h
  | waiterTimeout waiter =>
      rw [react] at h
      split at h
      · split at h
        · obtain rfl := Option.some.inj h
          exact .same _ hscan ⟨rfl, rfl, rfl, rfl, rfl, rfl, rfl⟩
        · cases h
      · cases h
  | quietOver =>
      rw [react] at h
      split at h
      case h_1 r hr =>
        split at h
        case h_1 deadline req k hph =>
          split at h
          · obtain rfl := Option.some.inj h
            refine fields_issue hscan (current_of_phase hr ?_)
            intro c k' hc
            rw [hph] at hc
            cases hc
          · cases h
        case h_2 => cases h
      case h_2 => cases h
  | writeFailed message reached =>
      obtain rfl := Option.some.inj h
      exact .same _ hscan ⟨rfl, rfl, rfl, rfl, rfl, rfl, rfl⟩
  | persisted answer =>
      rw [react] at h
      split at h
      · split at h
        · obtain rfl := Option.some.inj h
          exact .same _ hscan ⟨rfl, rfl, rfl, rfl, rfl, rfl, rfl⟩
        · cases h
      · cases h
  | opened ok =>
      rw [react] at h
      split at h
      case isTrue hopening =>
        cases ok with
        | true =>
            obtain rfl := Option.some.inj h
            exact .opened hscan hopening ⟨rfl, rfl, rfl, rfl, rfl, rfl, rfl⟩
        | false =>
            obtain rfl := Option.some.inj h
            obtain ⟨timer, hsame⟩ := Same.scheduleReconnect (Same.refl { s with opening := false })
            exact .notOpened hscan hopening timer hsame
      case isFalse => cases h
  | portClosed =>
      rw [react] at h
      split at h
      case isTrue hconnected =>
        obtain rfl := Option.some.inj h
        obtain ⟨timer, hsame⟩ := Same.scheduleReconnect
          (Same.failCurrentCommand { s with connected := false } portClosedError)
        exact .closed hscan hconnected timer hsame
      case isFalse => cases h
  | reconnect =>
      rw [react] at h
      split at h
      case h_1 t ht =>
        split at h
        · obtain rfl := Option.some.inj h
          refine .reconnect hscan t ht ?_
          unfold connect
          split
          · exact Or.inl ⟨rfl, rfl, rfl, rfl, rfl, rfl, rfl⟩
          · exact Or.inr ⟨rfl, rfl, rfl, rfl, rfl, rfl, rfl⟩
        · cases h
      case h_2 => cases h
  | close =>
      obtain rfl := Option.some.inj h
      have hsame := Same.failCurrentCommand { s with closing := true, reconnectTimer := none }
        shuttingDown
      exact .close hscan ⟨hsame.now, hsame.quietUntil, hsame.connected, hsame.opening,
        hsame.reconnectTimer, hsame.rxBuffer, hsame.scan⟩
  | tick ms =>
      obtain rfl := Option.some.inj h
      exact .tick ms hscan ⟨rfl, rfl, rfl, rfl, rfl, rfl, rfl⟩

theorem step_fields {e : Event} (h : step s e = some s') : Fields s s' e := by
  rcases step_cases h with ⟨rfl, hrun⟩ | ⟨random, rfl, hscan, htask⟩ | ⟨hscan, -, hreact⟩
  · unfold runScan at hrun
    split at hrun
    case h_1 => cases hrun
    case h_2 line rest hlines =>
      obtain rfl := Option.some.inj hrun
      exact .line line rest hlines (Same.handleLine _ line)
    case h_3 hend =>
      split at hrun
      case isTrue hprompt =>
        obtain rfl := Option.some.inj hrun
        rw [Bool.and_eq_true] at hprompt
        exact .prompt hend hprompt.1 hprompt.2 ⟨rfl, rfl, rfl, rfl, rfl, rfl, rfl⟩
      case isFalse =>
        obtain rfl := Option.some.inj hrun
        exact .scanned hend ⟨rfl, rfl, rfl, rfl, rfl, rfl, rfl⟩
  · unfold runMicrotask at htask
    split at htask
    case h_1 r hr =>
      split at htask
      case h_1 p hph =>
        obtain rfl := Option.some.inj htask
        exact fields_advance hscan hr hph random
      case h_2 => cases htask
    case h_2 =>
      split at htask
      · cases htask
      · obtain rfl := Option.some.inj htask
        exact .same _ hscan ⟨rfl, rfl, rfl, rfl, rfl, rfl, rfl⟩
  · exact fields_react hscan hreact

/-- Time goes on, and only a command's timer moves the end of the quiet window. -/
theorem step_clock {e : Event} (h : step s e = some s') : s.now ≤ s'.now ∧
    (s'.quietUntil = s.quietUntil ∨
      (e = .commandTimeout ∧ current s ≠ none ∧ s'.quietUntil = s.now + quietMs)) := by
  cases step_fields h with
  | line line rest hscan hsame => exact ⟨hsame.now.ge, Or.inl hsame.quietUntil⟩
  | prompt hscan hexpects hprompt hsame => exact ⟨hsame.now.ge, Or.inl hsame.quietUntil⟩
  | scanned hscan hsame => exact ⟨hsame.now.ge, Or.inl hsame.quietUntil⟩
  | same _ hscan hsame => exact ⟨hsame.now.ge, Or.inl hsame.quietUntil⟩
  | issued _ hscan hfree hcurrent hconnected hsame => exact ⟨hsame.now.ge, Or.inl hsame.quietUntil⟩
  | data text hscan hconnected hsame => exact ⟨hsame.now.ge, Or.inl hsame.quietUntil⟩
  | timeout hscan hcurrent hsame => exact ⟨hsame.now.ge, Or.inr ⟨rfl, hcurrent, hsame.quietUntil⟩⟩
  | opened hscan hopening hsame => exact ⟨hsame.now.ge, Or.inl hsame.quietUntil⟩
  | notOpened hscan hopening timer hsame => exact ⟨hsame.now.ge, Or.inl hsame.quietUntil⟩
  | closed hscan hconnected timer hsame => exact ⟨hsame.now.ge, Or.inl hsame.quietUntil⟩
  | reconnect hscan timer htimer hsame =>
      rcases hsame with hsame | hsame
      · exact ⟨hsame.now.ge, Or.inl hsame.quietUntil⟩
      · exact ⟨hsame.now.ge, Or.inl hsame.quietUntil⟩
  | close hscan hsame => exact ⟨hsame.now.ge, Or.inl hsame.quietUntil⟩
  | tick ms hscan hsame =>
      refine ⟨?_, Or.inl hsame.quietUntil⟩
      rw [hsame.now]
      exact Nat.le_add_right s.now ms

theorem step_timeout (h : step s .commandTimeout = some s') : s'.quietUntil = s.now + quietMs := by
  rcases step_cases h with ⟨he, -⟩ | ⟨random, he, -⟩ | ⟨-, -, hreact⟩
  · cases he
  · cases he
  · rw [react] at hreact
    split at hreact
    · split at hreact
      · split at hreact
        · obtain rfl := Option.some.inj hreact
          rfl
        · cases hreact
      · cases hreact
    · cases hreact

/-- The timer of the current command is set. -/
theorem timeout_enabled {id : Nat} {c : Command} (hcurrent : current s = some (id, c))
    (hscan : s.scan = none) (hdeadline : c.deadline ≤ s.now) :
    (step s .commandTimeout).isSome = true := by
  obtain ⟨r, k, hr, -, hph⟩ := current_eq_some hcurrent
  have hdue : due s = false := by simp only [due, hr, hph]
  simp [step, hscan, hdue, react, hr, hph, hdeadline]

/-- The sleep at the start of `transact` lasts to the end of the quiet window. -/
def SleepsUntil (s : State) : Prop :=
  ∀ r deadline req k, s.running = some r → r.phase = .quiet deadline req k → deadline = s.quietUntil

theorem sleepsUntil_step {e : Event} (hs : SleepsUntil s) (h : step s e = some s') :
    SleepsUntil s' := by
  intro r' deadline req k hr' hph'
  cases hcurrent : current s with
  | some ic =>
      obtain ⟨id, c⟩ := ic
      obtain ⟨r, k₀, hr, -, hph⟩ := current_eq_some hcurrent
      cases ha : settlement s c e with
      | some a =>
          obtain ⟨r'', hr'', -, hph''⟩ := (step_current h hr hph).1 a ha
          obtain rfl := Option.some.inj (hr''.symm.trans hr')
          rw [hph''] at hph'
          cases hph'
      | none =>
          obtain ⟨more, -, r'', hr'', -, hph''⟩ := (step_current h hr hph).2 ha
          obtain rfl := Option.some.inj (hr''.symm.trans hr')
          rw [hph''] at hph'
          cases hph'
  | none =>
      have hsame : s'.quietUntil = s.quietUntil := by
        rcases (step_clock h).2 with hsame | ⟨-, hne, -⟩
        · exact hsame
        · exact absurd hcurrent hne
      rw [hsame]
      cases step_goes h hcurrent with
      | idle hidle =>
          rw [hidle] at hr'
          cases hr'
      | starts id job _ hstart =>
          obtain rfl := Option.some.inj (hstart.symm.trans hr')
          cases hph'
      | stays r r'' hr hr'' hid hprog hnone hquiet =>
          obtain rfl := Option.some.inj (hr''.symm.trans hr')
          rcases hquiet deadline req k hph' with hph | hdeadline
          · exact hs r deadline req k hr hph
          · exact hdeadline
      | answers r r'' hr hr'' hid op k' a hop hprog hphase =>
          obtain rfl := Option.some.inj (hr''.symm.trans hr')
          rw [hphase] at hph'
          cases hph'
      | refused r r'' hr hr'' hid req' k' hprog hphase =>
          obtain rfl := Option.some.inj (hr''.symm.trans hr')
          rw [hphase] at hph'
          cases hph'
      | issues r hr req' k' hprog hconnected hscan hquiet hissue =>
          rw [hissue] at hr'
          obtain rfl := Option.some.inj hr'
          simp only [Running.issue, hconnected, if_true] at hph'
          cases hph'

end

end SmsGateway.Serial.Machine
