import SmsGateway.Serial.Current

/-!
# The connection

`connect`, `scheduleReconnect`, the port's callbacks and `close` as a machine of four
places, driven by the events of the port and the clock alone. The flags and the timer of
the driver show its place after every run.
-/

namespace SmsGateway.Serial.Connection

open SmsGateway Serial Machine
open Lib

/-- Where the connection stands, with the end of the delay while a reconnect is scheduled.
After `close` the port may still be opening or open. -/
inductive Place where
  | opening (closing : Bool)
  | up (closing : Bool)
  | waiting (due : Nat)
  | closed
  deriving DecidableEq, Repr

/-- The port is gone, or could not be opened. -/
def Place.lost (now : Nat) (closing : Bool) : Place :=
  if closing then .closed else .waiting (now + reconnectDelayMs)

def Place.next (now : Nat) (place : Place) (e : Event) : Place :=
  match place, e with
  | .opening closing, .opened ok => if ok then .up closing else .lost now closing
  | .up closing, .portClosed => .lost now closing
  | .waiting _, .reconnect => .opening false
  | .opening _, .close => .opening true
  | .up _, .close => .up true
  | .waiting _, .close => .closed
  | place, _ => place

def tick (now : Nat) : Event → Nat
  | .tick ms => now + ms
  | _ => now

/-- The clock and the place after some events. -/
def after (es : List Event) : Nat × Place :=
  es.foldl (fun p e => (tick p.1 e, p.2.next p.1 e)) (0, .opening false)

def Place.isOpening : Place → Bool
  | .opening _ => true
  | _ => false

def Place.isUp : Place → Bool
  | .up _ => true
  | _ => false

def Place.closing : Place → Bool
  | .opening closing => closing
  | .up closing => closing
  | .waiting _ => false
  | .closed => true

def Place.timer : Place → Option Nat
  | .waiting due => some due
  | _ => none

/-- What the driver's variables say of the connection. -/
structure Shows (now : Nat) (place : Place) (s : State) : Prop where
  now : s.now = now
  opening : s.opening = place.isOpening
  connected : s.connected = place.isUp
  closing : s.closing = place.closing
  timer : s.reconnectTimer = place.timer

/-- The variables of the connection are left as they are. -/
structure SamePort (s s' : State) : Prop where
  now : s'.now = s.now
  opening : s'.opening = s.opening
  connected : s'.connected = s.connected
  closing : s'.closing = s.closing
  timer : s'.reconnectTimer = s.reconnectTimer

section

variable {s s' : State} {now : Nat} {place : Place}

theorem Shows.same (h : Shows now place s) (hsame : SamePort s s') : Shows now place s' :=
  ⟨hsame.now.trans h.now, hsame.opening.trans h.opening, hsame.connected.trans h.connected,
    hsame.closing.trans h.closing, hsame.timer.trans h.timer⟩

theorem SamePort.foldl (ws : List Waiter) {t : State} (h : SamePort s t) :
    SamePort s (ws.foldl (fun s w => resolveWaiter s w none) t) := by
  induction ws generalizing t with
  | nil => exact h
  | cons w ws ih =>
      refine ih ?_
      exact ⟨h.now, h.opening, h.connected, h.closing, h.timer⟩

theorem samePort_failCurrentCommand (s : State) (err : JsError) :
    SamePort s (failCurrentCommand s err) :=
  .foldl s.urcWaiters ⟨rfl, rfl, rfl, rfl, rfl⟩

theorem samePort_handleLine (s : State) (line : JsString) : SamePort s (handleLine s line) := by
  unfold handleLine
  split
  · exact ⟨rfl, rfl, rfl, rfl, rfl⟩
  · exact ⟨rfl, rfl, rfl, rfl, rfl⟩

theorem samePort_advance (r : Running) (p : Prog Result) (random : Nat) :
    SamePort s (advance s r p random) := by
  cases p with
  | ret a => exact ⟨rfl, rfl, rfl, rfl, rfl⟩
  | fail e => exact ⟨rfl, rfl, rfl, rfl, rfl⟩
  | call op k =>
      cases op with
      | transact req =>
          rw [advance_transact]
          split <;> exact ⟨rfl, rfl, rfl, rfl, rfl⟩
      | urc w =>
          rw [advance_urc]
          split <;> exact ⟨rfl, rfl, rfl, rfl, rfl⟩
      | _ => exact ⟨rfl, rfl, rfl, rfl, rfl⟩

theorem samePort_scan (h : runScan s = some s') : SamePort s s' := by
  unfold runScan at h
  split at h
  case h_1 => cases h
  case h_2 line lines _ =>
    obtain rfl := Option.some.inj h
    have hline := samePort_handleLine { s with scan := some lines } line
    exact ⟨hline.now, hline.opening, hline.connected, hline.closing, hline.timer⟩
  case h_3 => split at h <;> obtain rfl := Option.some.inj h <;> exact ⟨rfl, rfl, rfl, rfl, rfl⟩

theorem samePort_microtask {random : Nat} (h : runMicrotask s random = some s') : SamePort s s' := by
  unfold runMicrotask at h
  split at h
  case h_1 r _ =>
    split at h
    case h_1 p _ =>
      obtain rfl := Option.some.inj h
      exact samePort_advance r p random
    case h_2 => cases h
  case h_2 =>
    split at h
    case h_1 => cases h
    case h_2 =>
      obtain rfl := Option.some.inj h
      exact ⟨rfl, rfl, rfl, rfl, rfl⟩

/-- No port is open or opening any more. -/
theorem shows_lost {closing : Bool} (hnow : s.now = now) (hopening : s.opening = false)
    (hconnected : s.connected = false) (hclosing : s.closing = closing)
    (htimer : s.reconnectTimer = none) :
    Shows now (.lost now closing) (scheduleReconnect s) := by
  unfold scheduleReconnect Place.lost
  rw [htimer, hclosing]
  cases closing with
  | true => exact ⟨hnow, hopening, hconnected, hclosing, htimer⟩
  | false =>
      refine ⟨hnow, hopening, hconnected, rfl, ?_⟩
      rw [← hnow]
      rfl

theorem shows_react {e : Event} (h : Shows now place s) (hs : react s e = some s') :
    Shows (tick now e) (place.next now e) s' := by
  cases e with
  | call job =>
      obtain rfl := Option.some.inj hs
      cases place <;> exact h.same ⟨rfl, rfl, rfl, rfl, rfl⟩
  | data text =>
      rw [react] at hs
      split at hs
      · obtain rfl := Option.some.inj hs
        cases place <;> exact h.same ⟨rfl, rfl, rfl, rfl, rfl⟩
      · cases hs
  | scan => cases hs
  | microtask random => cases hs
  | commandTimeout =>
      rw [react] at hs
      split at hs
      case h_1 r _ =>
        split at hs
        case h_1 c k _ =>
          split at hs
          · obtain rfl := Option.some.inj hs
            cases place <;> exact h.same ⟨rfl, rfl, rfl, rfl, rfl⟩
          · cases hs
        case h_2 => cases hs
      case h_2 => cases hs
  | waiterTimeout waiter =>
      rw [react] at hs
      split at hs
      case h_1 w _ =>
        split at hs
        · obtain rfl := Option.some.inj hs
          cases place <;> exact h.same ⟨rfl, rfl, rfl, rfl, rfl⟩
        · cases hs
      case h_2 => cases hs
  | quietOver =>
      rw [react] at hs
      split at hs
      case h_1 r _ =>
        split at hs
        case h_1 deadline req k _ =>
          split at hs
          · obtain rfl := Option.some.inj hs
            cases place <;> exact h.same ⟨rfl, rfl, rfl, rfl, rfl⟩
          · cases hs
        case h_2 => cases hs
      case h_2 => cases hs
  | writeFailed message reached =>
      obtain rfl := Option.some.inj hs
      cases place <;> exact h.same ⟨rfl, rfl, rfl, rfl, rfl⟩
  | persisted answer =>
      rw [react] at hs
      split at hs
      case h_1 r _ =>
        split at hs
        case h_1 messages k _ =>
          obtain rfl := Option.some.inj hs
          cases place <;> exact h.same ⟨rfl, rfl, rfl, rfl, rfl⟩
        case h_2 => cases hs
      case h_2 => cases hs
  | opened ok =>
      rw [react] at hs
      split at hs
      case isTrue hopening =>
        rw [h.opening] at hopening
        cases place with
        | opening closing =>
            cases ok with
            | true =>
                obtain rfl := Option.some.inj hs
                exact ⟨h.now, rfl, rfl, h.closing, h.timer⟩
            | false =>
                obtain rfl := Option.some.inj hs
                have hlost := shows_lost (s := { s with opening := false }) h.now rfl h.connected
                  h.closing h.timer
                exact hlost
        | up closing => cases hopening
        | waiting due => cases hopening
        | closed => cases hopening
      case isFalse => cases hs
  | portClosed =>
      rw [react] at hs
      split at hs
      case isTrue hconnected =>
        obtain rfl := Option.some.inj hs
        rw [h.connected] at hconnected
        cases place with
        | up closing =>
            have hsame := samePort_failCurrentCommand { s with connected := false } portClosedError
            have hlost := shows_lost (hsame.now.trans h.now) (hsame.opening.trans h.opening)
              hsame.connected (hsame.closing.trans h.closing) (hsame.timer.trans h.timer)
            exact hlost
        | opening closing => cases hconnected
        | waiting due => cases hconnected
        | closed => cases hconnected
      case isFalse => cases hs
  | reconnect =>
      rw [react] at hs
      split at hs
      case h_1 t htimer =>
        rw [h.timer] at htimer
        split at hs
        · obtain rfl := Option.some.inj hs
          cases place with
          | waiting due =>
              have hclosing : s.closing = false := h.closing
              unfold connect
              rw [hclosing]
              exact ⟨h.now, rfl, h.connected, rfl, rfl⟩
          | opening closing => cases htimer
          | up closing => cases htimer
          | closed => cases htimer
        · cases hs
      case h_2 => cases hs
  | close =>
      obtain rfl := Option.some.inj hs
      have hsame := samePort_failCurrentCommand { s with closing := true, reconnectTimer := none }
        shuttingDown
      cases place with
      | opening closing => exact ⟨hsame.now.trans h.now, hsame.opening.trans h.opening,
          hsame.connected.trans h.connected, hsame.closing, hsame.timer⟩
      | up closing => exact ⟨hsame.now.trans h.now, hsame.opening.trans h.opening,
          hsame.connected.trans h.connected, hsame.closing, hsame.timer⟩
      | waiting due => exact ⟨hsame.now.trans h.now, hsame.opening.trans h.opening,
          hsame.connected.trans h.connected, hsame.closing, hsame.timer⟩
      | closed => exact ⟨hsame.now.trans h.now, hsame.opening.trans h.opening,
          hsame.connected.trans h.connected, hsame.closing, hsame.timer⟩
  | tick ms =>
      obtain rfl := Option.some.inj hs
      have hnow : s.now + ms = now + ms := by rw [h.now]
      cases place <;> exact ⟨hnow, h.opening, h.connected, h.closing, h.timer⟩

/-- A step of the driver is a step of the connection. -/
theorem shows_step {e : Event} (h : Shows now place s) (hs : step s e = some s') :
    Shows (tick now e) (place.next now e) s' := by
  rcases step_cases hs with ⟨rfl, hscan⟩ | ⟨random, rfl, -, htask⟩ | ⟨-, -, hreact⟩
  · cases place <;> exact h.same (samePort_scan hscan)
  · cases place <;> exact h.same (samePort_microtask htask)
  · exact shows_react h hreact

theorem after_append (es : List Event) (e : Event) :
    after (es ++ [e]) = (tick (after es).1 e, (after es).2.next (after es).1 e) := by
  rw [after, List.foldl_append]
  rfl

theorem run_concat {smsc : JsString} {es : List Event} {e : Event}
    (h : run (start smsc) (es ++ [e]) = some s') :
    ∃ s, run (start smsc) es = some s ∧ step s e = some s' := by
  rw [run, Runs.run_append] at h
  obtain ⟨s, hs, hstep⟩ := Option.bind_eq_some_iff.mp h
  obtain ⟨t, ht, hnil⟩ := Option.bind_eq_some_iff.mp hstep
  obtain rfl := Option.some.inj hnil
  exact ⟨s, hs, ht⟩

theorem shows_run {smsc : JsString} {es : List Event} (h : run (start smsc) es = some s) :
    Shows (after es).1 (after es).2 s := by
  induction es using List.reverseRecOn generalizing s with
  | nil =>
      obtain rfl := Option.some.inj h
      exact ⟨rfl, rfl, rfl, rfl, rfl⟩
  | append_singleton es e ih =>
      obtain ⟨t, ht, hstep⟩ := run_concat h
      rw [after_append]
      exact shows_step (ih ht) hstep

/-! ## What holds of the connection -/

theorem next_closed (now : Nat) (e : Event) : Place.closed.next now e = .closed := by
  cases e <;> rfl

/-- A reconnect is scheduled when the connection is lost, and only then. -/
theorem next_waiting {e : Event} {due : Nat} (h : place.next now e = .waiting due) :
    place = .waiting due ∨ due = now + reconnectDelayMs := by
  have hlost {closing : Bool} (h : Place.lost now closing = .waiting due) :
      due = now + reconnectDelayMs := by
    unfold Place.lost at h
    split at h
    · cases h
    · exact (Place.waiting.inj h).symm
  cases place with
  | opening closing =>
      cases e with
      | opened ok =>
          cases ok with
          | true => cases h
          | false => exact Or.inr (hlost h)
      | _ => cases h
  | up closing =>
      cases e with
      | portClosed => exact Or.inr (hlost h)
      | _ => cases h
  | waiting t =>
      cases e with
      | reconnect => cases h
      | close => cases h
      | _ => exact Or.inl h
  | closed =>
      rw [next_closed] at h
      cases h

theorem le_tick (now : Nat) (e : Event) : now ≤ tick now e := by
  cases e with
  | tick ms => exact Nat.le_add_right now ms
  | _ => exact Nat.le_refl now

/-- A reconnect is never further away than the delay. -/
theorem due_le (es : List Event) (due : Nat) (h : (after es).2 = .waiting due) :
    due ≤ (after es).1 + reconnectDelayMs := by
  induction es using List.reverseRecOn with
  | nil => cases h
  | append_singleton es e ih =>
      rw [after_append] at h ⊢
      have htick := le_tick (after es).1 e
      rcases next_waiting h with hbefore | hnow
      · have hdue := ih hbefore
        dsimp only
        omega
      · dsimp only
        omega

theorem closing_lost (now : Nat) (closing : Bool) : (Place.lost now closing).closing = closing := by
  cases closing <;> rfl

/-- Only `close` shuts the driver down, and nothing takes that back. -/
theorem closing_next (now : Nat) (place : Place) (e : Event) :
    (place.next now e).closing = true ↔ place.closing = true ∨ e = .close := by
  have hkeeps (he : e ≠ .close) (h : (place.next now e).closing = place.closing) :
      (place.next now e).closing = true ↔ place.closing = true ∨ e = .close := by
    rw [h]
    exact ⟨Or.inl, fun hor => hor.resolve_right he⟩
  cases e with
  | close => cases place <;> exact ⟨fun _ => Or.inr rfl, fun _ => rfl⟩
  | opened ok =>
      refine hkeeps nofun ?_
      cases place with
      | opening closing =>
          cases ok with
          | true => rfl
          | false => exact closing_lost now closing
      | _ => rfl
  | portClosed =>
      refine hkeeps nofun ?_
      cases place with
      | up closing => exact closing_lost now closing
      | _ => rfl
  | reconnect =>
      refine hkeeps nofun ?_
      cases place <;> rfl
  | _ => exact hkeeps nofun (by cases place <;> rfl)

theorem closing_iff (es : List Event) : (after es).2.closing = true ↔ Event.close ∈ es := by
  induction es using List.reverseRecOn with
  | nil => simp [after, Place.closing]
  | append_singleton es e ih =>
      rw [after_append, closing_next, ih, List.mem_append, List.mem_singleton]
      exact or_congr_right eq_comm

theorem after_closed {es : List Event} (fs : List Event) (h : (after es).2 = .closed) :
    (after (es ++ fs)).2 = .closed := by
  induction fs using List.reverseRecOn with
  | nil => rwa [List.append_nil]
  | append_singleton fs e ih => rw [← List.append_assoc, after_append, ih, next_closed]

theorem next_isUp {e : Event} (h : place.isUp = true) (he : e ≠ .portClosed) :
    (place.next now e).isUp = true := by
  cases place with
  | up closing =>
      cases e with
      | portClosed => exact absurd rfl he
      | _ => rfl
  | opening closing => cases h
  | waiting due => cases h
  | closed => cases h

/-- A command is awaited only while the port is open. -/
theorem connected_of_current {smsc : JsString} {es : List Event} (h : run (start smsc) es = some s)
    (hcurrent : current s ≠ none) : s.connected = true := by
  induction es using List.reverseRecOn generalizing s with
  | nil =>
      obtain rfl := Option.some.inj h
      exact absurd rfl hcurrent
  | append_singleton es e ih =>
      obtain ⟨t, ht, hstep⟩ := run_concat h
      cases hbefore : current t with
      | some ic =>
          obtain ⟨id, c⟩ := ic
          obtain ⟨r, k, hr, -, hph⟩ := current_eq_some hbefore
          have hconnected := ih ht (by rw [hbefore]; exact Option.some_ne_none _)
          have hshows := shows_run ht
          rw [hshows.connected] at hconnected
          rw [(shows_step hshows hstep).connected]
          refine next_isUp hconnected ?_
          rintro rfl
          -- the port takes its command with it
          obtain ⟨r', hr', -, hph'⟩ := (step_current hstep hr hph).1 _ rfl
          refine hcurrent (current_of_phase hr' fun c' k' hc => ?_)
          rw [hph'] at hc
          cases hc
      | none =>
          obtain ⟨r, req, k, -, -, hconnected, -, -, rfl⟩ := (step_goes hstep hbefore).issued hcurrent
          exact hconnected

/-- The connection after any run. Its place depends on the events of the port, `close` and the
clock alone: the port is opening, open, to be opened again within the delay, or closed for good;
commands are awaited only while it is open, and `close` is final. -/
theorem connection_run {smsc : JsString} {es : List Event} (h : run (start smsc) es = some s) :
    Shows (after es).1 (after es).2 s ∧
      (∀ due, (after es).2 = .waiting due → due ≤ s.now + reconnectDelayMs) ∧
      (s.closing = true ↔ Event.close ∈ es) ∧
      (current s ≠ none → s.connected = true) ∧
      ((after es).2 = .closed → ∀ fs s', run s fs = some s' → s'.connected = false ∧ current s' = none) := by
  have hshows := shows_run h
  refine ⟨hshows, ?_, ?_, connected_of_current h, ?_⟩
  · intro due hdue
    rw [hshows.now]
    exact due_le es due hdue
  · rw [hshows.closing]
    exact closing_iff es
  · intro hclosed fs s' hs'
    have hrun : run (start smsc) (es ++ fs) = some s' := by
      rw [run, Runs.run_append, ← run, h]
      exact hs'
    have hconnected : s'.connected = false := by
      rw [(shows_run hrun).connected, after_closed fs hclosed]
      rfl
    refine ⟨hconnected, ?_⟩
    by_contra hcurrent
    rw [connected_of_current hrun hcurrent] at hconnected
    cases hconnected

/-- The port closes, is opened again after the delay, and `close` comes before the answer. -/
def reopened : List Event :=
  boot ++ [.portClosed, .tick 5000, .reconnect, .close, .opened false]

theorem connection_run_reopened : ∃ s, run (start []) reopened = some s ∧
    ∀ fs s', run s fs = some s' → s'.connected = false ∧ current s' = none := by
  obtain ⟨s, hs⟩ := Option.isSome_iff_exists.mp
    (show (run (start []) reopened).isSome = true by decide +kernel)
  exact ⟨s, hs, (connection_run hs).2.2.2.2 (by decide +kernel)⟩

end

end SmsGateway.Serial.Connection
