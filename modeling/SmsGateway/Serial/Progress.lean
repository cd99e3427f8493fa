import SmsGateway.Serial.Ussd
import SmsGateway.Serial.Calls
import SmsGateway.Lib.Progress

/-!
# Every call of the driver settles

The driver's own events (the loop of `handleData`, its microtasks and its timers) and the
answer of the store are enough to bring every call to its end, whatever the modem does or
does not do, and no order in which they come goes on for ever.
-/

namespace SmsGateway.Serial.Progress

open SmsGateway Serial Machine Ussd
open Lib Lib.Async Lib.Progress

/-- The events that need no modem and no caller. -/
def own : Event → Bool
  | .scan => true
  | .microtask _ => true
  | .commandTimeout => true
  | .waiterTimeout _ => true
  | .quietOver => true
  | .persisted _ => true
  | _ => false

/-- Time may go on before the next event. -/
def Waits (s t : State) : Prop := t = s ∨ ∃ ms, step s (.tick ms) = some t

/-- An own event, now or later. -/
def OwnStep (s s' : State) : Prop := ∃ t e, Waits s t ∧ own e = true ∧ step t e = some s'

/-! ## The measure -/

def rank : Phase → Nat
  | .ready _ => 2
  | .quiet _ _ _ => 1
  | _ => 0

def rest (s : State) : Option (Prog Result) := s.running.map (·.phase.prog)

/-- The lines to hand on, the waiters, and what the holder has to do before its operation. -/
def weight (s : State) : Nat :=
  (s.running.elim 0 fun r => rank r.phase) + (s.scan.elim 0 fun lines => lines.length + 1) +
    s.urcWaiters.length

/-- First the calls in the queue, then what is left of the holder's function, then the rest. -/
def Less (s' s : State) : Prop :=
  Prod.Lex (· < ·) (Prod.Lex Ahead (· < ·)) (s'.queue.length, rest s', weight s')
    (s.queue.length, rest s, weight s)

theorem less_wf : WellFounded Less :=
  InvImage.wf (fun s : State => (s.queue.length, rest s, weight s))
    (WellFounded.prod_lex Nat.lt_wfRel.wf (WellFounded.prod_lex ahead_wf Nat.lt_wfRel.wf))

/-- The holder stands where it stood, or the operation that it awaited has been answered. -/
inductive Moved (r r' : Running) : Prop where
  | same (hprog : r'.phase.prog = r.phase.prog) (hrank : rank r'.phase = rank r.phase)
  | answered (op : Op) (k : Ans op → Prog Result) (a : Ans op)
      (hop : ∀ pre timeoutMs, op ≠ .waitForUrc pre timeoutMs)
      (hprog : r.phase.prog = .call op k) (hphase : r'.phase = .ready (k a))

section

variable {s s' : State} {r r' : Running}

theorem less_queue (h : s'.queue.length < s.queue.length) : Less s' s := Prod.Lex.left _ _ h

theorem less_rest (hqueue : s'.queue = s.queue) (h : Ahead (rest s') (rest s)) : Less s' s := by
  unfold Less
  rw [hqueue]
  exact Prod.Lex.right _ (Prod.Lex.left _ _ h)

theorem less_weight (hqueue : s'.queue = s.queue) (hrest : rest s' = rest s)
    (h : weight s' < weight s) : Less s' s := by
  unfold Less
  rw [hqueue, hrest]
  exact Prod.Lex.right _ (Prod.Lex.right _ h)

theorem after_answer (op : Op) (k : Ans op → Prog Result) {p q : Prog Result} (hp : p = .call op k)
    (a : Ans op) (hq : q = k a) : After q p := by
  subst hp hq
  exact .answer op k a

theorem settle_command {c : Command} {k : Except JsError (List JsString) → Prog Result}
    (hph : r.phase = .command c k) (err : Option JsError) :
    ∃ a, (r.settle err).phase = .ready (k a) := by
  unfold Running.settle
  rw [hph]
  exact ⟨_, rfl⟩

theorem moved_settle (r : Running) (err : Option JsError) : Moved r (r.settle err) := by
  unfold Running.settle
  split
  case h_1 c k hph => exact .answered (.transact c.request) k _ (fun _ _ => nofun) (by rw [hph]; rfl) rfl
  case h_2 => exact .same rfl rfl

theorem moved_receive (r : Running) (line : JsString) : Moved r (r.receive line) := by
  unfold Running.receive
  split
  case h_1 c k hph =>
    have hprog : r.phase.prog = .call (.transact c.request) k := by rw [hph]; rfl
    dsimp only
    split
    · split
      · exact .answered (.transact c.request) k _ (fun _ _ => nofun) hprog rfl
      · exact .answered (.transact c.request) k _ (fun _ _ => nofun) hprog rfl
    · exact .same (by rw [hph]; rfl) (by rw [hph]; rfl)
  case h_2 => exact .same rfl rfl

theorem moved_resolveUrc (r : Running) (w : Nat) (line : Option JsString) :
    Moved r (r.resolveUrc w line) := by
  unfold Running.resolveUrc
  split
  case h_1 v k hph =>
    split
    · exact .answered (.urc v) k line (fun _ _ => nofun) (by rw [hph]; rfl) rfl
    · exact .same rfl rfl
  case h_2 => exact .same rfl rfl

theorem moved_abandon (r : Running) (err : JsError) : Moved r (r.abandon err) := by
  unfold Running.abandon
  split
  case h_1 c k hph =>
    obtain ⟨a, ha⟩ := settle_command hph (some err)
    exact .answered (.transact c.request) k a (fun _ _ => nofun) (by rw [hph]; rfl) ha
  case h_2 => exact .same rfl rfl

theorem moved_failWrite (r : Running) (message : JsString) (reached : Bool) :
    Moved r (r.failWrite message reached) := by
  unfold Running.failWrite
  split
  · exact moved_abandon r _
  · split
    case h_1 c k hph =>
      obtain ⟨a, ha⟩ := settle_command hph (some (writeFailedError message))
      exact .answered (.transact c.request) k a (fun _ _ => nofun) (by rw [hph]; rfl) ha
    case h_2 => exact .same rfl rfl

/-- The holder goes on with an answer. -/
theorem less_after (hr : s.running = some r) (hr' : s'.running = some r')
    (hqueue : s'.queue = s.queue) (h : After r'.phase.prog r.phase.prog) : Less s' s := by
  refine less_rest hqueue ?_
  rw [rest, rest, hr, hr']
  exact .on h

/-- Less is left when the holder has moved and a line or a waiter has gone. -/
theorem less_map {f : Running → Running} (hf : ∀ r, Moved r (f r)) (hqueue : s'.queue = s.queue)
    (hrunning : s'.running = s.running.map f)
    (hless : (s'.scan.elim 0 fun lines => lines.length + 1) + s'.urcWaiters.length <
      (s.scan.elim 0 fun lines => lines.length + 1) + s.urcWaiters.length) : Less s' s := by
  cases hr : s.running with
  | none =>
      rw [hr, Option.map_none] at hrunning
      refine less_weight hqueue ?_ ?_
      · rw [rest, rest, hr, hrunning]
      · rw [weight, weight, hr, hrunning]
        omega
  | some r =>
      rw [hr, Option.map_some] at hrunning
      cases hf r with
      | same hprog hrank =>
          refine less_weight hqueue ?_ ?_
          · rw [rest, rest, hr, hrunning, Option.map_some, Option.map_some, hprog]
          · rw [weight, weight, hr, hrunning, Option.elim_some, Option.elim_some, hrank]
            omega
      | answered op k a _ hprog hphase =>
          exact less_after hr hrunning hqueue (after_answer op k hprog a (by rw [hphase]; rfl))

theorem less_rank (hr : s.running = some r) (hr' : s'.running = some r')
    (hqueue : s'.queue = s.queue) (hprog : r'.phase.prog = r.phase.prog)
    (hrank : rank r'.phase < rank r.phase) (hscan : s'.scan = s.scan)
    (hwaiters : s'.urcWaiters = s.urcWaiters) : Less s' s := by
  refine less_weight hqueue ?_ ?_
  · rw [rest, rest, hr, hr', Option.map_some, Option.map_some, hprog]
  · rw [weight, weight, hr, hr', hscan, hwaiters, Option.elim_some, Option.elim_some]
    omega

/-- The command is written, or the port is gone. -/
theorem less_issue {req : Request} {k : Except JsError (List JsString) → Prog Result}
    (hr : s.running = some r) (hprog : r.phase.prog = .call (.transact req) k)
    (hrank : 0 < rank r.phase) : Less (issue s r req k) s := by
  cases hconnected : s.connected with
  | true =>
      have hph : (r.issue s.connected s.now req k).phase =
          .command ⟨req, [], s.now + req.timeoutMs⟩ k := by
        rw [hconnected, Running.issue, if_pos rfl]
      refine less_rank hr rfl rfl ?_ ?_ rfl rfl
      · rw [hph, hprog]
        rfl
      · rw [hph]
        exact hrank
  | false =>
      have hph : r.issue s.connected s.now req k =
          { r with phase := .ready (k (.error notConnected)) } := by
        rw [hconnected, Running.issue, if_neg Bool.false_ne_true]
      exact less_after hr (congrArg some hph) rfl (after_answer (.transact req) k hprog _ rfl)

theorem less_advance {p : Prog Result} (hr : s.running = some r) (hph : r.phase = .ready p)
    (random : Nat) : Less (advance s r p random) s := by
  have hprog : r.phase.prog = p := by rw [hph]; rfl
  have hrank : rank r.phase = 2 := by rw [hph]; rfl
  cases p with
  | ret a =>
      refine less_rest rfl ?_
      rw [rest, rest, hr]
      exact .done _
  | fail e =>
      refine less_rest rfl ?_
      rw [rest, rest, hr]
      exact .done _
  | call op k =>
      have hgoes (a : Ans op) : After (Phase.ready (k a)).prog r.phase.prog := by
        rw [hprog]
        exact .answer op k a
      cases op with
      | transact req =>
          rw [advance_transact]
          split
          · exact less_rank hr rfl rfl (by rw [hprog]; rfl) (by rw [hrank]; exact Nat.one_lt_two) rfl rfl
          · exact less_issue hr hprog (by omega)
      | writeEsc => exact less_after hr rfl rfl (hgoes ())
      | waitForUrc pre timeoutMs => exact less_after hr rfl rfl (hgoes s.nextWaiter)
      | urc w =>
          rw [advance_urc]
          split
          case h_1 line _ => exact less_after hr rfl rfl (hgoes line)
          case h_2 => exact less_rank hr rfl rfl (by rw [hprog]; rfl) (by rw [hrank]; exact Nat.two_pos) rfl rfl
      | persist messages =>
          exact less_rank hr rfl rfl (by rw [hprog]; rfl) (by rw [hrank]; exact Nat.two_pos) rfl rfl
      | randomInt max => exact less_after hr rfl rfl (hgoes (random % max))

theorem less_handleLine {t : State} {lines : List JsString} (h : s.scan = some lines)
    (line : JsString) (ht : t.scan = some (line :: lines)) (hqueue : s.queue = t.queue) (hrunning : s.running = t.running)
    (hwaiters : s.urcWaiters = t.urcWaiters) : Less (handleLine s line) t := by
  have hlines : (t.scan.elim 0 fun lines => lines.length + 1) =
      (s.scan.elim 0 fun lines => lines.length + 1) + 1 := by
    rw [h, ht]
    rfl
  unfold handleLine
  split
  case h_1 w hw =>
    refine less_map (fun r => moved_resolveUrc r w.id (some line)) hqueue
      (congrArg (Option.map _) hrunning) ?_
    have herase : (s.urcWaiters.eraseP (takes line)).length ≤ s.urcWaiters.length :=
      List.length_eraseP_le
    rw [hlines, ← hwaiters]
    exact Nat.add_lt_add_of_lt_of_le (Nat.lt_succ_self _) herase
  case h_2 =>
    refine less_map (fun r => moved_receive r line) hqueue (congrArg (Option.map _) hrunning) ?_
    rw [hlines, ← hwaiters]
    exact Nat.add_lt_add_right (Nat.lt_succ_self _) _

theorem less_scan (h : runScan s = some s') : Less s' s := by
  unfold runScan at h
  split at h
  case h_1 => cases h
  case h_2 line lines hscan =>
    obtain rfl := Option.some.inj h
    exact less_handleLine rfl line hscan rfl rfl rfl
  case h_3 hscan =>
    split at h
    · obtain rfl := Option.some.inj h
      refine less_map (fun r => moved_settle r none) rfl rfl ?_
      rw [hscan]
      exact Nat.add_lt_add_right (Nat.lt_succ_self _) _
    · obtain rfl := Option.some.inj h
      refine less_map (f := id) (fun r => .same rfl rfl) rfl (congrFun Option.map_id _).symm ?_
      rw [hscan]
      exact Nat.add_lt_add_right (Nat.lt_succ_self _) _

theorem less_microtask {random : Nat} (h : runMicrotask s random = some s') : Less s' s := by
  unfold runMicrotask at h
  split at h
  case h_1 r hr =>
    split at h
    case h_1 p hph =>
      obtain rfl := Option.some.inj h
      exact less_advance hr hph random
    case h_2 => cases h
  case h_2 =>
    split at h
    case h_1 => cases h
    case h_2 id job queue hqueue =>
      obtain rfl := Option.some.inj h
      refine less_queue ?_
      rw [hqueue]
      exact Nat.lt_succ_self _

theorem less_react {e : Event} (he : own e = true) (h : react s e = some s') : Less s' s := by
  cases e with
  | commandTimeout =>
      rw [react] at h
      split at h
      case h_1 r hr =>
        split at h
        case h_1 c k hph =>
          split at h
          · obtain rfl := Option.some.inj h
            obtain ⟨a, ha⟩ := settle_command hph (some (timeoutError c.request.label))
            refine less_after hr (congrArg (Option.map _) hr) rfl ?_
            exact after_answer (.transact c.request) k (by rw [hph]; rfl) a (by rw [ha]; rfl)
          · cases h
        case h_2 => cases h
      case h_2 => cases h
  | waiterTimeout waiter =>
      rw [react] at h
      split at h
      case h_1 w hw =>
        split at h
        · obtain rfl := Option.some.inj h
          refine less_map (fun r => moved_resolveUrc r w.id none) rfl rfl ?_
          have hgone : (s.urcWaiters.filter (·.id != waiter)).length < s.urcWaiters.length := by
            have hid : w.id = waiter := by simpa using List.find?_some hw
            refine List.length_filter_lt_length_iff_exists.mpr ⟨w, List.mem_of_find?_eq_some hw, ?_⟩
            simp [hid]
          exact Nat.add_lt_add_left hgone _
        · cases h
      case h_2 => cases h
  | quietOver =>
      rw [react] at h
      split at h
      case h_1 r hr =>
        split at h
        case h_1 deadline req k hph =>
          split at h
          · obtain rfl := Option.some.inj h
            exact less_issue hr (by rw [hph]; rfl) (by rw [hph]; exact Nat.one_pos)
          · cases h
        case h_2 => cases h
      case h_2 => cases h
  | persisted answer =>
      rw [react] at h
      split at h
      case h_1 r hr =>
        split at h
        case h_1 messages k hph =>
          obtain rfl := Option.some.inj h
          exact less_after hr rfl rfl (after_answer (.persist messages) k (by rw [hph]; rfl) answer rfl)
        case h_2 => cases h
      case h_2 => cases h
  | scan => cases h
  | microtask random => cases h
  | _ => cases he

/-- Every own event leaves less to do. -/
theorem less_step {e : Event} (he : own e = true) (h : step s e = some s') : Less s' s := by
  rcases step_cases h with ⟨-, hscan⟩ | ⟨random, -, -, htask⟩ | ⟨-, -, hreact⟩
  · exact less_scan hscan
  · exact less_microtask htask
  · exact less_react he hreact

theorem waits_eq (h : Waits s s') : ∃ now, s' = { s with now } := by
  rcases h with rfl | ⟨ms, h⟩
  · exact ⟨_, rfl⟩
  · obtain ⟨-, -, hreact⟩ : s.scan = none ∧ due s = false ∧ react s (.tick ms) = some s' := by
      simpa using step_cases h
    exact ⟨_, (Option.some.inj hreact).symm⟩

/-- No order of own events goes on for ever. -/
theorem ownSteps_end (s : State) : Acc (fun s' s => OwnStep s s') s := by
  refine Subrelation.accessible ?_ (less_wf.apply s)
  rintro t' s ⟨t, e, hwaits, he, h⟩
  obtain ⟨now, rfl⟩ := waits_eq hwaits
  have hless := less_step he h
  exact hless

end

/-! ## The reply that a call awaits

Its waiter is in the list, or has been resolved with a line or with null. -/

def Registered (waiters : List Waiter) (settled : List (Nat × Option JsString)) : Stage → Prop
  | .registered w => (∃ x ∈ waiters, x.id = w) ∨ (settled.lookup w).isSome = true
  | _ => True

structure Heard (r : Running) (waiters : List Waiter) (settled : List (Nat × Option JsString)) :
    Prop where
  stage : ∃ stage : Stage, Obeys (protocol (isUssd r.job)) stage r.phase.prog ∧
    Registered waiters settled stage
  awaited : ∀ w k, r.phase = .urc w k → settled.lookup w = none

def HeardInv (s : State) : Prop :=
  ∀ r, s.running = some r → Heard r s.urcWaiters s.settledUrcs

section

variable {r r' : Running} {waiters ws : List Waiter} {settled : List (Nat × Option JsString)}
  {stage : Stage}

theorem registered_next {op : Op} (h : Registered waiters settled stage)
    (hop : ∀ pre timeoutMs, op ≠ .waitForUrc pre timeoutMs) (a : Ans op) :
    Registered waiters settled (stage.next op a) := by
  cases op with
  | waitForUrc pre timeoutMs => exact absurd rfl (hop pre timeoutMs)
  | transact req =>
      cases a with
      | error e => trivial
      | ok lines => exact h
  | urc w => trivial
  | _ => exact h

/-- The waiters that leave the list are resolved. -/
theorem registered_resolve {x : Waiter} {line : Option JsString}
    (hws : ∀ y ∈ waiters, y ∈ ws ∨ y.id = x.id) (h : Registered waiters settled stage) :
    Registered ws ((x.id, line) :: settled) stage := by
  have hlookup {w : Nat} (hw : w = x.id ∨ (settled.lookup w).isSome = true) :
      (((x.id, line) :: settled).lookup w).isSome = true := by
    by_cases he : w = x.id
    · simp [he]
    · have hne : (w == x.id) = false := by simpa using he
      rw [List.lookup_cons, hne]
      exact hw.resolve_left he
  cases stage with
  | registered w =>
      rcases h with ⟨y, hy, hid⟩ | hsome
      · rcases hws y hy with hmem | he
        · exact Or.inl ⟨y, hmem, hid⟩
        · exact Or.inr (hlookup (Or.inl (hid.symm.trans he)))
      · exact Or.inr (hlookup (Or.inr hsome))
  | _ => trivial

theorem urc_of_rank {w : Nat} {k : Option JsString → Prog Result} {ph : Phase}
    (hprog : ph.prog = .call (.urc w) k) (hrank : rank ph = 0) : ph = .urc w k := by
  cases ph with
  | ready p => cases hrank
  | quiet deadline req k' => cases hrank
  | command c k' => cases hprog
  | persist messages k' => cases hprog
  | urc v k' =>
      cases hprog
      rfl

theorem heard_moved (h : Heard r waiters settled) (hm : Moved r r') (hjob : r'.job = r.job) :
    Heard r' waiters settled := by
  obtain ⟨stage, hobeys, hregistered⟩ := h.stage
  cases hm with
  | same hprog hrank =>
      refine ⟨⟨stage, by rw [hjob, hprog]; exact hobeys, hregistered⟩, ?_⟩
      intro w k hph
      refine h.awaited w k (urc_of_rank ?_ ?_)
      · rw [← hprog, hph]
        rfl
      · rw [← hrank, hph]
        rfl
  | answered op k a hop hprog hphase =>
      rw [hprog] at hobeys
      refine ⟨⟨stage.next op a, ?_, registered_next hregistered hop a⟩, ?_⟩
      · rw [hjob, hphase]
        exact hobeys.2 a
      · intro w k' hph
        rw [hphase] at hph
        cases hph

/-- The holder awaits what it was about to await, and it is no reply. -/
theorem heard_await (h : Heard r waiters settled) (hjob : r'.job = r.job)
    (hprog : r'.phase.prog = r.phase.prog) (hph : ∀ w k, r'.phase ≠ .urc w k) :
    Heard r' waiters settled := by
  obtain ⟨stage, hobeys, hregistered⟩ := h.stage
  exact ⟨⟨stage, by rw [hjob, hprog]; exact hobeys, hregistered⟩, fun w k he => absurd he (hph w k)⟩

/-- A waiter leaves the list and is resolved. -/
theorem heard_resolve {x : Waiter} (hws : ∀ y ∈ waiters, y ∈ ws ∨ y.id = x.id)
    (h : Heard r waiters settled) (line : Option JsString) :
    Heard (r.resolveUrc x.id line) ws ((x.id, line) :: settled) := by
  obtain ⟨stage, hobeys, hregistered⟩ :=
    (heard_moved h (moved_resolveUrc r x.id line) (resolveUrc_job r x.id line)).stage
  refine ⟨⟨stage, hobeys, registered_resolve hws hregistered⟩, ?_⟩
  intro w k hph
  unfold Running.resolveUrc at hph
  split at hph
  case h_1 v k' hv =>
    split at hph
    case isTrue => cases hph
    case isFalse hne =>
      obtain ⟨rfl, rfl⟩ := Phase.urc.inj (hv.symm.trans hph)
      have hother : (v == x.id) = false := by simpa using hne
      rw [List.lookup_cons, hother]
      exact h.awaited v k' hv
  case h_2 hnone => exact absurd hph (hnone w k)

theorem heard_issue {req : Request} {k : Except JsError (List JsString) → Prog Result}
    (h : Heard r waiters settled) (hprog : r.phase.prog = .call (.transact req) k)
    (connected : Bool) (now : Nat) : Heard (r.issue connected now req k) waiters settled := by
  unfold Running.issue
  split
  · exact heard_await h rfl (by rw [hprog]; rfl) fun _ _ => nofun
  · exact heard_moved h (.answered (.transact req) k _ (fun _ _ => nofun) hprog rfl) rfl

end

section

variable {s s' : State}

theorem heard_map {f : Running → Running} (h : HeardInv s) (hf : ∀ r, Moved r (f r))
    (hjob : ∀ r, (f r).job = r.job) (hrunning : s'.running = s.running.map f)
    (hwaiters : s'.urcWaiters = s.urcWaiters) (hsettled : s'.settledUrcs = s.settledUrcs) :
    HeardInv s' := by
  intro r' hr'
  rw [hrunning] at hr'
  obtain ⟨r, hr, rfl⟩ := Option.map_eq_some_iff.mp hr'
  rw [hwaiters, hsettled]
  exact heard_moved (h r hr) (hf r) (hjob r)

theorem heard_congr (h : HeardInv s) (hrunning : s'.running = s.running)
    (hwaiters : s'.urcWaiters = s.urcWaiters) (hsettled : s'.settledUrcs = s.settledUrcs) :
    HeardInv s' := by
  intro r hr
  rw [hwaiters, hsettled]
  exact h r (hrunning ▸ hr)

theorem heard_set {r r' : Running} (h : HeardInv s) (hr : s.running = some r)
    (hr' : s'.running = some r') (hwaiters : s'.urcWaiters = s.urcWaiters)
    (hsettled : s'.settledUrcs = s.settledUrcs)
    (hheard : Heard r s.urcWaiters s.settledUrcs → Heard r' s.urcWaiters s.settledUrcs) :
    HeardInv s' := by
  intro x hx
  obtain rfl : r' = x := Option.some.inj (hr'.symm.trans hx)
  rw [hwaiters, hsettled]
  exact hheard (h r hr)

theorem heard_resolveWaiter {l : List Waiter} {x : Waiter}
    (h : ∀ r, s.running = some r → Heard r l s.settledUrcs)
    (hws : ∀ y ∈ l, y ∈ s.urcWaiters ∨ y.id = x.id) (line : Option JsString) :
    HeardInv (resolveWaiter s x line) := by
  intro r' hr'
  obtain ⟨r, hr, rfl⟩ := Option.map_eq_some_iff.mp hr'
  exact heard_resolve hws (h r hr) line

theorem mem_eraseP_or {p : Waiter → Bool} {l : List Waiter} {x y : Waiter} (hx : l.find? p = some x)
    (hy : y ∈ l) : y ∈ l.eraseP p ∨ y = x := by
  induction l with
  | nil => cases hy
  | cons a l ih =>
      by_cases ha : p a = true
      · rw [List.find?_cons_of_pos ha] at hx
        rw [List.eraseP_cons_of_pos ha, ← Option.some.inj hx]
        exact (List.mem_cons.mp hy).symm
      · rw [List.find?_cons_of_neg ha] at hx
        rw [List.eraseP_cons_of_neg ha]
        rcases List.mem_cons.mp hy with rfl | hy
        · exact Or.inl List.mem_cons_self
        · exact (ih hx hy).imp_left (List.mem_cons_of_mem a)

theorem heard_handleLine (h : HeardInv s) (line : JsString) : HeardInv (handleLine s line) := by
  unfold handleLine
  split
  case h_1 x hx =>
    refine heard_resolveWaiter (s := { s with urcWaiters := s.urcWaiters.eraseP (takes line) })
      (l := s.urcWaiters) (fun r hr => h r hr) ?_ (some line)
    intro y hy
    exact (mem_eraseP_or hx hy).imp_right (congrArg Waiter.id)
  case h_2 => exact heard_map h (fun r => moved_receive r line) (fun r => receive_job r line) rfl rfl rfl

/-- All waiters are resolved one after the other. -/
theorem heard_failCurrentCommand (h : HeardInv s) (err : JsError) :
    HeardInv (failCurrentCommand s err) := by
  have hfold (ws : List Waiter) (t : State) (hnil : t.urcWaiters = [])
      (ht : ∀ r, t.running = some r → Heard r ws t.settledUrcs) :
      HeardInv (ws.foldl (fun s w => resolveWaiter s w none) t) := by
    induction ws generalizing t with
    | nil =>
        intro r hr
        rw [List.foldl_nil, hnil]
        exact ht r hr
    | cons x ws ih =>
        refine ih (resolveWaiter t x none) hnil ?_
        intro r' hr'
        obtain ⟨r, hr, rfl⟩ := Option.map_eq_some_iff.mp hr'
        refine heard_resolve ?_ (ht r hr) none
        intro y hy
        rcases List.mem_cons.mp hy with rfl | hy
        · exact Or.inr rfl
        · exact Or.inl hy
  refine hfold s.urcWaiters _ rfl ?_
  intro r' hr'
  obtain ⟨r, hr, rfl⟩ := Option.map_eq_some_iff.mp hr'
  exact heard_moved (h r hr) (moved_abandon r err) (abandon_job r err)

theorem heard_scheduleReconnect (h : HeardInv s) : HeardInv (scheduleReconnect s) := by
  unfold scheduleReconnect
  split
  · exact h
  · exact heard_congr h rfl rfl rfl

theorem heard_advance {r : Running} {p : Prog Result} (h : HeardInv s) (hr : s.running = some r)
    (hph : r.phase = .ready p) (random : Nat) : HeardInv (advance s r p random) := by
  have hprog : r.phase.prog = p := by rw [hph]; rfl
  cases p with
  | ret a => exact fun r' hr' => by cases hr'
  | fail e => exact fun r' hr' => by cases hr'
  | call op k =>
      have hgoes (hop : ∀ pre timeoutMs, op ≠ .waitForUrc pre timeoutMs) (a : Ans op) :
          HeardInv (goOn s r (k a)) :=
        heard_set h hr rfl rfl rfl fun hheard => heard_moved hheard (.answered op k a hop hprog rfl) rfl
      have hwaits (ph : Phase) (hph : ph.prog = .call op k) (hurc : ∀ w k, ph ≠ .urc w k) :
          HeardInv { s with running := some { r with phase := ph } } :=
        heard_set h hr rfl rfl rfl fun hheard => heard_await hheard rfl (by rw [hprog]; exact hph) hurc
      cases op with
      | transact req =>
          rw [advance_transact]
          split
          · exact hwaits (.quiet s.quietUntil req k) rfl fun _ _ => nofun
          · exact heard_set h hr rfl rfl rfl fun hheard =>
              heard_issue hheard hprog s.connected s.now
      | writeEsc => exact hgoes (fun _ _ => nofun) ()
      | waitForUrc pre timeoutMs =>
          intro r' hr'
          obtain rfl := Option.some.inj hr'
          obtain ⟨stage, hobeys, -⟩ := (h r hr).stage
          rw [hprog] at hobeys
          refine ⟨⟨.registered s.nextWaiter, hobeys.2 s.nextWaiter,
            Or.inl ⟨⟨s.nextWaiter, pre, r.id, s.now + timeoutMs⟩, ?_, rfl⟩⟩, ?_⟩
          · exact List.mem_append_right _ List.mem_cons_self
          · exact fun w k' hc => by cases hc
      | urc w =>
          rw [advance_urc]
          split
          case h_1 line _ => exact hgoes (fun _ _ => nofun) line
          case h_2 hnone =>
            refine heard_set h hr rfl rfl rfl fun hheard => ?_
            obtain ⟨stage, hobeys, hregistered⟩ := hheard.stage
            rw [hprog] at hobeys
            refine ⟨⟨stage, hobeys, hregistered⟩, ?_⟩
            intro v k' hc
            obtain ⟨rfl, -⟩ := Phase.urc.inj hc
            exact hnone
      | persist messages => exact hwaits (.persist messages k) rfl fun _ _ => nofun
      | randomInt max => exact hgoes (fun _ _ => nofun) (random % max)

theorem heard_scan (h : HeardInv s) (hs : runScan s = some s') : HeardInv s' := by
  unfold runScan at hs
  split at hs
  case h_1 => cases hs
  case h_2 line lines _ =>
    obtain rfl := Option.some.inj hs
    have ht : HeardInv { s with scan := some lines } := heard_congr h rfl rfl rfl
    exact heard_handleLine ht line
  case h_3 =>
    split at hs
    · obtain rfl := Option.some.inj hs
      exact heard_map h (fun r => moved_settle r none) (fun r => settle_job r none) rfl rfl rfl
    · obtain rfl := Option.some.inj hs
      exact heard_congr h rfl rfl rfl

theorem heard_microtask {random : Nat} (h : HeardInv s) (hs : runMicrotask s random = some s') :
    HeardInv s' := by
  unfold runMicrotask at hs
  split at hs
  case h_1 r hr =>
    split at hs
    case h_1 p hph =>
      obtain rfl := Option.some.inj hs
      exact heard_advance h hr hph random
    case h_2 => cases hs
  case h_2 =>
    split at hs
    case h_1 => cases hs
    case h_2 id job queue _ =>
      obtain rfl := Option.some.inj hs
      intro r hr
      obtain rfl := Option.some.inj hr
      exact ⟨⟨.idle, obeys_prog s.smsc job, trivial⟩, fun w k hc => by cases hc⟩

theorem heard_react {e : Event} (h : HeardInv s) (hs : react s e = some s') : HeardInv s' := by
  cases e with
  | call job =>
      obtain rfl := Option.some.inj hs
      exact heard_congr h rfl rfl rfl
  | data text =>
      rw [react] at hs
      split at hs
      · obtain rfl := Option.some.inj hs
        exact heard_congr h rfl rfl rfl
      · cases hs
  | scan => cases hs
  | microtask random => cases hs
  | commandTimeout =>
      rw [react] at hs
      split at hs
      case h_1 r hr =>
        split at hs
        case h_1 c k hph =>
          split at hs
          · obtain rfl := Option.some.inj hs
            exact heard_map h (fun r => moved_settle r _) (fun r => settle_job r _) rfl rfl rfl
          · cases hs
        case h_2 => cases hs
      case h_2 => cases hs
  | waiterTimeout waiter =>
      rw [react] at hs
      split at hs
      case h_1 w hw =>
        split at hs
        · obtain rfl := Option.some.inj hs
          have hid : w.id = waiter := by simpa using List.find?_some hw
          refine heard_resolveWaiter
            (s := { s with urcWaiters := s.urcWaiters.filter (·.id != waiter) })
            (l := s.urcWaiters) (fun r hr => h r hr) ?_ none
          intro y hy
          by_cases he : y.id = waiter
          · exact Or.inr (he.trans hid.symm)
          · exact Or.inl (List.mem_filter.mpr ⟨hy, by simpa using he⟩)
        · cases hs
      case h_2 => cases hs
  | quietOver =>
      rw [react] at hs
      split at hs
      case h_1 r hr =>
        split at hs
        case h_1 deadline req k hph =>
          split at hs
          · obtain rfl := Option.some.inj hs
            exact heard_set h hr rfl rfl rfl fun hheard =>
              heard_issue hheard (by rw [hph]; rfl) s.connected s.now
          · cases hs
        case h_2 => cases hs
      case h_2 => cases hs
  | writeFailed message reached =>
      obtain rfl := Option.some.inj hs
      exact heard_map h (fun r => moved_failWrite r message reached)
        (fun r => failWrite_job r message reached) rfl rfl rfl
  | persisted answer =>
      rw [react] at hs
      split at hs
      case h_1 r hr =>
        split at hs
        case h_1 messages k hph =>
          obtain rfl := Option.some.inj hs
          exact heard_set h hr rfl rfl rfl fun hheard => heard_moved hheard
            (.answered (.persist messages) k answer (fun _ _ h => by cases h) (by rw [hph]; rfl) rfl) rfl
        case h_2 => cases hs
      case h_2 => cases hs
  | opened ok =>
      rw [react] at hs
      split at hs
      · split at hs
        · obtain rfl := Option.some.inj hs
          exact heard_congr h rfl rfl rfl
        · obtain rfl := Option.some.inj hs
          exact heard_scheduleReconnect (heard_congr h rfl rfl rfl)
      · cases hs
  | portClosed =>
      rw [react] at hs
      split at hs
      · obtain rfl := Option.some.inj hs
        have hgone : HeardInv { s with connected := false } := heard_congr h rfl rfl rfl
        exact heard_scheduleReconnect (heard_failCurrentCommand hgone portClosedError)
      · cases hs
  | reconnect =>
      rw [react] at hs
      split at hs
      case h_1 t ht =>
        split at hs
        · obtain rfl := Option.some.inj hs
          unfold connect
          split
          · exact heard_congr h rfl rfl rfl
          · exact heard_congr h rfl rfl rfl
        · cases hs
      case h_2 => cases hs
  | close =>
      obtain rfl := Option.some.inj hs
      have hclosing : HeardInv { s with closing := true, reconnectTimer := none } :=
        heard_congr h rfl rfl rfl
      exact heard_failCurrentCommand hclosing shuttingDown
  | tick ms =>
      obtain rfl := Option.some.inj hs
      exact heard_congr h rfl rfl rfl

theorem heard_step {e : Event} (h : HeardInv s) (hs : step s e = some s') : HeardInv s' := by
  rcases step_cases hs with ⟨-, hscan⟩ | ⟨random, -, -, htask⟩ | ⟨-, -, hreact⟩
  · exact heard_scan h hscan
  · exact heard_microtask h htask
  · exact heard_react h hreact

theorem heard_run {smsc : JsString} {es : List Event} (h : run (start smsc) es = some s) :
    HeardInv s :=
  Runs.run_induct (A := fun _ => True) (fun _ _ _ hs _ hstep => heard_step hs hstep)
    (fun r hr => by cases hr) (fun _ _ => trivial) h

/-- The waiter of an awaited reply is in the list. -/
theorem exists_waiter {r : Running} {w : Nat} {k : Option JsString → Prog Result} (h : HeardInv s)
    (hr : s.running = some r) (hph : r.phase = .urc w k) :
    ∃ x, s.urcWaiters.find? (·.id == w) = some x := by
  obtain ⟨stage, hobeys, hregistered⟩ := (h r hr).stage
  rw [hph] at hobeys
  obtain rfl : stage = .registered w := hobeys.1
  rcases hregistered with ⟨x, hx, hid⟩ | hsome
  · exact Option.isSome_iff_exists.mp (List.find?_isSome.mpr ⟨x, hx, by simpa using hid⟩)
  · rw [(h r hr).awaited w k hph] at hsome
    cases hsome

/-! ## The end of the own events -/

/-- As long as a call is open, an own event is possible, now or later. -/
theorem ownStep_possible (h : HeardInv s)
    (hopen : s.scan ≠ none ∨ s.running ≠ none ∨ s.queue ≠ []) : ∃ s', OwnStep s s' := by
  have hnow {e : Event} (he : own e = true) (hstep : (step s e).isSome = true) :
      ∃ s', OwnStep s s' := by
    obtain ⟨s', hs'⟩ := Option.isSome_iff_exists.mp hstep
    exact ⟨s', s, e, Or.inl rfl, he, hs'⟩
  cases hscan : s.scan with
  | some lines =>
      refine hnow (e := .scan) rfl ?_
      rw [step, runScan, hscan]
      cases lines with
      | nil =>
          dsimp only
          split <;> rfl
      | cons line lines => rfl
  | none =>
      cases hr : s.running with
      | none =>
          have hqueue : s.queue ≠ [] := by simpa [hscan, hr] using hopen
          refine hnow (e := .microtask 0) rfl ?_
          cases hq : s.queue with
          | nil => exact absurd hq hqueue
          | cons c queue => simp [step, due, runMicrotask, hscan, hr, hq]
      | some r =>
          have hlater {t : Nat} {e : Event} (he : own e = true) (hdue : due s = false)
              (hstep : (step { s with now := s.now + t } e).isSome = true) : ∃ s', OwnStep s s' := by
            obtain ⟨s', hs'⟩ := Option.isSome_iff_exists.mp hstep
            refine ⟨s', _, e, Or.inr ⟨t, ?_⟩, he, hs'⟩
            have htick : step s (.tick t) =
                if s.scan.isNone && !due s then react s (.tick t) else none := rfl
            rw [htick, if_pos (by rw [hscan, hdue]; rfl)]
            rfl
          cases hph : r.phase with
          | ready p =>
              refine hnow (e := .microtask 0) rfl ?_
              simp [step, due, runMicrotask, hscan, hr, hph]
          | quiet deadline req k =>
              refine hlater (t := deadline) (e := .quietOver) rfl ?_ ?_
              · simp [due, hr, hph]
              · simp [step, due, react, hscan, hr, hph]
          | command c k =>
              refine hlater (t := c.deadline) (e := .commandTimeout) rfl ?_ ?_
              · simp [due, hr, hph]
              · simp [step, due, react, hscan, hr, hph]
          | urc w k =>
              obtain ⟨x, hx⟩ := exists_waiter h hr hph
              refine hlater (t := x.deadline) (e := .waiterTimeout w) rfl ?_ ?_
              · simp [due, hr, hph]
              · simp [step, due, react, hscan, hr, hph, hx]
          | persist messages k =>
              refine hnow (e := .persisted (.ok ())) rfl ?_
              simp [step, due, react, hscan, hr, hph]

theorem ownStep_run {smsc : JsString} (h : OwnStep s s')
    (hs : ∃ es, run (start smsc) es = some s) : ∃ es, run (start smsc) es = some s' := by
  obtain ⟨t, e, hwaits, -, hstep⟩ := h
  obtain ⟨es, hes⟩ := hs
  rw [run] at hes
  rcases hwaits with rfl | ⟨ms, htick⟩
  · refine ⟨es ++ [e], ?_⟩
    rw [run, Runs.run_append, hes, Option.bind_some, Runs.run, hstep]
    rfl
  · refine ⟨es ++ [.tick ms, e], ?_⟩
    rw [run, Runs.run_append, hes, Option.bind_some, Runs.run, htick, Option.bind_some, Runs.run, hstep]
    rfl

theorem advance_nextCall (r : Running) (p : Prog Result) (random : Nat) :
    (advance s r p random).nextCall = s.nextCall := by
  cases p with
  | ret a => rfl
  | fail e => rfl
  | call op k =>
      cases op with
      | transact req =>
          rw [advance_transact]
          split <;> rfl
      | urc w =>
          rw [advance_urc]
          split <;> rfl
      | _ => rfl

theorem react_nextCall {e : Event} (he : own e = true) (h : react s e = some s') :
    s'.nextCall = s.nextCall := by
  cases e with
  | commandTimeout =>
      rw [react] at h
      split at h
      case h_1 r hr =>
        split at h
        case h_1 c k hph =>
          split at h
          · rw [← Option.some.inj h, State.mapRunning]
          · cases h
        case h_2 => cases h
      case h_2 => cases h
  | waiterTimeout waiter =>
      rw [react] at h
      split at h
      case h_1 w hw =>
        split at h
        · rw [← Option.some.inj h, resolveWaiter]
        · cases h
      case h_2 => cases h
  | quietOver =>
      rw [react] at h
      split at h
      case h_1 r hr =>
        split at h
        case h_1 deadline req k hph =>
          split at h
          · rw [← Option.some.inj h, issue]
          · cases h
        case h_2 => cases h
      case h_2 => cases h
  | persisted answer =>
      rw [react] at h
      split at h
      case h_1 r hr =>
        split at h
        case h_1 messages k hph => rw [← Option.some.inj h, goOn]
        case h_2 => cases h
      case h_2 => cases h
  | scan => cases h
  | microtask random => cases h
  | _ => cases he

theorem step_nextCall {e : Event} (he : own e = true) (h : step s e = some s') :
    s'.nextCall = s.nextCall := by
  rcases step_cases h with ⟨-, hscan⟩ | ⟨random, -, -, htask⟩ | ⟨-, -, hreact⟩
  · unfold runScan at hscan
    split at hscan
    case h_1 => cases hscan
    case h_2 line lines _ =>
      obtain rfl := Option.some.inj hscan
      exact ((SameCalls.refl _).handleLine line).next
    case h_3 =>
      split at hscan <;> obtain rfl := Option.some.inj hscan <;> rfl
  · unfold runMicrotask at htask
    split at htask
    case h_1 r _ =>
      split at htask
      case h_1 p _ =>
        obtain rfl := Option.some.inj htask
        exact advance_nextCall r p random
      case h_2 => cases htask
    case h_2 =>
      split at htask
      case h_1 => cases htask
      case h_2 => obtain rfl := Option.some.inj htask; rfl
  · exact react_nextCall he hreact

theorem ownStep_nextCall (h : OwnStep s s') : s'.nextCall = s.nextCall := by
  obtain ⟨t, e, hwaits, he, hstep⟩ := h
  obtain ⟨now, rfl⟩ := waits_eq hwaits
  have hnext := step_nextCall he hstep
  exact hnext

/-- Nothing is left of any call: the lock is free, no call waits for it and each call that
was made has its one result, in the order of the calls. -/
structure Settled (calls : Nat) (s : State) : Prop where
  running : s.running = none
  queue : s.queue = []
  results : s.results.map (·.id) = List.range calls

/-- Without any help of the modem, and whatever it did before, the driver brings every call
that was made to its one result: its own events end, and where they end all calls are settled. -/
theorem calls_settle {smsc : JsString} {es : List Event} (h : run (start smsc) es = some s) :
    Acc (fun s' s => OwnStep s s') s ∧
      (∃ s', Relation.ReflTransGen OwnStep s s' ∧ Stuck OwnStep s') ∧
      ∀ s', Relation.ReflTransGen OwnStep s s' → Stuck OwnStep s' → Settled s.nextCall s' := by
  refine ⟨ownSteps_end s, exists_stuck (ownSteps_end s), ?_⟩
  intro s' hsteps hstuck
  have hrun : (∃ es, run (start smsc) es = some s') ∧ s'.nextCall = s.nextCall := by
    clear hstuck
    induction hsteps with
    | refl => exact ⟨⟨es, h⟩, rfl⟩
    | tail _ hstep ih => exact ⟨ownStep_run hstep ih.1, (ownStep_nextCall hstep).trans ih.2⟩
  obtain ⟨⟨es', hes'⟩, hnext⟩ := hrun
  have hdone : ¬(s'.scan ≠ none ∨ s'.running ≠ none ∨ s'.queue ≠ []) := by
    intro hopen
    obtain ⟨t, ht⟩ := ownStep_possible (heard_run hes') hopen
    exact hstuck t ht
  simp only [not_or, not_not] at hdone
  obtain ⟨-, hrunning, hqueue⟩ := hdone
  refine ⟨hrunning, hqueue, ?_⟩
  have hids := callIds_run hes'
  rwa [callIds, hrunning, hqueue, hnext, Option.map_none, Option.toList_none, List.map_nil,
    List.append_nil, List.append_nil] at hids

/-- A modem that answers nothing: `initModem` has written its first command, and a `ping` is
called behind it. -/
theorem calls_settle_silent : ∃ s s', run (start []) [.opened true, .microtask 0, .microtask 0,
      .call .ping] = some s ∧
    Relation.ReflTransGen OwnStep s s' ∧ Settled 2 s' := by
  obtain ⟨s, hs⟩ := Option.isSome_iff_exists.mp
    (show (run (start []) [.opened true, .microtask 0, .microtask 0, .call .ping]).isSome = true by
      decide +kernel)
  have hcalls : (run (start []) [.opened true, .microtask 0, .microtask 0, .call .ping]).map
      (·.nextCall) = some 2 := by decide +kernel
  obtain ⟨-, ⟨s', hsteps, hstuck⟩, hend⟩ := calls_settle hs
  rw [hs, Option.map_some] at hcalls
  refine ⟨s, s', hs, hsteps, ?_⟩
  rw [← Option.some.inj hcalls]
  exact hend s' hsteps hstuck

end

end SmsGateway.Serial.Progress
