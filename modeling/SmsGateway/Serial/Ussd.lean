import SmsGateway.Serial.Machine

/-!
# USSD replies and their sessions

`runUssd` registers a waiter before it issues its command, and lines go to the
first waiter that takes them. The stage below follows a call from the registration
to the reply; the machine's invariant ties it to the list of waiters.
-/

namespace SmsGateway.Serial.Ussd

open SmsGateway Serial Machine SmsEncoding
open Lib.Async

def cusd : JsString := js "+CUSD"

def isUssd : Job → Bool
  | .runUssd _ => true
  | _ => false

/-! ## The waiter in the program -/

inductive Stage where
  | idle
  | registered (waiter : Nat)
  | replied (line : Option JsString)

def Stage.next (s : Stage) : (op : Op) → Ans op → Stage
  | .waitForUrc _ _, w => .registered w
  | .urc _, line => .replied line
  | .transact _, .error _ => .idle
  | _, _ => s

/-- Between the registration and the reply there is only the USSD command, and a
call that registers a waiter returns its line. -/
def protocol (ussd : Bool) : Protocol Op Ans JsError Result Stage :=
  { allowed := fun s op =>
      match op with
      | .waitForUrc pre _ => s = .idle ∧ ussd = true ∧ pre = cusd
      | .urc w => s = .registered w
      | .transact _ => s = .idle ∨ ∃ w, s = .registered w
      | _ => s = .idle
    next := Stage.next
    mayReturn := fun s a =>
      match s with
      | .idle => ussd = false
      | .registered _ => False
      | .replied line => a = .reply line
    mayFail := fun s _ => s = .idle }

theorem obeys_runUssd (code : JsString) :
    Obeys (protocol true) .idle (Job.prog [] (.runUssd code)) := by
  refine ⟨Or.inl rfl, ?_⟩
  intro a
  cases a with
  | error e => rfl
  | ok lines =>
      refine ⟨⟨rfl, rfl, rfl⟩, ?_⟩
      intro w
      refine ⟨Or.inr ⟨w, rfl⟩, ?_⟩
      intro a
      cases a with
      | error e => rfl
      | ok lines => exact ⟨rfl, fun line => rfl⟩

/-- The operation does not concern waiters. -/
def NoWaiter : Op → Prop
  | .waitForUrc _ _ => False
  | .urc _ => False
  | _ => True

theorem noWaiter_transact (r : Request) : AllOps NoWaiter (transact r) := allOps_transact trivial

theorem noWaiter_submitBody (atCommand label body : JsString) :
    AllOps NoWaiter (submitBody atCommand label body) :=
  allOps_submitBody trivial trivial trivial

theorem noWaiter_selectCharset (encoding : Encoding) : AllOps NoWaiter (selectCharset encoding) :=
  allOps_selectCharset (fun _ _ => trivial) encoding

theorem noWaiter_sendSingle (smsc recipient message : JsString) (info : MessageInfo) :
    AllOps NoWaiter (sendSingle smsc recipient message info) := by
  have hrest : AllOps NoWaiter (selectCharset info.encoding >>= fun _ =>
      submitBody (js "AT+CMGS=" ++ quoted (textModeForm info.encoding recipient) ++ js "\r")
        (js "CMGS") (textModeForm info.encoding message)) :=
    allOps_bind (noWaiter_selectCharset _) fun _ => noWaiter_submitBody _ _ _
  unfold sendSingle
  refine allOps_bind (noWaiter_transact _) fun _ => ?_
  dsimp only
  split
  · exact allOps_bind (noWaiter_transact _) fun _ => hrest
  · exact hrest

theorem noWaiter_submitPdus (pdus : List Pdu.BuiltPdu) : AllOps NoWaiter (submitPdus pdus) := by
  induction pdus with
  | nil => trivial
  | cons p pdus ih =>
      exact allOps_bind (noWaiter_submitBody _ _ _) fun _ => allOps_bind ih fun _ => trivial

theorem noWaiter_sendMultipart (smsc recipient message : JsString) (info : MessageInfo) :
    AllOps NoWaiter (sendMultipart smsc recipient message info) := by
  refine ⟨trivial, fun ref => ?_⟩
  dsimp only [Prog.bind]
  split
  · trivial
  · refine allOps_bind (noWaiter_transact _) fun _ => allOps_andFinally ?_ ?_
    · exact allOps_bind (noWaiter_submitPdus _) fun _ => trivial
    · exact allOps_catchError (allOps_bind (noWaiter_transact _) fun _ => trivial)
        fun _ => trivial

theorem obeys_prog (smsc : JsString) (job : Job) :
    Obeys (protocol (isUssd job)) .idle (job.prog smsc) := by
  have hother {p : Prog Result} (h : AllOps NoWaiter p) : Obeys (protocol false) .idle p := by
    refine obeys_of_allOps h ?_ (fun _ => rfl) fun _ => rfl
    intro op hop
    cases op with
    | transact r =>
        refine ⟨Or.inl rfl, ?_⟩
        intro a
        cases a <;> rfl
    | waitForUrc pre timeoutMs => exact hop.elim
    | urc w => exact hop.elim
    | _ => exact ⟨rfl, fun _ => rfl⟩
  cases job with
  | runUssd code => exact obeys_runUssd code
  | initModem => exact hother (allOps_bind (allOps_initModem fun _ _ => trivial) fun _ => trivial)
  | ping => exact hother (allOps_bind (allOps_ping fun _ _ => trivial) fun _ => trivial)
  | sendSMS recipient message =>
      refine hother (allOps_bind ?_ fun _ => trivial)
      unfold sendSMS
      dsimp only
      split
      · trivial
      · split
        · trivial
        · split
          · exact noWaiter_sendSingle _ _ _ _
          · exact noWaiter_sendMultipart _ _ _ _
  | getMessages persist =>
      exact hother (allOps_bind (allOps_getMessages (fun _ _ => trivial) (fun _ => trivial) persist)
        fun _ => trivial)

/-! ## The waiter in the machine -/

/-- A registered waiter is the only one in the list, or has been resolved already. -/
def Stage.Matches (r : Running) (waiters : List Waiter)
    (settled : List (Nat × Option JsString)) : Stage → Prop
  | .registered w =>
      (∃ x, waiters = [x] ∧ x.id = w ∧ x.pre = cusd ∧ x.owner = r.id ∧
        settled.lookup w = none ∧ isUssd r.job = true) ∨
      (waiters = [] ∧ (settled.lookup w).isSome = true ∧ ∀ v k, r.phase ≠ .urc v k)
  | _ => waiters = []

def Waits (r : Running) (waiters : List Waiter) (settled : List (Nat × Option JsString)) : Prop :=
  ∃ stage : Stage, Obeys (protocol (isUssd r.job)) stage r.phase.prog ∧
    stage.Matches r waiters settled

section

variable {r r' : Running} {waiters : List Waiter} {settled : List (Nat × Option JsString)}

theorem matches_phase {stage : Stage} (h : stage.Matches r waiters settled) (hid : r'.id = r.id)
    (hjob : r'.job = r.job) (hph : ∀ v k, r'.phase ≠ .urc v k) :
    stage.Matches r' waiters settled := by
  cases stage with
  | registered w =>
      rcases h with ⟨x, hx, hw, hpre, howner, hlookup, hussd⟩ | ⟨hnil, hsome, -⟩
      · exact Or.inl ⟨x, hx, hw, hpre, by rw [hid]; exact howner, hlookup, by rw [hjob]; exact hussd⟩
      · exact Or.inr ⟨hnil, hsome, hph⟩
  | _ => exact h

/-- The same operation is awaited, and it is no reply. -/
theorem waits_await (h : Waits r waiters settled) (hid : r'.id = r.id) (hjob : r'.job = r.job)
    (hprog : r'.phase.prog = r.phase.prog) (hph : ∀ v k, r'.phase ≠ .urc v k) :
    Waits r' waiters settled := by
  obtain ⟨stage, hobeys, hmatch⟩ := h
  refine ⟨stage, ?_, matches_phase hmatch hid hjob hph⟩
  rw [hjob, hprog]
  exact hobeys

theorem waits_ok {req : Request} {k : Except JsError (List JsString) → Prog Result}
    (h : Waits r waiters settled) (hprog : r.phase.prog = .call (.transact req) k)
    (lines : List JsString) (hid : r'.id = r.id) (hjob : r'.job = r.job)
    (hph : r'.phase = .ready (k (.ok lines))) : Waits r' waiters settled := by
  obtain ⟨stage, hobeys, hmatch⟩ := h
  rw [hprog] at hobeys
  refine ⟨stage, ?_, matches_phase hmatch hid hjob (by rw [hph]; exact fun _ _ => nofun)⟩
  rw [hjob, hph]
  exact hobeys.2 (.ok lines)

/-- After an error the call is over, and nothing may wait for it. -/
theorem waits_error {req : Request} {k : Except JsError (List JsString) → Prog Result}
    {e : JsError} (h : Waits r waiters settled) (hprog : r.phase.prog = .call (.transact req) k)
    (hjob : r'.job = r.job) (hph : r'.phase = .ready (k (.error e)))
    (settled' : List (Nat × Option JsString)) : Waits r' [] settled' := by
  obtain ⟨stage, hobeys, -⟩ := h
  rw [hprog] at hobeys
  refine ⟨.idle, ?_, rfl⟩
  rw [hjob, hph]
  exact hobeys.2 (.error e)

theorem waits_settle_ok (h : Waits r waiters settled) : Waits (r.settle none) waiters settled := by
  unfold Running.settle
  split
  case h_1 c k hph => exact waits_ok h (by rw [hph]; rfl) c.lines rfl rfl rfl
  case h_2 => exact h

theorem waits_settle_error (h : Waits r waiters settled)
    (hw : r.commanding = true → waiters = []) (e : JsError) :
    Waits (r.settle (some e)) waiters settled := by
  unfold Running.settle
  split
  case h_1 c k hph =>
    rw [hw (by rw [Running.commanding, hph])]
    exact waits_error h (by rw [hph]; rfl) (by rfl) (by rfl) settled
  case h_2 => exact h

theorem waits_receive (h : Waits r waiters settled) {line : JsString}
    (hw : r.commanding = true → isErrorLine line = true → waiters = []) :
    Waits (r.receive line) waiters settled := by
  unfold Running.receive
  split
  case h_1 c k hph =>
    have hprog : r.phase.prog = .call (.transact c.request) k := by rw [hph]; rfl
    dsimp only
    split
    · split
      case isTrue herror =>
        rw [hw (by rw [Running.commanding, hph]) herror]
        exact waits_error h hprog (by rfl) (by rfl) settled
      case isFalse => exact waits_ok h hprog _ rfl rfl rfl
    · exact waits_await h rfl rfl hprog.symm fun _ _ => nofun
  case h_2 => exact h

theorem waits_abandon (h : Waits r waiters settled)
    (hw : r.commanding = true → waiters = []) (e : JsError) :
    Waits (r.abandon e) waiters settled := by
  unfold Running.abandon
  split
  case h_1 c k hph =>
    rw [hw (by rw [Running.commanding, hph]), Running.settle, hph]
    exact waits_error h (by rw [hph]; rfl) (by rfl) (by rfl) settled
  case h_2 => exact h

theorem waits_failWrite (h : Waits r waiters settled)
    (hw : r.commanding = true → waiters = []) (message : JsString) (reached : Bool) :
    Waits (r.failWrite message reached) waiters settled := by
  unfold Running.failWrite
  split
  · exact waits_abandon h hw _
  · split
    case h_1 c k hph =>
      rw [hw (by rw [Running.commanding, hph]), Running.settle, hph]
      exact waits_error h (by rw [hph]; rfl) (by rfl) (by rfl) settled
    case h_2 => exact h

theorem waits_issue {req : Request} {k : Except JsError (List JsString) → Prog Result}
    (h : Waits r waiters settled) (hprog : r.phase.prog = .call (.transact req) k)
    {connected : Bool} (hw : connected = false → waiters = []) (now : Nat) :
    Waits (r.issue connected now req k) waiters settled := by
  unfold Running.issue
  split
  · exact waits_await h rfl rfl hprog.symm fun _ _ => nofun
  case isFalse hc =>
    rw [hw (by simpa using hc)]
    exact waits_error h hprog (by rfl) (by rfl) settled

/-- The waiter in the list is that of the call; resolving it lets the call go on. -/
theorem waits_resolve {x : Waiter} (h : Waits r [x] settled) (line : Option JsString) :
    Waits (r.resolveUrc x.id line) [] ((x.id, line) :: settled) := by
  obtain ⟨stage, hobeys, hmatch⟩ := h
  cases stage with
  | idle => cases hmatch
  | replied line' => cases hmatch
  | registered w =>
      rcases hmatch with ⟨y, hy, hw, -, -, -, -⟩ | ⟨hnil, -, -⟩
      · obtain rfl : x = y := List.head_eq_of_cons_eq hy
        subst hw
        have hlookup : (((x.id, line) :: settled).lookup x.id).isSome = true := by
          simp
        unfold Running.resolveUrc
        split
        case h_1 v k hph =>
          rw [hph] at hobeys
          obtain rfl : x.id = v := Stage.registered.inj hobeys.1
          rw [if_pos rfl]
          exact ⟨.replied line, hobeys.2 line, rfl⟩
        case h_2 hph => exact ⟨.registered x.id, hobeys, Or.inr ⟨rfl, hlookup, hph⟩⟩
      · cases hnil

/-- An operation that has nothing to do with waiters is answered. -/
theorem waits_other {op : Op} {k : Ans op → Prog Result} (h : Waits r waiters settled)
    (hprog : r.phase.prog = .call op k) (hop : NoWaiter op) (hreq : ∀ req, op ≠ .transact req)
    (a : Ans op) : Waits { r with phase := .ready (k a) } waiters settled := by
  obtain ⟨stage, hobeys, hmatch⟩ := h
  rw [hprog] at hobeys
  have hidle : stage = .idle := by
    cases op with
    | transact req => exact absurd rfl (hreq req)
    | waitForUrc pre timeoutMs => exact hop.elim
    | urc w => exact hop.elim
    | _ => exact hobeys.1
  subst hidle
  have hnext : (protocol (isUssd r.job)).next .idle op a = .idle := by
    cases op with
    | transact req => exact absurd rfl (hreq req)
    | waitForUrc pre timeoutMs => exact hop.elim
    | urc w => exact hop.elim
    | _ => rfl
  have hrest := hobeys.2 a
  rw [hnext] at hrest
  exact ⟨.idle, hrest, hmatch⟩

/-- A call that has its reply returns it. -/
theorem eq_ret_of_replied {ussd : Bool} {line : Option JsString} {p : Prog Result}
    (h : Obeys (protocol ussd) (.replied line) p) : p = .ret (.reply line) := by
  cases p with
  | ret a => rw [show a = .reply line from h]
  | fail e => cases h
  | call op k =>
      cases op with
      | transact req => rcases h.1 with h | ⟨w, h⟩ <;> cases h
      | waitForUrc pre timeoutMs => cases h.1.1
      | _ => cases h.1

theorem resolveUrc_of_not_urc (hph : ∀ v k, r.phase ≠ .urc v k) (w : Nat) (line : Option JsString) :
    r.resolveUrc w line = r := by
  unfold Running.resolveUrc
  split
  case h_1 v k hv => exact absurd hv (hph v k)
  case h_2 => rfl

end

/-! ## The invariant -/

structure WaitInv (running : Option Running) (waiters : List Waiter)
    (settled : List (Nat × Option JsString)) (next : Nat) : Prop where
  free : running = none → waiters = []
  held : ∀ r, running = some r → Waits r waiters settled
  fresh : ∀ p ∈ settled, p.1 < next
  below : ∀ x ∈ waiters, x.id < next

abbrev Inv (s : State) : Prop := WaitInv s.running s.urcWaiters s.settledUrcs s.nextWaiter

section

variable {s s' : State}

theorem waiters_cases (h : Inv s) :
    s.urcWaiters = [] ∨ ∃ r x, s.running = some r ∧ s.urcWaiters = [x] ∧ x.owner = r.id ∧
      x.pre = cusd ∧ isUssd r.job = true := by
  cases hr : s.running with
  | none => exact Or.inl (h.free hr)
  | some r =>
      obtain ⟨stage, -, hmatch⟩ := h.held r hr
      cases stage with
      | registered w =>
          rcases hmatch with ⟨x, hx, -, hpre, howner, -, hussd⟩ | ⟨hnil, -, -⟩
          · exact Or.inr ⟨r, x, rfl, hx, howner, hpre, hussd⟩
          · exact Or.inl hnil
      | idle => exact Or.inl hmatch
      | replied line => exact Or.inl hmatch

/-- The waiters of two states are the same. -/
structure SameWaiters (s s' : State) : Prop where
  waiters : s'.urcWaiters = s.urcWaiters
  settled : s'.settledUrcs = s.settledUrcs
  next : s'.nextWaiter = s.nextWaiter

theorem inv_map {f : Running → Running} (h : Inv s) (hrun : s'.running = s.running.map f)
    (hsame : SameWaiters s s')
    (hf : ∀ r, s.running = some r → Waits r s.urcWaiters s.settledUrcs →
      Waits (f r) s.urcWaiters s.settledUrcs) : Inv s' := by
  rw [Inv, hrun, hsame.waiters, hsame.settled, hsame.next]
  refine ⟨fun hn => h.free (by simpa using hn), ?_, h.fresh, h.below⟩
  intro r' hr'
  obtain ⟨r, hr, rfl⟩ := Option.map_eq_some_iff.mp hr'
  exact hf r hr (h.held r hr)

theorem inv_set {r r' : Running} (h : Inv s) (hr : s.running = some r)
    (hrun : s'.running = some r') (hsame : SameWaiters s s')
    (hf : Waits r s.urcWaiters s.settledUrcs → Waits r' s.urcWaiters s.settledUrcs) : Inv s' := by
  rw [Inv, hrun, hsame.waiters, hsame.settled, hsame.next]
  refine ⟨fun hn => (Option.some_ne_none _ hn).elim, ?_, h.fresh, h.below⟩
  intro x hx
  obtain rfl := Option.some.inj hx
  exact hf (h.held r hr)

/-- The only waiter is resolved and leaves the list. -/
theorem inv_resolveWaiter {x : Waiter} (h : Inv s) (hx : s.urcWaiters = [x])
    (line : Option JsString) : Inv (resolveWaiter { s with urcWaiters := [] } x line) := by
  refine ⟨fun _ => rfl, ?_, ?_, fun _ hm => (List.not_mem_nil hm).elim⟩
  · intro r' hr'
    obtain ⟨r, hr, rfl⟩ := Option.map_eq_some_iff.mp hr'
    have hw := h.held r hr
    rw [hx] at hw
    exact waits_resolve hw line
  · intro p hp
    rcases List.mem_cons.mp hp with rfl | hp
    · exact h.below x (by rw [hx]; exact List.mem_singleton_self x)
    · exact h.fresh p hp

theorem inv_handleLine (h : Inv s) {line : JsString}
    (hw : ∀ r, s.running = some r → r.commanding = true → isErrorLine line = true →
      s.urcWaiters = []) : Inv (handleLine s line) := by
  unfold handleLine
  split
  case h_1 w hfind =>
    rcases waiters_cases h with hnil | ⟨r, x, -, hx, -, -, -⟩
    · rw [hnil] at hfind
      cases hfind
    · have htakes := List.find?_some hfind
      have hmem := List.mem_of_find?_eq_some hfind
      rw [hx] at hmem
      obtain rfl := List.mem_singleton.mp hmem
      have hrest : s.urcWaiters.eraseP (takes line) = [] := by
        rw [hx, List.eraseP_cons_of_pos htakes]
      rw [hrest]
      exact inv_resolveWaiter h hx (some line)
  case h_2 =>
    exact inv_map h rfl ⟨rfl, rfl, rfl⟩ fun r hr hwaits => waits_receive hwaits (hw r hr)

theorem inv_failCurrentCommand (h : Inv s) (e : JsError) : Inv (failCurrentCommand s e) := by
  rcases waiters_cases h with hnil | ⟨r, x, hr, hx, -, -, -⟩
  · rw [failCurrentCommand, hnil]
    exact inv_map (f := (·.abandon e)) h rfl ⟨hnil.symm, rfl, rfl⟩ fun r hr hw =>
      waits_abandon hw (fun _ => hnil) e
  · have hstate : failCurrentCommand s e =
        resolveWaiter { s.mapRunning (·.abandon e) with urcWaiters := [] } x none := by
      rw [failCurrentCommand, hx]
      rfl
    have hresolved := inv_resolveWaiter h hx none
    rw [hstate]
    cases hph : r.phase with
    | command c k =>
        refine ⟨fun _ => rfl, ?_, hresolved.fresh, hresolved.below⟩
        intro r' hr'
        have hr'' : r' = (r.abandon e).resolveUrc x.id none := by
          have hrun : (s.running.map (·.abandon e)).map (·.resolveUrc x.id none) = some r' := hr'
          rw [hr] at hrun
          exact (Option.some.inj hrun).symm
        have habandon : (r.abandon e).phase = .ready (k (.error e)) := by
          rw [Running.abandon, hph]
          simp only [Running.settle, hph]
        have hjob : (r.abandon e).job = r.job := abandon_job r e
        rw [hr'', resolveUrc_of_not_urc (by rw [habandon]; exact fun _ _ => nofun)]
        exact waits_error (h.held r hr) (by rw [hph]; rfl) hjob habandon _
    | _ =>
        have hsame : r.abandon e = r := by rw [Running.abandon, hph]
        have hrun : s.running.map (·.abandon e) = s.running := by rw [hr, Option.map_some, hsame]
        have hmap : s.mapRunning (·.abandon e) = s := by rw [State.mapRunning, hrun]
        rw [hmap]
        exact hresolved

/-! ## One step -/

theorem inv_finish {r : Running} (h : Inv s) (hnil : s.urcWaiters = [])
    (result : Except JsError Result) : Inv (finish s r result) :=
  ⟨fun _ => hnil, fun _ hr => (Option.some_ne_none _ hr.symm).elim, h.fresh, h.below⟩

theorem inv_waitForUrc {r : Running} {pre : JsString} {timeoutMs : Nat} {k : Nat → Prog Result}
    (h : Inv s) (hr : s.running = some r) (hprog : r.phase.prog = .call (.waitForUrc pre timeoutMs) k)
    (random : Nat) : Inv (advance s r (.call (.waitForUrc pre timeoutMs) k) random) := by
  obtain ⟨stage, hobeys, hmatch⟩ := h.held r hr
  rw [hprog] at hobeys
  obtain ⟨⟨rfl, hussd, rfl⟩, hrest⟩ := hobeys
  have hnil : s.urcWaiters = [] := hmatch
  refine ⟨fun hn => (Option.some_ne_none _ hn).elim, ?_, ?_, ?_⟩
  · intro x hx
    obtain rfl := Option.some.inj hx
    have hlookup : s.settledUrcs.lookup s.nextWaiter = none := by
      rw [List.lookup_eq_none_iff]
      intro p hp
      have hne : s.nextWaiter ≠ p.1 := Nat.ne_of_gt (h.fresh p hp)
      simpa using hne
    refine ⟨.registered s.nextWaiter, hrest s.nextWaiter,
      Or.inl ⟨⟨s.nextWaiter, cusd, r.id, s.now + timeoutMs⟩, ?_, rfl, rfl, rfl, hlookup, hussd⟩⟩
    show s.urcWaiters ++ _ = _
    rw [hnil, List.nil_append]
  · intro p hp
    exact Nat.lt_succ_of_lt (h.fresh p hp)
  · intro x hx
    change x ∈ s.urcWaiters ++ _ at hx
    rw [hnil, List.nil_append] at hx
    rw [List.mem_singleton.mp hx]
    exact Nat.lt_succ_self _

theorem inv_urc {r : Running} {w : Nat} {k : Option JsString → Prog Result} (h : Inv s)
    (hr : s.running = some r) (hprog : r.phase.prog = .call (.urc w) k) (random : Nat) :
    Inv (advance s r (.call (.urc w) k) random) := by
  rw [advance_urc]
  split
  case h_1 line hline =>
    refine inv_set h hr rfl ⟨rfl, rfl, rfl⟩ ?_
    rintro ⟨stage, hobeys, hmatch⟩
    rw [hprog] at hobeys
    obtain rfl : stage = .registered w := hobeys.1
    rcases hmatch with ⟨x, -, -, -, -, hnone, -⟩ | ⟨hnil, -, -⟩
    · rw [hline] at hnone
      cases hnone
    · exact ⟨.replied line, hobeys.2 line, hnil⟩
  case h_2 hnone =>
    refine inv_set h hr rfl ⟨rfl, rfl, rfl⟩ ?_
    rintro ⟨stage, hobeys, hmatch⟩
    rw [hprog] at hobeys
    obtain rfl : stage = .registered w := hobeys.1
    rcases hmatch with hfirst | ⟨-, hsome, -⟩
    · exact ⟨.registered w, hobeys, Or.inl hfirst⟩
    · rw [hnone] at hsome
      cases hsome

theorem inv_advance {r : Running} {p : Prog Result} (h : Inv s) (hr : s.running = some r)
    (hph : r.phase = .ready p) (random : Nat)
    (hw : ∀ req k, p = .call (.transact req) k → ¬ s.now < s.quietUntil → s.connected = false →
      s.urcWaiters = []) : Inv (advance s r p random) := by
  have hprog : r.phase.prog = p := by rw [hph]; rfl
  cases p with
  | ret a =>
      obtain ⟨stage, hobeys, hmatch⟩ := h.held r hr
      rw [hprog] at hobeys
      cases stage with
      | registered w => exact hobeys.elim
      | idle => exact inv_finish h hmatch _
      | replied line => exact inv_finish h hmatch _
  | fail e =>
      obtain ⟨stage, hobeys, hmatch⟩ := h.held r hr
      rw [hprog] at hobeys
      obtain rfl : stage = .idle := hobeys
      exact inv_finish h hmatch _
  | call op k =>
      cases op with
      | transact req =>
          rw [advance_transact]
          split
          · exact inv_set h hr rfl ⟨rfl, rfl, rfl⟩ fun hwaits =>
              waits_await hwaits (by rfl) (by rfl) hprog.symm fun _ _ => nofun
          case isFalse hquiet =>
            exact inv_set h hr rfl ⟨rfl, rfl, rfl⟩ fun hwaits => waits_issue hwaits hprog (hw req k rfl hquiet) s.now
      | waitForUrc pre timeoutMs => exact inv_waitForUrc h hr hprog random
      | urc w => exact inv_urc h hr hprog random
      | persist messages =>
          exact inv_set h hr rfl ⟨rfl, rfl, rfl⟩ fun hwaits =>
            waits_await hwaits (by rfl) (by rfl) hprog.symm fun _ _ => nofun
      | writeEsc =>
          exact inv_set h hr rfl ⟨rfl, rfl, rfl⟩ fun hwaits => waits_other hwaits hprog trivial (fun _ => nofun) ()
      | randomInt max =>
          exact inv_set h hr rfl ⟨rfl, rfl, rfl⟩ fun hwaits => waits_other hwaits hprog trivial (fun _ => nofun) _

/-- The step rejects a command of the call that holds the lock. -/
def rejects (s : State) (r : Running) : Event → Bool
  | .commandTimeout => r.commanding
  | .writeFailed _ _ => r.commanding
  | .scan =>
      match s.scan with
      | some (line :: _) => r.commanding && isErrorLine line
      | _ => false
  | .quietOver => !s.connected
  | .microtask _ =>
      match r.phase with
      | .ready (.call (.transact _) _) => !s.connected && s.quietUntil ≤ s.now
      | _ => false
  | _ => false

/-- No command is rejected while the waiter of its call is registered. -/
def keepsWaiter (s : State) (e : Event) : Bool :=
  match s.running with
  | some r => !(rejects s r e && s.urcWaiters.any (·.owner == r.id))
  | none => true

theorem nil_of_rejects {r : Running} {e : Event} (h : Inv s) (hkept : keepsWaiter s e = true)
    (hr : s.running = some r) (hrej : rejects s r e = true) : s.urcWaiters = [] := by
  rcases waiters_cases h with hnil | ⟨r', x, hr', hx, howner, -, -⟩
  · exact hnil
  · obtain rfl : r = r' := Option.some.inj (hr.symm.trans hr')
    rw [keepsWaiter, hr, hx] at hkept
    simp [hrej, howner] at hkept

theorem inv_runMicrotask {random : Nat} (h : Inv s)
    (hkept : keepsWaiter s (.microtask random) = true) (hs : runMicrotask s random = some s') :
    Inv s' := by
  unfold runMicrotask at hs
  split at hs
  case h_1 r hr =>
    split at hs
    case h_1 p hph =>
      obtain rfl := Option.some.inj hs
      refine inv_advance h hr hph random ?_
      rintro req k rfl hquiet hconn
      refine nil_of_rejects h hkept hr ?_
      simp only [rejects, hph, hconn, Bool.not_false, Bool.true_and, decide_eq_true_eq]
      omega
    case h_2 => cases hs
  case h_2 hr =>
    split at hs
    case h_1 => cases hs
    case h_2 id job queue hq =>
      obtain rfl := Option.some.inj hs
      refine ⟨fun hn => (Option.some_ne_none _ hn).elim, ?_, h.fresh, h.below⟩
      intro x hx
      obtain rfl := Option.some.inj hx
      exact ⟨.idle, obeys_prog s.smsc job, h.free hr⟩

theorem inv_runScan (h : Inv s) (hkept : keepsWaiter s .scan = true) (hs : runScan s = some s') :
    Inv s' := by
  unfold runScan at hs
  split at hs
  case h_1 => cases hs
  case h_2 line rest hscan =>
    obtain rfl := Option.some.inj hs
    refine inv_handleLine (s := { s with scan := some rest }) h ?_
    intro r hr hcommand herror
    refine nil_of_rejects (s := s) h hkept hr ?_
    simp only [rejects, hscan, hcommand, herror, Bool.and_self]
  case h_3 hscan =>
    split at hs
    · obtain rfl := Option.some.inj hs
      exact inv_map h rfl ⟨rfl, rfl, rfl⟩ fun r _ hw => waits_settle_ok hw
    · obtain rfl := Option.some.inj hs
      exact h

theorem inv_react {e : Event} (h : Inv s) (hkept : keepsWaiter s e = true)
    (hs : react s e = some s') : Inv s' := by
  cases e with
  | call job =>
      obtain rfl := Option.some.inj hs
      exact h
  | data text =>
      rw [react] at hs
      split at hs
      · obtain rfl := Option.some.inj hs
        exact h
      · cases hs
  | commandTimeout =>
      rw [react] at hs
      split at hs
      case h_1 r hr =>
        split at hs
        case h_1 c k hph =>
          split at hs
          · obtain rfl := Option.some.inj hs
            refine inv_map h rfl ⟨rfl, rfl, rfl⟩ fun r' hr' hw => waits_settle_error hw ?_ _
            exact fun hcommand => nil_of_rejects h hkept hr' hcommand
          · cases hs
        case h_2 => cases hs
      case h_2 => cases hs
  | waiterTimeout waiter =>
      rw [react] at hs
      split at hs
      case h_1 w hfind =>
        split at hs
        · obtain rfl := Option.some.inj hs
          rcases waiters_cases h with hnil | ⟨r, x, -, hx, -, -, -⟩
          · rw [hnil] at hfind
            cases hfind
          · have hid := List.find?_some hfind
            have hmem := List.mem_of_find?_eq_some hfind
            rw [hx] at hmem
            obtain rfl := List.mem_singleton.mp hmem
            have hrest : s.urcWaiters.filter (·.id != waiter) = [] := by
              rw [hx]
              simpa using hid
            rw [hrest]
            exact inv_resolveWaiter h hx none
        · cases hs
      case h_2 => cases hs
  | quietOver =>
      rw [react] at hs
      split at hs
      case h_1 r hr =>
        split at hs
        case h_1 deadline req k hph =>
          split at hs
          · obtain rfl := Option.some.inj hs
            refine inv_set h hr rfl ⟨rfl, rfl, rfl⟩ fun hw => waits_issue hw (by rw [hph]; rfl) ?_ s.now
            intro hconn
            exact nil_of_rejects h hkept hr (by simp [rejects, hconn])
          · cases hs
        case h_2 => cases hs
      case h_2 => cases hs
  | writeFailed message reached =>
      obtain rfl := Option.some.inj hs
      refine inv_map h rfl ⟨rfl, rfl, rfl⟩ fun r hr hw => waits_failWrite hw ?_ message reached
      exact fun hcommand => nil_of_rejects h hkept hr hcommand
  | persisted answer =>
      rw [react] at hs
      split at hs
      case h_1 r hr =>
        split at hs
        case h_1 messages k hph =>
          obtain rfl := Option.some.inj hs
          have hprog : r.phase.prog = .call (.persist messages) k := by rw [hph]; rfl
          exact inv_set h hr rfl ⟨rfl, rfl, rfl⟩ fun hw =>
            waits_other hw hprog trivial (fun _ h => Op.noConfusion h) answer
        case h_2 => cases hs
      case h_2 => cases hs
  | opened ok =>
      rw [react] at hs
      split at hs
      · split at hs
        · obtain rfl := Option.some.inj hs
          exact h
        · obtain rfl := Option.some.inj hs
          unfold scheduleReconnect
          split
          · exact h
          · exact h
      · cases hs
  | portClosed =>
      rw [react] at hs
      split at hs
      · obtain rfl := Option.some.inj hs
        have hfail : Inv (failCurrentCommand { s with connected := false } portClosedError) :=
          inv_failCurrentCommand (s := { s with connected := false }) h _
        unfold scheduleReconnect
        split
        · exact hfail
        · exact hfail
      · cases hs
  | reconnect =>
      rw [react] at hs
      split at hs
      case h_1 t ht =>
        split at hs
        · obtain rfl := Option.some.inj hs
          unfold connect
          split
          · exact h
          · exact h
        · cases hs
      case h_2 => cases hs
  | close =>
      obtain rfl := Option.some.inj hs
      exact inv_failCurrentCommand (s := { s with closing := true, reconnectTimer := none }) h _
  | tick ms =>
      obtain rfl := Option.some.inj hs
      exact h
  | scan => cases hs
  | microtask random => cases hs

theorem inv_step {e : Event} (h : Inv s) (hkept : keepsWaiter s e = true)
    (hs : step s e = some s') : Inv s' := by
  rcases step_cases hs with ⟨rfl, hscan⟩ | ⟨random, rfl, -, htask⟩ | ⟨-, -, hreact⟩
  · exact inv_runScan h hkept hscan
  · exact inv_runMicrotask h hkept htask
  · exact inv_react h hkept hreact

end

theorem inv_start (smsc : JsString) : Inv (Machine.start smsc) :=
  ⟨fun _ => rfl, fun _ h => (Option.some_ne_none _ h.symm).elim,
    fun _ h => (List.not_mem_nil h).elim, fun _ h => (List.not_mem_nil h).elim⟩

theorem inv_run {smsc : JsString} {es : List Event} {s : State}
    (h : run (Machine.start smsc) es = some s)
    (hes : Lib.Runs.allSteps step keepsWaiter (Machine.start smsc) es = true) : Inv s :=
  Lib.Runs.allSteps_induct (P := Inv) (fun _ _ _ hs hkept hstep => inv_step hs hkept hstep)
    (inv_start smsc) hes h

/-! ## The reply -/

/-- The call has returned the line, or is about to. -/
def Returns (id : Nat) (line : JsString) (s : State) : Prop :=
  (∃ r, s.running = some r ∧ r.id = id ∧ r.phase = .ready (.ret (.reply (some line)))) ∨
    ∃ f ∈ s.results, f.id = id ∧ f.result = .ok (.reply (some line))

theorem returns_handleLine {id : Nat} {line l : JsString} {s : State} {r : Running}
    (hr : s.running = some r) (hid : r.id = id)
    (hph : r.phase = .ready (.ret (.reply (some line)))) : Returns id line (handleLine s l) := by
  refine Or.inl ⟨r, ?_, hid, hph⟩
  unfold handleLine
  split
  · show s.running.map _ = some r
    rw [hr, Option.map_some, resolveUrc_of_not_urc (by rw [hph]; exact fun _ _ => nofun)]
  · show s.running.map _ = some r
    rw [hr, Option.map_some, Running.receive, hph]

/-- Nothing takes the reply away again. -/
theorem returns_step {id : Nat} {line : JsString} {s s' : State} {e : Event}
    (h : Returns id line s) (hs : step s e = some s') : Returns id line s' := by
  rcases h with ⟨r, hr, hid, hph⟩ | ⟨f, hf, hid, hres⟩
  · rcases step_cases hs with ⟨rfl, hscan⟩ | ⟨random, rfl, -, htask⟩ | ⟨-, hdue, -⟩
    · unfold runScan at hscan
      split at hscan
      · cases hscan
      · obtain rfl := Option.some.inj hscan
        exact returns_handleLine hr hid hph
      · split at hscan
        · obtain rfl := Option.some.inj hscan
          refine Or.inl ⟨r, ?_, hid, hph⟩
          show s.running.map _ = some r
          rw [hr, Option.map_some, Running.settle, hph]
        · obtain rfl := Option.some.inj hscan
          exact Or.inl ⟨r, hr, hid, hph⟩
    · simp only [runMicrotask, hr, hph] at htask
      obtain rfl := Option.some.inj htask
      exact Or.inr ⟨_, List.mem_append_right _ (List.mem_singleton_self _), hid, rfl⟩
    · rw [due, hr] at hdue
      simp [hph] at hdue
  · exact Or.inr ⟨f, results_subset hs hf, hid, hres⟩

/-- Only the call that holds the lock has a waiter, and a `+CUSD` line that arrives
while it waits is what it returns, whatever happens next. -/
structure ReplyReachesCaller (s : State) : Prop where
  owners : ∀ w ∈ s.urcWaiters, ∃ r, s.running = some r ∧ r.id = w.owner ∧ isUssd r.job = true
  delivered : ∀ r w k line rest, s.running = some r → r.phase = .urc w k →
    s.scan = some (line :: rest) → startsWith line cusd = true →
    ∃ s', step s .scan = some s' ∧
      ∀ es s'', run s' es = some s'' → Returns r.id line s''
  taken : ∀ w ∈ s.urcWaiters, ∀ line rest, s.scan = some (line :: rest) →
    startsWith line cusd = true →
    ∃ s', step s .scan = some s' ∧ s'.settledUrcs.lookup w.id = some (some line)

theorem handleLine_reply {s : State} {r : Running} {w : Nat} {k : Option JsString → Prog Result}
    {line : JsString} (h : Inv s) (hr : s.running = some r) (hph : r.phase = .urc w k)
    (hline : startsWith line cusd = true) : Returns r.id line (handleLine s line) := by
  obtain ⟨stage, hobeys, hmatch⟩ := h.held r hr
  rw [hph] at hobeys
  obtain rfl : stage = .registered w := hobeys.1
  rcases hmatch with ⟨x, hx, hid, hpre, -, -, -⟩ | ⟨-, -, hno⟩
  · have htakes : takes line x = true := by rw [takes, hpre]; exact hline
    have hrun : (handleLine s line).running = some { r with phase := .ready (k (some line)) } := by
      rw [handleLine, hx, List.find?_cons_of_pos htakes]
      show s.running.map _ = _
      rw [hr, Option.map_some, Running.resolveUrc, hph]
      simp only [hid, if_true]
    have hk : k (some line) = .ret (.reply (some line)) := eq_ret_of_replied (hobeys.2 (some line))
    refine Or.inl ⟨_, hrun, rfl, ?_⟩
    rw [hk]
  · exact absurd hph (hno w k)

/-- In every run in which no command of a `runUssd` call is rejected while the
call's waiter is registered, each reply reaches the call that waits for it. -/
theorem reply_reaches_caller {smsc : JsString} {es : List Event} {s : State}
    (h : run (Machine.start smsc) es = some s)
    (hes : Lib.Runs.allSteps step keepsWaiter (Machine.start smsc) es = true) :
    ReplyReachesCaller s := by
  have hinv := inv_run h hes
  refine ⟨?_, ?_, ?_⟩
  · intro w hw
    rcases waiters_cases hinv with hnil | ⟨r, x, hr, hx, howner, -, hussd⟩
    · rw [hnil] at hw
      cases hw
    · rw [hx] at hw
      obtain rfl := List.mem_singleton.mp hw
      exact ⟨r, hr, howner.symm, hussd⟩
  · intro r w k line rest hr hph hscan hline
    refine ⟨handleLine { s with scan := some rest } line, by rw [step, runScan, hscan], ?_⟩
    intro es s'' hrun
    refine Lib.Runs.run_induct (P := Returns r.id line) (A := fun _ => True)
      (fun _ _ _ hs _ hstep => returns_step hs hstep) ?_ (fun _ _ => trivial) hrun
    exact handleLine_reply (s := { s with scan := some rest }) hinv hr hph hline
  · intro w hw line rest hscan hline
    refine ⟨handleLine { s with scan := some rest } line, by rw [step, runScan, hscan], ?_⟩
    rcases waiters_cases hinv with hnil | ⟨r, x, -, hx, -, hpre, -⟩
    · rw [hnil] at hw
      cases hw
    · have htakes : takes line x = true := by rw [takes, hpre]; exact hline
      rw [hx] at hw
      obtain rfl := List.mem_singleton.mp hw
      simp only [handleLine, hx, List.find?_cons_of_pos htakes, resolveWaiter,
        List.lookup_cons_self]

/-! ## Two runs -/

/-- A `runUssd` call up to the answer of its command. -/
def session (answer : JsString) : List Event :=
  [.call (.runUssd (js "*0800#")), .microtask 0, .microtask 0] ++ answered (js "OK") ++
    [.microtask 0] ++ answered answer

def balance : JsString := js "+CUSD: 0,\"Balance 4.20\",15"

def oneSession : List Event :=
  boot ++ session (js "OK") ++ [.data (balance ++ js "\r\n")]

theorem oneSession_isSome : (run (Machine.start []) oneSession).isSome = true := by decide +kernel

theorem reply_reaches_caller_one :
    ReplyReachesCaller ((run (Machine.start []) oneSession).get oneSession_isSome) :=
  reply_reaches_caller (Option.some_get oneSession_isSome).symm (by decide +kernel)

/-- A session whose command is rejected, and its retry 15 seconds later. -/
def retriedSession : List Event :=
  boot ++ session (js "ERROR") ++ [.tick 15000] ++ session (js "OK") ++
    [.data (balance ++ js "\r\n")]

theorem retriedSession_isSome : (run (Machine.start []) retriedSession).isSome = true := by
  decide +kernel

/-- The waiter left over from the first session takes the line. -/
def replyTaken : List Event :=
  retriedSession ++ [.scan, .scan, .tick 20000, .waiterTimeout 1, .microtask 0]

theorem replyTaken_isSome : (run (Machine.start []) replyTaken).isSome = true := by decide +kernel

/-- The retry waits for its reply while the stale waiter is in front of its own; the
line arrives, and the retry returns null. -/
theorem retriedSession_loses_reply :
    ¬ ReplyReachesCaller ((run (Machine.start []) retriedSession).get retriedSession_isSome) ∧
      (⟨2, .runUssd (js "*0800#"), false, false, false, .ok (.reply none)⟩ : Finished) ∈
        ((run (Machine.start []) replyTaken).get replyTaken_isSome).results := by
  refine ⟨?_, by decide +kernel⟩
  intro h
  have hstale : (⟨0, cusd, 1, 20000⟩ : Waiter) ∈
      ((run (Machine.start []) retriedSession).get retriedSession_isSome).urcWaiters := by
    decide +kernel
  have hholder : ((run (Machine.start []) retriedSession).get
      retriedSession_isSome).running.map (·.id) = some 2 := by decide +kernel
  obtain ⟨r, hr, hid, -⟩ := h.owners _ hstale
  rw [hr] at hholder
  have htwo : r.id = 2 := Option.some.inj hholder
  rw [hid] at htwo
  exact absurd htwo (by decide)

end SmsGateway.Serial.Ussd
