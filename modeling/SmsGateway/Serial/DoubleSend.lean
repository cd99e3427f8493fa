import SmsGateway.Serial.Machine
import SmsGateway.Worker

/-!
# A single SMS is not submitted twice

Once the body is at the modem, an error other than an error line must reach the
worker as unconfirmed. The stage below follows a `sendSMS` call through its body;
the machine's invariant ties the stage to what has happened to the body.
-/

namespace SmsGateway.Serial.DoubleSend

open SmsGateway Serial Machine SmsEncoding Worker
open Lib.Async

/-! ## The body in the program -/

inductive Stage where
  | before
  | resolved
  | failed (e : JsError)

def Stage.next (s : Stage) : (op : Op) → Ans op → Stage
  | .transact r, a =>
      if isBody r then
        match a with
        | .ok _ => .resolved
        | .error e => .failed e
      else s
  | _, _ => s

/-- The body is the last operation, and its outcome is the outcome of the call. -/
def protocol (α : Type) : Protocol Op Ans JsError α Stage :=
  { allowed := fun s _ => s = .before
    next := Stage.next
    mayReturn := fun s _ => s = .resolved
    mayFail := fun s e =>
      match s with
      | .before => True
      | .resolved => False
      | .failed e' => e = markTimeout e' }

theorem obeys_submission (atCommand body : JsString) :
    Obeys (protocol (Option JsString)) .before (submitBody atCommand (js "CMGS") body) := by
  have hprompt (a : Ans (.transact (promptRequest atCommand (js "CMGS")))) :
      Stage.next .before (.transact (promptRequest atCommand (js "CMGS"))) a = .before := rfl
  refine obeys_submitBody rfl ?_ ?_
  · intro e
    exact ⟨rfl, fun _ => trivial⟩
  · intro lines
    refine ⟨rfl, ?_⟩
    intro a
    cases a with
    | ok lines => rfl
    | error e => rfl

theorem obeys_sendSMS {smsc recipient message : JsString}
    (hone : (analyzeMessage message).segments = 1) :
    Obeys (protocol (Option JsString)) .before (sendSMS smsc recipient message) := by
  cases hto : phoneRe recipient
  · rw [sendSMS, hto]
    trivial
  · rw [sendSMS_single hto hone]
    refine obeys_sendSingle ?_ (fun _ => trivial) (obeys_submission _ _)
    intro r _ hbody
    refine ⟨rfl, fun a => ?_⟩
    exact if_neg (by simpa [isBody] using hbody)

/-! ## The body in the machine -/

/-- What a stage says about the history of the call. -/
def Stage.Matches (r : Running) : Stage → Prop
  | .before => r.sent = r.bodyPending ∧ r.refused = false ∧ r.lost = false
  | .resolved => r.lost = false
  | .failed e =>
      (r.lost = true → r.sent = true ∧ r.refused = false ∧ (markTimeout e).confirmTimeout = false) ∧
        (r.lost = false → r.sent = true → r.refused = false → e.code = some (js "TIMEOUT"))

def Follows (r : Running) : Prop :=
  ∃ stage : Stage, Obeys (protocol Result) stage r.phase.prog ∧ stage.Matches r

section

variable {r : Running} {c : Command} {k : Except JsError (List JsString) → Prog Result}

/-- The flags of a call that awaits its body. -/
theorem matches_before {stage : Stage} (hobeys : Obeys (protocol Result) stage r.phase.prog)
    (hmatch : stage.Matches r) (hph : r.phase = .command c k) :
    stage = .before ∧ r.sent = isBody c.request ∧ r.refused = false ∧ r.lost = false := by
  rw [hph] at hobeys
  obtain rfl : stage = .before := hobeys.1
  obtain ⟨hsent, hrefused, hlost⟩ := hmatch
  refine ⟨rfl, ?_, hrefused, hlost⟩
  rw [hsent, Running.bodyPending, hph]

theorem follows_ok (hr : Follows r) (hph : r.phase = .command c k) (lines : List JsString) :
    Follows { r with phase := .ready (k (.ok lines)) } := by
  obtain ⟨stage, hobeys, hmatch⟩ := hr
  obtain ⟨rfl, hsent, hrefused, hlost⟩ := matches_before hobeys hmatch hph
  rw [hph] at hobeys
  have hnext : Obeys (protocol Result) (if isBody c.request then .resolved else .before)
      (k (.ok lines)) := hobeys.2 (.ok lines)
  by_cases hb : isBody c.request = true
  · rw [if_pos hb] at hnext
    exact ⟨.resolved, hnext, hlost⟩
  · rw [if_neg hb] at hnext
    exact ⟨.before, hnext, by simpa [Running.bodyPending, hb] using hsent, hrefused, hlost⟩

/-- An error ends a command; the flags may change if the command was the body. -/
theorem follows_error (hr : Follows r) (hph : r.phase = .command c k) {e : JsError}
    {sent refused lost : Bool}
    (hother : isBody c.request = false → sent = r.sent ∧ refused = r.refused ∧ lost = r.lost)
    (hbody : isBody c.request = true → r.sent = true → r.refused = false → r.lost = false →
      (Stage.failed e).Matches ⟨r.id, r.job, .ready (k (.error e)), sent, refused, lost⟩) :
    Follows ⟨r.id, r.job, .ready (k (.error e)), sent, refused, lost⟩ := by
  obtain ⟨stage, hobeys, hmatch⟩ := hr
  obtain ⟨rfl, hsent, hrefused, hlost⟩ := matches_before hobeys hmatch hph
  rw [hph] at hobeys
  have hnext : Obeys (protocol Result) (if isBody c.request then .failed e else .before)
      (k (.error e)) := hobeys.2 (.error e)
  cases hb : isBody c.request
  · rw [hb] at hsent
    simp only [hb, Bool.false_eq_true, if_false] at hnext
    obtain ⟨rfl, rfl, rfl⟩ := hother hb
    exact ⟨.before, hnext, hsent, hrefused, hlost⟩
  · rw [hb] at hsent
    simp only [hb, if_true] at hnext
    exact ⟨.failed e, hnext, hbody hb hsent hrefused hlost⟩

end

theorem follows_prompt {r : Running} (hr : Follows r) : Follows (r.settle none) := by
  unfold Running.settle
  split
  case h_1 c k hph => exact follows_ok hr hph c.lines
  case h_2 => exact hr

theorem follows_timeout {r : Running} (hr : Follows r) (label : JsString) :
    Follows (r.settle (some (timeoutError label))) := by
  unfold Running.settle
  split
  case h_1 c k hph =>
    exact follows_error hr hph (fun _ => ⟨rfl, rfl, rfl⟩)
      fun _ _ _ hlost => ⟨fun h => by simp [hlost] at h, fun _ _ _ => rfl⟩
  case h_2 => exact hr

theorem follows_receive {r : Running} (hr : Follows r) (line : JsString) :
    Follows (r.receive line) := by
  unfold Running.receive
  split
  case h_1 c k hph =>
    have hpushed : Follows { r with phase := .command { c with lines := c.lines ++ [line] } k } := by
      obtain ⟨stage, hobeys, hmatch⟩ := hr
      obtain ⟨rfl, hsent, hrefused, hlost⟩ := matches_before hobeys hmatch hph
      rw [hph] at hobeys
      exact ⟨.before, hobeys, hsent, hrefused, hlost⟩
    dsimp only
    split
    · split
      · refine follows_error hpushed rfl (fun hb => ⟨rfl, by simp [hb], rfl⟩) ?_
        intro hb _ _ hlost
        have hrefused : (r.refused || isBody c.request) = true := by
          rw [show isBody c.request = true from hb, Bool.or_true]
        exact ⟨fun h => (Bool.false_ne_true (hlost.symm.trans h)).elim,
          fun _ _ h => (Bool.false_ne_true (h.symm.trans hrefused)).elim⟩
      · exact follows_prompt hpushed
    · exact hpushed
  case h_2 => exact hr

theorem follows_abandon {r : Running} (hr : Follows r) {e : JsError} (hcode : e.code = none)
    (he : e.confirmTimeout = false) : Follows (r.abandon e) := by
  unfold Running.abandon
  split
  case h_1 c k hph =>
    rw [Running.settle, hph]
    refine follows_error hr hph (fun hb => ⟨rfl, rfl, by simp [hb]⟩) ?_
    intro hb hsent hrefused _
    refine ⟨fun _ => ⟨hsent, hrefused, ?_⟩, fun h => by simp [hb] at h⟩
    simp [markTimeout, hcode, he]
  case h_2 => exact hr

theorem follows_failWrite {r : Running} (hr : Follows r) (message : JsString) (reached : Bool) :
    Follows (r.failWrite message reached) := by
  unfold Running.failWrite
  split
  · exact follows_abandon hr rfl rfl
  · split
    case h_1 c k hph =>
      rw [Running.settle, hph]
      exact follows_error hr hph (fun hb => ⟨by simp [hb], rfl, rfl⟩)
        fun hb _ _ hlost => ⟨fun h => by simp [hlost] at h, fun _ h => by simp [hb] at h⟩
    case h_2 => exact hr

theorem follows_resolveUrc {r : Running} (hr : Follows r) (waiter : Nat) (line : Option JsString) :
    Follows (r.resolveUrc waiter line) := by
  unfold Running.resolveUrc
  split
  case h_1 w k hph =>
    split
    · obtain ⟨stage, hobeys, hmatch⟩ := hr
      rw [hph] at hobeys
      obtain rfl : stage = .before := hobeys.1
      rw [Stage.Matches, Running.bodyPending, hph] at hmatch
      exact ⟨.before, hobeys.2 line, hmatch⟩
    · exact hr
  case h_2 => exact hr

/-! ## The invariant -/

def Single (job : Job) : Prop :=
  ∃ recipient message, job = .sendSMS recipient message ∧ (analyzeMessage message).segments = 1

/-- With the body at the port and no error line for it, the call resolves or rejects
unconfirmed, and then the worker runs no other attempt. -/
def NoDoubleSend (f : Finished) : Prop :=
  f.sent = true → f.refused = false →
    match f.result with
    | .ok _ => True
    | .error e => e.confirmTimeout = true ∧
        ∀ finished modemId, retried finished (sendFailed modemId e) = false

theorem not_retried {e : JsError} (h : e.confirmTimeout = true) (finished : Nat)
    (modemId : JsString) : retried finished (sendFailed modemId e) = false := by
  rw [Bool.eq_false_iff]
  intro hr
  have hordinary := ((retried_sendFailed _ _ _).mp hr).2
  rw [h] at hordinary
  cases hordinary

/-- How a call may end: exactly one that lost its body's command breaks the law. -/
theorem noDoubleSend_of_follows {r : Running} {result : Except JsError Result}
    (hr : Follows r) (hbody : r.bodyPending = false)
    (hprog : r.phase.prog = match result with | .ok a => .ret a | .error e => .fail e) :
    NoDoubleSend ⟨r.id, r.job, r.sent, r.refused, r.lost, result⟩ ↔ r.lost = false := by
  obtain ⟨stage, hobeys, hmatch⟩ := hr
  rw [hprog] at hobeys
  cases result with
  | ok a =>
      obtain rfl : stage = .resolved := hobeys
      exact ⟨fun _ => hmatch, fun _ _ _ => trivial⟩
  | error e =>
      cases stage with
      | before =>
          obtain ⟨hsent, -, hlost⟩ := hmatch
          refine ⟨fun _ => hlost, fun _ hs => ?_⟩
          exact (Bool.false_ne_true ((hsent.trans hbody).symm.trans hs)).elim
      | resolved => exact hobeys.elim
      | failed e' =>
          obtain rfl : e = markTimeout e' := hobeys
          obtain ⟨hlost, hkept⟩ := hmatch
          refine ⟨fun hlaw => ?_, fun hl hs hrefused => ?_⟩
          · cases hl : r.lost
            · rfl
            · obtain ⟨hsent, hrefused, hordinary⟩ := hlost hl
              have hconfirm : (markTimeout e').confirmTimeout = true :=
                (hlaw hsent hrefused).1
              exact (Bool.false_ne_true (hordinary.symm.trans hconfirm)).elim
          · have hconfirm : (markTimeout e').confirmTimeout = true := by
              rw [markTimeout, if_pos (hkept hl hs hrefused)]
            exact ⟨hconfirm, not_retried hconfirm⟩

theorem follows_issue {r : Running} {req : Request}
    {k : Except JsError (List JsString) → Prog Result} (hr : Follows r) (connected : Bool) (now : Nat)
    (hprog : r.phase.prog = .call (.transact req) k) (hbody : r.bodyPending = false) :
    Follows (r.issue connected now req k) := by
  obtain ⟨stage, hobeys, hmatch⟩ := hr
  rw [hprog] at hobeys
  obtain rfl : stage = .before := hobeys.1
  obtain ⟨hsent, hrefused, hlost⟩ := hmatch
  rw [hbody] at hsent
  unfold Running.issue
  split
  · refine ⟨.before, hobeys, ?_, hrefused, hlost⟩
    simp [Running.bodyPending, hsent]
  · have hnext : Obeys (protocol Result) (if isBody req then .failed notConnected else .before)
        (k (.error notConnected)) := hobeys.2 (.error notConnected)
    split at hnext
    · exact ⟨_, hnext, fun h => by simp [hlost] at h, fun _ h => by simp [hsent] at h⟩
    · exact ⟨_, hnext, hsent, hrefused, hlost⟩

/-- An operation other than a command is answered. -/
theorem follows_answer {r : Running} {op : Op} {k : Ans op → Prog Result} (hr : Follows r)
    (a : Ans op) (hprog : r.phase.prog = .call op k) (hop : ∀ req, op ≠ .transact req)
    (hbody : r.bodyPending = false) : Follows { r with phase := .ready (k a) } := by
  obtain ⟨stage, hobeys, hmatch⟩ := hr
  rw [hprog] at hobeys
  obtain rfl : stage = .before := hobeys.1
  have hnext : Obeys (protocol Result) (Stage.next .before op a) (k a) := hobeys.2 a
  have hsame : Stage.next .before op a = .before := by
    cases op with
    | transact req => exact absurd rfl (hop req)
    | _ => rfl
  rw [hsame] at hnext
  exact ⟨.before, hnext, hmatch.1.trans hbody, hmatch.2⟩

/-- The phase changes, but not the operation that is awaited. -/
theorem follows_await {r : Running} (hr : Follows r) (ph : Phase)
    (hprog : ph.prog = r.phase.prog) (hbody : r.bodyPending = false)
    (hbody' : Running.bodyPending { r with phase := ph } = false) :
    Follows { r with phase := ph } := by
  obtain ⟨stage, hobeys, hmatch⟩ := hr
  refine ⟨stage, by rw [hprog]; exact hobeys, ?_⟩
  cases stage with
  | before => exact ⟨(hmatch.1.trans hbody).trans hbody'.symm, hmatch.2⟩
  | resolved => exact hmatch
  | failed e => exact hmatch

/-- A new call of `sendSMS` has not written anything. -/
theorem follows_new {job : Job} (smsc : JsString) (id : Nat) (h : Single job) :
    Follows ⟨id, job, .ready (job.prog smsc), false, false, false⟩ := by
  obtain ⟨recipient, message, rfl, hone⟩ := h
  exact ⟨.before, obeys_bind (obeys_sendSMS hone), rfl, rfl, rfl⟩

/-- The law of single SMS depends on the job, which no step changes. -/
def FollowsSingle (r : Running) : Prop := Single r.job → Follows r

theorem keeps_followsSingle :
    Keeps FollowsSingle (fun f => Single f.job → (NoDoubleSend f ↔ f.lost = false))
      (fun _ => True) :=
  { new := fun id _ smsc hs => follows_new smsc id hs
    prompt := fun hr hs => follows_prompt (hr (settle_job _ _ ▸ hs))
    timeout := fun label hr hs => follows_timeout (hr (settle_job _ _ ▸ hs)) label
    receive := fun line hr hs => follows_receive (hr (receive_job _ _ ▸ hs)) line
    resolveUrc := fun w line hr hs => follows_resolveUrc (hr (resolveUrc_job _ _ _ ▸ hs)) w line
    abandon := fun hcode he _ hr hs => follows_abandon (hr (abandon_job _ _ ▸ hs)) hcode he
    failWrite := fun message hr hs =>
      follows_failWrite (hr (failWrite_job _ _ _ ▸ hs)) message false
    issue := fun connected now hprog hbody hr hs =>
      follows_issue (hr (issue_job _ _ _ _ _ ▸ hs)) connected now hprog hbody
    answer := fun a hprog hop hbody hr hs => follows_answer (hr hs) a hprog hop hbody
    await := fun ph hprog hbody hbody' hr hs => follows_await (hr hs) ph hprog hbody hbody'
    finish := fun _ hprog hbody hr hs => noDoubleSend_of_follows (hr hs) hbody hprog }

/-- In every run a single SMS is kept from a second submission exactly when its
body did not lose its command. -/
theorem noDoubleSend_iff_follows {smsc : JsString} {es : List Event} {s : State}
    (h : run (Machine.start smsc) es = some s) :
    ∀ f ∈ s.results, Single f.job → (NoDoubleSend f ↔ f.lost = false) :=
  (Lib.Runs.run_induct (P := CallInv FollowsSingle _ []) (A := fun _ => True)
    (fun _ _ _ hs _ hstep => callInv_step keeps_followsSingle hs (fun _ _ _ => trivial) hstep)
    (callInv_start smsc) (fun _ _ => trivial) h).results

theorem settle_lost (r : Running) (err : Option JsError) : (r.settle err).lost = r.lost := by
  unfold Running.settle
  split <;> rfl

/-- Only an abandoned body is lost. -/
theorem keeps_notLost :
    Keeps (fun r => r.lost = false) (fun f => f.lost = false) (fun r => r.bodyPending = false) :=
  { new := fun _ _ _ => rfl
    prompt := fun hr => (settle_lost _ _).trans hr
    timeout := fun _ hr => (settle_lost _ _).trans hr
    receive := by
      intro r line hr
      unfold Running.receive
      split
      · dsimp only
        split
        · split
          · exact (settle_lost _ _).trans hr
          · exact (settle_lost _ _).trans hr
        · exact hr
      · exact hr
    resolveUrc := by
      intro r w line hr
      unfold Running.resolveUrc
      split
      · split <;> exact hr
      · exact hr
    abandon := by
      intro r e _ _ hbody hr
      unfold Running.abandon
      split
      case h_1 c k hph =>
        rw [Running.bodyPending, hph] at hbody
        simpa [hr] using hbody
      case h_2 => exact hr
    failWrite := by
      intro r message hr
      simp only [Running.failWrite, Bool.false_eq_true, if_false]
      split
      · exact (settle_lost _ _).trans hr
      · exact hr
    issue := by
      intro r req k connected now _ _ hr
      unfold Running.issue
      split <;> exact hr
    answer := fun _ _ _ _ hr => hr
    await := fun _ _ _ _ hr => hr
    finish := fun _ _ _ hr => hr }

/-- No port close, `close()` or write error comes while a body awaits its answer. -/
def undisturbed (s : State) (e : Event) : Bool :=
  match s.running with
  | some r => !(e.abandons && r.bodyPending)
  | none => true

theorem notLost_run {smsc : JsString} {es : List Event} {s : State}
    (h : run (Machine.start smsc) es = some s)
    (hes : Lib.Runs.allSteps step undisturbed (Machine.start smsc) es = true) :
    ∀ f ∈ s.results, f.lost = false := by
  refine (Lib.Runs.allSteps_induct (P := CallInv (fun r => r.lost = false) (fun f => f.lost = false) [])
    ?_ (callInv_start smsc) hes h).results
  intro s e s' hs hkept hstep
  refine callInv_step keeps_notLost hs ?_ hstep
  intro he r hr
  rw [undisturbed, hr] at hkept
  simpa [he] using hkept

/-- In every run that leaves bodies undisturbed no single SMS can be submitted twice;
a call that loses its body's command always rejects as if nothing had been sent. -/
theorem single_not_sent_twice {smsc : JsString} {es : List Event} {s : State}
    (h : run (Machine.start smsc) es = some s) :
    (Lib.Runs.allSteps step undisturbed (Machine.start smsc) es = true →
      ∀ f ∈ s.results, Single f.job → NoDoubleSend f) ∧
    (∀ f ∈ s.results, Single f.job → f.lost = true → ¬ NoDoubleSend f) := by
  have hiff := noDoubleSend_iff_follows h
  refine ⟨?_, ?_⟩
  · intro hes f hf hs
    exact (hiff f hf hs).mpr (notLost_run h hes f hf)
  · intro f hf hs hlost hlaw
    have hkept := (hiff f hf hs).mp hlaw
    rw [hlost] at hkept
    cases hkept

/-! ## Two runs -/

/-- A single SMS up to its body at the prompt. -/
def untilBody : List Event :=
  boot ++ [.call (.sendSMS (js "+99361234567") (js "Hi")), .microtask 0, .microtask 0] ++
    answered (js "OK") ++ answered (js "OK") ++ answered (js "OK") ++
    [.data (js "> "), .scan, .microtask 0]

/-- The network takes longer than the body's timer. -/
def silentModem : List Event := untilBody ++ [.tick 30000, .commandTimeout, .microtask 0]

theorem silentModem_isSome : (run (Machine.start []) silentModem).isSome = true := by
  decide +kernel

theorem single_not_sent_twice_silent :
    let f : Finished := ⟨1, .sendSMS (js "+99361234567") (js "Hi"), true, false, false,
      .error (markTimeout (timeoutError (js "CMGS body")))⟩
    f ∈ ((run (Machine.start []) silentModem).get silentModem_isSome).results ∧ NoDoubleSend f := by
  refine ⟨by decide +kernel, ?_⟩
  exact (single_not_sent_twice (Option.some_get silentModem_isSome).symm).1 (by decide +kernel) _
    (by decide +kernel) ⟨_, _, rfl, by decide +kernel⟩

/-- The stick is unplugged while the body awaits its answer. -/
def unplugged : List Event := untilBody ++ [.portClosed, .microtask 0]

theorem unplugged_isSome : (run (Machine.start []) unplugged).isSome = true := by decide +kernel

/-- The body is out, no error line has come, and the worker sends the message again. -/
theorem unplugged_sent_twice :
    let f : Finished := ⟨1, .sendSMS (js "+99361234567") (js "Hi"), true, false, true,
      .error portClosedError⟩
    f ∈ ((run (Machine.start []) unplugged).get unplugged_isSome).results ∧ Single f.job ∧
      ¬ NoDoubleSend f ∧ retried 1 (sendFailed (js "serial") portClosedError) = true := by
  refine ⟨by decide +kernel, ⟨_, _, rfl, by decide +kernel⟩, ?_, by decide⟩
  intro hlaw
  exact absurd (hlaw rfl rfl).1 (by decide)

end SmsGateway.Serial.DoubleSend
