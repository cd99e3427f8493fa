import SmsGateway.Worker
import SmsGateway.Zte.Driver

/-!
# Submissions through the ZTE HTTP driver

A `SEND_SMS` that the stick accepted is outstanding until the stick reports that
the send failed. The statements follow this one bit through a call and through
the attempts of a job.
-/

namespace SmsGateway.Zte.Send

open SmsGateway SmsEncoding Json Worker
open Lib.Async

/-! ## What a run has learnt -/

/-- The write is a `SEND_SMS`. -/
def submits : Op → Bool
  | .http (.post params) => goformId params == js "SEND_SMS"
  | _ => false

structure Stage where
  /-- accepted, and not reported as failed since -/
  outstanding : Bool
  /-- an answer to a status request that could not be read -/
  lost : Bool
  deriving DecidableEq, Repr

def initial : Stage := ⟨false, false⟩

/-- The JSON of an answer has the result `success`. -/
def accepted (a : Except NetError HttpResponse) : Bool :=
  match readResponse a >>= isSuccess with
  | .ok b => b
  | .error _ => false

/-- The status in the answer to a status request. -/
def readStatus (a : Except NetError HttpResponse) : Except JsError JsValue :=
  readResponse a >>= statusOf

def Stage.next (s : Stage) : (op : Op) → Ans op → Stage
  | .http (.post params), a =>
      if goformId params == js "SEND_SMS" then { s with outstanding := s.outstanding || accepted a }
      else s
  | .http (.get cmds extra), a =>
      if HttpRequest.get cmds extra = statusRequest then
        match readStatus a with
        | .ok status =>
            if isStr status (js "2") then { s with outstanding := false } else s
        | .error _ => { s with lost := true }
      else s
  | _, _ => s

/-- Nothing is submitted while a submission is outstanding, and no answer about one
is lost but in a run that fails as if nothing had been submitted. -/
def protocol : Protocol Op Ans JsError JsString Stage :=
  { allowed := fun s op => submits op = true → s.outstanding = false
    next := Stage.next
    mayReturn := fun s _ => s.lost = false
    mayFail := fun s e =>
      (s.lost = true → s.outstanding = true ∧ e.confirmTimeout = false) ∧
        (s.lost = false → s.outstanding = true → e.confirmTimeout = true) }

/-! ## One call -/

theorem readResponse_confirmTimeout {a : Except NetError HttpResponse} {e : JsError}
    (h : readResponse a = .error e) : e.confirmTimeout = false := by
  unfold readResponse at h
  split at h
  · obtain rfl := Except.error.inj h
    rfl
  · split at h
    · obtain rfl := Except.error.inj h
      rfl
    · split at h
      · cases h
      · obtain rfl := Except.error.inj h
        rfl

theorem prop_confirmTimeout {v : JsValue} {key : JsString} {e : JsError}
    (h : prop v key = .error e) : e.confirmTimeout = false := by
  unfold prop at h
  split at h
  · obtain rfl := Except.error.inj h
    rfl
  · obtain rfl := Except.error.inj h
    rfl
  · cases h
  · cases h

theorem statusOf_confirmTimeout {st : JsValue} {e : JsError} (h : statusOf st = .error e) :
    e.confirmTimeout = false := by
  unfold statusOf at h
  cases hresult : prop st (js "sms_cmd_status_result") with
  | error e' =>
      rw [hresult] at h
      obtain rfl := Except.error.inj h
      exact prop_confirmTimeout hresult
  | ok result =>
      rw [hresult] at h
      cases hinfo : prop st (js "sms_cmd_status_info") with
      | error e' =>
          rw [hinfo] at h
          obtain rfl := Except.error.inj h
          exact prop_confirmTimeout hinfo
      | ok info =>
          rw [hinfo] at h
          cases h

theorem readStatus_confirmTimeout {a : Except NetError HttpResponse} {e : JsError}
    (h : readStatus a = .error e) : e.confirmTimeout = false := by
  unfold readStatus at h
  cases hread : readResponse a with
  | error e' =>
      rw [hread] at h
      obtain rfl := Except.error.inj h
      exact readResponse_confirmTimeout hread
  | ok st =>
      rw [hread] at h
      exact statusOf_confirmTimeout h

/-- Before an acceptance a call may fail with any error. -/
theorem mayFail_initial (e : JsError) : protocol.mayFail initial e :=
  ⟨fun h => (Bool.false_ne_true h).elim, fun _ h => (Bool.false_ne_true h).elim⟩

/-- A write that is no submission, as far as the stage is concerned. -/
theorem obeys_postCmd {params : List (JsString × JsString)} {f : JsValue → Prog JsString}
    (hparams : goformId params ≠ js "SEND_SMS") (hf : ∀ v, Obeys protocol initial (f v)) :
    Obeys protocol initial (postCmd params >>= f) := by
  have hnext (a : Ans (.http (.post params))) :
      protocol.next initial (.http (.post params)) a = initial :=
    if_neg (by simpa using hparams)
  refine ⟨fun _ => rfl, ?_⟩
  intro a
  rw [hnext]
  show Obeys protocol initial (Prog.ofExcept (readResponse a) >>= f)
  cases readResponse a with
  | ok v => exact hf v
  | error e => exact mayFail_initial e

theorem obeys_login {stick : Stick} {password : JsString} {f : Unit → Prog JsString}
    (hf : Obeys protocol initial (f ())) :
    Obeys protocol initial (login stick password >>= f) := by
  unfold login
  simp only [bind_assoc]
  have hparams : goformId (loginParams password) ≠ js "SEND_SMS" := by
    show js "LOGIN" ≠ js "SEND_SMS"
    decide
  refine obeys_postCmd hparams ?_
  intro json
  cases loginResult json with
  | error e => exact mayFail_initial e
  | ok result =>
      show Obeys protocol initial
        ((if result ≠ js "0" ∧ result ≠ js "4" then Prog.fail (loginFailed stick json)
          else perform (.setLoggedIn true)) >>= f)
      split
      · exact mayFail_initial _
      · exact ⟨fun h => (Bool.false_ne_true h).elim, fun _ => hf⟩

/-- The submission itself: what follows starts after an acceptance or as before. -/
theorem obeys_submission {params : List (JsString × JsString)} {f : JsValue → Prog JsString}
    (hparams : goformId params = js "SEND_SMS")
    (hyes : ∀ v, isSuccess v = .ok true → Obeys protocol ⟨true, false⟩ (f v))
    (hno : ∀ v, isSuccess v ≠ .ok true → Obeys protocol initial (f v)) :
    Obeys protocol initial (postCmd params >>= f) := by
  have hnext (a : Ans (.http (.post params))) :
      protocol.next initial (.http (.post params)) a = ⟨accepted a, false⟩ :=
    if_pos (by simpa using hparams)
  refine ⟨fun _ => rfl, ?_⟩
  intro a
  rw [hnext]
  show Obeys protocol ⟨accepted a, false⟩ (Prog.ofExcept (readResponse a) >>= f)
  unfold accepted
  cases readResponse a with
  | error e => exact mayFail_initial e
  | ok v =>
      have hyes := hyes v
      have hno := hno v
      show Obeys protocol ⟨match isSuccess v with | .ok b => b | .error _ => false, false⟩ (f v)
      cases hs : isSuccess v with
      | error e => exact hno (by simp [hs])
      | ok b =>
          cases b
          · exact hno (by simp [hs])
          · exact hyes hs

theorem obeys_acceptOrReject {params : List (JsString × JsString)} {f : JsValue → Prog JsString}
    {v : JsValue} (h : isSuccess v ≠ .ok true) :
    Obeys protocol initial (acceptOrReject params v >>= f) := by
  unfold acceptOrReject
  cases hs : isSuccess v with
  | error e => exact mayFail_initial e
  | ok b =>
      cases b
      · exact mayFail_initial _
      · exact absurd hs h

theorem acceptOrReject_success {params : List (JsString × JsString)} {v : JsValue}
    (h : isSuccess v = .ok true) : acceptOrReject params v = .ret v := by
  rw [acceptOrReject, h]
  rfl

/-- The write that ends a `setCmd` resolves only after an acceptance. -/
theorem obeys_lastWrite {params : List (JsString × JsString)} {f : JsValue → Prog JsString}
    (hparams : goformId params = js "SEND_SMS")
    (hf : ∀ v, Obeys protocol ⟨true, false⟩ (f v)) :
    Obeys protocol initial (postCmd params >>= fun json => acceptOrReject params json >>= f) := by
  refine obeys_submission hparams ?_ ?_
  · intro v hv
    rw [acceptOrReject_success hv]
    exact hf v
  · intro v hv
    exact obeys_acceptOrReject hv

theorem obeys_writeAuthed {stick : Stick} {password : JsString}
    {params : List (JsString × JsString)} {f : JsValue → Prog JsString}
    (hparams : goformId params = js "SEND_SMS")
    (hf : ∀ v, Obeys protocol ⟨true, false⟩ (f v)) :
    Obeys protocol initial (writeAuthed stick password params >>= f) := by
  unfold writeAuthed
  rw [bind_assoc]
  refine obeys_submission hparams ?_ ?_
  · intro v hv
    rw [hv]
    exact hf v
  · intro v hv
    cases hs : isSuccess v with
    | error e => exact mayFail_initial e
    | ok b =>
        cases b
        · refine ⟨fun h => (Bool.false_ne_true h).elim, fun _ => ?_⟩
          show Obeys protocol initial
            ((login stick password >>= fun _ => postCmd params >>= acceptOrReject params) >>= f)
          rw [bind_assoc]
          refine obeys_login ?_
          rw [bind_assoc]
          exact obeys_lastWrite hparams hf
        · exact absurd hs hv

/-- `setCmd` of a submission resolves only after an acceptance. -/
theorem obeys_setCmd {stick : Stick} {params : List (JsString × JsString)}
    {f : JsValue → Prog JsString} (hparams : goformId params = js "SEND_SMS")
    (hf : ∀ v, Obeys protocol ⟨true, false⟩ (f v)) :
    Obeys protocol initial (setCmd stick params >>= f) := by
  unfold setCmd
  cases stick.password with
  | none =>
      rw [bind_assoc]
      exact obeys_lastWrite hparams hf
  | some password =>
      have hwrite := @obeys_writeAuthed stick password _ _ hparams hf
      refine ⟨fun h => (Bool.false_ne_true h).elim, ?_⟩
      intro loggedIn
      cases loggedIn
      · show Obeys protocol initial
          ((login stick password >>= fun _ => writeAuthed stick password params) >>= f)
        rw [bind_assoc]
        exact obeys_login hwrite
      · exact hwrite

/-- A status request while a submission is outstanding. -/
theorem obeys_status {f : JsValue → Prog JsString}
    (hfailed : ∀ result, isStr result (js "2") = true → Obeys protocol initial (f result))
    (hother : ∀ result, isStr result (js "2") = false → Obeys protocol ⟨true, false⟩ (f result)) :
    Obeys protocol ⟨true, false⟩
      (request statusRequest >>= fun st => Prog.ofExcept (statusOf st) >>= f) := by
  refine ⟨fun h => (Bool.false_ne_true h).elim, ?_⟩
  intro a
  have hbind : (Prog.ofExcept (readResponse a) >>= fun st => Prog.ofExcept (statusOf st) >>= f) =
      (Prog.ofExcept (readStatus a) >>= f) := Prog.ofExcept_bind _ _ _
  show Obeys protocol
    (match readStatus a with
      | .ok status => if isStr status (js "2") then ⟨false, false⟩ else ⟨true, false⟩
      | .error _ => ⟨true, true⟩)
    (Prog.ofExcept (readResponse a) >>= fun st => Prog.ofExcept (statusOf st) >>= f)
  rw [hbind]
  cases hs : readStatus a with
  | error e => exact ⟨fun _ => ⟨rfl, readStatus_confirmTimeout hs⟩, fun h => by cases h⟩
  | ok result =>
      cases h2 : isStr result (js "2")
      · simp only [h2, Bool.false_eq_true, if_false]
        exact hother result h2
      · simp only [h2, if_true]
        exact hfailed result h2

/-- While a submission is outstanding only the deadline ends the loop without an answer. -/
theorem obeys_pollStatus (deadline t : Nat) :
    Obeys protocol ⟨true, false⟩ (pollStatus deadline t) := by
  induction t using pollStatus.induct deadline with
  | case1 t ht ih =>
      rw [pollStatus, if_pos ht]
      refine ⟨fun h => (Bool.false_ne_true h).elim, fun _ => ?_⟩
      refine obeys_status ?_ ?_
      · intro result h2
        rw [if_neg (by simp [isStr_ne h2 (t := js "3") (by decide)]), if_pos h2]
        exact mayFail_initial _
      · intro result h2
        rw [h2]
        split
        · rfl
        · exact ⟨fun h => (Bool.false_ne_true h).elim, fun extra => ih extra⟩
  | case2 t ht =>
      rw [pollStatus, if_neg ht]
      exact ⟨fun h => (Bool.false_ne_true h).elim, fun _ _ => rfl⟩

theorem obeys_sendSMS (stick : Stick) (recipient message : JsString) :
    Obeys protocol initial (sendSMS stick recipient message) := by
  unfold sendSMS
  dsimp only
  split
  · exact mayFail_initial _
  · split
    · exact mayFail_initial _
    · refine ⟨fun h => (Bool.false_ne_true h).elim, ?_⟩
      intro d
      exact obeys_setCmd rfl fun _ => obeys_pollStatus _ _

/-! ## A job

An attempt calls `sendSMS` of some stick, and the worker decides from the error it
rejects with whether another attempt follows. -/

structure Attempt where
  trace : List (Done Op Ans)
  result : Except JsError JsString

def attempt (stick : Stick) (recipient message : JsString) (o : Oracle Op Ans) : Attempt :=
  let call := sendSMS stick recipient message
  ⟨trace o 0 call, result o 0 call⟩

/-- The attempts of a job from the one with number `finished` on, each with its own
stick and its own answers. -/
def attemptsFrom (recipient message : JsString) (sticks : Nat → Stick)
    (oracles : Nat → Oracle Op Ans) (finished : Nat) : List Attempt :=
  let a := attempt (sticks finished) recipient message (oracles finished)
  match a.result with
  | .ok _ => [a]
  | .error e =>
      if retried (finished + 1) (sendFailed (sticks finished).id e) then
        a :: attemptsFrom recipient message sticks oracles (finished + 1)
      else [a]
termination_by attempts - finished
decreasing_by
  have hlt : finished + 1 < attempts := ((retried_sendFailed _ _ _).mp ‹_›).1
  omega

def Attempt.last (a : Attempt) : Stage := protocol.after initial a.trace

/-- Once the submission is accepted the call resolves, or rejects because the stick
reported the failure, or rejects unconfirmed. -/
def Attempt.Accounted (a : Attempt) : Prop :=
  match a.result with
  | .ok _ => True
  | .error e => a.last.outstanding = true → e.confirmTimeout = true

/-- Every attempt is accounted for, and over all attempts nothing is submitted while
a submission is outstanding. -/
structure NoDoubleSend (as : List Attempt) : Prop where
  accounted : ∀ a ∈ as, a.Accounted
  once : protocol.Follows initial (as.flatMap (·.trace))

theorem accounted_iff (stick : Stick) (recipient message : JsString) (o : Oracle Op Ans) :
    (attempt stick recipient message o).Accounted ↔
      (attempt stick recipient message o).last.lost = false := by
  have hresult := obeys_result (obeys_sendSMS stick recipient message) o 0
  unfold Attempt.Accounted
  have hr : (attempt stick recipient message o).result =
      result o 0 (sendSMS stick recipient message) := rfl
  rw [hr]
  cases he : result o 0 (sendSMS stick recipient message) with
  | ok reference =>
      rw [he] at hresult
      exact ⟨fun _ => hresult, fun _ => trivial⟩
  | error e =>
      rw [he] at hresult
      obtain ⟨hlost, hkept⟩ := hresult
      cases hl : (attempt stick recipient message o).last.lost
      · exact ⟨fun _ => rfl, fun _ => hkept hl⟩
      · refine ⟨fun h => ?_, fun h => by cases h⟩
        obtain ⟨hout, hordinary⟩ := hlost hl
        rw [h hout] at hordinary
        cases hordinary

/-- An attempt that is retried without having lost an answer leaves nothing behind. -/
theorem last_of_retried {stick : Stick} {recipient message : JsString} {o : Oracle Op Ans}
    {e : JsError} {finished : Nat}
    (hresult : (attempt stick recipient message o).result = .error e)
    (hretried : retried finished (sendFailed stick.id e) = true)
    (hlost : (attempt stick recipient message o).last.lost = false) :
    (attempt stick recipient message o).last = initial := by
  have hends := obeys_result (obeys_sendSMS stick recipient message) o 0
  change result o 0 (sendSMS stick recipient message) = .error e at hresult
  rw [hresult] at hends
  have hordinary := ((retried_sendFailed _ _ _).mp hretried).2
  have hout : (attempt stick recipient message o).last.outstanding = false := by
    cases h : (attempt stick recipient message o).last.outstanding
    · rfl
    · have hconfirm : e.confirmTimeout = true := hends.2 hlost h
      rw [hordinary] at hconfirm
      cases hconfirm
  generalize (attempt stick recipient message o).last = s at hlost hout
  obtain ⟨outstanding, lost⟩ := s
  simp only at hlost hout
  rw [hlost, hout]
  rfl

theorem follows_attemptsFrom (recipient message : JsString) (sticks : Nat → Stick)
    (oracles : Nat → Oracle Op Ans) (finished : Nat)
    (hlost : ∀ a ∈ attemptsFrom recipient message sticks oracles finished, a.last.lost = false) :
    protocol.Follows initial
      ((attemptsFrom recipient message sticks oracles finished).flatMap (·.trace)) := by
  have hfirst (finished : Nat) : protocol.Follows initial
      (attempt (sticks finished) recipient message (oracles finished)).trace :=
    obeys_follows (obeys_sendSMS (sticks finished) recipient message) (oracles finished) 0
  induction finished using attemptsFrom.induct recipient message sticks oracles with
  | case1 finished a reference hr =>
      rw [attemptsFrom, hr]
      simpa using hfirst finished
  | case2 finished a e hr hretried ih =>
      rw [attemptsFrom, hr] at hlost ⊢
      simp only [hretried, if_true, List.mem_cons, forall_eq_or_imp] at hlost ⊢
      rw [List.flatMap_cons, follows_append]
      refine ⟨hfirst finished, ?_⟩
      have hlast := last_of_retried hr hretried hlost.1
      rw [show protocol.after initial _ = initial from hlast]
      exact ih hlost.2
  | case3 finished a e hr hretried =>
      rw [attemptsFrom, hr]
      simpa [hretried] using hfirst finished

theorem mem_attemptsFrom {recipient message : JsString} {sticks : Nat → Stick}
    {oracles : Nat → Oracle Op Ans} {finished : Nat} :
    ∀ a ∈ attemptsFrom recipient message sticks oracles finished,
      ∃ stick o, a = attempt stick recipient message o := by
  induction finished using attemptsFrom.induct recipient message sticks oracles with
  | case1 finished a reference hr =>
      rw [attemptsFrom, hr]
      simpa using ⟨_, _, rfl⟩
  | case2 finished a e hr hretried ih =>
      rw [attemptsFrom, hr]
      simp only [hretried, if_true, List.mem_cons, forall_eq_or_imp]
      exact ⟨⟨_, _, rfl⟩, ih⟩
  | case3 finished a e hr hretried =>
      rw [attemptsFrom, hr]
      simpa [hretried] using ⟨_, _, rfl⟩

/-- A job submits nothing twice and accounts for every attempt exactly when no answer
about an accepted submission is lost. -/
theorem noDoubleSend_iff (recipient message : JsString) (sticks : Nat → Stick)
    (oracles : Nat → Oracle Op Ans) :
    NoDoubleSend (attemptsFrom recipient message sticks oracles 0) ↔
      ∀ a ∈ attemptsFrom recipient message sticks oracles 0, a.last.lost = false := by
  constructor
  · intro h a ha
    obtain ⟨stick, o, rfl⟩ := mem_attemptsFrom a ha
    exact (accounted_iff stick recipient message o).mp (h.accounted _ ha)
  · intro hlost
    refine ⟨?_, follows_attemptsFrom recipient message sticks oracles 0 hlost⟩
    intro a ha
    have hl := hlost a ha
    obtain ⟨stick, o, rfl⟩ := mem_attemptsFrom a ha
    exact (accounted_iff stick recipient message o).mpr hl

instance (s : Stage) (op : Op) : Decidable (protocol.allowed s op) :=
  inferInstanceAs (Decidable (submits op = true → s.outstanding = false))

/-- A stick that accepts every write and never answers a status request. -/
def silentStatus : Oracle Op Ans := fun _ op =>
  match op with
  | .http (.post _) => .ok ⟨200, js "\x7b\"result\":\"success\"\x7d"⟩
  | .http (.get _ _) => .error ⟨js "Modem HTTP request timed out", none⟩
  | .isLoggedIn => true
  | .setLoggedIn _ => ()
  | .now => ⟨2026, 0, 15, 12, 30, 0, -300⟩
  | .sleep _ => ()
  | .elapsed => 0
  | .persist _ => .ok ()

/-- When every status request times out, one message is accepted three times. -/
theorem silentStatus_submits_thrice :
    let job := attemptsFrom (js "+99361234567") (js "Hi")
      (fun _ => createZteModem ⟨none, .goform, none⟩) (fun _ => silentStatus) 0
    ((job.flatMap (·.trace)).countP fun d => submits d.op) = 3 ∧ ¬ NoDoubleSend job := by
  refine ⟨by decide +kernel, ?_⟩
  intro h
  exact absurd h.once (by decide +kernel)

end SmsGateway.Zte.Send
