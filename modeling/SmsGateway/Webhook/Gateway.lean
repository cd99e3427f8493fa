import SmsGateway.SendQueue
import SmsGateway.Webhook

/-!
# The gateway with its callbacks

The send queue, the callback queue and the callback worker as one system. Each of the three
sites that write a status hands the entry `updateLog` has returned to `enqueueWebhook` before
anything else can run. A restart brings a pool and an environment of its own; rows, send jobs
and callback jobs outlive it.
-/

namespace SmsGateway.Webhook.Gateway

open SmsGateway LogStore Pool Worker Webhook
open Lib

/-- A callback job that has not been settled. -/
structure Waiting where
  job : Job
  attemptsMade : Nat
  deriving DecidableEq

/-- A status write: the row right after it, the modem whose `sendSMS` the attempt has called,
and the callback it has led to. -/
structure Entry where
  row : Row
  used : Option JsString
  callback : Option Job
  deriving DecidableEq

/-- A request of the callback worker, with the allowlist in force. -/
structure Request where
  url : Url
  allowedHosts : List JsString
  deriving DecidableEq

structure State where
  config : Config
  queue : SendQueue.State
  /-- for each send, the modem whose `sendSMS` its attempt has called -/
  called : List (Option JsString)
  history : List Entry
  /-- the jobs that `webhookQueue.add` was given -/
  enqueued : List Job
  waiting : List Waiting
  requests : List Request

def start (config : Config) (pool : ModemPool) : State :=
  ⟨config, SendQueue.start pool, [], [], [], [], []⟩

inductive Event where
  /-- a step of the send queue; a callback it enqueues occurs at this time -/
  | send (e : SendQueue.Event) (occurredAt : JsString)
  | restart (config : Config) (pool : ModemPool)
  /-- The callback worker takes a job; the hosts it contacts answer in turn. The request and what
  becomes of the job are one step: no restart comes between them. -/
  | deliver (k : Nat) (answers : List Answer)

/-! ## Status writes -/

/-- The send a step is about, and the patch it writes. -/
def patchOf (q : SendQueue.State) (e : SendQueue.Event) : Option (SendQueue.Send × Patch) :=
  match e.send with
  | none => none
  | some i =>
      match q.sends[i]? with
      | none => none
      | some x =>
          match x.step (SendQueue.choice q x e).1 e with
          | some (_, some patch) => some (x, patch)
          | _ => none

/-- `job.attemptsMade` where the callback is enqueued; the route has no job. -/
def attemptOf (x : SendQueue.Send) : SendQueue.Event → Option Nat
  | .resolved _ _ _ => some x.attemptsMade
  | .failed _ => some (x.attemptsMade + 1)
  | _ => none

/-- The modem whose `sendSMS` the attempt of a step has called. -/
def usedBy (s : State) (e : SendQueue.Event) : Option JsString :=
  match e.send with
  | some i => s.called.getD i none
  | none => none

section

variable (newURL : JsString → Option Url)

/-- The entry that `updateLog` returns to a site, and the callback the site enqueues. -/
def callbackOf (config : Config) (rows : List Row) (id : JsString) (patch : Patch)
    (attempt : Option Nat) (occurredAt : JsString) : Option Job :=
  match (updateLog rows id patch).1 with
  | .ok entry => enqueueWebhook newURL config entry attempt occurredAt
  | .error _ => none

/-- What a step writes: the route's row, or the row of a patch. -/
def entryOf (s : State) (e : SendQueue.Event) (occurredAt : JsString) : Option Entry :=
  match e with
  | .post entry modem => some ⟨SendQueue.logEntry entry modem, none, none⟩
  | e =>
      match patchOf s.queue e with
      | some (x, patch) =>
          (getLog (updateLog s.queue.rows x.logId patch).2 x.logId).map fun row =>
            ⟨row, usedBy s e,
              callbackOf newURL s.config s.queue.rows x.logId patch (attemptOf x e) occurredAt⟩
      | none => none

/-- The route takes only a callback URL that its process allows. -/
def valid (config : Config) : SendQueue.Event → Bool
  | .post entry _ => entry.callbackUrl.all fun url => isAllowedUrl newURL url config.allowedHosts
  | .restart _ => false
  | _ => true

/-- An attempt has called its modem, has ended, or has not changed in this. -/
def calledAfter (s : State) (e : SendQueue.Event) : List (Option JsString) :=
  match e with
  | .post _ _ => s.called ++ [none]
  | .call i =>
      match s.queue.sends[i]? with
      | some x =>
          match x.stage with
          | .ready m => s.called.set i (some m)
          | _ => s.called
      | none => s.called
  | .resolved i _ _ => s.called.set i none
  | .failed i => s.called.set i none
  | _ => s.called

variable (resolve : Url → JsString → Option Url)

def step (s : State) : Event → Option State
  | .send e occurredAt =>
      if valid newURL s.config e then
        match SendQueue.step s.queue e with
        | none => none
        | some queue =>
            let entry := entryOf newURL s e occurredAt
            let job := entry.bind (·.callback)
            some { s with
              queue
              called := calledAfter s e
              history := s.history ++ entry.toList
              enqueued := s.enqueued ++ job.toList
              waiting := s.waiting ++ (job.map fun job => ⟨job, 0⟩).toList }
      else none
  | .restart config pool =>
      match SendQueue.step s.queue (.restart pool) with
      | none => none
      | some queue => some { s with config, queue, called := s.called.map fun _ => none }
  | .deliver k answers =>
      match s.waiting[k]? with
      | none => none
      | some w =>
          let fetched := fetch newURL resolve w.job.callbackUrl answers
          let finished := settles fetched.2 || w.attemptsMade + 1 ≥ callbackAttempts
          some { s with
            waiting := if finished then s.waiting.eraseIdx k
              else s.waiting.set k { w with attemptsMade := w.attemptsMade + 1 }
            requests := s.requests ++ fetched.1.map fun url => ⟨url, s.config.allowedHosts⟩ }

abbrev run : State → List Event → Option State := Runs.run (step newURL resolve)

end

/-! ## What a step does -/

section

variable {newURL : JsString → Option Url} {resolve : Url → JsString → Option Url} {s s' : State}

theorem step_send {e : SendQueue.Event} {occurredAt : JsString}
    (h : step newURL resolve s (.send e occurredAt) = some s') :
    ∃ queue, valid newURL s.config e = true ∧ SendQueue.step s.queue e = some queue ∧
      s' = { s with
        queue
        called := calledAfter s e
        history := s.history ++ (entryOf newURL s e occurredAt).toList
        enqueued := s.enqueued ++ ((entryOf newURL s e occurredAt).bind (·.callback)).toList
        waiting := s.waiting ++ (((entryOf newURL s e occurredAt).bind (·.callback)).map
          fun job => ⟨job, 0⟩).toList } := by
  rw [step] at h
  split at h
  case isFalse => cases h
  case isTrue hvalid =>
    split at h
    · cases h
    case h_2 queue hqueue => exact ⟨queue, hvalid, hqueue, (Option.some.inj h).symm⟩

theorem step_restart {config : Config} {pool : ModemPool}
    (h : step newURL resolve s (.restart config pool) = some s') :
    ∃ queue, SendQueue.step s.queue (.restart pool) = some queue ∧
      s' = { s with config, queue, called := s.called.map fun _ => none } := by
  rw [step] at h
  split at h
  · cases h
  case h_2 queue hqueue => exact ⟨queue, hqueue, (Option.some.inj h).symm⟩

/-- A delivery leaves the sends and what has been written as they are. -/
theorem step_deliver {k : Nat} {answers : List Answer}
    (h : step newURL resolve s (.deliver k answers) = some s') :
    ∃ w waiting, s.waiting[k]? = some w ∧
      (waiting = s.waiting.eraseIdx k ∨
        waiting = s.waiting.set k { w with attemptsMade := w.attemptsMade + 1 }) ∧
      s' = { s with
        waiting
        requests := s.requests ++
          (fetch newURL resolve w.job.callbackUrl answers).1.map fun url =>
            ⟨url, s.config.allowedHosts⟩ } := by
  rw [step] at h
  split at h
  · cases h
  case h_2 w hw =>
    refine ⟨w, _, hw, ?_, (Option.some.inj h).symm⟩
    split
    · exact Or.inl rfl
    · exact Or.inr rfl

theorem rowsInv_step {e : Event} (h : SendQueue.RowsInv s.queue)
    (hstep : step newURL resolve s e = some s') : SendQueue.RowsInv s'.queue := by
  cases e with
  | send e occurredAt =>
      obtain ⟨queue, -, hqueue, rfl⟩ := step_send hstep
      exact SendQueue.rowsInv_step h hqueue
  | restart config pool =>
      obtain ⟨queue, hqueue, rfl⟩ := step_restart hstep
      exact SendQueue.rowsInv_step h hqueue
  | deliver k answers =>
      obtain ⟨w, waiting, -, -, rfl⟩ := step_deliver hstep
      exact h

end

end SmsGateway.Webhook.Gateway
