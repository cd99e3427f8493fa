import SmsGateway.UssdStore
import SmsGateway.Worker
import SmsGateway.Lib.Runs
import SmsGateway.Lib.Keyed

/-!
# USSD requests, queued and live

`enqueueUssd`, the worker and its `failed` handler in `config/ussd.config.js`, and
`runUssdNow` in `router/router.js`, as one system of requests whose steps interleave. BullMQ
runs at most two attempts of a job, one after the other and each once; a job whose `add` has
thrown is not in the queue. Each attempt sees the pool of the process that runs it.
-/

namespace SmsGateway.UssdQueue

open SmsGateway UssdStore
open SmsGateway.Worker (Thrown unrecoverableError unknownModem)
open Lib

structure Codes where
  balance : JsString
  tariff : JsString
  number : JsString
  deriving DecidableEq, Repr

def Codes.get (codes : Codes) : Kind → JsString
  | .balance => codes.balance
  | .tariff => codes.tariff
  | .number => codes.number

structure Modem where
  id : JsString
  driver : JsString
  supportsUssd : Bool
  ussdCodes : Codes
  deriving DecidableEq, Repr

/-- `defaultJobOptions.attempts`. -/
abbrev attempts : Nat := 2

/-- `TARIFF_INBOX_POLL_DELAYS_MS`. -/
def pollDelays : List Nat := [30000, 90000, 180000]

/-- The name and the data of a job. -/
inductive Data where
  | ussd (requestId modemId : JsString) (kind : Kind) (code : JsString)
  | pollInbox (modemId : JsString)
  deriving DecidableEq, Repr

/-- Where a request stands: in `enqueueUssd`, in its job, or in `runUssdNow`. -/
inductive Stage where
  /-- `Queue.add` has not settled -/
  | adding
  | addThrew
  /-- the job waits for its first or next attempt -/
  | waiting
  /-- the attempt waits for its modem and for the reply -/
  | session
  /-- the attempt threw, its `failed` event is still to come -/
  | threw (t : Thrown)
  /-- the reply is stored, the inbox polls after these delays are not yet added -/
  | scheduling (delays : List Nat)
  | completed
  | failed
  /-- the live call awaits `runUssd` -/
  | awaiting
  /-- the live call is in its `catch` -/
  | caught (e : JsError)
  | returned
  deriving DecidableEq, Repr

structure Request where
  id : JsString
  modemId : JsString
  kind : Kind
  code : JsString
  attemptsMade : Nat
  stage : Stage
  deriving DecidableEq, Repr

inductive PollStage where
  | waiting
  /-- awaits `fetchAndStore` -/
  | fetching
  | threw (t : Thrown)
  | completed
  | failed
  deriving DecidableEq, Repr

/-- A `poll-inbox` job; it has one attempt. -/
structure Poll where
  modemId : JsString
  delay : Nat
  stage : PollStage
  deriving DecidableEq, Repr

structure State where
  rows : List Row
  requests : List Request
  polls : List Poll
  deriving DecidableEq

def start : State := ⟨[], [], []⟩

/-- A `refusal` is what the database throws at a statement, if it refuses it. -/
inductive Event where
  | enqueue (modem : Modem) (kind : Kind) (id now : JsString) (refusal : Option JsError)
  | added (i : Nat)
  | addThrew (i : Nat) (err : JsError) (refusal : Option JsError) (now : JsString)
  | start (i : Nat) (pool : List Modem)
  /-- `runUssd` of an attempt settles -/
  | replied (i : Nat) (result : Except JsError (Option JsString)) (refusal : Option JsError)
      (now : JsString)
  | scheduled (i : Nat)
  | scheduleThrew (i : Nat)
  | completes (i : Nat)
  /-- BullMQ emits `failed` -/
  | failed (i : Nat) (refusal : Option JsError) (now : JsString)
  | live (modem : Modem) (kind : Kind) (id now : JsString) (refusal : Option JsError)
  /-- `runUssd` of a live call settles -/
  | answered (i : Nat) (result : Except JsError (Option JsString)) (refusal : Option JsError)
      (now : JsString)
  /-- the `catch` of a live call -/
  | settles (i : Nat) (refusal : Option JsError) (now : JsString)
  | pollStart (k : Nat) (pool : List Modem)
  | polled (k : Nat) (result : Except JsError Nat)
  | pollFailed (k : Nat) (refusal : Option JsError) (now : JsString)

/-! ## The worker and the router -/

def newRequest (modem : Modem) (kind : Kind) (id now : JsString) : Row :=
  { id, modemId := modem.id, kind, code := modem.ussdCodes.get kind, status := .pending
    reply := none, error := none, requestedAt := now, completedAt := none }

def outcomeDone (reply : JsString) : Outcome := ⟨.done, some reply, none⟩

def outcomeFailed (error : JsString) : Outcome := ⟨.failed, none, some error⟩

def noReply : JsString := js "No USSD reply"

def unsupported (m : Modem) : Thrown :=
  unrecoverableError (js "USSD is not supported on modem \"" ++ m.id ++ js "\" (" ++ m.driver ++
    js " driver)")

/-- `pool.get(modemId)`. -/
def find (pool : List Modem) (modemId : JsString) : Option Modem := pool.find? fun m => m.id == modemId

/-- A reply that is not falsy. -/
def truthy : Option JsString → Option JsString
  | some reply => if reply = [] then none else some reply
  | none => none

/-- BullMQ runs another attempt after `finished` of them. -/
def retried (attempts finished : Nat) (t : Thrown) : Bool := finished < attempts && !t.unrecoverable

/-- The `failed` handler. -/
def onFailed (refusal : Option JsError) (rows : List Row) (data : Data)
    (attempts attemptsMade : Nat) (t : Thrown) (now : JsString) : List Row :=
  match data with
  | .pollInbox _ => rows
  | .ussd requestId _ _ _ =>
      let attempts := if attempts = 0 then 1 else attempts
      let isFinal := t.unrecoverable || attemptsMade ≥ attempts
      if isFinal then
        (completeRequest refusal rows requestId (outcomeFailed t.error.message) now).2
      else rows

def Request.data (x : Request) : Data := .ussd x.id x.modemId x.kind x.code

def Request.to (x : Request) (stage : Stage) : Request := { x with stage }

@[simp] theorem Request.to_id (x : Request) (stage : Stage) : (x.to stage).id = x.id := rfl
@[simp] theorem Request.to_stage (x : Request) (stage : Stage) : (x.to stage).stage = stage := rfl

/-- What a step does to its own request and to the rows, and the inbox polls it adds. -/
def Request.step (x : Request) (rows : List Row) :
    Event → Option (Request × List Row × List Poll)
  | .added _ =>
      match x.stage with
      | .adding => some (x.to .waiting, rows, [])
      | _ => none
  | .addThrew _ err refusal now =>
      match x.stage with
      | .adding => some (x.to .addThrew,
          (completeRequest refusal rows x.id (outcomeFailed err.message) now).2, [])
      | _ => none
  | .start _ pool =>
      match x.stage with
      | .waiting =>
          match find pool x.modemId with
          | none => some (x.to (.threw (unknownModem x.modemId)), rows, [])
          | some m =>
              if m.supportsUssd then some (x.to .session, rows, [])
              else some (x.to (.threw (unsupported m)), rows, [])
      | _ => none
  | .replied _ result refusal now =>
      match x.stage with
      | .session =>
          match result with
          | .error e => some (x.to (.threw ⟨e, false⟩), rows, [])
          | .ok reply =>
              match truthy reply with
              | none => some (x.to (.threw ⟨newError noReply, false⟩), rows, [])
              | some reply =>
                  match completeRequest refusal rows x.id (outcomeDone reply) now with
                  | (.ok _, rows) =>
                      let delays := if x.kind = .tariff then pollDelays else []
                      some (x.to (.scheduling delays), rows, [])
                  | (.error e, rows) => some (x.to (.threw ⟨e, false⟩), rows, [])
      | _ => none
  | .scheduled _ =>
      match x.stage with
      | .scheduling (delay :: delays) =>
          some (x.to (.scheduling delays), rows, [⟨x.modemId, delay, .waiting⟩])
      | _ => none
  | .scheduleThrew _ =>
      match x.stage with
      | .scheduling (_ :: _) => some (x.to (.scheduling []), rows, [])
      | _ => none
  | .completes _ =>
      match x.stage with
      | .scheduling [] => some (x.to .completed, rows, [])
      | _ => none
  | .failed _ refusal now =>
      match x.stage with
      | .threw t =>
          let finished := x.attemptsMade + 1
          let stage := if retried attempts finished t then .waiting else .failed
          some ({ x with attemptsMade := finished, stage },
            onFailed refusal rows x.data attempts finished t now, [])
      | _ => none
  | .answered _ result refusal now =>
      match x.stage with
      | .awaiting =>
          match result with
          | .error e => some (x.to (.caught e), rows, [])
          | .ok reply =>
              match truthy reply with
              | none =>
                  match completeRequest refusal rows x.id (outcomeFailed noReply) now with
                  | (.ok _, rows) => some (x.to .returned, rows, [])
                  | (.error e, rows) => some (x.to (.caught e), rows, [])
              | some reply =>
                  match completeRequest refusal rows x.id (outcomeDone reply) now with
                  | (.ok (some _), rows) => some (x.to .returned, rows, [])
                  -- `done.completedAt` of null
                  | (.ok none, rows) => some (x.to (.caught (newError
                      (js "Cannot read properties of null (reading 'completedAt')"))), rows, [])
                  | (.error e, rows) => some (x.to (.caught e), rows, [])
      | _ => none
  | .settles _ refusal now =>
      match x.stage with
      | .caught e => some (x.to .returned,
          (completeRequest refusal rows x.id (outcomeFailed e.message) now).2, [])
      | _ => none
  | _ => none

/-- What a step does to its own inbox poll and to the rows. -/
def Poll.step (p : Poll) (rows : List Row) : Event → Option (Poll × List Row)
  | .pollStart _ pool =>
      match p.stage with
      | .waiting =>
          match find pool p.modemId with
          | none => some ({ p with stage := .completed }, rows)
          | some _ => some ({ p with stage := .fetching }, rows)
      | _ => none
  | .polled _ result =>
      match p.stage with
      | .fetching =>
          match result with
          | .ok _ => some ({ p with stage := .completed }, rows)
          | .error e => some ({ p with stage := .threw ⟨e, false⟩ }, rows)
      | _ => none
  | .pollFailed _ refusal now =>
      match p.stage with
      | .threw t =>
          some ({ p with stage := .failed }, onFailed refusal rows (.pollInbox p.modemId) 1 1 t now)
      | _ => none
  | _ => none

/-! ## The system -/

def Event.request : Event → Option Nat
  | .added i => some i
  | .addThrew i _ _ _ => some i
  | .start i _ => some i
  | .replied i _ _ _ => some i
  | .scheduled i => some i
  | .scheduleThrew i => some i
  | .completes i => some i
  | .failed i _ _ => some i
  | .answered i _ _ _ => some i
  | .settles i _ _ => some i
  | _ => none

def Event.poll : Event → Option Nat
  | .pollStart k _ => some k
  | .polled k _ => some k
  | .pollFailed k _ _ => some k
  | _ => none

def Event.refusal : Event → Option JsError
  | .enqueue _ _ _ _ refusal => refusal
  | .addThrew _ _ refusal _ => refusal
  | .replied _ _ refusal _ => refusal
  | .failed _ refusal _ => refusal
  | .live _ _ _ _ refusal => refusal
  | .answered _ _ refusal _ => refusal
  | .settles _ refusal _ => refusal
  | .pollFailed _ refusal _ => refusal
  | _ => none

/-- `createRequest` at the head of both paths; when it throws, the path ends there. -/
def create (s : State) (modem : Modem) (kind : Kind) (id now : JsString)
    (refusal : Option JsError) (stage : Stage) : State :=
  match createRequest refusal s.rows (newRequest modem kind id now) with
  | (.ok row, rows) =>
      { s with rows, requests := s.requests ++ [⟨row.id, row.modemId, kind, row.code, 0, stage⟩] }
  | (.error _, rows) => { s with rows }

def step (s : State) (e : Event) : Option State :=
  match e with
  | .enqueue modem kind id now refusal => some (create s modem kind id now refusal .adding)
  | .live modem kind id now refusal => some (create s modem kind id now refusal .awaiting)
  | e =>
      match e.request, e.poll with
      | some i, _ =>
          match s.requests[i]? with
          | none => none
          | some x =>
              match x.step s.rows e with
              | none => none
              | some (x', rows, polls) =>
                  some { rows, requests := s.requests.set i x', polls := s.polls ++ polls }
      | none, some k =>
          match s.polls[k]? with
          | none => none
          | some p =>
              match p.step s.rows e with
              | none => none
              | some (p', rows) => some { s with rows, polls := s.polls.set k p' }
      | none, none => none

abbrev run : State → List Event → Option State := Runs.run step

/-! ## What a step can do -/

/-- The row is still to be settled. -/
def Stage.isOpen : Stage → Bool
  | .adding => true
  | .waiting => true
  | .session => true
  | .threw _ => true
  | .awaiting => true
  | .caught _ => true
  | _ => false

/-- The reply is in the row. -/
def Stage.stored : Stage → Bool
  | .scheduling _ => true
  | .completed => true
  | _ => false

theorem Stage.isOpen_of_stored {stage : Stage} (h : stage.stored = true) : stage.isOpen = false := by
  cases stage with
  | scheduling delays => rfl
  | completed => rfl
  | _ => cases h

theorem outcomeDone_settles {reply : Option JsString} {text : JsString}
    (h : truthy reply = some text) : (outcomeDone text).Settles := by
  refine ⟨⟨text, rfl, ?_⟩, rfl⟩
  unfold truthy at h
  split at h
  · split at h
    · cases h
    · obtain rfl := Option.some.inj h
      assumption
  · cases h

theorem outcomeFailed_settles (error : JsString) : (outcomeFailed error).Settles :=
  ⟨rfl, Option.some_ne_none _⟩

/-- What a step of a request does: it goes on, with the row to be settled or settled; it settles
the row; or the database refuses that. -/
inductive Moves (rows : List Row) (id : JsString) (refusal : Option JsError) (stage stage' : Stage) :
    List Row → Prop where
  | goesOn (h : stage.isOpen = true) (h' : stage'.isOpen = true) : Moves rows id refusal stage stage' rows
  | stored (h : stage.stored = true) (h' : stage'.stored = true) : Moves rows id refusal stage stage' rows
  | refused (h : stage.isOpen = true) (h' : stage'.stored = false) (hr : refusal ≠ none) :
      Moves rows id refusal stage stage' rows
  | settled (h : stage.isOpen = true) (h' : stage'.isOpen = false) (o : Outcome) (ho : o.Settles)
      (now : JsString) :
      Moves rows id refusal stage stage' (completeRequest none rows id o now).2

section

variable {rows rows' : List Row} {id now : JsString} {refusal : Option JsError} {stage stage' : Stage}
  {o : Outcome}

/-- The last write of a path. -/
theorem Moves.complete (h : stage.isOpen = true) (hopen : stage'.isOpen = false)
    (hstored : stage'.stored = false) (ho : o.Settles) :
    Moves rows id refusal stage stage' (completeRequest refusal rows id o now).2 := by
  cases refusal with
  | some e => exact .refused h hstored (Option.some_ne_none e)
  | none => exact .settled h hopen o ho now

theorem Moves.onFailed {data : Data} {modemId code : JsString} {kind : Kind} {t : Thrown} {finished : Nat}
    (h : stage.isOpen = true) (hdata : data = .ussd id modemId kind code) :
    Moves rows id refusal stage (if retried attempts finished t then .waiting else .failed)
      (onFailed refusal rows data attempts finished t now) := by
  subst hdata
  have hfinal : (t.unrecoverable || decide (finished ≥ attempts)) = !retried attempts finished t := by
    rw [retried]
    cases t.unrecoverable
    · by_cases hlt : finished < attempts
      · simp only [hlt, Bool.false_or, decide_true, Bool.not_false, Bool.and_true, Bool.not_true,
          decide_eq_false_iff_not]
        omega
      · simp only [hlt, Bool.false_or, decide_false, Bool.not_false, Bool.and_true,
          decide_eq_true_eq]
        omega
    · simp
  rw [UssdQueue.onFailed, if_neg (show attempts ≠ 0 by decide), hfinal]
  cases retried attempts finished t with
  | true => exact .goesOn h rfl
  | false => exact .complete h rfl rfl (outcomeFailed_settles _)

variable {x x' : Request} {polls : List Poll} {row : Row}

theorem Request.step_moves {e : Event} (hrow : getRequest rows x.id = some row)
    (h : x.step rows e = some (x', rows', polls)) :
    x'.id = x.id ∧ Moves rows x.id e.refusal x.stage x'.stage rows' := by
  cases e with
  | enqueue modem kind id now refusal => cases h
  | live modem kind id now refusal => cases h
  | pollStart k pool => cases h
  | polled k result => cases h
  | pollFailed k refusal now => cases h
  | added i =>
      cases hstage : x.stage <;> simp only [Request.step, hstage] at h <;> try cases h
      exact ⟨rfl, .goesOn rfl rfl⟩
  | addThrew i err refusal now =>
      cases hstage : x.stage <;> simp only [Request.step, hstage] at h <;> try cases h
      exact ⟨rfl, .complete rfl rfl rfl (outcomeFailed_settles _)⟩
  | start i pool =>
      cases hstage : x.stage <;> simp only [Request.step, hstage] at h <;> try cases h
      cases hm : find pool x.modemId with
      | none =>
          simp only [hm] at h
          cases h
          exact ⟨rfl, .goesOn rfl rfl⟩
      | some m =>
          simp only [hm] at h
          split at h <;> cases h <;> exact ⟨rfl, .goesOn rfl rfl⟩
  | replied i result refusal now =>
      cases hstage : x.stage <;> simp only [Request.step, hstage] at h <;> try cases h
      cases result with
      | error err =>
          cases h
          exact ⟨rfl, .goesOn rfl rfl⟩
      | ok reply =>
          cases hreply : truthy reply with
          | none =>
              simp only [hreply] at h
              cases h
              exact ⟨rfl, .goesOn rfl rfl⟩
          | some text =>
              simp only [hreply] at h
              cases refusal with
              | some err =>
                  cases h
                  exact ⟨rfl, .goesOn rfl rfl⟩
              | none =>
                  simp only [completeRequest, hrow] at h
                  cases h
                  refine ⟨rfl, ?_⟩
                  have hsettled : Moves rows x.id none .session
                      (.scheduling (if x.kind = .tariff then pollDelays else []))
                      (completeRequest none rows x.id (outcomeDone text) now).2 :=
                    .settled rfl rfl _ (outcomeDone_settles hreply) now
                  simp only [completeRequest, hrow] at hsettled
                  exact hsettled
  | scheduled i =>
      cases hstage : x.stage <;> simp only [Request.step, hstage] at h <;> try cases h
      split at h <;> cases h
      exact ⟨rfl, .stored rfl rfl⟩
  | scheduleThrew i =>
      cases hstage : x.stage <;> simp only [Request.step, hstage] at h <;> try cases h
      split at h <;> cases h
      exact ⟨rfl, .stored rfl rfl⟩
  | completes i =>
      cases hstage : x.stage <;> simp only [Request.step, hstage] at h <;> try cases h
      split at h <;> cases h
      exact ⟨rfl, .stored rfl rfl⟩
  | failed i refusal now =>
      cases hstage : x.stage <;> simp only [Request.step, hstage] at h <;> try cases h
      exact ⟨rfl, .onFailed rfl rfl⟩
  | answered i result refusal now =>
      cases hstage : x.stage <;> simp only [Request.step, hstage] at h <;> try cases h
      cases result with
      | error err =>
          cases h
          exact ⟨rfl, .goesOn rfl rfl⟩
      | ok reply =>
          cases hreply : truthy reply with
          | none =>
              simp only [hreply] at h
              cases refusal with
              | some err =>
                  cases h
                  exact ⟨rfl, .goesOn rfl rfl⟩
              | none =>
                  simp only [completeRequest, hrow] at h
                  cases h
                  have hsettled : Moves rows x.id none .awaiting .returned
                      (completeRequest none rows x.id (outcomeFailed noReply) now).2 :=
                    .settled rfl rfl _ (outcomeFailed_settles _) now
                  simp only [completeRequest, hrow] at hsettled
                  exact ⟨rfl, hsettled⟩
          | some text =>
              simp only [hreply] at h
              cases refusal with
              | some err =>
                  cases h
                  exact ⟨rfl, .goesOn rfl rfl⟩
              | none =>
                  simp only [completeRequest, hrow] at h
                  cases h
                  have hsettled : Moves rows x.id none .awaiting .returned
                      (completeRequest none rows x.id (outcomeDone text) now).2 :=
                    .settled rfl rfl _ (outcomeDone_settles hreply) now
                  simp only [completeRequest, hrow] at hsettled
                  exact ⟨rfl, hsettled⟩
  | settles i refusal now =>
      cases hstage : x.stage <;> simp only [Request.step, hstage] at h <;> try cases h
      exact ⟨rfl, .complete rfl rfl rfl (outcomeFailed_settles _)⟩

end

theorem Poll.step_rows {p p' : Poll} {rows rows' : List Row} {e : Event}
    (h : p.step rows e = some (p', rows')) : rows' = rows := by
  cases e with
  | pollStart k pool =>
      cases hstage : p.stage <;> simp only [Poll.step, hstage] at h <;> try cases h
      cases hm : find pool p.modemId with
      | none =>
          simp only [hm] at h
          cases h
          rfl
      | some m =>
          simp only [hm] at h
          cases h
          rfl
  | polled k result =>
      cases hstage : p.stage <;> simp only [Poll.step, hstage] at h <;> try cases h
      cases result <;> cases h <;> rfl
  | pollFailed k refusal now =>
      cases hstage : p.stage <;> simp only [Poll.step, hstage] at h <;> try cases h
      rfl
  | _ => cases h

section

variable {s s' : State}

theorem create_cases (s : State) (modem : Modem) (kind : Kind) (id now : JsString)
    (refusal : Option JsError) (stage : Stage) :
    create s modem kind id now refusal stage = s ∨
    (getRequest s.rows id = none ∧ create s modem kind id now refusal stage = { s with
      rows := s.rows ++ [newRequest modem kind id now]
      requests := s.requests ++ [⟨id, modem.id, kind, modem.ussdCodes.get kind, 0, stage⟩] }) := by
  unfold create createRequest
  cases refusal with
  | some e => exact Or.inl rfl
  | none =>
      cases hrow : getRequest s.rows id with
      | some r =>
          have hrow' : getRequest s.rows (newRequest modem kind id now).id = some r := hrow
          simp only [hrow']
          exact Or.inl trivial
      | none =>
          have hrow' : getRequest s.rows (newRequest modem kind id now).id = none := hrow
          simp only [hrow']
          exact Or.inr ⟨trivial, rfl⟩

/-- Everything a step of the system can do. -/
theorem step_cases {e : Event} (h : step s e = some s') :
    (∃ modem kind id now refusal stage, stage.isOpen = true ∧ stage.stored = false ∧
      e.poll = none ∧ s' = create s modem kind id now refusal stage) ∨
    (∃ i x x' rows polls, e.poll = none ∧ s.requests[i]? = some x ∧
      x.step s.rows e = some (x', rows, polls) ∧
      s' = { rows, requests := s.requests.set i x', polls := s.polls ++ polls }) ∨
    (∃ polls, s' = { s with polls }) := by
  have hrequest (i : Nat) (hpoll : e.poll = none)
      (hstep : (match s.requests[i]? with
        | none => none
        | some x =>
            match x.step s.rows e with
            | none => none
            | some (x', rows, polls) =>
                some ({ rows, requests := s.requests.set i x', polls := s.polls ++ polls } : State)) =
        some s') :
      ∃ i x x' rows polls, e.poll = none ∧ s.requests[i]? = some x ∧
        x.step s.rows e = some (x', rows, polls) ∧
        s' = { rows, requests := s.requests.set i x', polls := s.polls ++ polls } := by
    cases hx : s.requests[i]? with
    | none => simp [hx] at hstep
    | some x =>
        cases hx' : x.step s.rows e with
        | none => simp [hx, hx'] at hstep
        | some r =>
            obtain ⟨x', rows, polls⟩ := r
            simp only [hx, hx'] at hstep
            exact ⟨i, x, x', rows, polls, hpoll, hx, hx', (Option.some.inj hstep).symm⟩
  have hpoll (k : Nat)
      (hstep : (match s.polls[k]? with
        | none => none
        | some p =>
            match p.step s.rows e with
            | none => none
            | some (p', rows) => some ({ s with rows, polls := s.polls.set k p' } : State)) =
        some s') :
      ∃ polls, s' = { s with polls } := by
    cases hp : s.polls[k]? with
    | none => simp [hp] at hstep
    | some p =>
        cases hp' : p.step s.rows e with
        | none => simp [hp, hp'] at hstep
        | some r =>
            obtain ⟨p', rows⟩ := r
            simp only [hp, hp'] at hstep
            rw [Poll.step_rows hp'] at hstep
            exact ⟨_, (Option.some.inj hstep).symm⟩
  cases e with
  | enqueue modem kind id now refusal =>
      exact Or.inl ⟨modem, kind, id, now, refusal, .adding, rfl, rfl, rfl, (Option.some.inj h).symm⟩
  | live modem kind id now refusal =>
      exact Or.inl ⟨modem, kind, id, now, refusal, .awaiting, rfl, rfl, rfl, (Option.some.inj h).symm⟩
  | added i => exact Or.inr (Or.inl (hrequest i rfl h))
  | addThrew i err refusal now => exact Or.inr (Or.inl (hrequest i rfl h))
  | start i pool => exact Or.inr (Or.inl (hrequest i rfl h))
  | replied i result refusal now => exact Or.inr (Or.inl (hrequest i rfl h))
  | scheduled i => exact Or.inr (Or.inl (hrequest i rfl h))
  | scheduleThrew i => exact Or.inr (Or.inl (hrequest i rfl h))
  | completes i => exact Or.inr (Or.inl (hrequest i rfl h))
  | failed i refusal now => exact Or.inr (Or.inl (hrequest i rfl h))
  | answered i result refusal now => exact Or.inr (Or.inl (hrequest i rfl h))
  | settles i refusal now => exact Or.inr (Or.inl (hrequest i rfl h))
  | pollStart k pool => exact Or.inr (Or.inr (hpoll k h))
  | polled k result => exact Or.inr (Or.inr (hpoll k h))
  | pollFailed k refusal now => exact Or.inr (Or.inr (hpoll k h))

/-! ## The life of a row -/

/-- What never changes of a row. -/
def request (row : Row) : JsString × JsString × Kind × JsString × JsString :=
  (row.id, row.modemId, row.kind, row.code, row.requestedAt)

/-- A row stays as it is, or leaves `pending`. -/
def Next (row row' : Row) : Prop :=
  row' = row ∨ (row.status = .pending ∧ row'.status ≠ .pending ∧ request row' = request row)

theorem Next.trans {row row' row'' : Row} (h : Next row row') (h' : Next row' row'') :
    Next row row'' := by
  rcases h with rfl | ⟨hpending, hsettled, hrequest⟩
  · exact h'
  · rcases h' with rfl | ⟨hpending', -, -⟩
    · exact Or.inr ⟨hpending, hsettled, hrequest⟩
    · exact absurd hpending' hsettled

/-- Every request has a row of its own, pending as long as the request is open. -/
structure RowsInv (s : State) : Prop where
  nodup : (s.requests.map (·.id)).Nodup
  wellFormed : ∀ row ∈ s.rows, row.WellFormed
  row : ∀ x ∈ s.requests, ∃ row, getRequest s.rows x.id = some row ∧
    (x.stage.isOpen = true → row.status = .pending) ∧
    (x.stage.stored = true → row.status ≠ .pending)

/-- The row of every request that is not open is settled. -/
def Settled (s : State) : Prop :=
  ∀ x ∈ s.requests, x.stage.isOpen = false →
    ∃ row, getRequest s.rows x.id = some row ∧ row.status ≠ .pending

section

variable {rows rows' : List Row} {id : JsString} {refusal : Option JsError} {stage stage' : Stage}

theorem Moves.other (h : Moves rows id refusal stage stage' rows') {id' : JsString} (hne : id' ≠ id) :
    getRequest rows' id' = getRequest rows id' := by
  cases h with
  | goesOn => rfl
  | stored => rfl
  | refused => rfl
  | settled => exact completeRequest_other hne

theorem Moves.wellFormed (h : Moves rows id refusal stage stage' rows')
    (hrows : ∀ row ∈ rows, row.WellFormed) : ∀ row ∈ rows', row.WellFormed := by
  cases h with
  | goesOn => exact hrows
  | stored => exact hrows
  | refused => exact hrows
  | settled hopen hclosed o ho now =>
      intro row' hrow'
      unfold completeRequest at hrow'
      split at hrow'
      · exact hrows row' hrow'
      · split at hrow'
        · exact hrows row' hrow'
        · obtain ⟨r, hr, rfl⟩ := List.mem_map.mp hrow'
          split
          · exact Row.complete_wellFormed ho
          · exact hrows r hr

/-- The row of the request that moves. -/
theorem Moves.self {row : Row} (h : Moves rows id refusal stage stage' rows')
    (hrow : getRequest rows id = some row) (hopen : stage.isOpen = true → row.status = .pending)
    (hstored : stage.stored = true → row.status ≠ .pending) :
    ∃ row', getRequest rows' id = some row' ∧ Next row row' ∧
      (stage'.isOpen = true → row'.status = .pending) ∧
      (stage'.stored = true → row'.status ≠ .pending) ∧
      (refusal = none → stage'.isOpen = false → row'.status ≠ .pending) := by
  cases h with
  | goesOn h h' =>
      refine ⟨row, hrow, Or.inl rfl, fun _ => hopen h, ?_, ?_⟩
      · intro hs
        rw [Stage.isOpen_of_stored hs] at h'
        cases h'
      · intro _ hclosed
        rw [h'] at hclosed
        cases hclosed
  | stored h h' =>
      refine ⟨row, hrow, Or.inl rfl, ?_, fun _ => hstored h, fun _ _ => hstored h⟩
      intro hs
      rw [Stage.isOpen_of_stored h'] at hs
      cases hs
  | refused h h' hr =>
      refine ⟨row, hrow, Or.inl rfl, fun _ => hopen h, ?_, ?_⟩
      · intro hs
        rw [h'] at hs
        cases hs
      · exact fun hnone => absurd hnone hr
  | settled h h' o ho now =>
      refine ⟨row.complete o now, (completeRequest_self hrow).2,
        Or.inr ⟨hopen h, ho.status, rfl⟩, ?_, fun _ => ho.status, fun _ _ => ho.status⟩
      intro hs
      rw [h'] at hs
      cases hs

end

variable {e : Event}

theorem rowsInv_start : RowsInv start := ⟨List.nodup_nil, nofun, nofun⟩

theorem rowsInv_step (h : RowsInv s) (hstep : step s e = some s') : RowsInv s' := by
  rcases step_cases hstep with ⟨modem, kind, id, now, refusal, stage, hopen, hstored, -, rfl⟩ |
    ⟨i, x, x', rows, polls, -, hx, hx', rfl⟩ | ⟨polls, rfl⟩
  · rcases create_cases s modem kind id now refusal stage with he | ⟨hfree, he⟩
    · rw [he]
      exact h
    · rw [he]
      have hnew : ∀ y ∈ s.requests, y.id ≠ id := by
        intro y hy hid
        obtain ⟨row, hrow, -⟩ := h.row y hy
        rw [hid, hfree] at hrow
        cases hrow
      refine ⟨Keyed.nodup_append h.nodup hnew, ?_, ?_⟩
      · intro row hrow
        rcases List.mem_append.mp hrow with hrow | hrow
        · exact h.wellFormed row hrow
        · rw [List.mem_singleton.mp hrow]
          exact ⟨rfl, rfl, rfl⟩
      · intro y hy
        rcases List.mem_append.mp hy with hy | hy
        · obtain ⟨row, hrow, hstatus⟩ := h.row y hy
          refine ⟨row, ?_, hstatus⟩
          exact (getRequest_append (newRequest modem kind id now) (hnew y hy).symm).trans hrow
        · rw [List.mem_singleton.mp hy]
          refine ⟨_, @getRequest_append_self s.rows (newRequest modem kind id now) hfree,
            fun _ => rfl, ?_⟩
          intro hs
          rw [hstored] at hs
          cases hs
  · obtain ⟨row, hrow, hopen, hstored⟩ := h.row x (List.mem_of_getElem? hx)
    obtain ⟨hid, hmoves⟩ := Request.step_moves hrow hx'
    refine ⟨by rw [Keyed.map_key_set hx hid]; exact h.nodup, hmoves.wellFormed h.wellFormed, ?_⟩
    intro y hy
    rcases Keyed.mem_set_cases hx h.nodup hy with rfl | ⟨hy, hne⟩
    · obtain ⟨row', hrow', -, hopen', hstored', -⟩ := hmoves.self hrow hopen hstored
      rw [hid]
      exact ⟨row', hrow', hopen', hstored'⟩
    · obtain ⟨row', hrow', hstatus⟩ := h.row y hy
      exact ⟨row', (hmoves.other hne).trans hrow', hstatus⟩
  · exact ⟨h.nodup, h.wellFormed, h.row⟩

theorem settled_step (h : RowsInv s) (hsettled : Settled s) (hwrites : e.refusal = none)
    (hstep : step s e = some s') : Settled s' := by
  rcases step_cases hstep with ⟨modem, kind, id, now, refusal, stage, hopen, -, -, rfl⟩ |
    ⟨i, x, x', rows, polls, -, hx, hx', rfl⟩ | ⟨polls, rfl⟩
  · rcases create_cases s modem kind id now refusal stage with he | ⟨hfree, he⟩
    · rw [he]
      exact hsettled
    · rw [he]
      intro y hy hclosed
      rcases List.mem_append.mp hy with hy | hy
      · obtain ⟨row, hrow, hstatus⟩ := hsettled y hy hclosed
        have hne : id ≠ y.id := by
          rintro rfl
          rw [hfree] at hrow
          cases hrow
        refine ⟨row, ?_, hstatus⟩
        exact (getRequest_append (newRequest modem kind id now) hne).trans hrow
      · rw [List.mem_singleton.mp hy] at hclosed
        have hopen' : stage.isOpen = false := hclosed
        rw [hopen] at hopen'
        cases hopen'
  · obtain ⟨row, hrow, hopen, hstored⟩ := h.row x (List.mem_of_getElem? hx)
    obtain ⟨hid, hmoves⟩ := Request.step_moves hrow hx'
    intro y hy hclosed
    rcases Keyed.mem_set_cases hx h.nodup hy with rfl | ⟨hy, hne⟩
    · obtain ⟨row', hrow', -, -, -, hdone⟩ := hmoves.self hrow hopen hstored
      rw [hid]
      exact ⟨row', hrow', hdone hwrites hclosed⟩
    · obtain ⟨row', hrow', hstatus⟩ := hsettled y hy hclosed
      exact ⟨row', (hmoves.other hne).trans hrow', hstatus⟩
  · exact hsettled

/-- What a step makes of the rows: those there are stay or are settled, a new one is pending. -/
theorem rows_step (h : RowsInv s) (hstep : step s e = some s') (id : JsString) :
    (∀ row, getRequest s.rows id = some row → ∃ row', getRequest s'.rows id = some row' ∧ Next row row') ∧
    ∀ row', getRequest s.rows id = none → getRequest s'.rows id = some row' →
      row'.status = .pending := by
  have hsame (rows : List Row) (he : getRequest rows id = getRequest s.rows id) :
      (∀ row, getRequest s.rows id = some row → ∃ row', getRequest rows id = some row' ∧ Next row row') ∧
      ∀ row', getRequest s.rows id = none → getRequest rows id = some row' →
        row'.status = .pending := by
    refine ⟨fun row hrow => ⟨row, he.trans hrow, Or.inl rfl⟩, ?_⟩
    intro row' hnone hrow'
    rw [he, hnone] at hrow'
    cases hrow'
  rcases step_cases hstep with ⟨modem, kind, id', now, refusal, stage, -, -, -, rfl⟩ |
    ⟨i, x, x', rows, polls, -, hx, hx', rfl⟩ | ⟨polls, rfl⟩
  · rcases create_cases s modem kind id' now refusal stage with he | ⟨hfree, he⟩
    · rw [he]
      exact hsame s.rows rfl
    · rw [he]
      by_cases hid : id' = id
      · subst hid
        have hself := @getRequest_append_self s.rows (newRequest modem kind id' now) hfree
        refine ⟨?_, ?_⟩
        · intro row hrow
          rw [hfree] at hrow
          cases hrow
        · intro row' _ hrow'
          obtain rfl := Option.some.inj (hself.symm.trans hrow')
          rfl
      · exact hsame _ (getRequest_append (newRequest modem kind id' now) hid)
  · obtain ⟨row, hrow, hopen, hstored⟩ := h.row x (List.mem_of_getElem? hx)
    obtain ⟨-, hmoves⟩ := Request.step_moves hrow hx'
    by_cases hid : id = x.id
    · subst hid
      obtain ⟨row', hrow', hnext, -⟩ := hmoves.self hrow hopen hstored
      refine ⟨?_, ?_⟩
      · intro r hr
        obtain rfl := Option.some.inj (hrow.symm.trans hr)
        exact ⟨row', hrow', hnext⟩
      · intro r hnone
        rw [hrow] at hnone
        cases hnone
    · exact hsame rows (hmoves.other hid)
  · exact hsame s.rows rfl

/-! ## Runs -/

theorem rowsInv_run {es : List Event} (hs : RowsInv s) (h : run s es = some s') : RowsInv s' :=
  Runs.run_induct (A := fun _ => True) (fun _ _ _ hs _ hstep => rowsInv_step hs hstep) hs
    (fun _ _ => trivial) h

/-- From any state on, a row stays or is settled once. -/
theorem rows_run {es : List Event} (hs : RowsInv s) (h : run s es = some s') {id : JsString}
    {row : Row} (hrow : getRequest s.rows id = some row) :
    ∃ row', getRequest s'.rows id = some row' ∧ Next row row' := by
  induction es generalizing s row with
  | nil =>
      obtain rfl := Option.some.inj h
      exact ⟨row, hrow, Or.inl rfl⟩
  | cons e es ih =>
      obtain ⟨s₁, hs₁, hrest⟩ := Option.bind_eq_some_iff.mp h
      obtain ⟨row₁, hrow₁, hnext⟩ := (rows_step hs hs₁ id).1 row hrow
      obtain ⟨row', hrow', hnext'⟩ := ih (rowsInv_step hs hs₁) hrest hrow₁
      exact ⟨row', hrow', hnext.trans hnext'⟩

theorem settled_run {es : List Event} (h : run start es = some s)
    (hes : ∀ e ∈ es, e.refusal = none) : Settled s := by
  have hstep (s : State) (e : Event) (s' : State) (hs : RowsInv s ∧ Settled s)
      (he : e.refusal = none) (hstep : step s e = some s') : RowsInv s' ∧ Settled s' :=
    ⟨rowsInv_step hs.1 hstep, settled_step hs.1 hs.2 he hstep⟩
  exact (Runs.run_induct hstep ⟨rowsInv_start, nofun⟩ hes h).2

theorem poll_rows {k : Nat} (he : e.poll = some k) (hstep : step s e = some s') :
    s'.rows = s.rows := by
  rcases step_cases hstep with ⟨modem, kind, id, now, refusal, stage, -, -, hpoll, -⟩ |
    ⟨i, x, x', rows, polls, hpoll, -⟩ | ⟨polls, rfl⟩
  · rw [hpoll] at he
    cases he
  · rw [hpoll] at he
    cases he
  · rfl

/-- The job has completed or finally failed, the live call has returned, or the enqueue has
thrown. -/
def Stage.over : Stage → Bool
  | .completed => true
  | .failed => true
  | .returned => true
  | .addThrew => true
  | _ => false

/-- In every run, rows are well formed, are created pending and are settled once at most; polls
leave them alone, and when the database refuses nothing, a request that is over is settled. -/
theorem ussd_lifeCycle {es : List Event} (h : run start es = some s) :
    (∀ row ∈ s.rows, row.WellFormed) ∧
    (∀ fs s' id row, run s fs = some s' → getRequest s.rows id = some row →
      ∃ row', getRequest s'.rows id = some row' ∧ Next row row') ∧
    (∀ e s' id row', step s e = some s' → getRequest s.rows id = none →
      getRequest s'.rows id = some row' → row'.status = .pending) ∧
    (∀ e s' k, e.poll = some k → step s e = some s' → s'.rows = s.rows) ∧
    ((∀ e ∈ es, e.refusal = none) → ∀ x ∈ s.requests, x.stage.over = true →
      ∃ row, getRequest s.rows x.id = some row ∧ row.status ≠ .pending) := by
  have hinv := rowsInv_run rowsInv_start h
  refine ⟨hinv.wellFormed, ?_, ?_, ?_, ?_⟩
  · exact fun fs s' id row hrun hrow => rows_run hinv hrun hrow
  · exact fun e s' id row' hstep hnone hrow' => (rows_step hinv hstep id).2 row' hnone hrow'
  · exact fun e s' k he hstep => poll_rows he hstep
  · intro hes x hx hover
    have hclosed : x.stage.isOpen = false := by
      cases hs : x.stage <;> rw [hs] at hover <;> first | rfl | cases hover
    exact settled_run h hes x hx hclosed

end

def serialModem : Modem := ⟨js "m1", js "serial", true, ⟨js "*0800#", js "*0805#", js "*222#"⟩⟩

/-- A tariff request whose second attempt is answered, beside a live call without a reply. -/
def queuedAndLive : List Event :=
  [.enqueue serialModem .tariff (js "u1") (js "t0") none, .added 0, .start 0 [serialModem],
    .live serialModem .balance (js "u2") (js "t1") none, .replied 0 (.ok none) none (js "t2"),
    .failed 0 none (js "t2"), .answered 1 (.ok none) none (js "t3"), .start 0 [serialModem],
    .replied 0 (.ok (some (js "OK"))) none (js "t4"), .scheduled 0, .scheduleThrew 0, .completes 0,
    .pollStart 0 [serialModem], .polled 0 (.error (newError (js "busy"))), .pollFailed 0 none (js "t5")]

theorem queuedAndLive_isSome : (run start queuedAndLive).isSome = true := by decide +kernel

theorem ussd_lifeCycle_queuedAndLive :
    (∀ row ∈ ((run start queuedAndLive).get queuedAndLive_isSome).rows, row.WellFormed) ∧
      ∃ x ∈ ((run start queuedAndLive).get queuedAndLive_isSome).requests, ∃ row,
        getRequest ((run start queuedAndLive).get queuedAndLive_isSome).rows x.id = some row ∧
          row.status ≠ .pending := by
  have hlife := ussd_lifeCycle (Option.some_get queuedAndLive_isSome).symm
  refine ⟨hlife.1, ?_⟩
  have hover : ((run start queuedAndLive).get queuedAndLive_isSome).requests.any
      (·.stage.over) = true := by decide +kernel
  obtain ⟨x, hx, hs⟩ := List.any_eq_true.mp hover
  exact ⟨x, hx, hlife.2.2.2.2 (by decide) x hx hs⟩

example : ((run start queuedAndLive).get queuedAndLive_isSome).rows.map (·.status) =
    [.done, .failed] := by decide +kernel

end SmsGateway.UssdQueue
