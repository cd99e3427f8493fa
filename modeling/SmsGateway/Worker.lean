import SmsGateway.LogStore
import SmsGateway.Pool

/-!
# The send worker's reactions

The parts of `config/bull.config.js` that decide what an attempt does, what a
failed attempt writes to the row, and BullMQ's own rule for running another one.
-/

namespace SmsGateway.Worker

open SmsGateway LogStore Pool

/-- `defaultJobOptions.attempts`. -/
abbrev attempts : Nat := 3

/-- An error that leaves the processor, and whether it is an `UnrecoverableError`. -/
structure Thrown where
  error : JsError
  unrecoverable : Bool
  deriving DecidableEq, Repr

def unrecoverableError (message : JsString) : Thrown := ⟨newError message, true⟩

def unknownModem (modemId : JsString) : Thrown :=
  unrecoverableError (js "Unknown modem \"" ++ modemId ++ js "\"")

/-- The modem of an attempt: the pinned one if the pool has it, otherwise the next in turn. -/
def chooseModem (pool : ModemPool) (pinned : Option JsString) : Except Thrown Modem × ModemPool :=
  match pinned with
  | some id =>
      if id ≠ [] then
        match Pool.get pool id with
        | some m => (.ok m, pool)
        | none => (.error (unknownModem id), pool)
      else (.ok (pick pool).1, (pick pool).2)
  | none => (.ok (pick pool).1, (pick pool).2)

/-- The processor's `catch` around `sendSMS`. -/
def sendFailed (modemId : JsString) (err : JsError) : Thrown :=
  let err := { err with modemId := some modemId }
  if err.confirmTimeout then
    unrecoverableError (js "Send unconfirmed via \"" ++ modemId ++ js "\": " ++ err.message)
  else ⟨err, false⟩

/-- BullMQ runs another attempt after `finished` of them. -/
def retried (finished : Nat) (t : Thrown) : Bool := finished < attempts && !t.unrecoverable

/-- The status the `failed` handler chooses. -/
def failedStatus (attemptsMade : Nat) (t : Thrown) : Status :=
  let unconfirmed := t.unrecoverable
  let isFinal := unconfirmed || attemptsMade ≥ attempts
  if unconfirmed then .unconfirmed else if isFinal then .failed else .retrying

def failedPatch (attemptsMade : Nat) (t : Thrown) : Patch :=
  [(js "status", .text (failedStatus attemptsMade t).text), (js "error", .text t.error.message)] ++
    match t.error.modemId with
    | some id => if id = [] then [] else [(js "modemId", .text id)]
    | none => []

def optionValue : Option JsString → Value
  | some s => .text s
  | none => .null

/-- The update after a send that resolved. -/
def sentPatch (now : JsString) (reference : Option JsString) (modemId : JsString) : Patch :=
  [(js "status", .text Status.sent.text), (js "sentAt", .text now),
    (js "reference", optionValue reference), (js "modemId", .text modemId), (js "error", .null)]

/-- The update of the route when the job could not be queued. -/
def addFailedPatch (err : JsError) : Patch :=
  [(js "status", .text Status.failed.text), (js "error", .text err.message)]

/-! ## Retrying and the error's class -/

theorem sendFailed_unrecoverable (modemId : JsString) (err : JsError) :
    (sendFailed modemId err).unrecoverable = err.confirmTimeout := by
  unfold sendFailed
  dsimp only
  split
  case isTrue h => rw [h]; rfl
  case isFalse h => simpa using h

/-- The handler writes `retrying` exactly when BullMQ runs another attempt. -/
theorem failedStatus_retrying_iff (attemptsMade : Nat) (t : Thrown) :
    failedStatus attemptsMade t = .retrying ↔ retried attemptsMade t = true := by
  unfold failedStatus retried
  cases t.unrecoverable
  · by_cases h : attemptsMade ≥ attempts
    · simp [h]
    · simp only [Bool.false_or, h, decide_false, Bool.false_eq_true, if_false, Bool.not_false,
        Bool.and_true, decide_eq_true_eq, true_iff]
      omega
  · simp

theorem retried_sendFailed (finished : Nat) (modemId : JsString) (err : JsError) :
    retried finished (sendFailed modemId err) = true ↔
      finished < attempts ∧ err.confirmTimeout = false := by
  rw [retried, sendFailed_unrecoverable]
  simp

end SmsGateway.Worker
