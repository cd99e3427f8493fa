import SmsGateway.Worker
import SmsGateway.Lib.Runs
import SmsGateway.Lib.Keyed

/-!
# Send jobs from the route to their last attempt

`POST /sms/send` in `router/router.js` and the worker of `config/bull.config.js`
as one system: many sends, each with its row and its job, whose steps interleave
in any order. Within one step the code runs without awaiting anything that
another step could overtake: the database is synchronous.
-/

namespace SmsGateway.SendQueue

open SmsGateway LogStore Pool Worker
open Lib

/-- What one attempt did with a modem's driver. -/
structure Attempt where
  called : Bool
  rejection : Option JsError
  deriving DecidableEq, Repr

/-- Where a send stands. -/
inductive Stage where
  /-- the row is there, `Queue.add` has not settled -/
  | adding
  /-- the job waits for its first or next attempt -/
  | waiting
  /-- an attempt waits for its modem -/
  | ready (modemId : JsString)
  /-- an attempt awaits `sendSMS` -/
  | sending (modemId : JsString)
  /-- an attempt threw, its `failed` event is still to come -/
  | threw (t : Thrown) (a : Attempt)
  | done
  deriving DecidableEq, Repr

/-- A status write and the attempt it came from. -/
structure Write where
  status : Status
  attempt : Option Attempt
  deriving DecidableEq, Repr

/-- How an attempt, or the enqueueing, came out. -/
inductive Outcome where
  | resolved
  | ordinary
  | unrecoverable
  | addThrew
  deriving DecidableEq, Repr

/-- One send: its job, and the history the statements below are about. -/
structure Send where
  logId : JsString
  modem : Option JsString
  attemptsMade : Nat
  stage : Stage
  writes : List Write
  outcomes : List Outcome
  deriving DecidableEq, Repr

structure State where
  rows : List Row
  sends : List Send
  pool : ModemPool
  deriving DecidableEq

inductive Event where
  /-- the route appends its row -/
  | post (entry : Row) (modem : Option JsString)
  | added (i : Nat)
  | addThrew (i : Nat) (err : JsError)
  /-- the worker takes the job -/
  | start (i : Nat)
  /-- the attempt's modem is ready or has been waited for long enough -/
  | call (i : Nat)
  | resolved (i : Nat) (reference : Option JsString) (now : JsString)
  | rejected (i : Nat) (err : JsError)
  /-- BullMQ emits `failed` -/
  | failed (i : Nat)
  /-- a modem connects or disconnects -/
  | connection (modemId : JsString) (connected : Bool)
  /-- the process restarts with a configuration of its own -/
  | restart (pool : ModemPool)

/-- The row the route appends. -/
def logEntry (entry : Row) (modem : Option JsString) : Row :=
  { entry with status := Status.pending.text, error := none, sentAt := none, reference := none
               modemId := modem }

def newSend (logId : JsString) (modem : Option JsString) : Send :=
  { logId, modem, attemptsMade := 0, stage := .adding, writes := [⟨.pending, none⟩]
    outcomes := [] }

/-! ## One send -/

def Send.wrote (x : Send) (status : Status) (attempt : Option Attempt) : Send :=
  { x with writes := x.writes ++ [⟨status, attempt⟩] }

def Send.ended (x : Send) (o : Outcome) : Send := { x with outcomes := x.outcomes ++ [o] }

section

variable (x : Send) (status : Status) (attempt : Option Attempt) (o : Outcome)

@[simp] theorem Send.wrote_writes :
    (x.wrote status attempt).writes = x.writes ++ [⟨status, attempt⟩] := rfl
@[simp] theorem Send.wrote_outcomes : (x.wrote status attempt).outcomes = x.outcomes := rfl
@[simp] theorem Send.wrote_stage : (x.wrote status attempt).stage = x.stage := rfl
@[simp] theorem Send.wrote_attemptsMade :
    (x.wrote status attempt).attemptsMade = x.attemptsMade := rfl
@[simp] theorem Send.wrote_logId : (x.wrote status attempt).logId = x.logId := rfl
@[simp] theorem Send.ended_writes : (x.ended o).writes = x.writes := rfl
@[simp] theorem Send.ended_outcomes : (x.ended o).outcomes = x.outcomes ++ [o] := rfl
@[simp] theorem Send.ended_stage : (x.ended o).stage = x.stage := rfl
@[simp] theorem Send.ended_attemptsMade : (x.ended o).attemptsMade = x.attemptsMade := rfl
@[simp] theorem Send.ended_logId : (x.ended o).logId = x.logId := rfl

end

def outcomeOf (t : Thrown) : Outcome := if t.unrecoverable then .unrecoverable else .ordinary

/-- What a step does to its own send, and the patch it writes to the row. -/
def Send.step (x : Send) (chosen : Except Thrown Modem) : Event → Option (Send × Option Patch)
  | .added _ =>
      match x.stage with
      | .adding => some ({ x with stage := .waiting }, none)
      | _ => none
  | .addThrew _ err =>
      match x.stage with
      | .adding =>
          some (({ x with stage := .done }.wrote .failed none).ended .addThrew,
            some (addFailedPatch err))
      | _ => none
  | .start _ =>
      match x.stage with
      | .waiting =>
          match chosen with
          | .ok m => some ({ x with stage := .ready m.id }, none)
          | .error t => some ({ x with stage := .threw t ⟨false, none⟩ }, none)
      | _ => none
  | .call _ =>
      match x.stage with
      | .ready m => some ({ x with stage := .sending m }, none)
      | _ => none
  | .resolved _ reference now =>
      match x.stage with
      | .sending m =>
          some (({ x with stage := .done }.wrote .sent (some ⟨true, none⟩)).ended .resolved,
            some (sentPatch now reference m))
      | _ => none
  | .rejected _ err =>
      match x.stage with
      | .sending m => some ({ x with stage := .threw (sendFailed m err) ⟨true, some err⟩ }, none)
      | _ => none
  | .failed _ =>
      match x.stage with
      | .threw t a =>
          let finished := x.attemptsMade + 1
          let stage := if retried finished t then .waiting else .done
          some (({ x with attemptsMade := finished, stage }.wrote (failedStatus finished t)
              (some a)).ended (outcomeOf t),
            some (failedPatch finished t))
      | _ => none
  | _ => none

/-- A restart falls between two steps. It ends a running attempt, and the queue gives its job to
the next process. -/
def Send.restarted (x : Send) : Send :=
  match x.stage with
  | .done => x
  | _ => { x with stage := .waiting }

/-! ## The system -/

def Event.send : Event → Option Nat
  | .added i => some i
  | .addThrew i _ => some i
  | .start i => some i
  | .call i => some i
  | .resolved i _ _ => some i
  | .rejected i _ => some i
  | .failed i => some i
  | _ => none

def applyPatch (rows : List Row) (id : JsString) : Option Patch → List Row
  | none => rows
  | some patch => (updateLog rows id patch).2

/-- The modem an attempt gets, and the pool afterwards; other steps leave the pool alone. -/
def choice (s : State) (x : Send) : Event → Except Thrown Modem × ModemPool
  | .start _ => chooseModem s.pool x.modem
  | _ => (.error (unknownModem []), s.pool)

def step (s : State) (e : Event) : Option State :=
  match e with
  | .post entry modem =>
      match appendLog s.rows (logEntry entry modem) with
      | (.ok row, rows) => some { s with rows, sends := s.sends ++ [newSend row.id modem] }
      | (.error _, _) => none
  | .connection modemId connected => some { s with pool := setConnected s.pool modemId connected }
  | .restart pool => some { s with sends := s.sends.map Send.restarted, pool }
  | e =>
      match e.send with
      | none => none
      | some i =>
          match s.sends[i]? with
          | none => none
          | some x =>
              match x.step (choice s x e).1 e with
              | none => none
              | some (x', patch) =>
                  some { rows := applyPatch s.rows x.logId patch
                         sends := s.sends.set i x'
                         pool := (choice s x e).2 }

abbrev run : State → List Event → Option State := Runs.run step

def start (pool : ModemPool) : State := ⟨[], [], pool⟩

/-! ## What a step can do -/

/-- A patch that sets the status a step records, and that the database accepts. -/
structure Writes (status : Status) (patch : Patch) : Prop where
  status : patch.lookup (js "status") = some (.text status.text)
  bindable : ∀ p ∈ patch, p.2 ≠ .refused

theorem writes_addFailedPatch (err : JsError) : Writes .failed (addFailedPatch err) :=
  ⟨rfl, by simp [addFailedPatch]⟩

theorem writes_sentPatch (now : JsString) (reference : Option JsString) (modemId : JsString) :
    Writes .sent (sentPatch now reference modemId) := by
  refine ⟨rfl, ?_⟩
  cases reference <;> simp [sentPatch, optionValue]

theorem writes_failedPatch (attemptsMade : Nat) (t : Thrown) :
    Writes (failedStatus attemptsMade t) (failedPatch attemptsMade t) := by
  refine ⟨rfl, ?_⟩
  unfold failedPatch
  cases t.error.modemId with
  | none => simp
  | some id =>
      by_cases hid : id = []
      · simp [hid]
      · simp [hid]

/-- A step of a send keeps its id; it writes a status with a patch for it, or neither. -/
theorem Send.step_writes {x x' : Send} {e : Event} {chosen : Except Thrown Modem}
    {patch : Option Patch} (h : x.step chosen e = some (x', patch)) :
    x'.logId = x.logId ∧ x'.modem = x.modem ∧
      ((patch = none ∧ x'.writes = x.writes) ∨
        ∃ p w, patch = some p ∧ x'.writes = x.writes ++ [w] ∧ Writes w.status p) := by
  cases e with
  | post entry modem => cases h
  | connection modemId connected => cases h
  | restart pool => cases h
  | added i =>
      cases hstage : x.stage <;> simp only [Send.step, hstage] at h <;> try cases h
      exact ⟨rfl, rfl, Or.inl ⟨rfl, rfl⟩⟩
  | addThrew i err =>
      cases hstage : x.stage <;> simp only [Send.step, hstage] at h <;> try cases h
      exact ⟨rfl, rfl, Or.inr ⟨_, _, rfl, rfl, writes_addFailedPatch err⟩⟩
  | start i =>
      cases hstage : x.stage <;> simp only [Send.step, hstage] at h <;> try cases h
      cases chosen with
      | ok m =>
          obtain ⟨rfl, rfl⟩ := Prod.mk.inj (Option.some.inj h)
          exact ⟨rfl, rfl, Or.inl ⟨rfl, rfl⟩⟩
      | error t =>
          obtain ⟨rfl, rfl⟩ := Prod.mk.inj (Option.some.inj h)
          exact ⟨rfl, rfl, Or.inl ⟨rfl, rfl⟩⟩
  | call i =>
      cases hstage : x.stage <;> simp only [Send.step, hstage] at h <;> try cases h
      exact ⟨rfl, rfl, Or.inl ⟨rfl, rfl⟩⟩
  | resolved i reference now =>
      cases hstage : x.stage <;> simp only [Send.step, hstage] at h <;> try cases h
      exact ⟨rfl, rfl, Or.inr ⟨_, _, rfl, rfl, writes_sentPatch now reference _⟩⟩
  | rejected i err =>
      cases hstage : x.stage <;> simp only [Send.step, hstage] at h <;> try cases h
      exact ⟨rfl, rfl, Or.inl ⟨rfl, rfl⟩⟩
  | failed i =>
      cases hstage : x.stage <;> simp only [Send.step, hstage] at h <;> try cases h
      exact ⟨rfl, rfl, Or.inr ⟨_, _, rfl, rfl, writes_failedPatch _ _⟩⟩

/-- Everything a step of the system can do. -/
theorem step_cases {s s' : State} {e : Event} (h : step s e = some s') :
    (∃ entry modem, e = .post entry modem ∧ getLog s.rows entry.id = none ∧
      s' = { s with rows := s.rows ++ [logEntry entry modem]
                    sends := s.sends ++ [newSend entry.id modem] }) ∨
    (∃ modemId connected, e = .connection modemId connected ∧
      s' = { s with pool := setConnected s.pool modemId connected }) ∨
    (∃ pool, e = .restart pool ∧ s' = { s with sends := s.sends.map Send.restarted, pool }) ∨
    (∃ i x x' patch, e.send = some i ∧ s.sends[i]? = some x ∧
      x.step (choice s x e).1 e = some (x', patch) ∧
      s' = { rows := applyPatch s.rows x.logId patch
             sends := s.sends.set i x'
             pool := (choice s x e).2 }) := by
  have hsend (i : Nat) (hi : e.send = some i)
      (hstep : (match s.sends[i]? with
        | none => none
        | some x =>
            match x.step (choice s x e).1 e with
            | none => none
            | some (x', patch) =>
                some { rows := applyPatch s.rows x.logId patch
                       sends := s.sends.set i x'
                       pool := (choice s x e).2 }) = some s') :
      ∃ i x x' patch, e.send = some i ∧ s.sends[i]? = some x ∧
        x.step (choice s x e).1 e = some (x', patch) ∧
        s' = { rows := applyPatch s.rows x.logId patch
               sends := s.sends.set i x'
               pool := (choice s x e).2 } := by
    cases hx : s.sends[i]? with
    | none => simp [hx] at hstep
    | some x =>
        cases hx' : x.step (choice s x e).1 e with
        | none => simp [hx, hx'] at hstep
        | some r =>
            obtain ⟨x', patch⟩ := r
            simp only [hx, hx'] at hstep
            exact ⟨i, x, x', patch, hi, hx, hx', (Option.some.inj hstep).symm⟩
  cases e with
  | post entry modem =>
      refine Or.inl ⟨entry, modem, rfl, ?_⟩
      cases hrow : getLog s.rows entry.id with
      | some row =>
          have hdup : getLog s.rows (logEntry entry modem).id = some row := hrow
          simp [step, appendLog, hdup] at h
      | none =>
          have hfree : getLog s.rows (logEntry entry modem).id = none := hrow
          simp only [step, appendLog, hfree] at h
          exact ⟨rfl, (Option.some.inj h).symm⟩
  | connection modemId connected =>
      exact Or.inr (Or.inl ⟨modemId, connected, rfl, (Option.some.inj h).symm⟩)
  | restart pool => exact Or.inr (Or.inr (Or.inl ⟨pool, rfl, (Option.some.inj h).symm⟩))
  | added i => exact Or.inr (Or.inr (Or.inr (hsend i rfl h)))
  | addThrew i err => exact Or.inr (Or.inr (Or.inr (hsend i rfl h)))
  | start i => exact Or.inr (Or.inr (Or.inr (hsend i rfl h)))
  | call i => exact Or.inr (Or.inr (Or.inr (hsend i rfl h)))
  | resolved i reference now => exact Or.inr (Or.inr (Or.inr (hsend i rfl h)))
  | rejected i err => exact Or.inr (Or.inr (Or.inr (hsend i rfl h)))
  | failed i => exact Or.inr (Or.inr (Or.inr (hsend i rfl h)))

/-! ## Rows and sends -/

/-- Every send has a row of its own, whose status is the one written last. -/
structure RowsInv (s : State) : Prop where
  nodup : (s.sends.map (·.logId)).Nodup
  row : ∀ x ∈ s.sends, ∃ row w, getLog s.rows x.logId = some row ∧ x.writes.getLast? = some w ∧
    row.status = w.status.text

theorem rowsInv_start (pool : ModemPool) : RowsInv (start pool) :=
  ⟨by simp [start], by simp [start]⟩

theorem rowsInv_step {s s' : State} {e : Event} (h : RowsInv s) (hstep : step s e = some s') :
    RowsInv s' := by
  rcases step_cases hstep with ⟨entry, modem, -, hfree, rfl⟩ | ⟨modemId, connected, -, rfl⟩ |
    ⟨pool, -, rfl⟩ | ⟨i, x, x', patch, -, hx, hx', rfl⟩
  · have hnew : ∀ x ∈ s.sends, x.logId ≠ entry.id := by
      intro x hx he
      obtain ⟨row, -, hrow, -⟩ := h.row x hx
      rw [he, hfree] at hrow
      cases hrow
    refine ⟨?_, ?_⟩
    · exact Keyed.nodup_append h.nodup hnew
    · intro x hx
      rcases List.mem_append.mp hx with hx | hx
      · obtain ⟨row, w, hrow, hw⟩ := h.row x hx
        refine ⟨row, w, ?_, hw⟩
        exact (@appendLog_other s.rows (logEntry entry modem) _ (hnew x hx)).trans hrow
      · obtain rfl := List.mem_singleton.mp hx
        exact ⟨_, _, (@appendLog_self s.rows (logEntry entry modem) hfree).2, rfl, rfl⟩
  · exact ⟨h.nodup, h.row⟩
  · have hsame (x : Send) : x.restarted.logId = x.logId ∧ x.restarted.writes = x.writes := by
      unfold Send.restarted
      split <;> exact ⟨rfl, rfl⟩
    refine ⟨?_, ?_⟩
    · rw [List.map_map]
      have hmap : ((·.logId) ∘ Send.restarted) = fun x : Send => x.logId :=
        funext fun x => (hsame x).1
      rw [hmap]
      exact h.nodup
    · intro y hy
      obtain ⟨x, hx, rfl⟩ := List.mem_map.mp hy
      rw [(hsame x).1, (hsame x).2]
      exact h.row x hx
  · obtain ⟨hid, -, hwrites⟩ := Send.step_writes hx'
    have hmem := List.mem_of_getElem? hx
    refine ⟨by rw [Keyed.map_key_set hx hid]; exact h.nodup, ?_⟩
    intro y hy
    rcases Keyed.mem_set_cases hx h.nodup hy with rfl | ⟨hy, hne⟩
    · obtain ⟨row, w, hrow, hw, hst⟩ := h.row x hmem
      rcases hwrites with ⟨rfl, hsame⟩ | ⟨p, w', rfl, hadd, hp⟩
      · rw [hid, hsame]
        exact ⟨row, w, hrow, hw, hst⟩
      · obtain ⟨row', hrow', hst'⟩ := updateLog_status hrow hp.status hp.bindable
        rw [hid, hadd]
        exact ⟨row', w', hrow', by simp, hst'⟩
    · obtain ⟨row, w, hrow, hw⟩ := h.row y hy
      refine ⟨row, w, ?_, hw⟩
      cases patch with
      | none => exact hrow
      | some p => exact (updateLog_other s.rows p hne).trans hrow

theorem rowsInv_run {pool : ModemPool} {es : List Event} {s : State}
    (h : run (start pool) es = some s) : RowsInv s :=
  Runs.run_induct (A := fun _ => True) (fun _ _ _ hs _ hstep => rowsInv_step hs hstep)
    (rowsInv_start pool) (fun _ _ => trivial) h

end SmsGateway.SendQueue
