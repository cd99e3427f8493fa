import SmsGateway.Serial.Driver
import SmsGateway.Serial.Lines
import SmsGateway.Lib.Runs

/-!
# The serial driver as an event machine

`utils/modem.js` below the level of commands: the lock, the current command with
its timer, the waiters for unsolicited lines, and the events of the port. Only the
holder of the lock issues commands and awaits them, so `currentCommand` is kept
with the holder.
-/

namespace SmsGateway.Serial.Machine

open SmsGateway Serial
open Lib

abbrev reconnectDelayMs : Nat := 5000
abbrev quietMs : Nat := 2000

/-! ## Calls -/

/-- The operations that take the lock. -/
inductive Job where
  | initModem
  | ping
  | sendSMS (recipient message : JsString)
  | getMessages (persist : Bool)
  | runUssd (code : JsString)
  deriving DecidableEq, Repr

inductive Result where
  | nothing
  | pong (b : Bool)
  | reference (ref : Option JsString)
  | messages (l : List Message)
  | reply (line : Option JsString)
  deriving DecidableEq, Repr

def Job.prog (smsc : JsString) : Job → Prog Result
  | .initModem => (fun _ => .nothing) <$> Serial.initModem
  | .ping => .pong <$> Serial.ping
  | .sendSMS recipient message => .reference <$> Serial.sendSMS smsc recipient message
  | .getMessages persist => .messages <$> Serial.getMessages persist
  | .runUssd code => .reply <$> Serial.runUssd code

/-- `currentCommand`; its timer goes off at `deadline`. -/
structure Command where
  request : Request
  lines : List JsString
  deadline : Nat
  deriving DecidableEq, Repr

/-- An entry of `urcWaiters`, with the call that registered it. -/
structure Waiter where
  id : Nat
  pre : JsString
  owner : Nat
  deadline : Nat
  deriving DecidableEq, Repr

/-- What the holder of the lock does or awaits, and how it goes on. -/
inductive Phase where
  | ready (p : Prog Result)
  /-- the sleep at the start of `transact` -/
  | quiet (deadline : Nat) (r : Request) (k : Except JsError (List JsString) → Prog Result)
  | command (c : Command) (k : Except JsError (List JsString) → Prog Result)
  | urc (waiter : Nat) (k : Option JsString → Prog Result)
  | persist (messages : List Message) (k : Except JsError Unit → Prog Result)

/-- The rest of the call from the operation it awaits on. -/
def Phase.prog : Phase → Prog Result
  | .ready p => p
  | .quiet _ r k => .call (.transact r) k
  | .command c k => .call (.transact c.request) k
  | .urc w k => .call (.urc w) k
  | .persist messages k => .call (.persist messages) k

/-- The command is the body of a single SMS. -/
def isBody (r : Request) : Bool := r.label == js "CMGS body"

/-- The holder of the lock. The last three fields are history: the body has been
written, an error line has answered it, its command ended without the modem. -/
structure Running where
  id : Nat
  job : Job
  phase : Phase
  sent : Bool
  refused : Bool
  lost : Bool

structure Finished where
  id : Nat
  job : Job
  sent : Bool
  refused : Bool
  lost : Bool
  result : Except JsError Result
  deriving DecidableEq

structure State where
  smsc : JsString
  now : Nat
  connected : Bool
  opening : Bool
  closing : Bool
  reconnectTimer : Option Nat
  rxBuffer : JsString
  /-- the lines of the last chunk that `handleData` has still to hand on -/
  scan : Option (List JsString)
  urcWaiters : List Waiter
  /-- the waiters whose promise has been resolved -/
  settledUrcs : List (Nat × Option JsString)
  quietUntil : Nat
  queue : List (Nat × Job)
  running : Option Running
  nextCall : Nat
  nextWaiter : Nat
  results : List Finished

def start (smsc : JsString) : State :=
  { smsc, now := 0, connected := false, opening := true, closing := false, reconnectTimer := none
    rxBuffer := [], scan := none, urcWaiters := [], settledUrcs := [], quietUntil := 0
    queue := [], running := none, nextCall := 0, nextWaiter := 0, results := [] }

inductive Event where
  | call (job : Job)
  /-- the port delivers a chunk -/
  | data (text : JsString)
  /-- the loop of `handleData` -/
  | scan
  /-- the holder of the lock runs on, or the next call takes the lock -/
  | microtask (random : Nat)
  | commandTimeout
  | waiterTimeout (waiter : Nat)
  | quietOver
  /-- a write's callback reports an error; the text may have left the port nevertheless -/
  | writeFailed (message : JsString) (reached : Bool)
  | persisted (answer : Except JsError Unit)
  | opened (ok : Bool)
  | portClosed
  | reconnect
  | close
  | tick (ms : Nat)

/-! ## Errors -/

def notConnected : JsError := newError (js "Modem is not connected")

def portClosedError : JsError := newError (js "Serial port closed")

def shuttingDown : JsError := newError (js "Shutting down")

def respondedError (line label : JsString) : JsError :=
  newError (js "Modem responded \"" ++ line ++ js "\" to " ++ label)

def writeFailedError (message : JsString) : JsError :=
  newError (js "Serial write failed: " ++ message)

def timeoutError (label : JsString) : JsError :=
  { newError (js "Timed out waiting for modem response to " ++ label) with
    code := some (js "TIMEOUT") }

/-! ## The holder of the lock -/

/-- `settleCurrent`. -/
def Running.settle (r : Running) (err : Option JsError) : Running :=
  match r.phase with
  | .command c k =>
      { r with phase := .ready (k (match err with | none => .ok c.lines | some e => .error e)) }
  | _ => r

/-- `handleLine` for a line that no waiter takes. -/
def Running.receive (r : Running) (line : JsString) : Running :=
  match r.phase with
  | .command c k =>
      let r := { r with phase := .command { c with lines := c.lines ++ [line] } k }
      if isTerminalLine line then
        if isErrorLine line then
          { r.settle (some (respondedError line c.request.label)) with
            refused := r.refused || isBody c.request }
        else r.settle none
      else r
  | _ => r

def Running.resolveUrc (r : Running) (waiter : Nat) (line : Option JsString) : Running :=
  match r.phase with
  | .urc w k => if w = waiter then { r with phase := .ready (k line) } else r
  | _ => r

/-- The command ends without an answer of the modem. -/
def Running.abandon (r : Running) (err : JsError) : Running :=
  match r.phase with
  | .command c _ => { r.settle (some err) with lost := r.lost || isBody c.request }
  | _ => r

/-- A body that did not leave the port counts as not written. -/
def Running.failWrite (r : Running) (message : JsString) (reached : Bool) : Running :=
  if reached then r.abandon (writeFailedError message)
  else
    match r.phase with
    | .command c _ =>
        { r.settle (some (writeFailedError message)) with sent := r.sent && !isBody c.request }
    | _ => r

def Running.bodyPending (r : Running) : Bool :=
  match r.phase with
  | .command c _ => isBody c.request
  | _ => false

def Running.commanding (r : Running) : Bool :=
  match r.phase with
  | .command _ _ => true
  | _ => false

/-- The end of `transact`. -/
def Running.issue (r : Running) (connected : Bool) (now : Nat) (req : Request)
    (k : Except JsError (List JsString) → Prog Result) : Running :=
  if connected then
    { r with phase := .command ⟨req, [], now + req.timeoutMs⟩ k, sent := r.sent || isBody req }
  else { r with phase := .ready (k (.error notConnected)) }

/-! ## The driver -/

def State.mapRunning (s : State) (f : Running → Running) : State :=
  { s with running := s.running.map f }

def resolveWaiter (s : State) (w : Waiter) (line : Option JsString) : State :=
  { s with settledUrcs := (w.id, line) :: s.settledUrcs
           running := s.running.map (·.resolveUrc w.id line) }

def takes (line : JsString) (w : Waiter) : Bool := startsWith line w.pre

def handleLine (s : State) (line : JsString) : State :=
  match s.urcWaiters.find? (takes line) with
  | some w =>
      resolveWaiter { s with urcWaiters := s.urcWaiters.eraseP (takes line) } w (some line)
  | none => s.mapRunning (·.receive line)

/-- `failCurrentCommand`. -/
def failCurrentCommand (s : State) (err : JsError) : State :=
  s.urcWaiters.foldl (fun s w => resolveWaiter s w none)
    { s.mapRunning (·.abandon err) with urcWaiters := [] }

def connect (s : State) : State :=
  if s.closing then s else { s with rxBuffer := [], opening := true }

def scheduleReconnect (s : State) : State :=
  if s.closing || s.reconnectTimer.isSome then s
  else { s with reconnectTimer := some (s.now + reconnectDelayMs) }

def enqueue (s : State) (job : Job) : State :=
  { s with queue := s.queue ++ [(s.nextCall, job)], nextCall := s.nextCall + 1 }

def issue (s : State) (r : Running) (req : Request)
    (k : Except JsError (List JsString) → Prog Result) : State :=
  { s with running := some (r.issue s.connected s.now req k)
           rxBuffer := if s.connected then [] else s.rxBuffer }

def finish (s : State) (r : Running) (result : Except JsError Result) : State :=
  { s with running := none
           results := s.results ++ [⟨r.id, r.job, r.sent, r.refused, r.lost, result⟩] }

def goOn (s : State) (r : Running) (p : Prog Result) : State :=
  { s with running := some { r with phase := .ready p } }

/-- The holder runs up to its next `await`. -/
def advance (s : State) (r : Running) (p : Prog Result) (random : Nat) : State :=
  match p with
  | .ret a => finish s r (.ok a)
  | .fail e => finish s r (.error e)
  | .call (.transact req) k =>
      if s.now < s.quietUntil then
        { s with running := some { r with phase := .quiet s.quietUntil req k } }
      else issue s r req k
  | .call .writeEsc k => goOn s r (k ())
  | .call (.waitForUrc pre timeoutMs) k =>
      { goOn s r (k s.nextWaiter) with
        urcWaiters := s.urcWaiters ++ [⟨s.nextWaiter, pre, r.id, s.now + timeoutMs⟩]
        nextWaiter := s.nextWaiter + 1 }
  | .call (.urc w) k =>
      match s.settledUrcs.lookup w with
      | some line => goOn s r (k line)
      | none => { s with running := some { r with phase := .urc w k } }
  | .call (.persist messages) k =>
      { s with running := some { r with phase := .persist messages k } }
  | .call (.randomInt max) k => goOn s r (k (random % max))

theorem advance_transact (s : State) (r : Running) (req : Request)
    (k : Except JsError (List JsString) → Prog Result) (random : Nat) :
    advance s r (.call (.transact req) k) random =
      if s.now < s.quietUntil then
        { s with running := some { r with phase := .quiet s.quietUntil req k } }
      else issue s r req k := rfl

theorem advance_urc (s : State) (r : Running) (w : Nat) (k : Option JsString → Prog Result)
    (random : Nat) :
    advance s r (.call (.urc w) k) random =
      match s.settledUrcs.lookup w with
      | some line => goOn s r (k line)
      | none => { s with running := some { r with phase := .urc w k } } := rfl

def runMicrotask (s : State) (random : Nat) : Option State :=
  match s.running with
  | some r =>
      match r.phase with
      | .ready p => some (advance s r p random)
      | _ => none
  | none =>
      match s.queue with
      | [] => none
      | (id, job) :: queue =>
          some { s with queue
                        running := some ⟨id, job, .ready (job.prog s.smsc), false, false, false⟩ }

/-- A prompt would settle the current command. -/
def expectsPrompt (s : State) : Bool :=
  match s.running with
  | some r =>
      match r.phase with
      | .command c _ => c.request.expectPrompt
      | _ => false
  | none => false

/-- One turn of the loop of `handleData`, and its check for the prompt behind the loop. -/
def runScan (s : State) : Option State :=
  match s.scan with
  | none => none
  | some (line :: rest) => some (handleLine { s with scan := some rest } line)
  | some [] =>
      if expectsPrompt s && startsWith (trimStart s.rxBuffer) (js ">") then
        some ({ s with scan := none, rxBuffer := [] }.mapRunning (·.settle none))
      else some { s with scan := none }

/-- A microtask is due. -/
def due (s : State) : Bool :=
  match s.running with
  | some r =>
      match r.phase with
      | .ready _ => true
      | _ => false
  | none => s.queue != []

def react (s : State) : Event → Option State
  | .call job => some (enqueue s job)
  | .data text =>
      if s.connected then
        let lines := readLines (s.rxBuffer ++ text)
        some { s with rxBuffer := lines.2, scan := some lines.1 }
      else none
  | .commandTimeout =>
      match s.running with
      | some r =>
          match r.phase with
          | .command c _ =>
              if c.deadline ≤ s.now then
                some ({ s with quietUntil := s.now + quietMs }.mapRunning
                  (·.settle (some (timeoutError c.request.label))))
              else none
          | _ => none
      | none => none
  | .waiterTimeout waiter =>
      match s.urcWaiters.find? (·.id == waiter) with
      | some w =>
          if w.deadline ≤ s.now then
            some (resolveWaiter
              { s with urcWaiters := s.urcWaiters.filter (·.id != waiter) } w none)
          else none
      | none => none
  | .quietOver =>
      match s.running with
      | some r =>
          match r.phase with
          | .quiet deadline req k => if deadline ≤ s.now then some (issue s r req k) else none
          | _ => none
      | none => none
  | .writeFailed message reached => some (s.mapRunning (·.failWrite message reached))
  | .persisted answer =>
      match s.running with
      | some r =>
          match r.phase with
          | .persist _ k => some (goOn s r (k answer))
          | _ => none
      | none => none
  | .opened ok =>
      if s.opening then
        if ok then some (enqueue { s with opening := false, connected := true } .initModem)
        else some (scheduleReconnect { s with opening := false })
      else none
  | .portClosed =>
      if s.connected then
        some (scheduleReconnect (failCurrentCommand { s with connected := false } portClosedError))
      else none
  | .reconnect =>
      match s.reconnectTimer with
      | some t => if t ≤ s.now then some (connect { s with reconnectTimer := none }) else none
      | none => none
  | .close =>
      some (failCurrentCommand { s with closing := true, reconnectTimer := none } shuttingDown)
  | .tick ms => some { s with now := s.now + ms }
  | .scan => none
  | .microtask _ => none

/-- The loop of `handleData` runs to its end first, then the microtasks, then the next event. -/
def step (s : State) (e : Event) : Option State :=
  match e with
  | .scan => runScan s
  | .microtask random => if s.scan.isNone && due s then runMicrotask s random else none
  | e => if s.scan.isNone && !due s then react s e else none

theorem step_cases {s s' : State} {e : Event} (h : step s e = some s') :
    (e = .scan ∧ runScan s = some s') ∨
      (∃ random, e = .microtask random ∧ s.scan = none ∧ runMicrotask s random = some s') ∨
      (s.scan = none ∧ due s = false ∧ react s e = some s') := by
  have hreact (h : (if s.scan.isNone && !due s then react s e else none) = some s') :
      s.scan = none ∧ due s = false ∧ react s e = some s' := by
    split at h
    case isTrue hidle =>
      simp only [Bool.and_eq_true, Option.isNone_iff_eq_none, Bool.not_eq_true'] at hidle
      exact ⟨hidle.1, hidle.2, h⟩
    case isFalse => cases h
  cases e with
  | scan => exact Or.inl ⟨rfl, h⟩
  | microtask random =>
      rw [step] at h
      split at h
      case isTrue hdue =>
        simp only [Bool.and_eq_true, Option.isNone_iff_eq_none] at hdue
        exact Or.inr (Or.inl ⟨random, rfl, hdue.1, h⟩)
      case isFalse => cases h
  | _ => exact Or.inr (Or.inr (hreact h))

abbrev run : State → List Event → Option State := Runs.run step

/-- The modem answers a command with a line, and the call goes on. -/
def answered (line : JsString) : List Event :=
  [.data (line ++ js "\r\n"), .scan, .scan, .microtask 0]

/-- The port opens and `initModem` runs through. -/
def boot : List Event :=
  [.opened true, .microtask 0, .microtask 0] ++ answered (js "OK") ++ answered (js "OK") ++
    answered (js "OK")

/-! ## Properties of calls

What every step keeps of the holder of the lock, and what the result of a call then
satisfies, is reduced to the functions on `Running` above. -/

theorem settle_job (r : Running) (err : Option JsError) : (r.settle err).job = r.job := by
  unfold Running.settle
  split <;> rfl

theorem abandon_job (r : Running) (err : JsError) : (r.abandon err).job = r.job := by
  unfold Running.abandon
  split
  · exact settle_job r _
  · rfl

theorem failWrite_job (r : Running) (message : JsString) (reached : Bool) :
    (r.failWrite message reached).job = r.job := by
  unfold Running.failWrite
  split
  · exact abandon_job r _
  · split
    · exact settle_job r _
    · rfl

theorem receive_job (r : Running) (line : JsString) : (r.receive line).job = r.job := by
  unfold Running.receive
  split
  · dsimp only
    split
    · split
      · exact settle_job _ _
      · exact settle_job _ _
    · rfl
  · rfl

theorem resolveUrc_job (r : Running) (waiter : Nat) (line : Option JsString) :
    (r.resolveUrc waiter line).job = r.job := by
  unfold Running.resolveUrc
  split
  · split <;> rfl
  · rfl

theorem issue_job (r : Running) (connected : Bool) (now : Nat) (req : Request)
    (k : Except JsError (List JsString) → Prog Result) :
    (r.issue connected now req k).job = r.job := by
  unfold Running.issue
  split <;> rfl

/-- The command of a call may be abandoned only where `A` holds. -/
structure Keeps (P : Running → Prop) (Q : Finished → Prop) (A : Running → Prop) : Prop where
  new : ∀ id job smsc, P ⟨id, job, .ready (job.prog smsc), false, false, false⟩
  prompt : ∀ {r}, P r → P (r.settle none)
  timeout : ∀ {r} label, P r → P (r.settle (some (timeoutError label)))
  receive : ∀ {r} line, P r → P (r.receive line)
  resolveUrc : ∀ {r} waiter line, P r → P (r.resolveUrc waiter line)
  abandon : ∀ {r e}, e.code = none → e.confirmTimeout = false → A r → P r → P (r.abandon e)
  failWrite : ∀ {r} message, P r → P (r.failWrite message false)
  issue : ∀ {r req k} connected now, r.phase.prog = .call (.transact req) k →
    r.bodyPending = false → P r → P (r.issue connected now req k)
  answer : ∀ {r op k} (a : Ans op), r.phase.prog = .call op k → (∀ req, op ≠ .transact req) →
    r.bodyPending = false → P r → P { r with phase := .ready (k a) }
  await : ∀ {r} ph, ph.prog = r.phase.prog → r.bodyPending = false →
    Running.bodyPending { r with phase := ph } = false → P r → P { r with phase := ph }
  finish : ∀ {r} result,
    r.phase.prog = (match result with | .ok a => .ret a | .error e => .fail e) →
    r.bodyPending = false → P r → Q ⟨r.id, r.job, r.sent, r.refused, r.lost, result⟩

/-- The holder, the results, and the results of an earlier state. -/
structure CallInv (P : Running → Prop) (Q : Finished → Prop) (R : List Finished) (s : State) :
    Prop where
  running : ∀ r, s.running = some r → P r
  results : ∀ f ∈ s.results, Q f
  old : R ⊆ s.results

section

variable {P : Running → Prop} {Q : Finished → Prop} {A : Running → Prop} {R : List Finished}
  {s s' : State}

theorem callInv_congr (h : CallInv P Q R s) (hrun : s'.running = s.running)
    (hres : s'.results = s.results) : CallInv P Q R s' :=
  ⟨by rw [hrun]; exact h.running, by rw [hres]; exact h.results, by rw [hres]; exact h.old⟩

theorem callInv_map {f : Running → Running} (h : CallInv P Q R s)
    (hf : ∀ r, s.running = some r → P r → P (f r))
    (hrun : s'.running = s.running.map f) (hres : s'.results = s.results) : CallInv P Q R s' := by
  refine ⟨?_, by rw [hres]; exact h.results, by rw [hres]; exact h.old⟩
  intro r' hr'
  rw [hrun] at hr'
  obtain ⟨r, hr, rfl⟩ := Option.map_eq_some_iff.mp hr'
  exact hf r hr (h.running r hr)

/-- The running call goes on in another phase. -/
theorem callInv_set {r r' : Running} (h : CallInv P Q R s) (hr : s.running = some r)
    (hrun : s'.running = some r') (hres : s'.results = s.results) (hf : P r → P r') :
    CallInv P Q R s' := by
  refine ⟨?_, by rw [hres]; exact h.results, by rw [hres]; exact h.old⟩
  intro x hx
  obtain rfl : r' = x := Option.some.inj (hrun.symm.trans hx)
  exact hf (h.running r hr)

theorem callInv_resolveWaiter (hK : Keeps P Q A) (h : CallInv P Q R s) (w : Waiter)
    (line : Option JsString) : CallInv P Q R (resolveWaiter s w line) :=
  callInv_map h (f := (·.resolveUrc w.id line)) (fun _ _ hr => hK.resolveUrc w.id line hr) rfl rfl

theorem callInv_failCurrentCommand (hK : Keeps P Q A) (h : CallInv P Q R s) {e : JsError}
    (hcode : e.code = none) (he : e.confirmTimeout = false) (hA : ∀ r, s.running = some r → A r) :
    CallInv P Q R (failCurrentCommand s e) := by
  have hfold (ws : List Waiter) (s : State) (h : CallInv P Q R s) :
      CallInv P Q R (ws.foldl (fun s w => resolveWaiter s w none) s) := by
    induction ws generalizing s with
    | nil => exact h
    | cons w ws ih => exact ih _ (callInv_resolveWaiter hK h w none)
  refine hfold _ _ ?_
  exact callInv_map h (f := (·.abandon e)) (fun r hr hp => hK.abandon hcode he (hA r hr) hp) rfl rfl

theorem callInv_handleLine (hK : Keeps P Q A) (h : CallInv P Q R s) (line : JsString) :
    CallInv P Q R (handleLine s line) := by
  unfold handleLine
  split
  · refine callInv_resolveWaiter hK ?_ _ _
    exact callInv_congr h rfl rfl
  · exact callInv_map h (f := (·.receive line)) (fun _ _ hr => hK.receive line hr) rfl rfl

theorem callInv_scheduleReconnect (h : CallInv P Q R s) : CallInv P Q R (scheduleReconnect s) := by
  unfold scheduleReconnect
  split
  · exact h
  · exact callInv_congr h rfl rfl

theorem callInv_finish (hK : Keeps P Q A) {r : Running} {result : Except JsError Result}
    (h : CallInv P Q R s) (hr : s.running = some r) (hbody : r.bodyPending = false)
    (hprog : r.phase.prog = match result with | .ok a => .ret a | .error e => .fail e) :
    CallInv P Q R (finish s r result) := by
  refine ⟨fun r' hr' => by simp [finish] at hr', ?_, List.subset_append_of_subset_left _ h.old⟩
  intro f hf
  rcases List.mem_append.mp hf with hf | hf
  · exact h.results f hf
  · rw [List.mem_singleton.mp hf]
    exact hK.finish result hprog hbody (h.running r hr)

theorem callInv_advance (hK : Keeps P Q A) {r : Running} {p : Prog Result} (h : CallInv P Q R s)
    (hr : s.running = some r) (hph : r.phase = .ready p) (random : Nat) :
    CallInv P Q R (advance s r p random) := by
  have hbody : r.bodyPending = false := by rw [Running.bodyPending, hph]
  have hprog : r.phase.prog = p := by rw [hph]; rfl
  cases p with
  | ret a => exact callInv_finish hK h hr hbody hprog
  | fail e => exact callInv_finish hK h hr hbody hprog
  | call op k =>
      cases op with
      | transact req =>
          rw [advance_transact]
          split
          · exact callInv_set h hr rfl rfl (hK.await (.quiet _ req k) hprog.symm hbody rfl)
          · exact callInv_set h hr rfl rfl (hK.issue _ _ hprog hbody)
      | writeEsc => exact callInv_set h hr rfl rfl (hK.answer () hprog (fun _ => nofun) hbody)
      | waitForUrc pre timeoutMs =>
          exact callInv_set h hr rfl rfl (hK.answer _ hprog (fun _ => nofun) hbody)
      | urc w =>
          rw [advance_urc]
          split
          · exact callInv_set h hr rfl rfl (hK.answer _ hprog (fun _ => nofun) hbody)
          · exact callInv_set h hr rfl rfl (hK.await (.urc w k) hprog.symm hbody rfl)
      | persist messages =>
          exact callInv_set h hr rfl rfl (hK.await (.persist messages k) hprog.symm hbody rfl)
      | randomInt max =>
          exact callInv_set h hr rfl rfl (hK.answer _ hprog (fun _ => nofun) hbody)

theorem callInv_runMicrotask (hK : Keeps P Q A) {random : Nat} (h : CallInv P Q R s)
    (hs : runMicrotask s random = some s') : CallInv P Q R s' := by
  unfold runMicrotask at hs
  split at hs
  case h_1 r hr =>
    split at hs
    case h_1 p hph =>
      obtain rfl := Option.some.inj hs
      exact callInv_advance hK h hr hph random
    case h_2 => cases hs
  case h_2 hr =>
    split at hs
    case h_1 => cases hs
    case h_2 id job queue hq =>
      obtain rfl := Option.some.inj hs
      refine ⟨?_, h.results, h.old⟩
      intro r' hr'
      obtain rfl := Option.some.inj hr'
      exact hK.new id job s.smsc

theorem callInv_runScan (hK : Keeps P Q A) (h : CallInv P Q R s) (hs : runScan s = some s') :
    CallInv P Q R s' := by
  unfold runScan at hs
  split at hs
  · cases hs
  · obtain rfl := Option.some.inj hs
    refine callInv_handleLine hK ?_ _
    exact callInv_congr h rfl rfl
  · split at hs
    · obtain rfl := Option.some.inj hs
      exact callInv_map h (f := (·.settle none)) (fun _ _ hr => hK.prompt hr) rfl rfl
    · obtain rfl := Option.some.inj hs
      exact callInv_congr h rfl rfl

/-- The event ends the current command without an answer of the modem. -/
def Event.abandons : Event → Bool
  | .portClosed => true
  | .close => true
  | .writeFailed _ reached => reached
  | _ => false

theorem callInv_react (hK : Keeps P Q A) {e : Event} (h : CallInv P Q R s)
    (hA : e.abandons = true → ∀ r, s.running = some r → A r) (hs : react s e = some s') :
    CallInv P Q R s' := by
  cases e with
  | call job =>
      obtain rfl := Option.some.inj hs
      exact callInv_congr h rfl rfl
  | data text =>
      rw [react] at hs
      split at hs
      · obtain rfl := Option.some.inj hs
        exact callInv_congr h rfl rfl
      · cases hs
  | commandTimeout =>
      rw [react] at hs
      split at hs
      case h_1 r hr =>
        split at hs
        case h_1 c k hph =>
          split at hs
          · obtain rfl := Option.some.inj hs
            exact callInv_map h (f := (·.settle (some (timeoutError c.request.label))))
              (fun _ _ hr => hK.timeout _ hr) rfl rfl
          · cases hs
        case h_2 => cases hs
      case h_2 => cases hs
  | waiterTimeout waiter =>
      rw [react] at hs
      split at hs
      case h_1 w hw =>
        split at hs
        · obtain rfl := Option.some.inj hs
          refine callInv_resolveWaiter hK ?_ _ _
          exact callInv_congr h rfl rfl
        · cases hs
      case h_2 => cases hs
  | quietOver =>
      rw [react] at hs
      split at hs
      case h_1 r hr =>
        split at hs
        case h_1 deadline req k hph =>
          split at hs
          · obtain rfl := Option.some.inj hs
            exact callInv_set h hr rfl rfl
              (hK.issue _ _ (by rw [hph]; rfl) (by rw [Running.bodyPending, hph]))
          · cases hs
        case h_2 => cases hs
      case h_2 => cases hs
  | writeFailed message reached =>
      obtain rfl := Option.some.inj hs
      refine callInv_map h (f := (·.failWrite message reached)) ?_ rfl rfl
      intro r hr hp
      cases reached
      · exact hK.failWrite message hp
      · exact hK.abandon rfl rfl (hA rfl r hr) hp
  | persisted answer =>
      rw [react] at hs
      split at hs
      case h_1 r hr =>
        split at hs
        case h_1 messages k hph =>
          obtain rfl := Option.some.inj hs
          have hprog : r.phase.prog = .call (.persist messages) k := by rw [hph]; rfl
          have hbody : r.bodyPending = false := by rw [Running.bodyPending, hph]
          exact callInv_set h hr rfl rfl (hK.answer answer hprog (fun _ => nofun) hbody)
        case h_2 => cases hs
      case h_2 => cases hs
  | opened ok =>
      rw [react] at hs
      split at hs
      · split at hs
        · obtain rfl := Option.some.inj hs
          exact callInv_congr h rfl rfl
        · obtain rfl := Option.some.inj hs
          refine callInv_scheduleReconnect ?_
          exact callInv_congr h rfl rfl
      · cases hs
  | portClosed =>
      rw [react] at hs
      split at hs
      · obtain rfl := Option.some.inj hs
        refine callInv_scheduleReconnect (callInv_failCurrentCommand hK ?_ rfl rfl (hA rfl))
        exact callInv_congr h rfl rfl
      · cases hs
  | reconnect =>
      rw [react] at hs
      split at hs
      case h_1 t ht =>
        split at hs
        · obtain rfl := Option.some.inj hs
          unfold connect
          split
          · exact callInv_congr h rfl rfl
          · exact callInv_congr h rfl rfl
        · cases hs
      case h_2 => cases hs
  | close =>
      obtain rfl := Option.some.inj hs
      refine callInv_failCurrentCommand hK ?_ rfl rfl (hA rfl)
      exact callInv_congr h rfl rfl
  | tick ms =>
      obtain rfl := Option.some.inj hs
      exact callInv_congr h rfl rfl
  | scan => cases hs
  | microtask random => cases hs

theorem callInv_step (hK : Keeps P Q A) {e : Event} (h : CallInv P Q R s)
    (hA : e.abandons = true → ∀ r, s.running = some r → A r) (hs : step s e = some s') :
    CallInv P Q R s' := by
  rcases step_cases hs with ⟨-, hscan⟩ | ⟨random, -, -, htask⟩ | ⟨-, -, hreact⟩
  · exact callInv_runScan hK h hscan
  · exact callInv_runMicrotask hK h htask
  · exact callInv_react hK h hA hreact

theorem callInv_start (smsc : JsString) : CallInv P Q [] (start smsc) :=
  ⟨fun _ h => (Option.some_ne_none _ h.symm).elim, fun _ h => (List.not_mem_nil h).elim,
    List.nil_subset _⟩

theorem results_subset {e : Event} (hs : step s e = some s') : s.results ⊆ s'.results := by
  have hK : Keeps (fun _ => True) (fun _ => True) (fun _ => True) := by
    constructor <;> intros <;> trivial
  have h : CallInv (fun _ => True) (fun _ => True) s.results s :=
    ⟨fun _ _ => trivial, fun _ _ => trivial, List.Subset.refl _⟩
  exact (callInv_step hK h (fun _ _ _ => trivial) hs).old

end

end SmsGateway.Serial.Machine
