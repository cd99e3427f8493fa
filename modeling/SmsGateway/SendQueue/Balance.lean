import SmsGateway.Lib.Spacing
import SmsGateway.SendQueue.Metrics

/-!
# Balance checks behind failed sends

`maybeCheckBalance` of `config/bull.config.js` in the system of the send jobs. A job that
failed for good may have met an empty SIM, so the worker asks for the balance of the modem it
failed on; a map of times keeps these checks apart.
-/

namespace SmsGateway.SendQueue.Balance

open SmsGateway LogStore Pool Worker SendQueue
open Lib Lib.Spacing

/-- `BALANCE_CHECK_MIN_INTERVAL_MS`. -/
abbrev balanceCheckMinIntervalMs : Int := 10 * 60 * 1000

/-- A USSD session for the balance that the worker asked for, and when. -/
structure Check where
  modemId : JsString
  time : Int
  deriving DecidableEq

structure State where
  queue : SendQueue.State
  /-- the ids of the modems with `supportsUssd` -/
  ussd : List JsString
  lastBalanceCheckAt : List (JsString × Int)
  /-- the modems of the `failed` handlers that have still to get to the check -/
  due : List (Option JsString)
  /-- the checks of this process -/
  checks : List Check
  /-- how many checks the processes before it asked for -/
  earlier : Nat

def start (pool : ModemPool) (ussd : List JsString) : State :=
  ⟨SendQueue.start pool, ussd, [], [], [], 0⟩

/-- `lastBalanceCheckAt.set(id, now)`, as far as `get` sees it. -/
def State.asked (s : State) (id : JsString) (now : Int) : State :=
  { s with lastBalanceCheckAt := (id, now) :: s.lastBalanceCheckAt
           checks := s.checks ++ [⟨id, now⟩] }

def maybeCheckBalance (s : State) (modemId : Option JsString) (now : Int) : State :=
  let id := modemId.getD []
  match if id = [] then none else Pool.get s.queue.pool id with
  | none => s
  | some modem =>
      if !s.ussd.contains modem.id then s
      else
        let last := (s.lastBalanceCheckAt.lookup modem.id).getD 0
        if now - last < balanceCheckMinIntervalMs then s else s.asked modem.id now

/-- The modem of a job whose last attempt has failed with an ordinary error: `isFinal` and not
`unconfirmed`. -/
def finalFailure (q : SendQueue.State) : SendQueue.Event → Option (Option JsString)
  | .failed i =>
      match q.sends[i]? with
      | some x =>
          match x.stage with
          | .threw t _ =>
              if failedStatus (x.attemptsMade + 1) t = .failed then some t.error.modemId else none
          | _ => none
      | none => none
  | _ => none

inductive Event where
  /-- a step of the jobs; a `failed` handler gets to the check later, behind its callback -/
  | send (e : SendQueue.Event)
  | check (j : Nat) (now : Int)
  | restart (pool : ModemPool) (ussd : List JsString)

def isRestart : SendQueue.Event → Bool
  | .restart _ => true
  | _ => false

def step (s : State) : Event → Option State
  | .send e =>
      if isRestart e then none
      else
        (SendQueue.step s.queue e).map fun queue =>
          { s with queue, due := s.due ++ (finalFailure s.queue e).toList }
  | .check j now =>
      match s.due[j]? with
      | some modemId => some (maybeCheckBalance { s with due := s.due.eraseIdx j } modemId now)
      | none => none
  | .restart pool ussd =>
      (SendQueue.step s.queue (.restart pool)).map fun queue =>
        { queue, ussd, lastBalanceCheckAt := [], due := [], checks := []
          earlier := s.earlier + s.checks.length }

abbrev run : State → List Event → Option State := Runs.run step

/-! ## What a check does -/

/-- A check is asked for or it is not. -/
theorem maybeCheckBalance_cases (s : State) (modemId : Option JsString) (now : Int) :
    maybeCheckBalance s modemId now = s ∨
      ∃ id, id ∈ s.ussd ∧
        (s.lastBalanceCheckAt.lookup id).getD 0 + balanceCheckMinIntervalMs ≤ now ∧
        maybeCheckBalance s modemId now = s.asked id now := by
  unfold maybeCheckBalance
  dsimp only
  split
  case h_1 => exact Or.inl rfl
  case h_2 modem _ =>
    split
    case isTrue => exact Or.inl rfl
    case isFalse hussd =>
      split
      case isTrue => exact Or.inl rfl
      case isFalse hlong =>
        refine Or.inr ⟨modem.id, by simpa using hussd, ?_, rfl⟩
        omega

/-- A request that fails for good is one more that ended in `failed`. -/
theorem tally_finalFailure {q q' : SendQueue.State} {e : SendQueue.Event} {modemId : Option JsString}
    (h : Metrics.Accounted q) (hfinal : finalFailure q e = some modemId)
    (hstep : SendQueue.step q e = some q') :
    Metrics.tally q .failed + 1 ≤ Metrics.tally q' .failed := by
  cases e with
  | failed i =>
      simp only [finalFailure] at hfinal
      split at hfinal
      case h_2 => cases hfinal
      case h_1 x hx =>
        split at hfinal
        case h_2 => cases hfinal
        case h_1 t a hstage =>
          split at hfinal
          case isFalse => cases hfinal
          case isTrue hstatus =>
            have hopen : ¬Metrics.reached x = .failed := by
              intro he
              have hdone := (Metrics.terminal_reached (h.lives x (List.mem_of_getElem? hx))).mp
                (he ▸ Or.inr (Or.inl rfl))
              rw [hstage] at hdone
              cases hdone
            obtain ⟨hi, hget⟩ := List.getElem?_eq_some_iff.mp hx
            simp only [SendQueue.step, SendQueue.Event.send, hx, Send.step, hstage] at hstep
            obtain rfl := Option.some.inj hstep
            rw [Metrics.tally, Metrics.tally, List.countP_set hi, hget, if_neg (by simpa using hopen),
              if_pos]
            · omega
            · simp [Metrics.reached, hstatus]
  | _ => cases hfinal

/-! ## The checks of a run -/

/-- The checks of one process keep their distance, are for modems that know USSD, and are paid
for by requests that ended in `failed`. -/
structure CheckInv (s : State) : Prop where
  accounted : Metrics.Accounted s.queue
  spaced : ∀ id, Spaced Check.time balanceCheckMinIntervalMs (s.checks.filter (·.modemId = id))
  last : ∀ c ∈ s.checks, c.time ≤ (s.lastBalanceCheckAt.lookup c.modemId).getD 0
  ussd : ∀ c ∈ s.checks, c.modemId ∈ s.ussd
  paid : s.earlier + s.checks.length + s.due.length ≤ Metrics.tally s.queue .failed

theorem checkInv_start (pool : ModemPool) (ussd : List JsString) : CheckInv (start pool ussd) :=
  { accounted := Metrics.accounted_start pool
    spaced := fun _ => List.Pairwise.nil
    last := fun _ hc => absurd hc List.not_mem_nil
    ussd := fun _ hc => absurd hc List.not_mem_nil
    paid := Nat.zero_le _ }

theorem checkInv_asked {s : State} {id : JsString} {now : Int} (h : CheckInv s) (hid : id ∈ s.ussd)
    (hlast : (s.lastBalanceCheckAt.lookup id).getD 0 + balanceCheckMinIntervalMs ≤ now)
    (hpaid : s.earlier + s.checks.length + 1 + s.due.length ≤ Metrics.tally s.queue .failed) :
    CheckInv (s.asked id now) := by
  refine ⟨h.accounted, ?_, ?_, ?_, ?_⟩
  · intro other
    have hspaced := h.spaced other
    rw [State.asked, List.filter_append, List.filter_cons, List.filter_nil]
    by_cases he : id = other
    · rw [if_pos (by simpa using he)]
      refine spaced_append hspaced fun c hc => ?_
      rw [List.mem_filter, decide_eq_true_eq] at hc
      have hbefore := h.last c hc.1
      rw [hc.2, ← he] at hbefore
      show c.time + balanceCheckMinIntervalMs ≤ now
      omega
    · rw [if_neg (by simpa using he), List.append_nil]
      exact hspaced
  · intro c hc
    rw [State.asked, List.mem_append, List.mem_singleton] at hc
    rw [State.asked, List.lookup_cons]
    by_cases he : c.modemId = id
    · rw [he, beq_self_eq_true]
      rcases hc with hc | rfl
      · have hbefore := h.last c hc
        have hpos : 0 ≤ balanceCheckMinIntervalMs := by decide
        rw [he] at hbefore
        show c.time ≤ now
        omega
      · exact le_rfl
    · have hne : (c.modemId == id) = false := by simpa using he
      rw [hne]
      rcases hc with hc | rfl
      · exact h.last c hc
      · exact absurd rfl he
  · intro c hc
    rw [State.asked, List.mem_append, List.mem_singleton] at hc
    rcases hc with hc | rfl
    · exact h.ussd c hc
    · exact hid
  · rw [State.asked, List.length_append, List.length_singleton]
    show s.earlier + (s.checks.length + 1) + s.due.length ≤ _
    omega

theorem checkInv_step {s s' : State} {e : Event} (h : CheckInv s) (hstep : step s e = some s') :
    CheckInv s' := by
  cases e with
  | send e =>
      rw [step] at hstep
      split at hstep
      case isTrue => cases hstep
      case isFalse =>
        obtain ⟨queue, hqueue, rfl⟩ := Option.map_eq_some_iff.mp hstep
        refine ⟨Metrics.accounted_step h.accounted hqueue, h.spaced, h.last, h.ussd, ?_⟩
        have hpaid := h.paid
        rw [List.length_append]
        cases hfinal : finalFailure s.queue e with
        | none =>
            have hgrows : Metrics.tally s.queue .failed ≤ Metrics.tally queue .failed :=
              Metrics.tally_step h.accounted (Or.inr (Or.inl rfl)) hqueue
            show s.earlier + s.checks.length + (s.due.length + 0) ≤ Metrics.tally queue .failed
            omega
        | some modemId =>
            have hgrows := tally_finalFailure h.accounted hfinal hqueue
            show s.earlier + s.checks.length + (s.due.length + 1) ≤ Metrics.tally queue .failed
            omega
  | check j now =>
      rw [step] at hstep
      split at hstep
      case h_2 => cases hstep
      case h_1 modemId hj =>
        obtain rfl := Option.some.inj hstep
        have hlt := (List.getElem?_eq_some_iff.mp hj).1
        have hlength : (s.due.eraseIdx j).length = s.due.length - 1 := List.length_eraseIdx_of_lt hlt
        have hpaid := h.paid
        have herased : CheckInv { s with due := s.due.eraseIdx j } := by
          refine ⟨h.accounted, h.spaced, h.last, h.ussd, ?_⟩
          show s.earlier + s.checks.length + (s.due.eraseIdx j).length ≤ Metrics.tally s.queue .failed
          omega
        rcases maybeCheckBalance_cases { s with due := s.due.eraseIdx j } modemId now with
          hsame | ⟨id, hid, hlast, hasked⟩
        · rw [hsame]
          exact herased
        · rw [hasked]
          refine checkInv_asked herased hid hlast ?_
          show s.earlier + s.checks.length + 1 + (s.due.eraseIdx j).length ≤
            Metrics.tally s.queue .failed
          omega
  | restart pool ussd =>
      rw [step] at hstep
      obtain ⟨queue, hqueue, rfl⟩ := Option.map_eq_some_iff.mp hstep
      have hgrows : Metrics.tally s.queue .failed ≤ Metrics.tally queue .failed :=
        Metrics.tally_step h.accounted (Or.inr (Or.inl rfl)) hqueue
      have hpaid := h.paid
      refine ⟨Metrics.accounted_step h.accounted hqueue, fun _ => List.Pairwise.nil,
        fun _ hc => absurd hc List.not_mem_nil, fun _ hc => absurd hc List.not_mem_nil, ?_⟩
      show s.earlier + s.checks.length + 0 + 0 ≤ Metrics.tally queue .failed
      omega

/-- The checks that a run has asked for. -/
structure Throttled (s : State) : Prop where
  /-- at most one for every ten minutes that a stretch of the clock touches, on each modem -/
  rate : ∀ (id : JsString) (first : Int) (k : Nat),
    (s.checks.filter (·.modemId = id)).countP
      (fun c => first ≤ c.time ∧ c.time < first + k * balanceCheckMinIntervalMs) ≤ k
  /-- no modem is asked that cannot answer -/
  ussd : ∀ c ∈ s.checks, c.modemId ∈ s.ussd
  /-- each is behind a request of its own that ended in `failed`, restarts included -/
  paid : s.earlier + s.checks.length ≤ Metrics.tally s.queue .failed

/-- However sends fail, handlers interleave and the clock jumps, the worker keeps its balance
checks apart and asks for none without a definite failure. -/
theorem balance_throttled {pool : ModemPool} {ussd : List JsString} {es : List Event} {s : State}
    (h : run (start pool ussd) es = some s) : Throttled s := by
  have hs : CheckInv s :=
    Runs.run_induct (A := fun _ => True) (fun _ _ _ hs _ hstep => checkInv_step hs hstep)
      (checkInv_start pool ussd) (fun _ _ => trivial) h
  have hpaid := hs.paid
  exact ⟨fun id first k => countP_spaced (hs.spaced id) first k, hs.ussd, by omega⟩

/-- Two sends fail three times each; the second check comes a minute after the first. -/
def exhausted : List Event :=
  [.send (.post oneEntry none), .send (.added 0)] ++ attempt 0 ++ attempt 0 ++ attempt 0 ++
    [.check 0 1700000000000, .send (.post { oneEntry with id := js "b" } none), .send (.added 1)] ++
    attempt 1 ++ attempt 1 ++ attempt 1 ++ [.check 0 1700000060000]
where
  attempt (i : Nat) : List Event :=
    [.send (.start i), .send (.call i), .send (.rejected i (newError (js "no credit"))),
      .send (.failed i)]

theorem exhausted_checks :
    (run (start onePool [js "m1"]) exhausted).map (·.checks) =
      some [⟨js "m1", 1700000000000⟩] := by decide +kernel

theorem balance_throttled_exhausted : ∃ s, s.checks = [⟨js "m1", 1700000000000⟩] ∧ Throttled s := by
  obtain ⟨s, hs, hchecks⟩ := Option.map_eq_some_iff.mp exhausted_checks
  exact ⟨s, hchecks, balance_throttled hs⟩

end SmsGateway.SendQueue.Balance
