import SmsGateway.SendQueue.Lifecycle
import SmsGateway.Webhook.Mirror
import SmsGateway.Lib.Retry
import SmsGateway.Lib.Progress

/-!
# From a request to its last callback

The gateway watched with a record of every callback: what its POSTs came to, one result
for each attempt of its job. The callback queue is what the record leaves to do, and the
gateway's own steps bring every send to a final status and every callback to its end.
-/

namespace SmsGateway.Webhook.Delivery

open SmsGateway LogStore Pool Worker Webhook Gateway
open Lib Lib.Progress

/-- A callback with the status each of its POSTs resolved with, or none where it threw. -/
abbrev Callback := Retry.Task Job (Option Nat)

structure Watched where
  gateway : State
  callbacks : List Callback

def watchFrom (config : Config) (pool : ModemPool) : Watched := ⟨start config pool, []⟩

section

variable (newURL : JsString → Option Url) (resolve : Url → JsString → Option Url)

/-- What a delivery adds to the record. -/
def delivered (s : Watched) : Event → List Callback
  | .deliver k answers =>
      match s.gateway.waiting[k]? with
      | some w => Retry.recordAt settles callbackAttempts s.callbacks k
          (fetch newURL resolve w.job.callbackUrl answers).2
      | none => s.callbacks
  | _ => s.callbacks

/-- A step of the gateway; the jobs it enqueues are new callbacks. -/
def watch (s : Watched) (e : Event) : Option Watched :=
  match step newURL resolve s.gateway e with
  | none => none
  | some g =>
      some ⟨g, delivered newURL resolve s e ++
        (g.enqueued.drop s.gateway.enqueued.length).map Retry.fresh⟩

abbrev watchRun : Watched → List Event → Option Watched := Runs.run (watch newURL resolve)

end

section

variable {newURL : JsString → Option Url} {resolve : Url → JsString → Option Url} {s s' : Watched}

/-- The gateway itself takes no notice of the record. -/
theorem watch_step {e : Event} (h : watch newURL resolve s e = some s') :
    step newURL resolve s.gateway e = some s'.gateway := by
  unfold watch at h
  split at h
  · cases h
  case h_2 g hg =>
    obtain rfl := Option.some.inj h
    exact hg

/-- A delivery: its job leaves the queue, or waits with one attempt more. -/
theorem deliver_cases {g g' : State} {k : Nat} {answers : List Answer}
    (h : step newURL resolve g (.deliver k answers) = some g') : ∃ w, g.waiting[k]? = some w ∧
      g'.queue = g.queue ∧ g'.enqueued = g.enqueued ∧ g'.waiting =
        (if settles (fetch newURL resolve w.job.callbackUrl answers).2 ||
            decide (w.attemptsMade + 1 ≥ callbackAttempts) then g.waiting.eraseIdx k
          else g.waiting.set k { w with attemptsMade := w.attemptsMade + 1 }) := by
  rw [step] at h
  split at h
  · cases h
  case h_2 w hw =>
    have hg' := Option.some.inj h
    exact ⟨w, hw, by rw [← hg'], by rw [← hg'], by rw [← hg']⟩

/-- What a step of the gateway and of the record does. -/
theorem watch_cases {e : Event} (h : watch newURL resolve s e = some s') :
    (∃ jobs, s'.gateway.enqueued = s.gateway.enqueued ++ jobs ∧
      s'.gateway.waiting = s.gateway.waiting ++ jobs.map (⟨·, 0⟩) ∧
      s'.callbacks = s.callbacks ++ jobs.map Retry.fresh) ∨
    (∃ k w status, s.gateway.waiting[k]? = some w ∧
      s'.gateway.enqueued = s.gateway.enqueued ∧
      s'.gateway.waiting =
        (if settles status || decide (w.attemptsMade + 1 ≥ callbackAttempts) then
          s.gateway.waiting.eraseIdx k
        else s.gateway.waiting.set k { w with attemptsMade := w.attemptsMade + 1 }) ∧
      s'.callbacks = Retry.recordAt settles callbackAttempts s.callbacks k status) := by
  have hgateway := watch_step h
  have hcallbacks : s'.callbacks = delivered newURL resolve s e ++
      (s'.gateway.enqueued.drop s.gateway.enqueued.length).map Retry.fresh := by
    rw [watch, hgateway] at h
    rw [← Option.some.inj h]
  cases e with
  | send e occurredAt =>
      obtain ⟨queue, -, -, hs'⟩ := step_send hgateway
      refine Or.inl ⟨_, by rw [hs'], ?_, ?_⟩
      · rw [hs']
        cases (entryOf newURL s.gateway e occurredAt).bind (·.callback) <;> rfl
      · rw [hcallbacks, hs', List.drop_left]
        rfl
  | restart config pool =>
      obtain ⟨queue, -, hs'⟩ := step_restart hgateway
      refine Or.inl ⟨[], by rw [hs', List.append_nil], by rw [hs']; simp, ?_⟩
      rw [hcallbacks, hs']
      simp [delivered]
  | deliver k answers =>
      obtain ⟨w, hw, -, henqueued, hwaiting⟩ := deliver_cases hgateway
      refine Or.inr ⟨k, w, (fetch newURL resolve w.job.callbackUrl answers).2, hw, henqueued,
        hwaiting, ?_⟩
      rw [hcallbacks, henqueued, List.drop_length, List.map_nil, List.append_nil, delivered, hw]

/-! ## The record -/

/-- Every callback keeps the law of its job, and those that are open make up the queue. -/
structure RecordInv (s : Watched) : Prop where
  jobs : s.callbacks.map (·.job) = s.gateway.enqueued
  lawful : ∀ c ∈ s.callbacks, c.Lawful settles callbackAttempts
  waiting : s.gateway.waiting.map (fun w => (w.job, w.attemptsMade)) =
    Retry.waiting settles callbackAttempts s.callbacks

theorem recordInv_start (config : Config) (pool : ModemPool) : RecordInv (watchFrom config pool) :=
  ⟨rfl, nofun, rfl⟩

theorem recordInv_step {e : Event} (h : RecordInv s) (hstep : watch newURL resolve s e = some s') :
    RecordInv s' := by
  rcases watch_cases hstep with ⟨jobs, henqueued, hwaiting, hcallbacks⟩ |
    ⟨k, w, status, hw, henqueued, hwaiting, hcallbacks⟩
  · refine ⟨?_, ?_, ?_⟩
    · rw [hcallbacks, henqueued, List.map_append, h.jobs, List.map_map]
      congr 1
      exact List.map_id jobs
    · intro c hc
      rw [hcallbacks] at hc
      rcases List.mem_append.mp hc with hc | hc
      · exact h.lawful c hc
      · obtain ⟨job, -, rfl⟩ := List.mem_map.mp hc
        exact Retry.lawful_fresh job
    · rw [hcallbacks, hwaiting, List.map_append, h.waiting,
        Retry.waiting_append_fresh (by decide), List.map_map]
      rfl
  · refine ⟨?_, ?_, ?_⟩
    · rw [hcallbacks, henqueued, Retry.recordAt_jobs, h.jobs]
    · rw [hcallbacks]
      exact Retry.recordAt_lawful h.lawful k status
    · have hk : (Retry.waiting settles callbackAttempts s.callbacks)[k]? =
          some (w.job, w.attemptsMade) := by
        rw [← h.waiting, List.getElem?_map, hw]
        rfl
      rw [hcallbacks, Retry.waiting_recordAt hk, hwaiting, ← h.waiting]
      split
      · exact (List.eraseIdx_map _ _ _).symm
      · exact List.map_set

theorem recordInv_run {config : Config} {pool : ModemPool} {es : List Event}
    (h : watchRun newURL resolve (watchFrom config pool) es = some s) : RecordInv s :=
  Runs.run_induct (A := fun _ => True) (fun _ _ _ hs _ hstep => recordInv_step hs hstep)
    (recordInv_start config pool) (fun _ _ => trivial) h

/-- In every run each callback that was enqueued has the results of at most five attempts on
record, none behind an acceptance or a permanent reject, and waits for another attempt exactly
while neither of these has come. -/
theorem callbacks_retried {config : Config} {pool : ModemPool} {es : List Event}
    (h : watchRun newURL resolve (watchFrom config pool) es = some s) :
    s.callbacks.map (·.job) = s.gateway.enqueued ∧
      (∀ c ∈ s.callbacks, c.Lawful settles callbackAttempts) ∧
      s.gateway.waiting.map (fun w => (w.job, w.attemptsMade)) =
        Retry.waiting settles callbackAttempts s.callbacks :=
  ⟨(recordInv_run h).jobs, (recordInv_run h).lawful, (recordInv_run h).waiting⟩

end

/-- The retried send of two callbacks; the first one is answered 503, then 200. -/
def retriedDeliveries : List Event :=
  retriedSend ++ [.deliver 0 [.response 503], .deliver 0 [.response 200]]

def deliveredRun : Option Watched :=
  watchRun hooksURL (fun _ _ => none) (watchFrom hooks onePool) retriedDeliveries

theorem deliveredRun_isSome : deliveredRun.isSome = true := by decide +kernel

theorem callbacks_retried_503 :
    (deliveredRun.get deliveredRun_isSome).callbacks.map (·.job) =
        (deliveredRun.get deliveredRun_isSome).gateway.enqueued ∧
      ∀ c ∈ (deliveredRun.get deliveredRun_isSome).callbacks, c.Lawful settles callbackAttempts := by
  obtain ⟨hjobs, hlawful, -⟩ := callbacks_retried (Option.some_get deliveredRun_isSome).symm
  exact ⟨hjobs, hlawful⟩

example : (deliveredRun.get deliveredRun_isSome).callbacks.map (·.results) =
    [[some 503, some 200], []] := by decide +kernel

/-! ## The gateway's own steps -/

/-- The route, the modems and restarts apart, everything the gateway does is its own. -/
def own : Event → Bool
  | .send e _ => e.send.isSome
  | .restart _ _ => false
  | .deliver _ _ => true

section

variable (newURL : JsString → Option Url) (resolve : Url → JsString → Option Url)

def OwnStep (s s' : Watched) : Prop := ∃ e, own e = true ∧ watch newURL resolve s e = some s'

end

/-- How far a send is from its end in its present attempt. -/
def rank : SendQueue.Stage → Nat
  | .adding => 5
  | .waiting => 4
  | .ready _ => 3
  | .sending _ => 2
  | .threw _ _ => 1
  | .done => 0

def weight (x : SendQueue.Send) : Nat := 4 * (attempts - x.attemptsMade) + rank x.stage

/-- The attempts a callback job has left, and one for leaving the queue. -/
def left (w : Waiting) : Nat := callbackAttempts - w.attemptsMade + 1

/-- A step of a send enqueues at most one callback, with six steps at most. -/
def measure (s : State) : Nat := 7 * (s.queue.sends.map weight).sum + (s.waiting.map left).sum

theorem weight_step {x x' : SendQueue.Send} {e : SendQueue.Event} {chosen : Except Thrown Modem}
    {patch : Option Patch} (h : x.step chosen e = some (x', patch)) : weight x' < weight x := by
  have hmoved {y : SendQueue.Send} (hmade : y.attemptsMade = x.attemptsMade)
      (hrank : rank y.stage < rank x.stage) : weight y < weight x := by
    rw [weight, weight, hmade]
    exact Nat.add_lt_add_left hrank _
  cases e with
  | post entry modem => cases h
  | connection modemId connected => cases h
  | restart pool => cases h
  | added i =>
      cases hstage : x.stage <;> simp only [SendQueue.Send.step, hstage] at h <;> try cases h
      exact hmoved rfl (by simp [rank, hstage])
  | addThrew i err =>
      cases hstage : x.stage <;> simp only [SendQueue.Send.step, hstage] at h <;> try cases h
      exact hmoved rfl (by simp [rank, hstage])
  | start i =>
      cases hstage : x.stage <;> simp only [SendQueue.Send.step, hstage] at h <;> try cases h
      cases chosen with
      | ok m =>
          obtain ⟨rfl, rfl⟩ := Prod.mk.inj (Option.some.inj h)
          exact hmoved rfl (by simp [rank, hstage])
      | error t =>
          obtain ⟨rfl, rfl⟩ := Prod.mk.inj (Option.some.inj h)
          exact hmoved rfl (by simp [rank, hstage])
  | call i =>
      cases hstage : x.stage <;> simp only [SendQueue.Send.step, hstage] at h <;> try cases h
      exact hmoved rfl (by simp [rank, hstage])
  | resolved i reference now =>
      cases hstage : x.stage <;> simp only [SendQueue.Send.step, hstage] at h <;> try cases h
      exact hmoved rfl (by simp [rank, hstage])
  | rejected i err =>
      cases hstage : x.stage <;> simp only [SendQueue.Send.step, hstage] at h <;> try cases h
      exact hmoved rfl (by simp [rank, hstage])
  | failed i =>
      cases hstage : x.stage <;> simp only [SendQueue.Send.step, hstage] at h <;> try cases h
      rename_i t a
      -- the next attempt has a rank of its own, but one attempt less is left
      show 4 * (attempts - (x.attemptsMade + 1)) +
        rank (if retried (x.attemptsMade + 1) t then .waiting else .done) < weight x
      rw [weight, hstage]
      cases hretried : retried (x.attemptsMade + 1) t with
      | true =>
          have hlt : x.attemptsMade + 1 < attempts := by
            rw [retried, Bool.and_eq_true, decide_eq_true_eq] at hretried
            exact hretried.1
          simp only [if_true, rank]
          omega
      | false =>
          simp only [Bool.false_eq_true, if_false, rank]
          omega

section

variable {newURL : JsString → Option Url} {resolve : Url → JsString → Option Url} {s s' : Watched}

theorem weight_queue_step {q q' : SendQueue.State} {e : SendQueue.Event}
    (he : e.send.isSome = true) (h : SendQueue.step q e = some q') :
    (q'.sends.map weight).sum < (q.sends.map weight).sum := by
  rcases SendQueue.step_cases h with ⟨entry, modem, rfl, -⟩ | ⟨modemId, connected, rfl, -⟩ |
    ⟨pool, rfl, -⟩ | ⟨i, x, x', patch, -, hx, hx', rfl⟩
  · cases he
  · cases he
  · cases he
  · have hlt := weight_step hx'
    have hsum := sum_set (f := weight) hx x'
    dsimp only
    omega

theorem measure_step (h : OwnStep newURL resolve s s') : measure s'.gateway < measure s.gateway := by
  obtain ⟨e, he, hstep⟩ := h
  have hgateway := watch_step hstep
  unfold measure
  cases e with
  | send e occurredAt =>
      obtain ⟨queue, -, hqueue, hs'⟩ := step_send hgateway
      have hlt := weight_queue_step he hqueue
      have hnew : ((((entryOf newURL s.gateway e occurredAt).bind (·.callback)).map
          fun job => (⟨job, 0⟩ : Waiting)).toList.map left).sum ≤ 6 := by
        cases (entryOf newURL s.gateway e occurredAt).bind (·.callback) with
        | none => exact Nat.zero_le 6
        | some job => exact Nat.le_refl 6
      rw [hs', List.map_append, List.sum_append]
      dsimp only
      omega
  | restart config pool => cases he
  | deliver k answers =>
      obtain ⟨w, hw, hqueue, -, hwaiting⟩ := deliver_cases hgateway
      rw [hqueue, hwaiting]
      split
      · have hsum := sum_eraseIdx (f := left) hw
        have hpos : 0 < left w := Nat.succ_pos _
        omega
      case isFalse hend =>
        have hlt : w.attemptsMade + 1 < callbackAttempts := by
          simp only [Bool.or_eq_true, decide_eq_true_eq, not_or] at hend
          omega
        have hsum := sum_set (f := left) hw { w with attemptsMade := w.attemptsMade + 1 }
        have hless : left { w with attemptsMade := w.attemptsMade + 1 } < left w := by
          unfold left
          dsimp only
          omega
        omega

theorem ownSteps_end (s : Watched) :
    Acc (fun s' s => OwnStep newURL resolve s s') s :=
  acc_of_measure (m := fun s : Watched => measure s.gateway) (fun _ _ h => measure_step h) s

/-- Nothing stops a send before its end: each stage has a step of its own. -/
theorem queue_step_possible {config : Config} {q : SendQueue.State} {i : Nat} {x : SendQueue.Send}
    (hx : q.sends[i]? = some x) (hstage : x.stage ≠ .done) :
    ∃ e : SendQueue.Event, e.send.isSome = true ∧ valid newURL config e = true ∧
      (SendQueue.step q e).isSome = true := by
  cases hs : x.stage with
  | adding =>
      exact ⟨.added i, rfl, rfl, by
        simp [SendQueue.step, SendQueue.Event.send, hx, SendQueue.Send.step, hs]⟩
  | waiting =>
      refine ⟨.start i, rfl, rfl, ?_⟩
      cases hc : (SendQueue.choice q x (.start i)).1 <;>
        simp [SendQueue.step, SendQueue.Event.send, hx, SendQueue.Send.step, hs, hc]
  | ready m =>
      exact ⟨.call i, rfl, rfl, by
        simp [SendQueue.step, SendQueue.Event.send, hx, SendQueue.Send.step, hs]⟩
  | sending m =>
      exact ⟨.resolved i none [], rfl, rfl, by
        simp [SendQueue.step, SendQueue.Event.send, hx, SendQueue.Send.step, hs]⟩
  | threw t a =>
      exact ⟨.failed i, rfl, rfl, by
        simp [SendQueue.step, SendQueue.Event.send, hx, SendQueue.Send.step, hs]⟩
  | done => exact absurd hs hstage

theorem ownStep_of_isSome {e : Event} (he : own e = true)
    (h : (step newURL resolve s.gateway e).isSome = true) : ∃ s', OwnStep newURL resolve s s' := by
  obtain ⟨g, hg⟩ := Option.isSome_iff_exists.mp h
  have hwatch : (watch newURL resolve s e).isSome = true := by
    rw [watch, hg]
    rfl
  obtain ⟨s', hs'⟩ := Option.isSome_iff_exists.mp hwatch
  exact ⟨s', e, he, hs'⟩

theorem done_of_stuck (h : Stuck (OwnStep newURL resolve) s) :
    (∀ x ∈ s.gateway.queue.sends, x.stage = .done) ∧ s.gateway.waiting = [] := by
  constructor
  · intro x hx
    by_contra hstage
    obtain ⟨i, hi⟩ := List.getElem?_of_mem hx
    obtain ⟨e, he, hvalid, hstep⟩ : ∃ e : SendQueue.Event, e.send.isSome = true ∧
        valid newURL s.gateway.config e = true ∧ (SendQueue.step s.gateway.queue e).isSome = true :=
      queue_step_possible hi hstage
    obtain ⟨queue, hqueue⟩ := Option.isSome_iff_exists.mp hstep
    have hsome : (step newURL resolve s.gateway (.send e [])).isSome = true := by
      rw [step, if_pos hvalid, hqueue]
      rfl
    have hown : own (.send e []) = true := he
    obtain ⟨s', hs'⟩ := ownStep_of_isSome hown hsome
    exact h s' hs'
  · by_contra hwaiting
    obtain ⟨w, ws, hw⟩ := List.exists_cons_of_ne_nil hwaiting
    have hsome : (step newURL resolve s.gateway (.deliver 0 [])).isSome = true := by
      rw [step, hw]
      rfl
    obtain ⟨s', hs'⟩ := ownStep_of_isSome rfl hsome
    exact h s' hs'

/-! ## Final statuses -/

/-- A send is done with a final status as its last write. -/
def DoneFinal (q : SendQueue.State) : Prop :=
  ∀ x ∈ q.sends, x.stage = .done → ∃ w, x.writes.getLast? = some w ∧ SendQueue.terminal w.status

theorem failedStatus_terminal {finished : Nat} {t : Thrown} (h : retried finished t = false) :
    SendQueue.terminal (failedStatus finished t) := by
  have hne : failedStatus finished t ≠ .retrying := by
    intro he
    rw [(failedStatus_retrying_iff finished t).mp he] at h
    cases h
  unfold failedStatus at hne ⊢
  dsimp only at hne ⊢
  split
  · exact Or.inr (Or.inr rfl)
  · split
    · exact Or.inr (Or.inl rfl)
    · rename_i hfirst hsecond
      rw [if_neg hfirst, if_neg hsecond] at hne
      exact absurd rfl hne

theorem final_step {x x' : SendQueue.Send} {e : SendQueue.Event} {chosen : Except Thrown Modem}
    {patch : Option Patch} (h : x.step chosen e = some (x', patch)) (hdone : x'.stage = .done) :
    ∃ w, x'.writes.getLast? = some w ∧ SendQueue.terminal w.status := by
  cases e with
  | post entry modem => cases h
  | connection modemId connected => cases h
  | restart pool => cases h
  | added i =>
      cases hstage : x.stage <;> simp only [SendQueue.Send.step, hstage] at h <;> try cases h
      cases hdone
  | addThrew i err =>
      cases hstage : x.stage <;> simp only [SendQueue.Send.step, hstage] at h <;> try cases h
      exact ⟨⟨.failed, none⟩, by simp, Or.inr (Or.inl rfl)⟩
  | start i =>
      cases hstage : x.stage <;> simp only [SendQueue.Send.step, hstage] at h <;> try cases h
      cases chosen with
      | ok m =>
          obtain ⟨rfl, -⟩ := Prod.mk.inj (Option.some.inj h)
          cases hdone
      | error t =>
          obtain ⟨rfl, -⟩ := Prod.mk.inj (Option.some.inj h)
          cases hdone
  | call i =>
      cases hstage : x.stage <;> simp only [SendQueue.Send.step, hstage] at h <;> try cases h
      cases hdone
  | resolved i reference now =>
      cases hstage : x.stage <;> simp only [SendQueue.Send.step, hstage] at h <;> try cases h
      exact ⟨⟨.sent, some ⟨true, none⟩⟩, by simp, Or.inl rfl⟩
  | rejected i err =>
      cases hstage : x.stage <;> simp only [SendQueue.Send.step, hstage] at h <;> try cases h
      cases hdone
  | failed i =>
      cases hstage : x.stage <;> simp only [SendQueue.Send.step, hstage] at h <;> try cases h
      rename_i t a
      refine ⟨⟨failedStatus (x.attemptsMade + 1) t, some a⟩, by simp, failedStatus_terminal ?_⟩
      cases hretried : retried (x.attemptsMade + 1) t with
      | false => rfl
      | true => simp [hretried] at hdone

theorem doneFinal_step {q q' : SendQueue.State} {e : SendQueue.Event} (h : DoneFinal q)
    (hstep : SendQueue.step q e = some q') : DoneFinal q' := by
  rcases SendQueue.step_cases hstep with ⟨entry, modem, -, -, rfl⟩ | ⟨modemId, connected, -, rfl⟩ |
    ⟨pool, -, rfl⟩ | ⟨i, x, x', patch, -, -, hx', rfl⟩
  · intro x hx hdone
    rcases List.mem_append.mp hx with hx | hx
    · exact h x hx hdone
    · obtain rfl := List.mem_singleton.mp hx
      cases hdone
  · exact h
  · intro y hy hdone
    obtain ⟨x, hx, rfl⟩ := List.mem_map.mp hy
    unfold SendQueue.Send.restarted at hdone ⊢
    split at hdone
    case h_1 hd => exact h x hx hd
    case h_2 => cases hdone
  · intro y hy hdone
    rcases List.mem_or_eq_of_mem_set hy with hy | rfl
    · exact h y hy hdone
    · exact final_step hx' hdone

/-- What the rows of a watched gateway rest on. -/
structure SendsInv (s : Watched) : Prop where
  rows : SendQueue.RowsInv s.gateway.queue
  final : DoneFinal s.gateway.queue

theorem sendsInv_step {e : Event} (h : SendsInv s) (hstep : watch newURL resolve s e = some s') :
    SendsInv s' := by
  have hgateway := watch_step hstep
  refine ⟨rowsInv_step h.rows hgateway, ?_⟩
  cases e with
  | send e occurredAt =>
      obtain ⟨queue, -, hqueue, hs'⟩ := step_send hgateway
      rw [hs']
      exact doneFinal_step h.final hqueue
  | restart config pool =>
      obtain ⟨queue, hqueue, hs'⟩ := step_restart hgateway
      rw [hs']
      exact doneFinal_step h.final hqueue
  | deliver k answers =>
      obtain ⟨w, -, hqueue, -⟩ := deliver_cases hgateway
      rw [hqueue]
      exact h.final

theorem sendsInv_run {config : Config} {pool : ModemPool} {es : List Event}
    (h : watchRun newURL resolve (watchFrom config pool) es = some s) : SendsInv s :=
  Runs.run_induct (A := fun _ => True) (fun _ _ _ hs _ hstep => sendsInv_step hs hstep)
    ⟨SendQueue.rowsInv_start pool, fun _ hx => (List.not_mem_nil hx).elim⟩ (fun _ _ => trivial) h

theorem terminal_text {st : Status} (h : SendQueue.terminal st) : st.text ∈ terminalStatuses := by
  rcases h with rfl | rfl | rfl <;> simp [terminalStatuses, Status.text]

theorem ownSteps_run {s₀ : Watched} {es : List Event} (h : watchRun newURL resolve s₀ es = some s)
    (hsteps : Relation.ReflTransGen (OwnStep newURL resolve) s s') :
    ∃ es, watchRun newURL resolve s₀ es = some s' := by
  induction hsteps with
  | refl => exact ⟨es, h⟩
  | tail _ hstep ih =>
      obtain ⟨es', hes'⟩ := ih
      obtain ⟨e, -, he⟩ := hstep
      refine ⟨es' ++ [e], ?_⟩
      have happend : watchRun newURL resolve s₀ (es' ++ [e]) =
          (watchRun newURL resolve s₀ es').bind fun s => watchRun newURL resolve s [e] :=
        Runs.run_append
      rw [happend, hes', Option.bind_some, watchRun, Runs.run, he]
      rfl

/-- From any state of a run the gateway's own steps end, and where they end every accepted
request has a final status and every callback an acceptance, a permanent reject or five attempts. -/
theorem gateway_settles {config : Config} {pool : ModemPool} {es : List Event}
    (h : watchRun newURL resolve (watchFrom config pool) es = some s) :
    Acc (fun s' s => OwnStep newURL resolve s s') s ∧
      ∀ s', Relation.ReflTransGen (OwnStep newURL resolve) s s' → Stuck (OwnStep newURL resolve) s' →
        (∀ x ∈ s'.gateway.queue.sends, ∃ row, getLog s'.gateway.queue.rows x.logId = some row ∧
          row.status ∈ terminalStatuses) ∧
        s'.callbacks.map (·.job) = s'.gateway.enqueued ∧
        ∀ c ∈ s'.callbacks, c.Ended settles callbackAttempts := by
  refine ⟨ownSteps_end s, ?_⟩
  intro s' hsteps hstuck
  obtain ⟨es', hes'⟩ := ownSteps_run h hsteps
  obtain ⟨hdone, hwaiting⟩ := done_of_stuck hstuck
  have hsends := sendsInv_run hes'
  have hrecord := recordInv_run hes'
  refine ⟨?_, hrecord.jobs, Retry.ended_of_waiting_nil hrecord.lawful ?_⟩
  · intro x hx
    obtain ⟨row, w, hrow, hlast, hstatus⟩ := hsends.rows.row x hx
    obtain ⟨w', hlast', hterminal⟩ := hsends.final x hx (hdone x hx)
    obtain rfl := Option.some.inj (hlast.symm.trans hlast')
    exact ⟨row, hrow, by rw [hstatus]; exact terminal_text hterminal⟩
  · rw [← hrecord.waiting, hwaiting]
    rfl

end

theorem gateway_settles_503 : ∃ s',
    Relation.ReflTransGen (OwnStep hooksURL fun _ _ => none)
      (deliveredRun.get deliveredRun_isSome) s' ∧
    ∀ c ∈ s'.callbacks, c.Ended settles callbackAttempts := by
  obtain ⟨hacc, hend⟩ := gateway_settles (Option.some_get deliveredRun_isSome).symm
  obtain ⟨s', hsteps, hstuck⟩ := exists_stuck hacc
  exact ⟨s', hsteps, (hend s' hsteps hstuck).2.2⟩

end SmsGateway.Webhook.Delivery
