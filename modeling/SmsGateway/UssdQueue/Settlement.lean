import SmsGateway.UssdQueue
import SmsGateway.Lib.Progress

/-!
# Every USSD request is settled

What the worker, its `failed` handler and the live calls do on their own comes to an end,
and where it ends no request is left pending and no inbox poll is left to run.
-/

namespace SmsGateway.UssdQueue

open SmsGateway UssdStore
open SmsGateway.Worker (Thrown unknownModem)
open Lib Lib.Progress

/-- New requests apart, every event is the system's own. -/
def Event.own : Event → Bool
  | .enqueue _ _ _ _ _ => false
  | .live _ _ _ _ _ => false
  | _ => true

/-- One of its own events, with a database that refuses nothing. -/
def OwnStep (s s' : State) : Prop :=
  ∃ e : Event, e.own = true ∧ e.refusal = none ∧ step s e = some s'

/-! ## The steps end -/

/-- How far a stage is from the end of its attempt; a poll to be added counts with its steps. -/
def Stage.rank : Stage → Nat
  | .adding => 19
  | .waiting => 18
  | .session => 17
  | .scheduling delays => 1 + 5 * delays.length
  | .awaiting => 2
  | .threw _ => 1
  | .caught _ => 1
  | .addThrew => 0
  | .completed => 0
  | .failed => 0
  | .returned => 0

def Request.weight (x : Request) : Nat := 18 * (attempts - x.attemptsMade) + x.stage.rank

def Poll.weight (p : Poll) : Nat :=
  match p.stage with
  | .waiting => 3
  | .fetching => 2
  | .threw _ => 1
  | .completed => 0
  | .failed => 0

def measure (s : State) : Nat :=
  (s.requests.map Request.weight).sum + (s.polls.map Poll.weight).sum

theorem Request.step_weight {x x' : Request} {rows rows' : List Row} {polls : List Poll} {e : Event}
    (h : x.step rows e = some (x', rows', polls)) :
    x'.weight + (polls.map Poll.weight).sum < x.weight := by
  have hto {stage : Stage} (hrank : stage.rank < x.stage.rank) :
      (x.to stage).weight + (([] : List Poll).map Poll.weight).sum < x.weight := by
    simp only [Request.weight, Request.to, List.map_nil, List.sum_nil]
    omega
  cases e with
  | enqueue modem kind id now refusal => cases h
  | live modem kind id now refusal => cases h
  | pollStart k pool => cases h
  | polled k result => cases h
  | pollFailed k refusal now => cases h
  | added i =>
      cases hstage : x.stage <;> simp only [Request.step, hstage] at h <;> try cases h
      exact hto (by rw [hstage]; decide)
  | addThrew i err refusal now =>
      cases hstage : x.stage <;> simp only [Request.step, hstage] at h <;> try cases h
      exact hto (by rw [hstage]; decide)
  | start i pool =>
      cases hstage : x.stage <;> simp only [Request.step, hstage] at h <;> try cases h
      cases hm : find pool x.modemId with
      | none =>
          simp only [hm] at h
          cases h
          exact hto (by simp [hstage, Stage.rank])
      | some m =>
          simp only [hm] at h
          split at h <;> cases h <;> exact hto (by simp [hstage, Stage.rank])
  | replied i result refusal now =>
      cases hstage : x.stage <;> simp only [Request.step, hstage] at h <;> try cases h
      cases result with
      | error err =>
          cases h
          exact hto (by simp [hstage, Stage.rank])
      | ok reply =>
          cases hreply : truthy reply with
          | none =>
              simp only [hreply] at h
              cases h
              exact hto (by simp [hstage, Stage.rank])
          | some text =>
              simp only [hreply] at h
              split at h
              · cases h
                refine hto ?_
                rw [hstage]
                split <;> decide
              · cases h
                exact hto (by simp [hstage, Stage.rank])
  | scheduled i =>
      cases hstage : x.stage <;> simp only [Request.step, hstage] at h <;> try cases h
      rename_i delays
      cases delays with
      | nil => cases h
      | cons delay delays =>
          cases h
          simp only [Request.weight, Request.to, hstage, Stage.rank, Poll.weight, List.map_cons,
            List.map_nil, List.sum_cons, List.sum_nil, List.length_cons]
          omega
  | scheduleThrew i =>
      cases hstage : x.stage <;> simp only [Request.step, hstage] at h <;> try cases h
      rename_i delays
      cases delays with
      | nil => cases h
      | cons delay delays =>
          cases h
          exact hto (by simp [hstage, Stage.rank])
  | completes i =>
      cases hstage : x.stage <;> simp only [Request.step, hstage] at h <;> try cases h
      rename_i delays
      cases delays with
      | nil =>
          cases h
          exact hto (by simp [hstage, Stage.rank])
      | cons delay delays => cases h
  | failed i refusal now =>
      cases hstage : x.stage <;> simp only [Request.step, hstage] at h <;> try cases h
      rename_i t
      -- the next attempt has a rank of its own, but one attempt less is left
      show 18 * (attempts - (x.attemptsMade + 1)) +
        (if retried attempts (x.attemptsMade + 1) t then Stage.waiting else .failed).rank + 0 < x.weight
      rw [Request.weight, hstage]
      cases hretried : retried attempts (x.attemptsMade + 1) t with
      | true =>
          have hlt : x.attemptsMade + 1 < attempts := by
            rw [retried, Bool.and_eq_true, decide_eq_true_eq] at hretried
            exact hretried.1
          simp only [if_true, Stage.rank]
          omega
      | false =>
          simp only [Bool.false_eq_true, if_false, Stage.rank]
          omega
  | answered i result refusal now =>
      cases hstage : x.stage <;> simp only [Request.step, hstage] at h <;> try cases h
      cases result with
      | error err =>
          cases h
          exact hto (by simp [hstage, Stage.rank])
      | ok reply =>
          cases hreply : truthy reply with
          | none =>
              simp only [hreply] at h
              split at h <;> cases h <;> exact hto (by simp [hstage, Stage.rank])
          | some text =>
              simp only [hreply] at h
              split at h <;> cases h <;> exact hto (by simp [hstage, Stage.rank])
  | settles i refusal now =>
      cases hstage : x.stage <;> simp only [Request.step, hstage] at h <;> try cases h
      exact hto (by simp [hstage, Stage.rank])

theorem Poll.step_weight {p p' : Poll} {rows rows' : List Row} {e : Event}
    (h : p.step rows e = some (p', rows')) : p'.weight < p.weight := by
  cases e with
  | pollStart k pool =>
      cases hstage : p.stage <;> simp only [Poll.step, hstage] at h <;> try cases h
      cases hm : find pool p.modemId with
      | none =>
          simp only [hm] at h
          cases h
          simp [Poll.weight, hstage]
      | some m =>
          simp only [hm] at h
          cases h
          simp [Poll.weight, hstage]
  | polled k result =>
      cases hstage : p.stage <;> simp only [Poll.step, hstage] at h <;> try cases h
      cases result <;> cases h <;> simp [Poll.weight, hstage]
  | pollFailed k refusal now =>
      cases hstage : p.stage <;> simp only [Poll.step, hstage] at h <;> try cases h
      simp [Poll.weight, hstage]
  | _ => cases h

section

variable {s s' : State}

/-- A step of the system's own is one of a request or of a poll. -/
theorem own_cases {e : Event} (he : e.own = true) (h : step s e = some s') :
    (∃ i x x' rows polls, s.requests[i]? = some x ∧ x.step s.rows e = some (x', rows, polls) ∧
      s' = { rows, requests := s.requests.set i x', polls := s.polls ++ polls }) ∨
    ∃ k p p' rows, s.polls[k]? = some p ∧ p.step s.rows e = some (p', rows) ∧
      s' = { s with rows, polls := s.polls.set k p' } := by
  unfold step at h
  split at h
  case h_1 => cases he
  case h_2 => cases he
  case h_3 =>
    split at h
    case h_1 _ _ i _ =>
      split at h
      case h_1 => cases h
      case h_2 x hx =>
        split at h
        case h_1 => cases h
        case h_2 x' rows polls hx' =>
          exact Or.inl ⟨i, x, x', rows, polls, hx, hx', (Option.some.inj h).symm⟩
    case h_2 _ _ k _ _ =>
      split at h
      case h_1 => cases h
      case h_2 p hp =>
        split at h
        case h_1 => cases h
        case h_2 p' rows hp' =>
          exact Or.inr ⟨k, p, p', rows, hp, hp', (Option.some.inj h).symm⟩
    case h_3 => cases h

theorem measure_step (h : OwnStep s s') : measure s' < measure s := by
  obtain ⟨e, he, -, hstep⟩ := h
  unfold measure
  rcases own_cases he hstep with ⟨i, x, x', rows, polls, hx, hx', rfl⟩ | ⟨k, p, p', rows, hp, hp', rfl⟩
  · have hlt := Request.step_weight hx'
    have hsum := sum_set (f := Request.weight) hx x'
    simp only [List.map_append, List.sum_append]
    omega
  · have hlt := Poll.step_weight hp'
    have hsum := sum_set (f := Poll.weight) hp p'
    dsimp only
    omega

/-! ## Where they end -/

theorem ownStep_of_isSome {e : Event} (he : e.own = true) (hrefusal : e.refusal = none)
    (h : (step s e).isSome = true) : ∃ s', OwnStep s s' := by
  obtain ⟨s', hs'⟩ := Option.isSome_iff_exists.mp h
  exact ⟨s', e, he, hrefusal, hs'⟩

theorem request_step_possible {i : Nat} {x : Request} (hx : s.requests[i]? = some x)
    (hopen : x.stage.over = false) : ∃ s', OwnStep s s' := by
  cases hstage : x.stage with
  | adding =>
      exact ownStep_of_isSome (e := .added i) rfl rfl
        (by simp [step, Event.request, hx, Request.step, hstage])
  | waiting =>
      exact ownStep_of_isSome (e := .start i []) rfl rfl
        (by simp [step, Event.request, hx, Request.step, hstage, find])
  | session =>
      exact ownStep_of_isSome (e := .replied i (.ok none) none []) rfl rfl
        (by simp [step, Event.request, hx, Request.step, hstage, truthy])
  | threw t =>
      exact ownStep_of_isSome (e := .failed i none []) rfl rfl
        (by simp [step, Event.request, hx, Request.step, hstage])
  | scheduling delays =>
      cases delays with
      | nil =>
          exact ownStep_of_isSome (e := .completes i) rfl rfl
            (by simp [step, Event.request, hx, Request.step, hstage])
      | cons delay delays =>
          exact ownStep_of_isSome (e := .scheduled i) rfl rfl
            (by simp [step, Event.request, hx, Request.step, hstage])
  | awaiting =>
      exact ownStep_of_isSome (e := .answered i (.error (newError [])) none []) rfl rfl
        (by simp [step, Event.request, hx, Request.step, hstage])
  | caught err =>
      exact ownStep_of_isSome (e := .settles i none []) rfl rfl
        (by simp [step, Event.request, hx, Request.step, hstage])
  | addThrew => rw [hstage] at hopen; cases hopen
  | completed => rw [hstage] at hopen; cases hopen
  | failed => rw [hstage] at hopen; cases hopen
  | returned => rw [hstage] at hopen; cases hopen

def PollStage.over : PollStage → Bool
  | .completed => true
  | .failed => true
  | _ => false

theorem poll_step_possible {k : Nat} {p : Poll} (hp : s.polls[k]? = some p)
    (hopen : p.stage.over = false) : ∃ s', OwnStep s s' := by
  cases hstage : p.stage with
  | waiting =>
      exact ownStep_of_isSome (e := .pollStart k []) rfl rfl
        (by simp [step, Event.request, Event.poll, hp, Poll.step, hstage, find])
  | fetching =>
      exact ownStep_of_isSome (e := .polled k (.ok 0)) rfl rfl
        (by simp [step, Event.request, Event.poll, hp, Poll.step, hstage])
  | threw t =>
      exact ownStep_of_isSome (e := .pollFailed k none []) rfl rfl
        (by simp [step, Event.request, Event.poll, hp, Poll.step, hstage])
  | completed => rw [hstage] at hopen; cases hopen
  | failed => rw [hstage] at hopen; cases hopen

theorem over_of_stuck (h : Stuck OwnStep s) :
    (∀ x ∈ s.requests, x.stage.over = true) ∧ ∀ p ∈ s.polls, p.stage.over = true := by
  constructor
  · intro x hx
    by_contra hopen
    obtain ⟨i, hi⟩ := List.getElem?_of_mem hx
    obtain ⟨s', hs'⟩ := request_step_possible hi (by simpa using hopen)
    exact h s' hs'
  · intro p hp
    by_contra hopen
    obtain ⟨k, hk⟩ := List.getElem?_of_mem hp
    obtain ⟨s', hs'⟩ := poll_step_possible hk (by simpa using hopen)
    exact h s' hs'

theorem ownSteps_run {s₀ : State} {es : List Event} (h : run s₀ es = some s)
    (hes : ∀ e ∈ es, e.refusal = none) (hsteps : Relation.ReflTransGen OwnStep s s') :
    ∃ es, run s₀ es = some s' ∧ ∀ e ∈ es, e.refusal = none := by
  induction hsteps with
  | refl => exact ⟨es, h, hes⟩
  | tail _ hstep ih =>
      obtain ⟨es', hes', hrefusals⟩ := ih
      obtain ⟨e, -, hrefusal, he⟩ := hstep
      refine ⟨es' ++ [e], ?_, ?_⟩
      · have happend : run s₀ (es' ++ [e]) = (run s₀ es').bind fun s => run s [e] := Runs.run_append
        rw [happend, hes', Option.bind_some, run, Runs.run, he]
        rfl
      · intro e' he'
        rcases List.mem_append.mp he' with he' | he'
        · exact hrefusals e' he'
        · rw [List.mem_singleton.mp he']
          exact hrefusal

/-- With a database that refuses nothing, the system's own steps end, whatever the modems answer,
and where they end every request is settled, by its reply or with an error, and every inbox poll
has run. -/
theorem ussd_settles {es : List Event} (h : run start es = some s)
    (hes : ∀ e ∈ es, e.refusal = none) :
    Acc (fun s' s => OwnStep s s') s ∧
      ∀ s', Relation.ReflTransGen OwnStep s s' → Stuck OwnStep s' →
        (∀ x ∈ s'.requests, ∃ row, getRequest s'.rows x.id = some row ∧ row.status ≠ .pending ∧
          row.WellFormed) ∧
        ∀ p ∈ s'.polls, p.stage.over = true := by
  refine ⟨acc_of_measure (fun _ _ hstep => measure_step hstep) s, ?_⟩
  intro s' hsteps hstuck
  obtain ⟨es', hes', hrefusals⟩ := ownSteps_run h hes hsteps
  obtain ⟨hrequests, hpolls⟩ := over_of_stuck hstuck
  refine ⟨?_, hpolls⟩
  intro x hx
  have hclosed : x.stage.isOpen = false := by
    have hover := hrequests x hx
    cases hs : x.stage <;> rw [hs] at hover <;> first | rfl | cases hover
  obtain ⟨row, hrow, hstatus⟩ := settled_run hes' hrefusals x hx hclosed
  exact ⟨row, hrow, hstatus,
    (rowsInv_run rowsInv_start hes').wellFormed row (mem_of_getRequest hrow)⟩

end

/-- A tariff request in its session, beside a live call. -/
def inSession : List Event :=
  [.enqueue serialModem .tariff (js "u1") (js "t0") none, .added 0, .start 0 [serialModem],
    .live serialModem .balance (js "u2") (js "t1") none]

theorem inSession_isSome : (run start inSession).isSome = true := by decide +kernel

theorem ussd_settles_inSession : ∃ s',
    Relation.ReflTransGen OwnStep ((run start inSession).get inSession_isSome) s' ∧
    ∀ x ∈ s'.requests, ∃ row, getRequest s'.rows x.id = some row ∧ row.status ≠ .pending := by
  obtain ⟨hacc, hend⟩ := ussd_settles (Option.some_get inSession_isSome).symm (by decide)
  obtain ⟨s', hsteps, hstuck⟩ := exists_stuck hacc
  refine ⟨s', hsteps, fun x hx => ?_⟩
  obtain ⟨row, hrow, hstatus, -⟩ := (hend s' hsteps hstuck).1 x hx
  exact ⟨row, hrow, hstatus⟩

end SmsGateway.UssdQueue
