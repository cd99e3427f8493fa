import SmsGateway.SendQueue

/-!
# The life of a sent message

An abstract view of one send: how many attempts have failed with ordinary errors,
and what ended it. The system's sends follow this view step by step, and it fixes
the statuses their rows go through.
-/

namespace SmsGateway.SendQueue

open SmsGateway LogStore Pool Worker
open Lib

inductive Life where
  | active (failures : Nat)
  | closed (failures : Nat) (o : Outcome)

namespace Life

def finalStatus : Outcome → Status
  | .resolved => .sent
  | .ordinary => .failed
  | .unrecoverable => .unconfirmed
  | .addThrew => .failed

def statuses : Life → List Status
  | active n => .pending :: List.replicate n .retrying
  | closed n o => .pending :: List.replicate n .retrying ++ [finalStatus o]

def outcomes : Life → List Outcome
  | active n => List.replicate n .ordinary
  | closed n o => List.replicate n .ordinary ++ [o]

/-- One more attempt, or the enqueueing, comes out. -/
inductive Step : Life → Life → Prop where
  | retry (n : Nat) (h : n + 1 < attempts) : Step (active n) (active (n + 1))
  | exhausted (n : Nat) (h : n + 1 = attempts) : Step (active n) (closed n .ordinary)
  | resolved (n : Nat) : Step (active n) (closed n .resolved)
  | unrecoverable (n : Nat) : Step (active n) (closed n .unrecoverable)
  | addThrew : Step (active 0) (closed 0 .addThrew)

/-- What holds of every life that starts at `active 0`. -/
def Valid : Life → Prop
  | active n => n < attempts
  | closed n o => n < attempts ∧ (o = .ordinary → n + 1 = attempts) ∧ (o = .addThrew → n = 0)

theorem Step.valid {l l' : Life} (h : Step l l') (hl : Valid l) : Valid l' := by
  cases h with
  | retry n h => exact h
  | exhausted n h => exact ⟨hl, fun _ => h, by simp⟩
  | resolved n => exact ⟨hl, by simp, by simp⟩
  | unrecoverable n => exact ⟨hl, by simp, by simp⟩
  | addThrew => exact ⟨hl, by simp, fun _ => rfl⟩

end Life

/-! ## The sends follow it -/

/-- A send stands where the abstract life says. -/
structure Embodies (x : Send) (l : Life) : Prop where
  valid : l.Valid
  statuses : x.writes.map (·.status) = l.statuses
  outcomes : x.outcomes = l.outcomes
  attemptsMade : ∀ n, l = .active n → x.attemptsMade = n
  done_iff : x.stage = .done ↔ ∃ n o, l = .closed n o
  adding : x.stage = .adding → l = .active 0

theorem embodies_new (logId : JsString) (modem : Option JsString) :
    Embodies (newSend logId modem) (.active 0) :=
  { valid := by simp [Life.Valid]
    statuses := rfl
    outcomes := rfl
    attemptsMade := by rintro n ⟨rfl⟩; rfl
    done_iff := by simp [newSend]
    adding := fun _ => rfl }

section

variable {x x' : Send} {l : Life} {e : Event} {chosen : Except Thrown Modem} {patch : Option Patch}

theorem Embodies.active (h : Embodies x l) (hx : x.stage ≠ .done) : ∃ n, l = .active n := by
  cases l with
  | active n => exact ⟨n, rfl⟩
  | closed n o => exact absurd (h.done_iff.mpr ⟨n, o, rfl⟩) hx

/-- A step that only moves an attempt along. -/
theorem Embodies.moved {stage : Stage} (h : Embodies x l) (hx : x.stage ≠ .done)
    (hdone : stage ≠ .done) (hadd : stage ≠ .adding) : Embodies { x with stage } l := by
  obtain ⟨n, rfl⟩ := h.active hx
  exact { valid := h.valid
          statuses := h.statuses
          outcomes := h.outcomes
          attemptsMade := h.attemptsMade
          done_iff := by simp [hdone]
          adding := fun hs => absurd hs hadd }

/-- A step that ends the send. -/
theorem Embodies.closed {n : Nat} {o : Outcome} {a : Option Attempt} {made : Nat}
    (h : Embodies x (.active n)) (hstep : Life.Step (.active n) (.closed n o)) :
    Embodies (({ x with attemptsMade := made, stage := .done }.wrote (Life.finalStatus o) a).ended o)
      (.closed n o) :=
  { valid := hstep.valid h.valid
    statuses := by simp [h.statuses, Life.statuses]
    outcomes := by simp [h.outcomes, Life.outcomes]
    attemptsMade := by rintro m ⟨⟩
    done_iff := by simp
    adding := by simp }

/-- A failed attempt that BullMQ repeats. -/
theorem Embodies.retry {n : Nat} {a : Option Attempt} (h : Embodies x (.active n))
    (hn : n + 1 < attempts) :
    Embodies (({ x with attemptsMade := x.attemptsMade + 1, stage := .waiting }.wrote
      .retrying a).ended .ordinary) (.active (n + 1)) :=
  { valid := hn
    statuses := by simp [h.statuses, Life.statuses, List.replicate_succ']
    outcomes := by simp [h.outcomes, Life.outcomes, List.replicate_succ']
    attemptsMade := by
      rintro m ⟨rfl⟩
      simp [h.attemptsMade n rfl]
    done_iff := by simp
    adding := by simp }

/-- Every step of a send is a step of its life, or leaves it as it is. -/
theorem Embodies.step (h : Embodies x l) (hs : x.step chosen e = some (x', patch)) :
    ∃ l', (l' = l ∨ Life.Step l l') ∧ Embodies x' l' := by
  cases e with
  | post entry modem => cases hs
  | connection modemId connected => cases hs
  | restart pool => cases hs
  | added i =>
      cases hstage : x.stage <;> simp only [Send.step, hstage] at hs <;> try cases hs
      exact ⟨l, Or.inl rfl, h.moved (by simp [hstage]) (by simp) (by simp)⟩
  | addThrew i err =>
      cases hstage : x.stage <;> simp only [Send.step, hstage] at hs <;> try cases hs
      obtain rfl := h.adding hstage
      exact ⟨_, Or.inr .addThrew, h.closed .addThrew⟩
  | start i =>
      cases hstage : x.stage <;> simp only [Send.step, hstage] at hs <;> try cases hs
      cases chosen with
      | ok m =>
          obtain ⟨rfl, -⟩ := Prod.mk.inj (Option.some.inj hs)
          exact ⟨l, Or.inl rfl, h.moved (by simp [hstage]) (by simp) (by simp)⟩
      | error t =>
          obtain ⟨rfl, -⟩ := Prod.mk.inj (Option.some.inj hs)
          exact ⟨l, Or.inl rfl, h.moved (by simp [hstage]) (by simp) (by simp)⟩
  | call i =>
      cases hstage : x.stage <;> simp only [Send.step, hstage] at hs <;> try cases hs
      exact ⟨l, Or.inl rfl, h.moved (by simp [hstage]) (by simp) (by simp)⟩
  | resolved i reference now =>
      cases hstage : x.stage <;> simp only [Send.step, hstage] at hs <;> try cases hs
      obtain ⟨n, rfl⟩ := h.active (by simp [hstage])
      exact ⟨_, Or.inr (.resolved n), h.closed (.resolved n)⟩
  | rejected i err =>
      cases hstage : x.stage <;> simp only [Send.step, hstage] at hs <;> try cases hs
      exact ⟨l, Or.inl rfl, h.moved (by simp [hstage]) (by simp) (by simp)⟩
  | failed i =>
      cases hstage : x.stage <;> simp only [Send.step, hstage] at hs <;> try cases hs
      rename_i t a
      obtain ⟨n, rfl⟩ := h.active (by simp [hstage])
      have hmade := h.attemptsMade n rfl
      cases ht : t.unrecoverable with
      | true =>
          have hr : retried (x.attemptsMade + 1) t = false := by simp [retried, ht]
          have hst : failedStatus (x.attemptsMade + 1) t = Life.finalStatus .unrecoverable := by
            simp [failedStatus, ht, Life.finalStatus]
          have ho : outcomeOf t = .unrecoverable := by simp [outcomeOf, ht]
          rw [hr, hst, ho]
          exact ⟨_, Or.inr (.unrecoverable n), h.closed (.unrecoverable n)⟩
      | false =>
          have ho : outcomeOf t = .ordinary := by simp [outcomeOf, ht]
          by_cases hn : n + 1 < attempts
          · have hr : retried (x.attemptsMade + 1) t = true := by
              simpa [retried, ht, hmade] using hn
            have hst := (failedStatus_retrying_iff (x.attemptsMade + 1) t).mpr hr
            rw [hr, hst, ho]
            exact ⟨_, Or.inr (.retry n hn), h.retry hn⟩
          · have hr : retried (x.attemptsMade + 1) t = false := by
              simpa [retried, ht, hmade] using hn
            have hst : failedStatus (x.attemptsMade + 1) t = Life.finalStatus .ordinary := by
              have hge : attempts ≤ x.attemptsMade + 1 := by omega
              simp [failedStatus, ht, hge, Life.finalStatus]
            have hlast : n + 1 = attempts := by
              have hv : n < attempts := h.valid
              omega
            rw [hr, hst, ho]
            exact ⟨_, Or.inr (.exhausted n hlast), h.closed (.exhausted n hlast)⟩

/-- A restart leaves the life of a send where it is. -/
theorem embodies_restarted (h : Embodies x l) : Embodies x.restarted l := by
  unfold Send.restarted
  split
  case h_1 => exact h
  case h_2 hopen => exact h.moved hopen (by simp) (by simp)

end

def AllEmbody (s : State) : Prop := ∀ x ∈ s.sends, ∃ l, Embodies x l

theorem allEmbody_step {s s' : State} {e : Event} (hrows : RowsInv s) (h : AllEmbody s)
    (hstep : step s e = some s') : AllEmbody s' := by
  rcases step_cases hstep with ⟨entry, modem, -, -, rfl⟩ | ⟨modemId, connected, -, rfl⟩ |
    ⟨pool, -, rfl⟩ | ⟨i, x, x', patch, -, hx, hx', rfl⟩
  · intro x hx
    rcases List.mem_append.mp hx with hx | hx
    · exact h x hx
    · obtain rfl := List.mem_singleton.mp hx
      exact ⟨_, embodies_new _ _⟩
  · exact h
  · intro y hy
    obtain ⟨x, hx, rfl⟩ := List.mem_map.mp hy
    obtain ⟨l, hl⟩ := h x hx
    exact ⟨l, embodies_restarted hl⟩
  · intro y hy
    rcases Keyed.mem_set_cases hx hrows.nodup hy with rfl | ⟨hy, -⟩
    · obtain ⟨l, hl⟩ := h x (List.mem_of_getElem? hx)
      obtain ⟨l', -, hl'⟩ := hl.step hx'
      exact ⟨l', hl'⟩
    · exact h y hy

theorem allEmbody_run {pool : ModemPool} {es : List Event} {s : State}
    (h : run (start pool) es = some s) : RowsInv s ∧ AllEmbody s :=
  Runs.run_induct (P := fun s => RowsInv s ∧ AllEmbody s) (A := fun _ => True)
    (fun _ _ _ hs _ hstep => ⟨rowsInv_step hs.1 hstep, allEmbody_step hs.1 hs.2 hstep⟩)
    ⟨rowsInv_start pool, by simp [AllEmbody, start]⟩ (fun _ _ => trivial) h

/-! ## The statuses of a row -/

/-- The status a life has reached. -/
def Life.status : Life → Status
  | .active n => if n = 0 then .pending else .retrying
  | .closed _ o => finalStatus o

theorem Life.getLast_statuses (l : Life) : l.statuses.getLast? = some l.status := by
  cases l with
  | active n =>
      cases n with
      | zero => rfl
      | succ n => simp [Life.statuses, Life.status, List.replicate_succ', List.getLast?_cons]
  | closed n o =>
      rw [Life.statuses, List.getLast?_concat]
      rfl

def terminal (st : Status) : Prop := st = .sent ∨ st = .failed ∨ st = .unconfirmed

theorem finalStatus_terminal (o : Outcome) : terminal (Life.finalStatus o) := by
  cases o <;> simp [terminal, Life.finalStatus]

theorem replicate_snoc_eq_singleton {α : Type} {n : Nat} {a b c : α} :
    List.replicate n a ++ [b] = [c] ↔ n = 0 ∧ b = c := by
  cases n with
  | zero => simp
  | succ n => simp [List.replicate_succ]

/-- Only three ordinary failures and a failed enqueueing end in `failed`. -/
theorem Life.failed_iff {l : Life} (hl : l.Valid) :
    l.status = .failed ↔
      l.outcomes = [.addThrew] ∨ l.outcomes = List.replicate attempts .ordinary := by
  cases l with
  | active n =>
      have hn : n < attempts := hl
      have hst : (Life.active n).status ≠ .failed := by cases n <;> simp [Life.status]
      have hadd : List.replicate n Outcome.ordinary ≠ [.addThrew] := by
        intro he
        have hm : Outcome.addThrew ∈ List.replicate n Outcome.ordinary := by simp [he]
        exact absurd (List.eq_of_mem_replicate hm) (by simp)
      have hrep : List.replicate n Outcome.ordinary ≠ List.replicate attempts .ordinary := by
        intro he
        have hlen := congrArg List.length he
        simp only [List.length_replicate] at hlen
        omega
      simp only [hst, Life.outcomes, hadd, hrep, or_self]
  | closed n o =>
      obtain ⟨-, hord, hadd⟩ := hl
      have hthree : List.replicate n Outcome.ordinary ++ [o] = List.replicate attempts .ordinary ↔
          o = .ordinary ∧ n + 1 = attempts := by
        constructor
        · intro he
          have hm : o ∈ List.replicate attempts Outcome.ordinary := by simp [← he]
          have hlen := congrArg List.length he
          simp only [List.length_append, List.length_replicate, List.length_singleton] at hlen
          exact ⟨List.eq_of_mem_replicate hm, hlen⟩
        · rintro ⟨rfl, hn⟩
          rw [← List.replicate_succ', hn]
      rw [Life.outcomes, replicate_snoc_eq_singleton, hthree]
      cases o with
      | resolved => simp [Life.status, Life.finalStatus]
      | unrecoverable => simp [Life.status, Life.finalStatus]
      | ordinary => simp [Life.status, Life.finalStatus, hord]
      | addThrew => simp [Life.status, Life.finalStatus, hadd]

/-- What the status column of a send's row tells about the send. -/
structure StatusLaw (s : State) (x : Send) (st : Status) : Prop where
  /-- the writes are `pending`, at most two `retrying`, then at most one terminal status -/
  path : ∃ n < attempts,
    x.writes.map (·.status) = .pending :: List.replicate n .retrying ∨
      ∃ t, terminal t ∧ x.writes.map (·.status) = .pending :: List.replicate n .retrying ++ [t]
  ended : terminal st ↔ x.stage = .done
  /-- an attempt has failed, and another one runs or will run -/
  retrying : st = .retrying ↔ 0 < x.attemptsMade ∧ x.stage ≠ .done
  sent : st = .sent ↔ .resolved ∈ x.outcomes
  failed : st = .failed ↔ x.outcomes = [.addThrew] ∨ x.outcomes = List.replicate attempts .ordinary
  unconfirmed : st = .unconfirmed ↔ .unrecoverable ∈ x.outcomes
  /-- `sendSMS` is called for rows without a terminal status only -/
  call : ∀ i s', s.sends[i]? = some x → step s (.call i) = some s' → ¬ terminal st

theorem statusLaw_of_embodies {s : State} {x : Send} {l : Life} (h : Embodies x l) :
    StatusLaw s x l.status := by
  have hended : terminal l.status ↔ x.stage = .done := by
    rw [h.done_iff]
    cases l with
    | active n =>
        have hne : ¬ terminal (Life.active n).status := by
          cases n <;> simp [terminal, Life.status]
        simp [hne]
    | closed n o =>
        have hterm : terminal (Life.closed n o).status := finalStatus_terminal o
        simp [hterm]
  refine ⟨?_, hended, ?_, ?_, ?_, ?_, ?_⟩
  · rw [h.statuses]
    cases l with
    | active n => exact ⟨n, h.valid, Or.inl rfl⟩
    | closed n o => exact ⟨n, h.valid.1, Or.inr ⟨_, finalStatus_terminal o, rfl⟩⟩
  · cases l with
    | active n =>
        have hx : x.stage ≠ .done := by simp [h.done_iff]
        rw [h.attemptsMade n rfl]
        cases n <;> simp [Life.status, hx]
    | closed n o =>
        have hx : x.stage = .done := h.done_iff.mpr ⟨n, o, rfl⟩
        cases o <;> simp [Life.status, Life.finalStatus, hx]
  · rw [h.outcomes]
    cases l with
    | active n => cases n <;> simp [Life.status, Life.outcomes]
    | closed n o => cases o <;> simp [Life.status, Life.finalStatus, Life.outcomes]
  · rw [h.outcomes]
    exact Life.failed_iff h.valid
  · rw [h.outcomes]
    cases l with
    | active n => cases n <;> simp [Life.status, Life.outcomes]
    | closed n o => cases o <;> simp [Life.status, Life.finalStatus, Life.outcomes]
  · intro i s' hi hcall hterm
    have hdone := hended.mp hterm
    simp [step, Event.send, hi, Send.step, hdone] at hcall

/-- In every run the row of each send carries a status of the automaton, and the status is the
one its attempts have earned. -/
theorem status_automaton {pool : ModemPool} {es : List Event} {s : State}
    (h : run (start pool) es = some s) :
    ∀ x ∈ s.sends, ∃ row st, getLog s.rows x.logId = some row ∧ row.status = st.text ∧
      StatusLaw s x st := by
  obtain ⟨hrows, hall⟩ := allEmbody_run h
  intro x hx
  obtain ⟨l, hl⟩ := hall x hx
  obtain ⟨row, w, hrow, hw, hst⟩ := hrows.row x hx
  have hlast := l.getLast_statuses
  rw [← hl.statuses, List.getLast?_map, hw] at hlast
  obtain hw' : w.status = l.status := Option.some.inj hlast
  exact ⟨row, l.status, hrow, hw' ▸ hst, statusLaw_of_embodies hl⟩

def onePool : ModemPool := ⟨[⟨js "m1", true⟩], 0, by simp⟩

def oneEntry : Row :=
  { id := js "a", timestamp := js "t0", recipient := js "+99361234567", message := js "Hi"
    projectName := none, ip := none, status := [], error := none, sentAt := none, reference := none
    modemId := none, clientRef := none, callbackUrl := none }

/-- A send whose first attempt fails and whose second one succeeds. -/
def secondAttempt : List Event :=
  [.post oneEntry none, .added 0, .start 0, .call 0, .rejected 0 (newError (js "busy")), .failed 0,
    .start 0, .call 0, .resolved 0 none (js "t1")]

theorem secondAttempt_isSome : (run (start onePool) secondAttempt).isSome = true := by
  decide +kernel

theorem status_automaton_second_attempt :
    ∃ x ∈ ((run (start onePool) secondAttempt).get secondAttempt_isSome).sends,
      ∃ row st, getLog ((run (start onePool) secondAttempt).get secondAttempt_isSome).rows x.logId =
        some row ∧ row.status = st.text ∧
        StatusLaw ((run (start onePool) secondAttempt).get secondAttempt_isSome) x st := by
  have hsent : ((run (start onePool) secondAttempt).get secondAttempt_isSome).sends ≠ [] :=
    List.ne_nil_of_length_pos (by decide +kernel)
  obtain ⟨x, hx⟩ := List.exists_mem_of_ne_nil _ hsent
  exact ⟨x, hx, status_automaton (Option.some_get secondAttempt_isSome).symm x hx⟩

end SmsGateway.SendQueue
