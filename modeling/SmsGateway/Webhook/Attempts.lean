import SmsGateway.Webhook.Mirror

/-!
# Attempt numbers in callbacks

The route writes a row once and every attempt writes it once more, so the k-th transition
behind the route's is the k-th attempt's. The processor reads `job.attemptsMade` while its
attempt is still running, the `failed` handler after BullMQ has counted it.
-/

namespace SmsGateway.Webhook.Gateway

open SmsGateway LogStore Pool Worker Webhook
open Lib

/-! ## What a callback has to carry -/

/-- The transitions of a send: its row after each write, and the callback of that write. -/
def entriesOf (s : State) (id : JsString) : List Entry := s.history.filter (·.row.id == id)

/-- The attempt that a transition comes from; neither the route nor a failed `Queue.add` is one. -/
def attemptAt (outcomes : List SendQueue.Outcome) : Nat → Option Nat
  | 0 => none
  | k + 1 =>
      match outcomes[k]? with
      | none => none
      | some .addThrew => none
      | some _ => some (k + 1)

/-- Each callback carries the number of the attempt that its transition comes from. -/
def Numbered (s : State) (x : SendQueue.Send) : Prop :=
  ∀ k e job, (entriesOf s x.logId)[k]? = some e → e.callback = some job →
    job.payload.attempt = attemptAt x.outcomes k

structure NumbersAttempts (s : State) (x : SendQueue.Send) : Prop where
  transitions : (entriesOf s x.logId).length = x.outcomes.length + 1
  numbered : Numbered s x
  increasing : ((jobsOf s x.logId).filterMap (·.payload.attempt)).Pairwise (· < ·)
  /-- a success at the first try is numbered 1 -/
  first : x.outcomes = [.resolved] → ∀ job ∈ jobsOf s x.logId, job.payload.attempt = some 1

section

variable (newURL : JsString → Option Url)

/-- No attempt succeeds on a send whose callbacks go somewhere. -/
def silent (s : State) : Event → Bool
  | .send (.resolved i _ _) _ =>
      match s.queue.sends[i]? with
      | some x => (getLog s.queue.rows x.logId).all fun row => !callbackAllowed newURL s.config row
      | none => true
  | _ => true

end

theorem attemptAt_snoc {outcomes : List SendQueue.Outcome} {o : SendQueue.Outcome} {k : Nat}
    (hk : k < outcomes.length + 1) : attemptAt (outcomes ++ [o]) k = attemptAt outcomes k := by
  cases k with
  | zero => rfl
  | succ k =>
      have hk' : k < outcomes.length := by omega
      rw [attemptAt, attemptAt, List.getElem?_append_left hk']

theorem attemptAt_last (outcomes : List SendQueue.Outcome) (o : SendQueue.Outcome) :
    attemptAt (outcomes ++ [o]) (outcomes.length + 1) =
      if o = .addThrew then none else some (outcomes.length + 1) := by
  rw [attemptAt, List.getElem?_concat_length]
  cases o <;> rfl

theorem attemptAt_eq {outcomes : List SendQueue.Outcome} {k a : Nat}
    (h : attemptAt outcomes k = some a) : a = k := by
  cases k with
  | zero => cases h
  | succ k =>
      rw [attemptAt] at h
      split at h
      · cases h
      · cases h
      · exact (Option.some.inj h).symm

/-! ## One step -/

/-- What of a send its attempt numbers depend on. -/
def tally (x : SendQueue.Send) : JsString × List SendQueue.Outcome × Nat × Bool :=
  (x.logId, x.outcomes, x.attemptsMade, decide (x.stage = .done))

theorem tally_restarted (x : SendQueue.Send) : tally x.restarted = tally x := by
  unfold SendQueue.Send.restarted
  split
  · rfl
  · simp_all [tally]

/-- A step of a send counts an attempt, with the number its callback is given, or none. -/
theorem tally_step {x x' : SendQueue.Send} {e : SendQueue.Event} {chosen : Except Thrown Modem}
    {patch : Option Patch} (h : x.step chosen e = some (x', patch)) :
    (patch = none ∧ tally x' = tally x ∧ ∀ i reference now, e ≠ .resolved i reference now) ∨
    ∃ o, patch.isSome = true ∧ x'.outcomes = x.outcomes ++ [o] ∧ x.stage ≠ .done ∧
      (x'.stage ≠ .done → x'.attemptsMade = x.attemptsMade + 1) ∧
      ((∃ i reference now a, e = .resolved i reference now ∧ o = .resolved ∧
          x'.writes = x.writes ++ [⟨.sent, a⟩] ∧ attemptOf x e = some x.attemptsMade) ∨
        (∀ i reference now, e ≠ .resolved i reference now) ∧
          attemptOf x e = if o = .addThrew then none else some (x.attemptsMade + 1)) := by
  cases e with
  | post entry modem => cases h
  | connection modemId connected => cases h
  | restart pool => cases h
  | added i =>
      cases hstage : x.stage <;> simp only [SendQueue.Send.step, hstage] at h <;> try cases h
      exact Or.inl ⟨rfl, by simp [tally, hstage], by simp⟩
  | start i =>
      cases hstage : x.stage <;> simp only [SendQueue.Send.step, hstage] at h <;> try cases h
      cases chosen with
      | ok m =>
          obtain ⟨rfl, rfl⟩ := Prod.mk.inj (Option.some.inj h)
          exact Or.inl ⟨rfl, by simp [tally, hstage], by simp⟩
      | error t =>
          obtain ⟨rfl, rfl⟩ := Prod.mk.inj (Option.some.inj h)
          exact Or.inl ⟨rfl, by simp [tally, hstage], by simp⟩
  | call i =>
      cases hstage : x.stage <;> simp only [SendQueue.Send.step, hstage] at h <;> try cases h
      exact Or.inl ⟨rfl, by simp [tally, hstage], by simp⟩
  | rejected i err =>
      cases hstage : x.stage <;> simp only [SendQueue.Send.step, hstage] at h <;> try cases h
      exact Or.inl ⟨rfl, by simp [tally, hstage], by simp⟩
  | addThrew i err =>
      cases hstage : x.stage <;> simp only [SendQueue.Send.step, hstage] at h <;> try cases h
      exact Or.inr ⟨.addThrew, rfl, rfl, by simp, by simp, Or.inr ⟨by simp, rfl⟩⟩
  | resolved i reference now =>
      cases hstage : x.stage <;> simp only [SendQueue.Send.step, hstage] at h <;> try cases h
      exact Or.inr ⟨.resolved, rfl, rfl, by simp, by simp, Or.inl ⟨i, reference, now, _, rfl, rfl, rfl, rfl⟩⟩
  | failed i =>
      cases hstage : x.stage <;> simp only [SendQueue.Send.step, hstage] at h <;> try cases h
      rename_i t a
      have ho : SendQueue.outcomeOf t ≠ .addThrew := by
        unfold SendQueue.outcomeOf
        split <;> simp
      exact Or.inr ⟨SendQueue.outcomeOf t, rfl, rfl, by simp, by simp, Or.inr ⟨by simp, by simp [attemptOf, ho]⟩⟩

section

variable {newURL : JsString → Option Url} {resolve : Url → JsString → Option Url}
  {config : Config} {pool : ModemPool} {s s' : State}

theorem attempt_enqueueWebhook {row : Row} {attempt : Option Nat} {occurredAt : JsString} {job : Job}
    (h : enqueueWebhook newURL config (some row) attempt occurredAt = some job) :
    job.payload.attempt = attempt ∧ job.payload.logId = row.id := by
  unfold enqueueWebhook at h
  simp only at h
  split at h
  · cases h
  · split at h
    · cases h
    · split at h
      · cases h
      · split at h
        · cases h
        · obtain rfl := Option.some.inj h
          exact ⟨rfl, rfl⟩

/-- A row that has been sent leads to a callback exactly when its callbacks go somewhere. -/
theorem enqueueWebhook_sent {row : Row} (hrow : row.status = Status.sent.text) (attempt : Option Nat)
    (occurredAt : JsString) : (enqueueWebhook newURL config (some row) attempt occurredAt).isSome =
      callbackAllowed newURL config row := by
  have hfacts : (enqueueWebhook newURL config (some row) attempt occurredAt).map Job.facts =
    expected newURL config row := facts_enqueueWebhook hrow attempt occurredAt
  replace hfacts := congrArg Option.isSome hfacts
  rw [Option.isSome_map] at hfacts
  rw [hfacts, expected, hrow, notified_text]
  cases callbackAllowed newURL config row <;> rfl

/-- The sends, their transitions and their callbacks belong together. -/
structure AttemptsInv (s : State) : Prop where
  queue : SendQueue.RowsInv s.queue
  transitions : ∀ x ∈ s.queue.sends, (entriesOf s x.logId).length = x.outcomes.length + 1
  made : ∀ x ∈ s.queue.sends, x.stage ≠ .done → x.attemptsMade = x.outcomes.length
  owned : ∀ e ∈ s.history, ∃ x ∈ s.queue.sends, x.logId = e.row.id
  jobs : s.enqueued = s.history.filterMap (·.callback)
  named : ∀ e ∈ s.history, ∀ job, e.callback = some job → job.payload.logId = e.row.id
  posted : ∀ x ∈ s.queue.sends, ∀ e, (entriesOf s x.logId)[0]? = some e → e.callback = none

theorem attemptsInv_start : AttemptsInv (start config pool) := by
  refine ⟨SendQueue.rowsInv_start pool, ?_, ?_, ?_, rfl, ?_, ?_⟩
  all_goals
    intro x hx
    cases hx

theorem entriesOf_other {entry : Entry} {id : JsString} (hs : s'.history = s.history ++ [entry])
    (hne : entry.row.id ≠ id) : entriesOf s' id = entriesOf s id := by
  simp [entriesOf, hs, hne]

theorem entriesOf_self {entry : Entry} (hs : s'.history = s.history ++ [entry]) :
    entriesOf s' entry.row.id = entriesOf s entry.row.id ++ [entry] := by
  simp [entriesOf, hs]

/-- A step that writes nothing. -/
structure Quiet (s s' : State) : Prop where
  history : s'.history = s.history
  enqueued : s'.enqueued = s.enqueued
  sends : s'.queue.sends.map tally = s.queue.sends.map tally

/-- A step of the route. -/
structure Posts (s s' : State) (row : Row) (modem : Option JsString) : Prop where
  fresh : ∀ x ∈ s.queue.sends, x.logId ≠ row.id
  history : s'.history = s.history ++ [⟨row, none, none⟩]
  enqueued : s'.enqueued = s.enqueued
  sends : s'.queue.sends = s.queue.sends ++ [SendQueue.newSend row.id modem]

/-- A step by which a send comes to its next transition. -/
structure Moves (s s' : State) (i : Nat) (x x' : SendQueue.Send) (o : SendQueue.Outcome)
    (entry : Entry) : Prop where
  send : s.queue.sends[i]? = some x
  running : x.stage ≠ .done
  logId : x'.logId = x.logId
  outcomes : x'.outcomes = x.outcomes ++ [o]
  made : x'.stage ≠ .done → x'.attemptsMade = x.attemptsMade + 1
  row : entry.row.id = x.logId
  named : ∀ job, entry.callback = some job → job.payload.logId = x.logId
  history : s'.history = s.history ++ [entry]
  enqueued : s'.enqueued = s.enqueued ++ entry.callback.toList
  sends : s'.queue.sends = s.queue.sends.set i x'

/-- The callback of a transition carries the number of its attempt. -/
def Entry.numbered (entry : Entry) (x : SendQueue.Send) (o : SendQueue.Outcome) : Prop :=
  ∀ job, entry.callback = some job →
    job.payload.attempt = attemptAt (x.outcomes ++ [o]) (x.outcomes.length + 1)

/-- The callback of a success carries the number of the attempts before it, so the numbers are
right only where there is none. -/
theorem numbered_sent_iff {x : SendQueue.Send} {row : Row} {used : Option JsString}
    {occurredAt : JsString} (hmade : x.attemptsMade = x.outcomes.length)
    (hrow : row.status = Status.sent.text) :
    Entry.numbered ⟨row, used, enqueueWebhook newURL config (some row) (some x.attemptsMade)
      occurredAt⟩ x .resolved ↔ callbackAllowed newURL config row = false := by
  rw [← enqueueWebhook_sent hrow (some x.attemptsMade) occurredAt, Option.isSome_eq_false_iff,
    Option.isNone_iff_eq_none]
  constructor
  · intro hnum
    cases hjob : enqueueWebhook newURL config (some row) (some x.attemptsMade) occurredAt with
    | none => rfl
    | some job =>
        have hcarried := (attempt_enqueueWebhook hjob).1
        rw [hnum job hjob, attemptAt_last, if_neg (by simp), hmade] at hcarried
        have hlen := Option.some.inj hcarried
        omega
  · intro hnone job hjob
    rw [hnone] at hjob
    cases hjob

theorem silent_other {e : SendQueue.Event} {occurredAt : JsString}
    (h : ∀ i reference now, e ≠ .resolved i reference now) :
    silent newURL s (.send e occurredAt) = true := by
  cases e with
  | resolved i reference now => exact absurd rfl (h i reference now)
  | _ => rfl

/-- The transition a step of a send leads to is numbered unless a success is announced. -/
theorem moves_of_step {e : SendQueue.Event} {occurredAt : JsString} {i : Nat}
    {x x' : SendQueue.Send} {patch : Option Patch} {o : SendQueue.Outcome} (h : AttemptsInv s)
    (hi : e.send = some i) (hx : s.queue.sends[i]? = some x)
    (hx' : x.step (SendQueue.choice s.queue x e).1 e = some (x', patch))
    (hpatch : patch.isSome = true) (houtcomes : x'.outcomes = x.outcomes ++ [o])
    (hrunning : x.stage ≠ .done) (hmade : x'.stage ≠ .done → x'.attemptsMade = x.attemptsMade + 1)
    (hattempt : (∃ i reference now a, e = .resolved i reference now ∧ o = .resolved ∧
        x'.writes = x.writes ++ [⟨.sent, a⟩] ∧ attemptOf x e = some x.attemptsMade) ∨
      (∀ i reference now, e ≠ .resolved i reference now) ∧
        attemptOf x e = if o = .addThrew then none else some (x.attemptsMade + 1))
    (hsends : s'.queue.sends = s.queue.sends.set i x')
    (hhistory : s'.history = s.history ++ (entryOf newURL s e occurredAt).toList)
    (henqueued : s'.enqueued =
      s.enqueued ++ ((entryOf newURL s e occurredAt).bind (·.callback)).toList) :
    ∃ entry, Moves s s' i x x' o entry ∧
      (silent newURL s (.send e occurredAt) = true ↔ entry.numbered x o) := by
  have hmem := List.mem_of_getElem? hx
  rcases entryOf_send newURL h.queue hi hx hx' occurredAt with
    ⟨rfl, -, -⟩ | ⟨p, w, row, row', rfl, hadd, hrow, hrow', hstatus, hfixed, hsome⟩
  · cases hpatch
  have hid : row'.id = x.logId := (id_of_fixed hfixed).trans (getLog_id hrow)
  rw [hsome] at hhistory henqueued
  refine ⟨_, ⟨hx, hrunning, (SendQueue.Send.step_writes hx').1, houtcomes, hmade, hid, ?_, hhistory,
    henqueued, hsends⟩, ?_⟩
  · intro job hjob
    exact (attempt_enqueueWebhook hjob).2.trans hid
  have hcount := h.made x hmem hrunning
  rcases hattempt with ⟨i', reference, now, a, rfl, rfl, hsent, hnumber⟩ | ⟨hother, hnumber⟩
  · obtain rfl := Option.some.inj hi
    have hw : w.status = .sent := by
      rw [hadd] at hsent
      rw [List.singleton_inj.mp (List.append_cancel_left hsent)]
    have hurl := effectiveUrl_of_fixed s.config hfixed
    have hsilent : silent newURL s (.send (.resolved i' reference now) occurredAt) =
        !callbackAllowed newURL s.config row' := by
      simp [silent, hx, hrow, callbackAllowed, hurl]
    rw [hsilent, Bool.not_eq_true', hnumber, numbered_sent_iff hcount (hw ▸ hstatus)]
  · simp only [silent_other hother, true_iff]
    intro job hjob
    rw [(attempt_enqueueWebhook hjob).1, hnumber, attemptAt_last, hcount]

/-- Everything a step can do to the sends, their transitions and their callbacks. -/
theorem step_attempts {e : Event} (h : AttemptsInv s) (hstep : step newURL resolve s e = some s') :
    (Quiet s s' ∧ silent newURL s e = true) ∨
    (∃ row modem, Posts s s' row modem ∧ silent newURL s e = true) ∨
    ∃ i x x' o entry, Moves s s' i x x' o entry ∧ (silent newURL s e = true ↔ entry.numbered x o) := by
  cases e with
  | send e occurredAt =>
      obtain ⟨queue, hvalid, hqueue, rfl⟩ := step_send hstep
      rcases SendQueue.step_cases hqueue with ⟨entry, modem, rfl, hfree, rfl⟩ |
        ⟨modemId, connected, rfl, rfl⟩ | ⟨pool, rfl, rfl⟩ | ⟨i, x, x', patch, hi, hx, hx', rfl⟩
      · have hfresh : ∀ x ∈ s.queue.sends, x.logId ≠ entry.id := by
          intro x hx he
          obtain ⟨row, -, hrow, -⟩ := h.queue.row x hx
          rw [he, hfree] at hrow
          cases hrow
        exact Or.inr (Or.inl ⟨SendQueue.logEntry entry modem, modem,
          ⟨hfresh, rfl, List.append_nil _, rfl⟩, rfl⟩)
      · exact Or.inl ⟨⟨List.append_nil _, List.append_nil _, rfl⟩, rfl⟩
      · cases hvalid
      · rcases tally_step hx' with ⟨rfl, hsame, hother⟩ |
          ⟨o, hpatch, houtcomes, hrunning, hmade, hattempt⟩
        · have hnone : entryOf newURL s e occurredAt = none := by
            rcases entryOf_send newURL h.queue hi hx hx' occurredAt with
              ⟨-, -, hnone⟩ | ⟨p, w, row, row', hp, -⟩
            · exact hnone
            · cases hp
          exact Or.inl ⟨⟨by simp [hnone], by simp [hnone], Keyed.map_key_set hx hsame⟩,
            silent_other hother⟩
        · refine Or.inr (Or.inr ⟨i, x, x', o, ?_⟩)
          exact moves_of_step h hi hx hx' hpatch houtcomes hrunning hmade hattempt rfl rfl rfl
  | restart config' pool =>
      obtain ⟨queue, hqueue, rfl⟩ := step_restart hstep
      obtain rfl := Option.some.inj hqueue
      refine Or.inl ⟨⟨rfl, rfl, ?_⟩, rfl⟩
      rw [List.map_map]
      exact List.map_congr_left fun x _ => tally_restarted x
  | deliver k answers =>
      obtain ⟨w, waiting, -, -, rfl⟩ := step_deliver hstep
      exact Or.inl ⟨⟨rfl, rfl, rfl⟩, rfl⟩

/-- The sends before and after a quiet step have the same tallies. -/
theorem Quiet.back (h : Quiet s s') {x : SendQueue.Send} (hx : x ∈ s'.queue.sends) :
    ∃ y ∈ s.queue.sends, tally y = tally x := by
  have hmem := List.mem_map_of_mem (f := tally) hx
  rw [h.sends] at hmem
  exact List.mem_map.mp hmem

theorem Quiet.forth (h : Quiet s s') {y : SendQueue.Send} (hy : y ∈ s.queue.sends) :
    ∃ x ∈ s'.queue.sends, tally x = tally y := by
  have hmem := List.mem_map_of_mem (f := tally) hy
  rw [← h.sends] at hmem
  exact List.mem_map.mp hmem

theorem Quiet.entriesOf (h : Quiet s s') (id : JsString) : entriesOf s' id = entriesOf s id := by
  rw [Gateway.entriesOf, Gateway.entriesOf, h.history]

theorem tally_inj {x y : SendQueue.Send} (h : tally x = tally y) : x.logId = y.logId ∧
    x.outcomes = y.outcomes ∧ x.attemptsMade = y.attemptsMade ∧ (x.stage = .done ↔ y.stage = .done) := by
  simp only [tally, Prod.mk.injEq, decide_eq_decide] at h
  exact h

/-- The other sends keep their transitions. -/
theorem Moves.other {i : Nat} {x x' y : SendQueue.Send} {o : SendQueue.Outcome} {entry : Entry}
    (h : Moves s s' i x x' o entry) (hne : y.logId ≠ x.logId) :
    entriesOf s' y.logId = entriesOf s y.logId :=
  entriesOf_other h.history (by rw [h.row]; exact hne.symm)

theorem Moves.self {i : Nat} {x x' : SendQueue.Send} {o : SendQueue.Outcome} {entry : Entry}
    (h : Moves s s' i x x' o entry) : entriesOf s' x.logId = entriesOf s x.logId ++ [entry] := by
  have hself := entriesOf_self h.history
  rwa [h.row] at hself

theorem Moves.mem {i : Nat} {x x' : SendQueue.Send} {o : SendQueue.Outcome} {entry : Entry}
    (h : Moves s s' i x x' o entry) : x' ∈ s'.queue.sends := by
  rw [h.sends]
  exact List.mem_set (List.getElem?_eq_some_iff.mp h.send).1 x'

/-- A send that has not been posted yet has no transitions. -/
theorem Posts.entriesOf_nil {row : Row} {modem : Option JsString} (h : AttemptsInv s)
    (hp : Posts s s' row modem) : entriesOf s row.id = [] := by
  rw [entriesOf, List.filter_eq_nil_iff]
  intro e he hid
  obtain ⟨x, hx, hxid⟩ := h.owned e he
  exact hp.fresh x hx (hxid.trans (beq_iff_eq.mp hid))

theorem attemptsInv_quiet (h : AttemptsInv s) (hqueue : SendQueue.RowsInv s'.queue)
    (hq : Quiet s s') : AttemptsInv s' := by
  refine ⟨hqueue, ?_, ?_, ?_, ?_, ?_, ?_⟩
  · intro x hx
    obtain ⟨y, hy, hxy⟩ := hq.back hx
    obtain ⟨hid, houtcomes, -, -⟩ := tally_inj hxy
    rw [hq.entriesOf, ← hid, ← houtcomes]
    exact h.transitions y hy
  · intro x hx hrunning
    obtain ⟨y, hy, hxy⟩ := hq.back hx
    obtain ⟨-, houtcomes, hmade, hdone⟩ := tally_inj hxy
    rw [← hmade, ← houtcomes]
    exact h.made y hy fun hy' => hrunning (hdone.mp hy')
  · intro e he
    rw [hq.history] at he
    obtain ⟨y, hy, hid⟩ := h.owned e he
    obtain ⟨x, hx, hxy⟩ := hq.forth hy
    exact ⟨x, hx, (tally_inj hxy).1.trans hid⟩
  · rw [hq.enqueued, hq.history]
    exact h.jobs
  · rw [hq.history]
    exact h.named
  · intro x hx e he
    obtain ⟨y, hy, hxy⟩ := hq.back hx
    rw [hq.entriesOf, ← (tally_inj hxy).1] at he
    exact h.posted y hy e he

theorem attemptsInv_posts {row : Row} {modem : Option JsString} (h : AttemptsInv s)
    (hqueue : SendQueue.RowsInv s'.queue) (hp : Posts s s' row modem) : AttemptsInv s' := by
  have hself : entriesOf s' row.id = [⟨row, none, none⟩] := by
    have hentries := entriesOf_self hp.history
    rwa [Posts.entriesOf_nil h hp, List.nil_append] at hentries
  have hother : ∀ x ∈ s.queue.sends, entriesOf s' x.logId = entriesOf s x.logId :=
    fun x hx => entriesOf_other hp.history (hp.fresh x hx).symm
  refine ⟨hqueue, ?_, ?_, ?_, ?_, ?_, ?_⟩
  · intro x hx
    rw [hp.sends] at hx
    rcases List.mem_append.mp hx with hx | hx
    · rw [hother x hx]
      exact h.transitions x hx
    · rw [List.mem_singleton.mp hx]
      show (entriesOf s' row.id).length = _
      rw [hself]
      rfl
  · intro x hx hrunning
    rw [hp.sends] at hx
    rcases List.mem_append.mp hx with hx | hx
    · exact h.made x hx hrunning
    · rw [List.mem_singleton.mp hx]
      rfl
  · intro e he
    rw [hp.sends]
    rw [hp.history] at he
    rcases List.mem_append.mp he with he | he
    · obtain ⟨x, hx, hid⟩ := h.owned e he
      exact ⟨x, List.mem_append_left _ hx, hid⟩
    · rw [List.mem_singleton.mp he]
      exact ⟨_, List.mem_append_right _ List.mem_cons_self, rfl⟩
  · rw [hp.enqueued, hp.history, List.filterMap_append, ← h.jobs]
    simp
  · intro e he
    rw [hp.history] at he
    rcases List.mem_append.mp he with he | he
    · exact h.named e he
    · rw [List.mem_singleton.mp he]
      simp
  · intro x hx e he
    rw [hp.sends] at hx
    rcases List.mem_append.mp hx with hx | hx
    · rw [hother x hx] at he
      exact h.posted x hx e he
    · rw [List.mem_singleton.mp hx] at he
      change (entriesOf s' row.id)[0]? = some e at he
      rw [hself] at he
      obtain rfl := Option.some.inj he
      rfl

theorem attemptsInv_moves {i : Nat} {x x' : SendQueue.Send} {o : SendQueue.Outcome} {entry : Entry}
    (h : AttemptsInv s) (hqueue : SendQueue.RowsInv s'.queue) (hm : Moves s s' i x x' o entry) :
    AttemptsInv s' := by
  have hx := List.mem_of_getElem? hm.send
  have hcases : ∀ y ∈ s'.queue.sends, y = x' ∨ (y ∈ s.queue.sends ∧ y.logId ≠ x.logId) := by
    intro y hy
    rw [hm.sends] at hy
    exact Keyed.mem_set_cases hm.send h.queue.nodup hy
  have hlen := h.transitions x hx
  refine ⟨hqueue, ?_, ?_, ?_, ?_, ?_, ?_⟩
  · intro y hy
    rcases hcases y hy with rfl | ⟨hy, hne⟩
    · rw [hm.logId, hm.self, hm.outcomes, List.length_append, List.length_append, hlen]
      rfl
    · rw [hm.other hne]
      exact h.transitions y hy
  · intro y hy hrunning
    rcases hcases y hy with rfl | ⟨hy, -⟩
    · rw [hm.made hrunning, h.made x hx hm.running, hm.outcomes, List.length_append]
      rfl
    · exact h.made y hy hrunning
  · intro e he
    rw [hm.history] at he
    rcases List.mem_append.mp he with he | he
    · obtain ⟨y, hy, hid⟩ := h.owned e he
      by_cases hyx : y.logId = x.logId
      · exact ⟨x', hm.mem, (hm.logId.trans hyx.symm).trans hid⟩
      · refine ⟨y, ?_, hid⟩
        rw [hm.sends]
        exact Keyed.mem_set_of_key_ne hm.send hy hyx
    · rw [List.mem_singleton.mp he]
      exact ⟨x', hm.mem, hm.logId.trans hm.row.symm⟩
  · rw [hm.enqueued, hm.history, List.filterMap_append, ← h.jobs]
    cases hc : entry.callback <;> simp [hc]
  · intro e he job hjob
    rw [hm.history] at he
    rcases List.mem_append.mp he with he | he
    · exact h.named e he job hjob
    · rw [List.mem_singleton.mp he] at hjob ⊢
      rw [hm.row]
      exact hm.named job hjob
  · intro y hy e he
    rcases hcases y hy with rfl | ⟨hy, hne⟩
    · rw [hm.logId, hm.self, List.getElem?_append_left (by omega)] at he
      exact h.posted x hx e he
    · rw [hm.other hne] at he
      exact h.posted y hy e he

theorem attemptsInv_step {e : Event} (h : AttemptsInv s)
    (hstep : step newURL resolve s e = some s') : AttemptsInv s' := by
  have hqueue := rowsInv_step h.queue hstep
  rcases step_attempts h hstep with ⟨hq, -⟩ | ⟨row, modem, hp, -⟩ | ⟨i, x, x', o, entry, hm, -⟩
  · exact attemptsInv_quiet h hqueue hq
  · exact attemptsInv_posts h hqueue hp
  · exact attemptsInv_moves h hqueue hm

/-! ## The numbers -/

/-- A transition more keeps the numbers of a send exactly when it carries its own. -/
theorem numbered_moves {i : Nat} {x x' : SendQueue.Send} {o : SendQueue.Outcome} {entry : Entry}
    (h : AttemptsInv s) (hm : Moves s s' i x x' o entry) :
    Numbered s' x' ↔ Numbered s x ∧ entry.numbered x o := by
  have hlen := h.transitions x (List.mem_of_getElem? hm.send)
  unfold Numbered Entry.numbered
  rw [hm.logId, hm.self, hm.outcomes]
  constructor
  · intro hnum
    constructor
    · intro k e job hk hjob
      have hlt := (List.getElem?_eq_some_iff.mp hk).1
      have hk' := hnum k e job (by rw [List.getElem?_append_left hlt]; exact hk) hjob
      rwa [attemptAt_snoc (by omega)] at hk'
    · intro job hjob
      refine hnum _ entry job ?_ hjob
      rw [← hlen, List.getElem?_concat_length]
  · rintro ⟨hold, hnew⟩ k e job hk hjob
    by_cases hlt : k < (entriesOf s x.logId).length
    · rw [List.getElem?_append_left hlt] at hk
      rw [attemptAt_snoc (by omega)]
      exact hold k e job hk hjob
    · have hk' := (List.getElem?_eq_some_iff.mp hk).1
      rw [List.length_append, List.length_singleton] at hk'
      obtain rfl : k = x.outcomes.length + 1 := by omega
      rw [← hlen, List.getElem?_concat_length] at hk
      obtain rfl := Option.some.inj hk
      exact hnew job hjob

theorem numbered_quiet (hq : Quiet s s') :
    (∀ x ∈ s'.queue.sends, Numbered s' x) ↔ ∀ x ∈ s.queue.sends, Numbered s x := by
  have hsame : ∀ {x y}, tally x = tally y → (Numbered s' x ↔ Numbered s y) := by
    intro x y hxy
    obtain ⟨hid, houtcomes, -, -⟩ := tally_inj hxy
    rw [Numbered, Numbered, hq.entriesOf, hid, houtcomes]
  constructor
  · intro hall y hy
    obtain ⟨x, hx, hxy⟩ := hq.forth hy
    exact (hsame hxy).mp (hall x hx)
  · intro hall x hx
    obtain ⟨y, hy, hxy⟩ := hq.back hx
    exact (hsame hxy.symm).mpr (hall y hy)

/-- A new send has no callback yet. -/
theorem numbered_posts {row : Row} {modem : Option JsString} (h : AttemptsInv s)
    (hp : Posts s s' row modem) :
    (∀ x ∈ s'.queue.sends, Numbered s' x) ↔ ∀ x ∈ s.queue.sends, Numbered s x := by
  have hother : ∀ x ∈ s.queue.sends, (Numbered s' x ↔ Numbered s x) := by
    intro x hx
    rw [Numbered, Numbered, entriesOf_other hp.history (hp.fresh x hx).symm]
  have hnew : Numbered s' (SendQueue.newSend row.id modem) := by
    intro k e job hk hjob
    change (entriesOf s' row.id)[k]? = some e at hk
    have hself := entriesOf_self hp.history
    rw [Posts.entriesOf_nil h hp] at hself
    rw [hself] at hk
    obtain rfl := List.mem_singleton.mp (List.mem_of_getElem? hk)
    cases hjob
  rw [hp.sends]
  constructor
  · intro hall x hx
    exact (hother x hx).mp (hall x (List.mem_append_left _ hx))
  · intro hall x hx
    rcases List.mem_append.mp hx with hx | hx
    · exact (hother x hx).mpr (hall x hx)
    · rw [List.mem_singleton.mp hx]
      exact hnew

theorem numbered_moves_all {i : Nat} {x x' : SendQueue.Send} {o : SendQueue.Outcome} {entry : Entry}
    (h : AttemptsInv s) (hm : Moves s s' i x x' o entry) :
    (∀ y ∈ s'.queue.sends, Numbered s' y) ↔
      (∀ y ∈ s.queue.sends, Numbered s y) ∧ entry.numbered x o := by
  have hx := List.mem_of_getElem? hm.send
  have hother : ∀ y : SendQueue.Send, y.logId ≠ x.logId → (Numbered s' y ↔ Numbered s y) := by
    intro y hne
    rw [Numbered, Numbered, hm.other hne]
  constructor
  · intro hall
    obtain ⟨hold, hnew⟩ := (numbered_moves h hm).mp (hall x' hm.mem)
    refine ⟨?_, hnew⟩
    intro y hy
    by_cases hne : y.logId = x.logId
    · rw [List.inj_on_of_nodup_map h.queue.nodup hy hx hne]
      exact hold
    · refine (hother y hne).mp (hall y ?_)
      rw [hm.sends]
      exact Keyed.mem_set_of_key_ne hm.send hy hne
  · rintro ⟨hall, hnew⟩ y hy
    rw [hm.sends] at hy
    rcases Keyed.mem_set_cases hm.send h.queue.nodup hy with rfl | ⟨hy, hne⟩
    · exact (numbered_moves h hm).mpr ⟨hall x hx, hnew⟩
    · exact (hother y hne).mpr (hall y hy)

/-- A step keeps the numbers of all sends exactly when it announces no success. -/
theorem numbered_step {e : Event} (h : AttemptsInv s) (hstep : step newURL resolve s e = some s') :
    (∀ x ∈ s'.queue.sends, Numbered s' x) ↔
      (∀ x ∈ s.queue.sends, Numbered s x) ∧ silent newURL s e = true := by
  rcases step_attempts h hstep with ⟨hq, hsilent⟩ | ⟨row, modem, hp, hsilent⟩ |
    ⟨i, x, x', o, entry, hm, hsilent⟩
  · rw [numbered_quiet hq, hsilent]
    simp
  · rw [numbered_posts h hp, hsilent]
    simp
  · rw [numbered_moves_all h hm, hsilent]

/-- Numbers that are the places of their entries increase. -/
theorem places_increasing {α : Type} {f : α → Option Nat} {l : List α} {n : Nat}
    (h : ∀ i e a, l[i]? = some e → f e = some a → a = n + i) :
    (l.filterMap f).Pairwise (· < ·) := by
  induction l generalizing n with
  | nil => exact List.Pairwise.nil
  | cons e l ih =>
      have hrest : ∀ i e' a, l[i]? = some e' → f e' = some a → a = n + 1 + i := by
        intro i e' a hi ha
        have hplace := h (i + 1) e' a hi ha
        omega
      cases ha : f e with
      | none =>
          rw [List.filterMap_cons_none ha]
          exact ih hrest
      | some a =>
          rw [List.filterMap_cons_some ha]
          refine List.Pairwise.cons ?_ (ih hrest)
          intro b hb
          obtain ⟨e', he', hb'⟩ := List.mem_filterMap.mp hb
          obtain ⟨j, hj⟩ := List.mem_iff_getElem?.mp he'
          have hfirst := h 0 e a rfl ha
          have hlater := hrest j e' b hj hb'
          omega

/-- The callbacks of a send are those of its transitions. -/
theorem jobsOf_entriesOf (h : AttemptsInv s) (id : JsString) :
    jobsOf s id = (entriesOf s id).filterMap (·.callback) := by
  have hnamed := h.named
  rw [jobsOf, entriesOf, h.jobs]
  generalize s.history = history at hnamed
  induction history with
  | nil => rfl
  | cons e history ih =>
      have hrest := ih fun e' he' => hnamed e' (List.mem_cons_of_mem e he')
      cases hc : e.callback with
      | none => by_cases hid : e.row.id = id <;> simp [hc, hid, hrest]
      | some job =>
          have hjob := hnamed e List.mem_cons_self job hc
          by_cases hid : e.row.id = id <;> simp [hc, hid, hjob, hrest]

/-- Where every callback carries its attempt's number, the numbers of a send increase from 1. -/
theorem numbersAttempts_of_numbered (h : AttemptsInv s) {x : SendQueue.Send}
    (hx : x ∈ s.queue.sends) (hnum : Numbered s x) : NumbersAttempts s x := by
  refine ⟨h.transitions x hx, hnum, ?_, ?_⟩
  · rw [jobsOf_entriesOf h, List.filterMap_filterMap]
    refine places_increasing (n := 0) ?_
    intro i e a hi ha
    obtain ⟨job, hjob, hattempt⟩ := Option.bind_eq_some_iff.mp ha
    rw [hnum i e job hi hjob] at hattempt
    have hplace := attemptAt_eq hattempt
    omega
  · intro houtcomes job hjob
    rw [jobsOf_entriesOf h] at hjob
    obtain ⟨e, he, hcallback⟩ := List.mem_filterMap.mp hjob
    obtain ⟨k, hk⟩ := List.mem_iff_getElem?.mp he
    have hlt := (List.getElem?_eq_some_iff.mp hk).1
    rw [h.transitions x hx, houtcomes] at hlt
    cases k with
    | zero =>
        rw [h.posted x hx e hk] at hcallback
        cases hcallback
    | succ k =>
        obtain rfl : k = 0 := by
          simp only [List.length_singleton] at hlt
          omega
        rw [hnum 1 e job hk hcallback, houtcomes]
        rfl

/-- In every run the callbacks of all sends carry the numbers of their attempts exactly when
no attempt succeeds on a send whose callbacks go somewhere. -/
theorem numbersAttempts_iff {es : List Event} (h : run newURL resolve (start config pool) es = some s) :
    (∀ x ∈ s.queue.sends, NumbersAttempts s x) ↔
      Runs.allSteps (step newURL resolve) (silent newURL) (start config pool) es = true := by
  have hinv : AttemptsInv s := Runs.run_induct (A := fun _ => True)
    (fun _ _ _ hs _ hstep => attemptsInv_step hs hstep) attemptsInv_start (fun _ _ => trivial) h
  have hrun : (∀ x ∈ s.queue.sends, Numbered s x) ↔
      (∀ x ∈ (start config pool).queue.sends, Numbered (start config pool) x) ∧
        Runs.allSteps (step newURL resolve) (silent newURL) (start config pool) es = true :=
    Runs.allSteps_iff (P := fun s => ∀ x ∈ s.queue.sends, Numbered s x) (I := AttemptsInv)
      (A := fun _ => True) (fun _ _ _ hs _ hstep => attemptsInv_step hs hstep)
      (fun _ _ _ hs _ hstep => numbered_step hs hstep) attemptsInv_start (fun _ _ => trivial) h
  have hstart : ∀ x ∈ (start config pool).queue.sends, Numbered (start config pool) x := by
    intro x hx
    cases hx
  constructor
  · intro hall
    exact (hrun.mp fun x hx => (hall x hx).numbered).2
  · intro hes x hx
    exact numbersAttempts_of_numbered hinv hx (hrun.mpr ⟨hstart, hes⟩ x hx)

end

/-! ## Runs -/

/-- A send whose three attempts all fail. -/
def failedSend : List Event :=
  ([SendQueue.Event.post hooksEntry none, .added 0] ++
    (List.replicate 3 [SendQueue.Event.start 0, .call 0, .rejected 0 (newError (js "busy")),
      .failed 0]).flatten).map fun e => .send e (js "t")

/-- A send whose first attempt succeeds. -/
def firstTry : List Event :=
  [SendQueue.Event.post hooksEntry none, .added 0, .start 0, .call 0,
    .resolved 0 none (js "t1")].map fun e => .send e (js "t")

def failedRun : Option State := run hooksURL (fun _ _ => none) (start hooks onePool) failedSend

def firstTryRun : Option State := run hooksURL (fun _ _ => none) (start hooks onePool) firstTry

theorem failedRun_isSome : failedRun.isSome = true := by decide +kernel

theorem firstTryRun_isSome : firstTryRun.isSome = true := by decide +kernel

theorem numbersAttempts_iff_failed :
    (∀ x ∈ (failedRun.get failedRun_isSome).queue.sends,
      NumbersAttempts (failedRun.get failedRun_isSome) x) ↔
      Runs.allSteps (step hooksURL fun _ _ => none) (silent hooksURL) (start hooks onePool)
        failedSend = true :=
  numbersAttempts_iff (Option.some_get failedRun_isSome).symm

example : Runs.allSteps (step hooksURL fun _ _ => none) (silent hooksURL) (start hooks onePool)
    failedSend = true := by decide +kernel

example : (jobsOf (failedRun.get failedRun_isSome) (js "a")).map (·.payload.attempt) =
    [some 1, some 2, some 3] := by decide +kernel

/-- A first success carries 0, and a second attempt's success carries the number of the
attempt that failed before it. -/
theorem success_misnumbered :
    (¬ ∀ x ∈ (firstTryRun.get firstTryRun_isSome).queue.sends,
      NumbersAttempts (firstTryRun.get firstTryRun_isSome) x) ∧
    ¬ ∀ x ∈ (retriedRun.get retriedRun_isSome).queue.sends,
      NumbersAttempts (retriedRun.get retriedRun_isSome) x := by
  constructor
  · intro hall
    obtain ⟨x, hx, hid, houtcomes⟩ : ∃ x ∈ (firstTryRun.get firstTryRun_isSome).queue.sends,
        x.logId = js "a" ∧ x.outcomes = [.resolved] := by decide +kernel
    have hcarried : ¬ ∀ job ∈ jobsOf (firstTryRun.get firstTryRun_isSome) (js "a"),
        job.payload.attempt = some 1 := by decide +kernel
    have hfirst := (hall x hx).first houtcomes
    rw [hid] at hfirst
    exact hcarried hfirst
  · intro hall
    obtain ⟨x, hx, hid⟩ : ∃ x ∈ (retriedRun.get retriedRun_isSome).queue.sends,
        x.logId = js "a" := by decide +kernel
    have hcarried : (jobsOf (retriedRun.get retriedRun_isSome) (js "a")).filterMap
        (·.payload.attempt) = [1, 1] := by decide +kernel
    have hincreasing := (hall x hx).increasing
    rw [hid, hcarried] at hincreasing
    simp at hincreasing

end SmsGateway.Webhook.Gateway
