import SmsGateway.Webhook.Mirror

/-!
# The modem a write names

The worker writes the id of its modem on the error it has caught, and the `failed` handler
patches the row with it. An unconfirmed send is thrown as another error, which has no id.
-/

namespace SmsGateway.Webhook.Gateway

open SmsGateway LogStore Pool Worker Webhook
open Lib

/-- The row after the write of an attempt that has called a modem, and the callback about it,
name this modem. -/
def Entry.Attributed (e : Entry) : Prop :=
  ∀ m, e.used = some m →
    e.row.modemId = some m ∧ ∀ job, e.callback = some job → job.payload.modemId = some m

/-- A send is unconfirmed only through the modem its row already names. -/
def knowsModem (s : State) : Event → Bool
  | .send (.failed i) _ =>
      match s.queue.sends[i]?, s.called.getD i none with
      | some x, some m =>
          match x.stage with
          | .threw t _ =>
              !t.unrecoverable || (getLog s.queue.rows x.logId).all (·.modemId == some m)
          | _ => true
      | _, _ => true
  | _ => true

/-! ## Patches -/

section

variable {rows : List Row} {id : JsString} {row : Row}

theorem getLog_updateLog {patch : Patch} {st : Status} {row' : Row}
    (hrow : getLog rows id = some row) (hp : SendQueue.Writes st patch)
    (h : (updateLog rows id patch).1 = .ok (some row')) :
    getLog (updateLog rows id patch).2 id = some row' := by
  obtain ⟨r, hr, hget, -, -⟩ := updateLog_written hrow hp.status hp.bindable
  rw [hr] at h
  rw [hget, Option.some.inj (Except.ok.inj h)]

theorem modemId_sentPatch (now m : JsString) (reference : Option JsString)
    (hrow : getLog rows id = some row) :
    ∃ row', getLog (updateLog rows id (sentPatch now reference m)).2 id = some row' ∧
      row'.modemId = some m := by
  have hsets : sets (sentPatch now reference m) = [(.status, .text (js "sent")), (.error, .null),
      (.sentAt, .text now), (.reference, optionValue reference), (.modemId, .text m)] := rfl
  have hupdate : (updateLog rows id (sentPatch now reference m)).1 = .ok (some { row with
      status := js "sent", error := none, sentAt := some now, reference, modemId := some m }) := by
    cases reference <;>
      simp [updateLog, hsets, bindValue, optionValue, hrow, setColumns, setColumn]
  exact ⟨_, getLog_updateLog hrow (SendQueue.writes_sentPatch now reference m) hupdate, rfl⟩

theorem modemId_failedPatch {n : Nat} {t : Thrown} (hrow : getLog rows id = some row) :
    ∃ row', getLog (updateLog rows id (failedPatch n t)).2 id = some row' ∧
      row'.modemId = match t.error.modemId with
        | some m => if m = [] then row.modemId else some m
        | none => row.modemId := by
  have hwrites := SendQueue.writes_failedPatch n t
  cases hm : t.error.modemId with
  | none =>
      have hsets : sets (failedPatch n t) =
          [(.status, .text (failedStatus n t).text), (.error, .text t.error.message)] := by
        rw [failedPatch, hm]
        rfl
      have hupdate : (updateLog rows id (failedPatch n t)).1 = .ok (some { row with
          status := (failedStatus n t).text, error := some t.error.message }) := by
        simp [updateLog, hsets, bindValue, hrow, setColumns, setColumn]
      exact ⟨_, getLog_updateLog hrow hwrites hupdate, rfl⟩
  | some m =>
      by_cases hempty : m = []
      · have hsets : sets (failedPatch n t) =
            [(.status, .text (failedStatus n t).text), (.error, .text t.error.message)] := by
          simp only [failedPatch, hm, if_pos hempty]
          rfl
        have hupdate : (updateLog rows id (failedPatch n t)).1 = .ok (some { row with
            status := (failedStatus n t).text, error := some t.error.message }) := by
          simp [updateLog, hsets, bindValue, hrow, setColumns, setColumn]
        exact ⟨_, getLog_updateLog hrow hwrites hupdate, by simp [hempty]⟩
      · have hsets : sets (failedPatch n t) = [(.status, .text (failedStatus n t).text),
            (.error, .text t.error.message), (.modemId, .text m)] := by
          simp only [failedPatch, hm, if_neg hempty]
          rfl
        have hupdate : (updateLog rows id (failedPatch n t)).1 = .ok (some { row with
            status := (failedStatus n t).text, error := some t.error.message
            modemId := some m }) := by
          simp [updateLog, hsets, bindValue, hrow, setColumns, setColumn]
        exact ⟨_, getLog_updateLog hrow hwrites hupdate, by simp [hempty]⟩

theorem sendFailed_modemId (m : JsString) (err : JsError) :
    (sendFailed m err).error.modemId = if err.confirmTimeout then none else some m := by
  unfold sendFailed
  dsimp only
  split <;> rfl

end

/-! ## One write -/

section

variable {newURL : JsString → Option Url}

theorem enqueueWebhook_modemId {config : Config} {row : Row} {attempt : Option Nat}
    {occurredAt : JsString} {job : Job}
    (h : enqueueWebhook newURL config (some row) attempt occurredAt = some job) :
    job.payload.modemId = row.modemId := by
  unfold enqueueWebhook at h
  dsimp only at h
  split at h
  · cases h
  · split at h
    · cases h
    · split at h
      · cases h
      · split at h
        · cases h
        · obtain rfl := Option.some.inj h
          rfl

/-- A callback names the modem that its row does. -/
theorem attributed_iff {config : Config} {row : Row} {used : Option JsString} {attempt : Option Nat}
    {occurredAt : JsString} :
    Entry.Attributed ⟨row, used, enqueueWebhook newURL config (some row) attempt occurredAt⟩ ↔
      ∀ m, used = some m → row.modemId = some m := by
  constructor
  · exact fun h m hm => (h m hm).1
  · intro h m hm
    exact ⟨h m hm, fun job hjob => (enqueueWebhook_modemId hjob).trans (h m hm)⟩

/-! ## The modem of an attempt -/

/-- The modem that the attempt of a send has called, by the stage of the send. -/
def Calls (x : SendQueue.Send) (called : Option JsString) : Prop :=
  match x.stage with
  | .ready m => m ≠ [] ∧ called = none
  | .sending m => m ≠ [] ∧ called = some m
  | .threw t _ => called = none ∨ ∃ m err, m ≠ [] ∧ called = some m ∧ t = sendFailed m err
  | _ => called = none

/-- Every modem has a name, as `parseModemConfigs` demands. -/
def Named (pool : ModemPool) : Prop := ∀ m ∈ pool.modems, m.id ≠ []

structure CallsInv (s : State) : Prop where
  queue : SendQueue.RowsInv s.queue
  named : Named s.queue.pool
  length : s.called.length = s.queue.sends.length
  calls : ∀ (i : Nat) (x : SendQueue.Send) (c : Option JsString),
    s.queue.sends[i]? = some x → s.called[i]? = some c → Calls x c

theorem named_setConnected {pool : ModemPool} (h : Named pool) (id : JsString) (connected : Bool) :
    Named (setConnected pool id connected) := by
  intro m hm
  obtain ⟨m', hm', rfl⟩ := List.mem_map.mp hm
  split
  · exact h m' hm'
  · exact h m' hm'

theorem chosen_named {pool : ModemPool} {pinned : Option JsString} {m : Modem} (h : Named pool)
    (hm : (chooseModem pool pinned).1 = .ok m) : m.id ≠ [] := by
  have hpick : Named (pick pool).2 ∧ (pick pool).1.id ≠ [] := ⟨h, h _ (pick_mem pool)⟩
  unfold chooseModem at hm
  split at hm
  · split at hm
    · split at hm
      case h_1 m' hget =>
        obtain rfl := Except.ok.inj hm
        exact h _ (List.mem_of_find?_eq_some hget)
      case h_2 => cases hm
    · obtain rfl := Except.ok.inj hm
      exact hpick.2
  · obtain rfl := Except.ok.inj hm
    exact hpick.2

theorem named_choice {q : SendQueue.State} {x : SendQueue.Send} {e : SendQueue.Event}
    (h : Named q.pool) : Named (SendQueue.choice q x e).2 := by
  have hchoose : Named (chooseModem q.pool x.modem).2 := by
    unfold chooseModem
    split
    · split
      · split
        · exact h
        · exact h
      · exact h
    · exact h
  cases e with
  | start i => exact hchoose
  | _ => exact h

/-- A step of a send, with what it makes of the modem it has called. -/
theorem calls_step {s : State} {e : SendQueue.Event} {i : Nat} {x x' : SendQueue.Send}
    {patch : Option Patch} {c : Option JsString} (h : CallsInv s) (hi : e.send = some i)
    (hx : s.queue.sends[i]? = some x) (hc : s.called[i]? = some c)
    (hx' : x.step (SendQueue.choice s.queue x e).1 e = some (x', patch)) :
    ∃ c', calledAfter s e = s.called.set i c' ∧ Calls x' c' := by
  have hcalls := h.calls i x c hx hc
  have hsame : s.called = s.called.set i c := by
    apply List.ext_getElem?
    intro j
    by_cases hj : i = j
    · subst hj
      rw [List.getElem?_set_self (List.getElem?_eq_some_iff.mp hc).1, hc]
    · rw [List.getElem?_set_ne hj]
  unfold Calls at hcalls
  cases e with
  | post entry modem => cases hi
  | connection modemId connected => cases hi
  | restart pool => cases hi
  | added j =>
      cases hstage : x.stage <;> simp only [SendQueue.Send.step, hstage] at hx' <;> try cases hx'
      rw [hstage] at hcalls
      exact ⟨c, hsame, hcalls⟩
  | addThrew j err =>
      cases hstage : x.stage <;> simp only [SendQueue.Send.step, hstage] at hx' <;> try cases hx'
      rw [hstage] at hcalls
      exact ⟨c, hsame, hcalls⟩
  | start j =>
      cases hstage : x.stage <;> simp only [SendQueue.Send.step, hstage] at hx' <;> try cases hx'
      rw [hstage] at hcalls
      have hchoice : (SendQueue.choice s.queue x (.start j)).1 =
          (chooseModem s.queue.pool x.modem).1 := rfl
      rw [hchoice] at hx'
      cases hm : (chooseModem s.queue.pool x.modem).1 with
      | ok m =>
          rw [hm] at hx'
          obtain ⟨rfl, -⟩ := Prod.mk.inj (Option.some.inj hx')
          exact ⟨c, hsame, chosen_named h.named hm, hcalls⟩
      | error t =>
          rw [hm] at hx'
          obtain ⟨rfl, -⟩ := Prod.mk.inj (Option.some.inj hx')
          exact ⟨c, hsame, Or.inl hcalls⟩
  | call j =>
      obtain rfl : j = i := Option.some.inj hi
      cases hstage : x.stage <;> simp only [SendQueue.Send.step, hstage] at hx' <;> try cases hx'
      rename_i m
      rw [hstage] at hcalls
      refine ⟨some m, ?_, hcalls.1, rfl⟩
      simp only [calledAfter, hx, hstage]
  | resolved j reference now =>
      obtain rfl : j = i := Option.some.inj hi
      cases hstage : x.stage <;> simp only [SendQueue.Send.step, hstage] at hx' <;> try cases hx'
      exact ⟨none, rfl, rfl⟩
  | rejected j err =>
      cases hstage : x.stage <;> simp only [SendQueue.Send.step, hstage] at hx' <;> try cases hx'
      rename_i m
      rw [hstage] at hcalls
      exact ⟨c, hsame, Or.inr ⟨m, err, hcalls.1, hcalls.2, rfl⟩⟩
  | failed j =>
      obtain rfl : j = i := Option.some.inj hi
      cases hstage : x.stage <;> simp only [SendQueue.Send.step, hstage] at hx' <;> try cases hx'
      rename_i t a
      refine ⟨none, rfl, ?_⟩
      unfold Calls
      simp only [SendQueue.Send.ended_stage, SendQueue.Send.wrote_stage]
      by_cases hretried : retried (x.attemptsMade + 1) t = true
      · rw [if_pos hretried]
        trivial
      · rw [if_neg hretried]
        trivial

theorem callsInv_start {config : Config} {pool : ModemPool} (h : Named pool) :
    CallsInv (start config pool) := by
  refine ⟨SendQueue.rowsInv_start pool, h, rfl, ?_⟩
  intro i x c hx
  cases hx

theorem calls_restarted (x : SendQueue.Send) : Calls x.restarted none := by
  unfold Calls SendQueue.Send.restarted
  cases hstage : x.stage <;> simp [hstage]

/-- The next process may use modems of its own, which have names too. -/
def Event.named : Event → Prop
  | .restart _ pool => Named pool
  | _ => True

variable {resolve : Url → JsString → Option Url} {s s' : State}

theorem callsInv_send {e : SendQueue.Event} {queue : SendQueue.State} (h : CallsInv s)
    (hvalid : valid newURL s.config e = true) (hqueue : SendQueue.step s.queue e = some queue)
    (hs : s'.queue = queue) (hcalled : s'.called = calledAfter s e) : CallsInv s' := by
  have hinv := SendQueue.rowsInv_step h.queue hqueue
  subst hs
  rcases SendQueue.step_cases hqueue with ⟨entry, modem, rfl, -, hs⟩ |
    ⟨modemId, connected, rfl, hs⟩ | ⟨pool, rfl, -⟩ | ⟨i, x, x', patch, hi, hx, hx', hs⟩
  · refine ⟨hinv, by rw [hs]; exact h.named, ?_, ?_⟩
    · rw [hcalled, hs]
      simp [calledAfter, h.length]
    · intro j y c hy hc
      rw [hs, List.getElem?_append] at hy
      rw [hcalled, calledAfter, List.getElem?_append, h.length] at hc
      split at hy
      · exact h.calls j y c hy (by simpa [*] using hc)
      · rename_i hlt
        rw [if_neg hlt] at hc
        obtain rfl := List.mem_singleton.mp (List.mem_of_getElem? hy)
        exact List.mem_singleton.mp (List.mem_of_getElem? hc)
  · have hsame : s'.called = s.called := hcalled
    refine ⟨hinv, by rw [hs]; exact named_setConnected h.named _ _, ?_, ?_⟩
    · rw [hsame, hs]
      exact h.length
    · rw [hsame, hs]
      exact h.calls
  · cases hvalid
  · have hlt : i < s.called.length := by
      rw [h.length]
      exact (List.getElem?_eq_some_iff.mp hx).1
    obtain ⟨c, hafter, hcalls⟩ := calls_step h hi hx (List.getElem?_eq_getElem hlt) hx'
    rw [hafter] at hcalled
    refine ⟨hinv, by rw [hs]; exact named_choice h.named, ?_, ?_⟩
    · rw [hcalled, hs]
      simp [h.length]
    · intro j y c' hy hc'
      rw [hs] at hy
      rw [hcalled] at hc'
      by_cases hj : i = j
      · subst hj
        rw [List.getElem?_set_self (h.length ▸ hlt)] at hy
        rw [List.getElem?_set_self hlt] at hc'
        rw [← Option.some.inj hy, ← Option.some.inj hc']
        exact hcalls
      · rw [List.getElem?_set_ne hj] at hy hc'
        exact h.calls j y c' hy hc'

theorem callsInv_step {e : Event} (h : CallsInv s) (he : e.named)
    (hstep : step newURL resolve s e = some s') : CallsInv s' := by
  cases e with
  | send e occurredAt =>
      obtain ⟨queue, hvalid, hqueue, rfl⟩ := step_send hstep
      exact callsInv_send h hvalid hqueue rfl rfl
  | restart config pool =>
      have hinv := rowsInv_step h.queue hstep
      obtain ⟨queue, hqueue, rfl⟩ := step_restart hstep
      obtain rfl := Option.some.inj hqueue
      refine ⟨hinv, he, by simp [h.length], ?_⟩
      intro i x c hx hc
      rw [List.getElem?_map] at hx hc
      obtain ⟨y, -, rfl⟩ := Option.map_eq_some_iff.mp hx
      obtain ⟨d, -, rfl⟩ := Option.map_eq_some_iff.mp hc
      exact calls_restarted y
  | deliver k answers =>
      obtain ⟨w, waiting, -, -, rfl⟩ := step_deliver hstep
      exact ⟨h.queue, h.named, h.length, h.calls⟩

end

/-! ## Runs -/

section

variable {newURL : JsString → Option Url} {resolve : Url → JsString → Option Url} {s s' : State}

theorem usedBy_eq {e : SendQueue.Event} {i : Nat} {c : Option JsString} (hi : e.send = some i)
    (hc : s.called[i]? = some c) : usedBy s e = c := by
  rw [usedBy, hi]
  simp [hc]

/-- A write names the modem its attempt has called, unless the send is unconfirmed and the row
names another. -/
theorem entryOf_attributed {e : SendQueue.Event} {i : Nat} {x x' : SendQueue.Send}
    {patch : Option Patch} {occurredAt : JsString} (h : CallsInv s) (hi : e.send = some i)
    (hx : s.queue.sends[i]? = some x)
    (hx' : x.step (SendQueue.choice s.queue x e).1 e = some (x', patch)) :
    (∀ entry ∈ (entryOf newURL s e occurredAt).toList, entry.Attributed) ↔
      knowsModem s (.send e occurredAt) = true := by
  have hlt : i < s.called.length := by
    rw [h.length]
    exact (List.getElem?_eq_some_iff.mp hx).1
  obtain ⟨c, hc⟩ : ∃ c, s.called[i]? = some c := ⟨_, List.getElem?_eq_getElem hlt⟩
  have hcalls := h.calls i x c hx hc
  have hused := usedBy_eq hi hc
  unfold Calls at hcalls
  rcases entryOf_send newURL h.queue hi hx hx' occurredAt with
    ⟨rfl, -, hnone⟩ | ⟨p, w, row, row', rfl, -, hrow, hrow', -, -, hsome⟩
  · rw [hnone]
    cases e with
    | failed j =>
        cases hstage : x.stage <;> simp only [SendQueue.Send.step, hstage] at hx' <;> cases hx'
    | _ => simp [knowsModem]
  · rw [hsome]
    simp only [Option.toList_some, List.forall_mem_singleton, attributed_iff, hused]
    cases e with
    | post entry modem => cases hi
    | connection modemId connected => cases hi
    | restart pool => cases hi
    | added j =>
        cases hstage : x.stage <;> simp only [SendQueue.Send.step, hstage] at hx' <;> cases hx'
    | addThrew j err =>
        cases hstage : x.stage <;> simp only [SendQueue.Send.step, hstage] at hx' <;> try cases hx'
        rw [hstage] at hcalls
        simp [knowsModem, hcalls]
    | start j =>
        cases hstage : x.stage <;> simp only [SendQueue.Send.step, hstage] at hx' <;> try cases hx'
        split at hx'
        · cases hx'
        · cases hx'
    | call j =>
        cases hstage : x.stage <;> simp only [SendQueue.Send.step, hstage] at hx' <;> cases hx'
    | resolved j reference now =>
        cases hstage : x.stage <;> simp only [SendQueue.Send.step, hstage] at hx' <;> try cases hx'
        rename_i m
        rw [hstage] at hcalls
        obtain ⟨row'', hget, hmodem⟩ := modemId_sentPatch now m reference hrow
        rw [SendQueue.applyPatch, hget] at hrow'
        obtain rfl := Option.some.inj hrow'
        simp [knowsModem, hcalls.2, hmodem]
    | rejected j err =>
        cases hstage : x.stage <;> simp only [SendQueue.Send.step, hstage] at hx' <;> cases hx'
    | failed j =>
        obtain rfl : j = i := Option.some.inj hi
        cases hstage : x.stage <;> simp only [SendQueue.Send.step, hstage] at hx' <;> try cases hx'
        rename_i t a
        rw [hstage] at hcalls
        obtain ⟨row'', hget, hmodem⟩ := modemId_failedPatch (n := x.attemptsMade + 1) (t := t) hrow
        rw [SendQueue.applyPatch, hget] at hrow'
        obtain rfl := Option.some.inj hrow'
        rcases hcalls with rfl | ⟨m, err, hm, rfl, rfl⟩
        · simp [knowsModem, hx, hc]
        · rw [sendFailed_modemId] at hmodem
          simp only [knowsModem, hx, List.getD_eq_getElem?_getD, hc, Option.getD_some, hstage,
            sendFailed_unrecoverable, hrow, Option.all_some]
          cases hconfirm : err.confirmTimeout with
          | true =>
              rw [hconfirm] at hmodem
              simp [hmodem]
          | false =>
              rw [hconfirm] at hmodem
              simp [hmodem, hm]

theorem attributed_step {e : Event} (h : CallsInv s)
    (hstep : step newURL resolve s e = some s') :
    (∀ entry ∈ s'.history, entry.Attributed) ↔
      (∀ entry ∈ s.history, entry.Attributed) ∧ knowsModem s e = true := by
  cases e with
  | send e occurredAt =>
      obtain ⟨queue, -, hqueue, rfl⟩ := step_send hstep
      change (∀ entry ∈ s.history ++ (entryOf newURL s e occurredAt).toList, _) ↔ _
      rw [List.forall_mem_append]
      refine and_congr_right fun _ => ?_
      rcases SendQueue.step_cases hqueue with ⟨entry, modem, rfl, -, -⟩ |
        ⟨modemId, connected, rfl, -⟩ | ⟨pool, rfl, -⟩ | ⟨i, x, x', patch, hi, hx, hx', -⟩
      · simp [entryOf, Entry.Attributed, knowsModem]
      · simp [entryOf, patchOf, SendQueue.Event.send, knowsModem]
      · simp [entryOf, patchOf, SendQueue.Event.send, knowsModem]
      · exact entryOf_attributed h hi hx hx'
  | restart config pool =>
      obtain ⟨queue, -, rfl⟩ := step_restart hstep
      simp [knowsModem]
  | deliver k answers =>
      obtain ⟨w, waiting, -, -, rfl⟩ := step_deliver hstep
      simp [knowsModem]

/-- After every write the row and its callback name the modem the attempt has called, exactly
when every send that was unconfirmed had been so through the modem its row named. -/
theorem modemAttribution_iff {config : Config} {pool : ModemPool} {es : List Event}
    (hpool : Named pool) (hes : ∀ e ∈ es, e.named)
    (h : run newURL resolve (start config pool) es = some s) :
    (∀ e ∈ s.history, e.Attributed) ↔
      Runs.allSteps (step newURL resolve) knowsModem (start config pool) es = true := by
  have hinv (s : State) (e : Event) (s' : State) (hs : CallsInv s) (he : e.named)
      (hstep : step newURL resolve s e = some s') : CallsInv s' := callsInv_step hs he hstep
  have hwrites (s : State) (e : Event) (s' : State) (hs : CallsInv s) (_ : e.named)
      (hstep : step newURL resolve s e = some s') :
      (∀ entry ∈ s'.history, entry.Attributed) ↔
        (∀ entry ∈ s.history, entry.Attributed) ∧ knowsModem s e = true :=
    attributed_step hs hstep
  have hstart : ∀ e ∈ (start config pool).history, e.Attributed := by
    intro e he
    cases he
  exact (Runs.allSteps_iff hinv hwrites (callsInv_start hpool) hes h).trans (and_iff_right hstart)

end

def twoPool : ModemPool := ⟨[⟨js "m1", true⟩, ⟨js "m2", true⟩], 0, by simp⟩

/-- The two attempts of a send go through two modems. -/
def twoModems : Option State := run hooksURL (fun _ _ => none) (start hooks twoPool) retriedSend

theorem twoModems_isSome : twoModems.isSome = true := by decide +kernel

theorem modemAttribution_twoModems :
    ((twoModems.get twoModems_isSome).history.map (·.used) = [none, some (js "m1"), some (js "m2")]) ∧
      ∀ e ∈ (twoModems.get twoModems_isSome).history, e.Attributed := by
  have hpool : Named twoPool := by
    intro m hm
    rcases List.mem_cons.mp hm with rfl | hm
    · decide
    · rw [List.mem_singleton.mp hm]
      decide
  have hnamed : ∀ e ∈ retriedSend, e.named := by
    intro e he
    obtain ⟨e, -, rfl⟩ := List.mem_map.mp he
    trivial
  refine ⟨by decide +kernel, ?_⟩
  exact (modemAttribution_iff hpool hnamed (Option.some_get twoModems_isSome).symm).mpr
    (by decide +kernel)

/-- The second attempt hands the message to its modem and gets no confirmation. -/
def unconfirmedSecond : List Event :=
  [SendQueue.Event.post hooksEntry none, .added 0, .start 0, .call 0,
    .rejected 0 (newError (js "busy")), .failed 0, .start 0, .call 0,
    .rejected 0 { newError (js "timeout") with confirmTimeout := true }, .failed 0].map
      fun e => .send e (js "t")

/-- The row and the callback keep the modem of the attempt before. -/
theorem unconfirmed_names_another :
    ∃ s, run hooksURL (fun _ _ => none) (start hooks twoPool) unconfirmedSecond = some s ∧
      ¬ ∀ e ∈ s.history, e.Attributed := by
  have hrun : (run hooksURL (fun _ _ => none) (start hooks twoPool) unconfirmedSecond).any
      (fun s => s.history.any fun e =>
        e.used == some (js "m2") && e.row.modemId == some (js "m1")) = true := by
    decide +kernel
  obtain ⟨s, hs, hany⟩ := Option.any_eq_true _ _ |>.mp hrun
  obtain ⟨e, he, hnames⟩ := List.any_eq_true.mp hany
  rw [Bool.and_eq_true, beq_iff_eq, beq_iff_eq] at hnames
  refine ⟨s, hs, ?_⟩
  intro hall
  have hrow := (hall e he _ hnames.1).1
  rw [hnames.2] at hrow
  exact absurd hrow (by decide)

end SmsGateway.Webhook.Gateway
