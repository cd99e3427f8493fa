import SmsGateway.Webhook.Gateway

/-!
# Callbacks mirror the rows

Every status write hands the row as it is then to `enqueueWebhook`, so the callbacks of a
send are its notifiable writes, one for one and in their order.
-/

namespace SmsGateway.Webhook.Gateway

open SmsGateway LogStore Pool Worker Webhook
open Lib

/-! ## What a callback has to say -/

/-- The statuses a caller is told about. -/
def notifiable (sendIntermediate : Bool) : Status → Bool
  | .pending => false
  | .retrying => sendIntermediate
  | .sent => true
  | .failed => true
  | .unconfirmed => true

def notified (sendIntermediate : Bool) (status : JsString) : Bool :=
  [Status.pending, .retrying, .sent, .failed, .unconfirmed].any fun st =>
    st.text == status && notifiable sendIntermediate st

/-- What of a callback comes from the row. -/
structure Facts where
  url : JsString
  logId : JsString
  status : JsString
  error : Option JsString
  reference : Option JsString
  modemId : Option JsString
  sentAt : Option JsString
  clientRef : Option JsString
  recipient : JsString
  projectName : Option JsString
  deriving DecidableEq

def Job.facts (job : Job) : Facts :=
  { url := job.callbackUrl, logId := job.payload.logId, status := job.payload.status
    error := job.payload.error, reference := job.payload.reference, modemId := job.payload.modemId
    sentAt := job.payload.sentAt, clientRef := job.payload.clientRef
    recipient := job.payload.recipient, projectName := job.payload.projectName }

def factsOf (url : JsString) (row : Row) : Facts :=
  { url, logId := row.id, status := row.status, error := row.error, reference := row.reference
    modemId := row.modemId, sentAt := row.sentAt, clientRef := row.clientRef
    recipient := row.recipient, projectName := row.projectName }

/-- The rows of a send as they stood right after each of its writes. -/
def rowsOf (s : State) (id : JsString) : List Row := (s.history.map (·.row)).filter (·.id == id)

def jobsOf (s : State) (id : JsString) : List Job := s.enqueued.filter (·.payload.logId == id)

section

variable (newURL : JsString → Option Url) (config : Config)

/-- The effective URL of a row is one that callbacks may go to. -/
def callbackAllowed (row : Row) : Bool :=
  effectiveUrl config row != [] && isAllowedUrl newURL (effectiveUrl config row) config.allowedHosts

/-- The callbacks of a send are its notifiable writes. -/
structure Mirrors (s : State) (x : SendQueue.Send) (row : Row) : Prop where
  written : (rowsOf s x.logId).map (·.status) = x.writes.map (·.status.text)
  fixed : ∀ r ∈ rowsOf s x.logId, r.fixed = row.fixed
  allowed : callbackAllowed newURL config row = true →
    (jobsOf s x.logId).map Job.facts =
      ((rowsOf s x.logId).filter fun r => notified config.sendIntermediate r.status).map
        (factsOf (effectiveUrl config row))
  refused : callbackAllowed newURL config row = false → jobsOf s x.logId = []

end

/-! ## One write -/

theorem shouldNotify_text (st : Status) (sendIntermediate : Bool) :
    shouldNotify st.text sendIntermediate = notifiable sendIntermediate st := by
  cases st <;> cases sendIntermediate <;> decide

theorem notified_text (st : Status) (sendIntermediate : Bool) :
    notified sendIntermediate st.text = notifiable sendIntermediate st := by
  cases st <;> cases sendIntermediate <;> decide

theorem text_ne_nil (st : Status) : st.text ≠ [] := by cases st <;> decide

section

variable {newURL : JsString → Option Url} {config : Config}

/-- The callback that a write owes. -/
def expected (newURL : JsString → Option Url) (config : Config) (row : Row) : Option Facts :=
  if callbackAllowed newURL config row && notified config.sendIntermediate row.status then
    some (factsOf (effectiveUrl config row) row)
  else none

theorem facts_enqueueWebhook {row : Row} {st : Status} (hst : row.status = st.text)
    (attempt : Option Nat) (occurredAt : JsString) :
    (enqueueWebhook newURL config (some row) attempt occurredAt).map Job.facts =
      expected newURL config row := by
  unfold enqueueWebhook expected callbackAllowed
  simp only [hst, shouldNotify_text, notified_text, text_ne_nil, if_false]
  cases notifiable config.sendIntermediate st with
  | false => simp
  | true =>
      by_cases hurl : effectiveUrl config row = []
      · simp [hurl]
      · cases hallowed : isAllowedUrl newURL (effectiveUrl config row) config.allowedHosts with
        | false => simp [hurl]
        | true => simp [hurl, Job.facts, factsOf, buildPayload, hst]

variable (config) in
/-- Equal fixed columns have equal effective URLs. -/
theorem effectiveUrl_of_fixed {row row' : Row} (h : row'.fixed = row.fixed) :
    effectiveUrl config row' = effectiveUrl config row := by
  have hurl : row'.callbackUrl = row.callbackUrl := by
    simp only [Row.fixed, Prod.mk.injEq] at h
    exact h.2.2.2.2.2.2.2
  rw [effectiveUrl, effectiveUrl, hurl]

theorem id_of_fixed {row row' : Row} (h : row'.fixed = row.fixed) : row'.id = row.id := by
  simp only [Row.fixed, Prod.mk.injEq] at h
  exact h.1

end

/-! ## One step -/

section

variable {newURL : JsString → Option Url} {resolve : Url → JsString → Option Url}
  {config : Config} {pool : ModemPool} {s s' : State}

/-- What a patch leads to. -/
def patchedEntry (newURL : JsString → Option Url) (s : State) (e : SendQueue.Event)
    (occurredAt : JsString) (x : SendQueue.Send) (patch : Patch) : Option Entry :=
  (getLog (updateLog s.queue.rows x.logId patch).2 x.logId).map fun row => ⟨row, usedBy s e,
    callbackOf newURL s.config s.queue.rows x.logId patch (attemptOf x e) occurredAt⟩

theorem entryOf_eq {e : SendQueue.Event} {occurredAt : JsString}
    (he : ∀ entry modem, e ≠ .post entry modem) : entryOf newURL s e occurredAt =
      (patchOf s.queue e).bind fun p => patchedEntry newURL s e occurredAt p.1 p.2 := by
  cases e with
  | post entry modem => exact absurd rfl (he entry modem)
  | _ =>
      rw [entryOf]
      · cases patchOf s.queue _ <;> rfl
      · exact he

variable (newURL) in
/-- A step of the send queue that is one of a send writes with a row to show for it, or not at all. -/
theorem entryOf_send {e : SendQueue.Event} {i : Nat} {x x' : SendQueue.Send} {patch : Option Patch}
    (hq : SendQueue.RowsInv s.queue) (hi : e.send = some i) (hx : s.queue.sends[i]? = some x)
    (hx' : x.step (SendQueue.choice s.queue x e).1 e = some (x', patch)) (occurredAt : JsString) :
    (patch = none ∧ x'.writes = x.writes ∧ entryOf newURL s e occurredAt = none) ∨
    ∃ p w row row', patch = some p ∧ x'.writes = x.writes ++ [w] ∧
      getLog s.queue.rows x.logId = some row ∧
      getLog (SendQueue.applyPatch s.queue.rows x.logId patch) x.logId = some row' ∧
      row'.status = w.status.text ∧ row'.fixed = row.fixed ∧
      entryOf newURL s e occurredAt = some ⟨row', usedBy s e,
        enqueueWebhook newURL s.config (some row') (attemptOf x e) occurredAt⟩ := by
  have hentry : entryOf newURL s e occurredAt =
      (patchOf s.queue e).bind fun p => patchedEntry newURL s e occurredAt p.1 p.2 := by
    refine entryOf_eq ?_
    rintro entry modem rfl
    cases hi
  have hpatchOf : patchOf s.queue e = patch.map fun p => (x, p) := by
    simp only [patchOf, hi, hx, hx']
    cases patch <;> rfl
  rw [hentry, hpatchOf]
  obtain ⟨-, -, ⟨rfl, hsame⟩ | ⟨p, w, rfl, hadd, hp⟩⟩ := SendQueue.Send.step_writes hx'
  · exact Or.inl ⟨rfl, hsame, rfl⟩
  · obtain ⟨row, -, hrow, -, -⟩ := hq.row x (List.mem_of_getElem? hx)
    obtain ⟨row', hreturned, hget, hstatus, hfixed⟩ := updateLog_written hrow hp.status hp.bindable
    refine Or.inr ⟨p, w, row, row', rfl, hadd, hrow, hget, hstatus, hfixed, ?_⟩
    simp only [Option.map_some, Option.bind_some, patchedEntry, hget, callbackOf, hreturned]

/-- The history of writes, the rows and the callbacks belong together. -/
structure MirrorInv (newURL : JsString → Option Url) (config : Config) (s : State) : Prop where
  env : s.config = config
  queue : SendQueue.RowsInv s.queue
  mirror : s.enqueued.map Job.facts = s.history.filterMap fun e => expected newURL config e.row
  written : ∀ x ∈ s.queue.sends, (rowsOf s x.logId).map (·.status) = x.writes.map (·.status.text)
  fixed : ∀ e ∈ s.history, ∃ x ∈ s.queue.sends, ∃ row, getLog s.queue.rows x.logId = some row ∧
    e.row.fixed = row.fixed

theorem mirrorInv_start : MirrorInv newURL config (start config pool) := by
  refine ⟨rfl, SendQueue.rowsInv_start pool, rfl, ?_, ?_⟩
  · intro x hx
    cases hx
  · intro e he
    cases he

theorem rowsOf_append (entry : Option Entry) (hs : s'.history = s.history ++ entry.toList)
    (id : JsString) : rowsOf s' id =
      rowsOf s id ++ (entry.toList.map (·.row)).filter (·.id == id) := by
  rw [rowsOf, rowsOf, hs, List.map_append, List.filter_append]

theorem rowsOf_other {entry : Entry} {id : JsString} (hs : s'.history = s.history ++ [entry])
    (hne : entry.row.id ≠ id) : rowsOf s' id = rowsOf s id := by
  rw [rowsOf_append (some entry) hs]
  simp [hne]

theorem rowsOf_self {entry : Entry} (hs : s'.history = s.history ++ [entry]) :
    rowsOf s' entry.row.id = rowsOf s entry.row.id ++ [entry.row] := by
  rw [rowsOf_append (some entry) hs]
  simp

/-- A write about which the invariant has to be shown: its callback is the one it owes. -/
theorem mirror_append (entry : Option Entry)
    (h : s.enqueued.map Job.facts = s.history.filterMap fun e => expected newURL config e.row)
    (hentry : ∀ e ∈ entry, e.callback.map Job.facts = expected newURL config e.row)
    (hhistory : s'.history = s.history ++ entry.toList)
    (henqueued : s'.enqueued = s.enqueued ++ (entry.bind (·.callback)).toList) :
    s'.enqueued.map Job.facts = s'.history.filterMap fun e => expected newURL config e.row := by
  rw [hhistory, henqueued, List.map_append, List.filterMap_append, h]
  congr 1
  cases entry with
  | none => rfl
  | some e =>
      have he := hentry e rfl
      cases hc : e.callback with
      | none =>
          rw [hc, Option.map_none] at he
          simp [hc, ← he]
      | some job =>
          rw [hc, Option.map_some] at he
          simp [hc, ← he]

theorem mirrorInv_post (entry : Row) (modem : Option JsString)
    (h : MirrorInv newURL config s) (hfree : getLog s.queue.rows entry.id = none)
    (hqueue : SendQueue.RowsInv s'.queue) (hconfig : s'.config = s.config)
    (hs : s'.queue = { s.queue with
      rows := s.queue.rows ++ [SendQueue.logEntry entry modem]
      sends := s.queue.sends ++ [SendQueue.newSend entry.id modem] })
    (hhistory : s'.history = s.history ++ [⟨SendQueue.logEntry entry modem, none, none⟩])
    (henqueued : s'.enqueued = s.enqueued) : MirrorInv newURL config s' := by
  have hnew : ∀ x ∈ s.queue.sends, entry.id ≠ x.logId := by
    intro x hx he
    obtain ⟨row, -, hrow, -⟩ := h.queue.row x hx
    rw [← he, hfree] at hrow
    cases hrow
  have hnone : rowsOf s entry.id = [] := by
    rw [rowsOf, List.filter_eq_nil_iff]
    intro r hr hid
    obtain ⟨e, he, rfl⟩ := List.mem_map.mp hr
    obtain ⟨x, hx, row, hrow, hfixed⟩ := h.fixed e he
    have hxid := (id_of_fixed hfixed).trans (getLog_id hrow)
    exact hnew x hx ((beq_iff_eq.mp hid).symm.trans hxid)
  refine ⟨hconfig.trans h.env, hqueue, ?_, ?_, ?_⟩
  · refine mirror_append (some ⟨SendQueue.logEntry entry modem, none, none⟩) h.mirror ?_
      hhistory (by simp [henqueued])
    intro e he
    obtain rfl := Option.some.inj he
    have hpending : notified config.sendIntermediate (SendQueue.logEntry entry modem).status = false :=
      notified_text .pending _
    simp [expected, hpending]
  · intro x hx
    rw [hs] at hx
    rcases List.mem_append.mp hx with hx | hx
    · rw [rowsOf_other hhistory (hnew x hx)]
      exact h.written x hx
    · rw [List.mem_singleton.mp hx]
      have hself := rowsOf_self hhistory
      change rowsOf s' entry.id = rowsOf s entry.id ++ _ at hself
      show (rowsOf s' entry.id).map _ = _
      rw [hself, hnone]
      rfl
  · intro e he
    rw [hs]
    rw [hhistory] at he
    rcases List.mem_append.mp he with he | he
    · obtain ⟨x, hx, row, hrow, hfixed⟩ := h.fixed e he
      have hother := @appendLog_other s.queue.rows (SendQueue.logEntry entry modem) _ (hnew x hx).symm
      exact ⟨x, List.mem_append_left _ hx, row, hother.trans hrow, hfixed⟩
    · rw [List.mem_singleton.mp he]
      exact ⟨_, List.mem_append_right _ List.mem_cons_self, _,
        (@appendLog_self s.queue.rows (SendQueue.logEntry entry modem) hfree).2, rfl⟩

/-- A step that writes nothing. -/
theorem mirrorInv_same (h : MirrorInv newURL config s) (hqueue : SendQueue.RowsInv s'.queue)
    (hconfig : s'.config = s.config) (hrows : s'.queue.rows = s.queue.rows)
    (hsends : s'.queue.sends.map (fun x => (x.logId, x.writes)) =
      s.queue.sends.map fun x => (x.logId, x.writes))
    (hhistory : s'.history = s.history) (henqueued : s'.enqueued = s.enqueued) :
    MirrorInv newURL config s' := by
  have hback : ∀ x ∈ s'.queue.sends, ∃ y ∈ s.queue.sends, y.logId = x.logId ∧ y.writes = x.writes := by
    intro x hx
    have hmem := List.mem_map_of_mem (f := fun x : SendQueue.Send => (x.logId, x.writes)) hx
    rw [hsends] at hmem
    obtain ⟨y, hy, hxy⟩ := List.mem_map.mp hmem
    exact ⟨y, hy, Prod.mk.inj hxy⟩
  have hforth : ∀ y ∈ s.queue.sends, ∃ x ∈ s'.queue.sends, x.logId = y.logId := by
    intro y hy
    have hmem := List.mem_map_of_mem (f := fun x : SendQueue.Send => (x.logId, x.writes)) hy
    rw [← hsends] at hmem
    obtain ⟨x, hx, hxy⟩ := List.mem_map.mp hmem
    exact ⟨x, hx, (Prod.mk.inj hxy).1⟩
  refine ⟨hconfig.trans h.env, hqueue, by rw [hhistory, henqueued]; exact h.mirror, ?_, ?_⟩
  · intro x hx
    obtain ⟨y, hy, hid, hwrites⟩ := hback x hx
    rw [rowsOf, hhistory, ← hid, ← hwrites]
    exact h.written y hy
  · intro e he
    rw [hhistory] at he
    obtain ⟨y, hy, row, hrow, hfixed⟩ := h.fixed e he
    obtain ⟨x, hx, hid⟩ := hforth y hy
    exact ⟨x, hx, row, by rw [hrows, hid]; exact hrow, hfixed⟩

/-- A step of a send that writes its row. -/
theorem mirrorInv_write {i : Nat} {x x' : SendQueue.Send} {patch : Option Patch} {w : SendQueue.Write}
    {row row' : Row} (used : Option JsString) (attempt : Option Nat) (occurredAt : JsString)
    (h : MirrorInv newURL config s) (hqueue : SendQueue.RowsInv s'.queue)
    (hconfig : s'.config = s.config) (hx : s.queue.sends[i]? = some x) (hid : x'.logId = x.logId)
    (hadd : x'.writes = x.writes ++ [w]) (hrow : getLog s.queue.rows x.logId = some row)
    (hrow' : getLog (SendQueue.applyPatch s.queue.rows x.logId patch) x.logId = some row')
    (hstatus : row'.status = w.status.text) (hfixed : row'.fixed = row.fixed)
    (hrows : s'.queue.rows = SendQueue.applyPatch s.queue.rows x.logId patch)
    (hsends : s'.queue.sends = s.queue.sends.set i x')
    (hhistory : s'.history = s.history ++ [⟨row', used,
      enqueueWebhook newURL config (some row') attempt occurredAt⟩])
    (henqueued : s'.enqueued =
      s.enqueued ++ (enqueueWebhook newURL config (some row') attempt occurredAt).toList) :
    MirrorInv newURL config s' := by
  have hid' : row'.id = x.logId := (id_of_fixed hfixed).trans (getLog_id hrow)
  have hother {y : SendQueue.Send} (hne : y.logId ≠ x.logId) :
      getLog s'.queue.rows y.logId = getLog s.queue.rows y.logId := by
    rw [hrows]
    cases patch with
    | none => rfl
    | some p => exact updateLog_other s.queue.rows p hne
  refine ⟨hconfig.trans h.env, hqueue, ?_, ?_, ?_⟩
  · refine mirror_append (some _) h.mirror ?_ hhistory henqueued
    intro e he
    obtain rfl := Option.some.inj he
    exact facts_enqueueWebhook hstatus _ _
  · intro y hy
    rw [hsends] at hy
    rcases Keyed.mem_set_cases hx h.queue.nodup hy with rfl | ⟨hy, hne⟩
    · have hself := rowsOf_self hhistory
      simp only [hid'] at hself
      rw [hid, hself, List.map_append, h.written x (List.mem_of_getElem? hx), hadd, List.map_append]
      simp [hstatus]
    · rw [rowsOf_other hhistory (by rw [hid']; exact hne.symm)]
      exact h.written y hy
  · have hmem : x' ∈ s'.queue.sends := by
      rw [hsends]
      exact List.mem_set (List.getElem?_eq_some_iff.mp hx).1 x'
    intro e he
    rw [hhistory] at he
    rcases List.mem_append.mp he with he | he
    · obtain ⟨y, hy, rowy, hrowy, hfixedy⟩ := h.fixed e he
      by_cases hy' : y.logId = x.logId
      · rw [hy', hrow] at hrowy
        obtain rfl := Option.some.inj hrowy
        refine ⟨x', hmem, row', ?_, hfixedy.trans hfixed.symm⟩
        rw [hid, hrows]
        exact hrow'
      · refine ⟨y, ?_, rowy, (hother hy').trans hrowy, hfixedy⟩
        rw [hsends]
        exact Keyed.mem_set_of_key_ne hx hy hy'
    · rw [List.mem_singleton.mp he]
      refine ⟨x', hmem, row', ?_, rfl⟩
      rw [hid, hrows]
      exact hrow'

/-- The event leaves the environment as it is. -/
def Event.keeps (config : Config) : Event → Prop
  | .restart config' _ => config' = config
  | _ => True

instance (config : Config) : (e : Event) → Decidable (e.keeps config)
  | .restart config' _ => inferInstanceAs (Decidable (config' = config))
  | .send _ _ => .isTrue trivial
  | .deliver _ _ => .isTrue trivial

theorem mirrorInv_step {e : Event} (h : MirrorInv newURL config s) (he : e.keeps config)
    (hstep : step newURL resolve s e = some s') : MirrorInv newURL config s' := by
  have hinv := rowsInv_step h.queue hstep
  cases e with
  | send e occurredAt =>
      obtain ⟨queue, hvalid, hqueue, rfl⟩ := step_send hstep
      rcases SendQueue.step_cases hqueue with ⟨entry, modem, rfl, hfree, rfl⟩ |
        ⟨modemId, connected, rfl, rfl⟩ | ⟨pool, rfl, rfl⟩ | ⟨i, x, x', patch, hi, hx, hx', rfl⟩
      · exact mirrorInv_post entry modem h hfree hinv rfl rfl rfl (List.append_nil _)
      · exact mirrorInv_same h hinv rfl rfl rfl (List.append_nil _) (List.append_nil _)
      · cases hvalid
      · have hid := (SendQueue.Send.step_writes hx').1
        rcases entryOf_send newURL h.queue hi hx hx' occurredAt with
          ⟨rfl, hsame, hnone⟩ | ⟨p, w, row, row', rfl, hadd, hrow, hrow', hstatus, hfixed, hsome⟩
        · refine mirrorInv_same h hinv rfl rfl ?_ (by simp [hnone]) (by simp [hnone])
          exact Keyed.map_key_set hx (congrArg₂ Prod.mk hid hsame)
        · have henv := h.env
          refine mirrorInv_write (usedBy s e) (attemptOf x e) occurredAt h hinv rfl hx hid hadd
            hrow hrow' hstatus hfixed rfl rfl ?_ ?_
          · simp [hsome, henv]
          · simp [hsome, henv]
  | restart config' pool =>
      obtain rfl := he
      obtain ⟨queue, hqueue, rfl⟩ := step_restart hstep
      obtain rfl := Option.some.inj hqueue
      refine mirrorInv_same h hinv h.env.symm rfl ?_ rfl rfl
      rw [List.map_map]
      refine List.map_congr_left fun x _ => ?_
      simp only [Function.comp, SendQueue.Send.restarted]
      split <;> rfl
  | deliver k answers =>
      obtain ⟨w, waiting, -, -, rfl⟩ := step_deliver hstep
      exact mirrorInv_same h h.queue rfl rfl rfl rfl rfl

theorem mirrorInv_run {es : List Event} (h : run newURL resolve (start config pool) es = some s)
    (hes : ∀ e ∈ es, e.keeps config) : MirrorInv newURL config s :=
  Runs.run_induct (A := Event.keeps config) (fun _ _ _ hs he hstep => mirrorInv_step hs he hstep)
    mirrorInv_start hes h

/-- The callbacks of a send, as facts, are what its own rows owe. -/
theorem facts_jobsOf (h : MirrorInv newURL config s) (id : JsString) :
    (jobsOf s id).map Job.facts = (rowsOf s id).filterMap (expected newURL config) := by
  have hjobs : (jobsOf s id).map Job.facts =
      (s.enqueued.map Job.facts).filter fun f => f.logId == id := by
    rw [List.filter_map]
    rfl
  have hexpected : ∀ r f, expected newURL config r = some f → f.logId = r.id := by
    intro r f hf
    unfold expected at hf
    split at hf
    · obtain rfl := Option.some.inj hf
      rfl
    · cases hf
  have hrows : (s.history.filterMap fun e => expected newURL config e.row) =
      (s.history.map (·.row)).filterMap (expected newURL config) := by
    rw [List.filterMap_map]
    rfl
  rw [hjobs, h.mirror, hrows, rowsOf]
  generalize s.history.map (·.row) = rows
  induction rows with
  | nil => rfl
  | cons r rows ih =>
      cases hr : expected newURL config r with
      | none => by_cases hid : r.id = id <;> simp [hr, hid, ih]
      | some f =>
          have hf := hexpected r f hr
          by_cases hid : r.id = id
          · simp [hr, hid, hf, ih]
          · simp [hr, hid, hf, ih]

/-- In every run under one environment, the callbacks of each send are its notifiable writes,
and nothing else leads to a callback. -/
theorem callbacks_mirror {es : List Event}
    (h : run newURL resolve (start config pool) es = some s) (hes : ∀ e ∈ es, e.keeps config) :
    (∀ x ∈ s.queue.sends, ∃ row, getLog s.queue.rows x.logId = some row ∧
      Mirrors newURL config s x row) ∧
    (∀ job ∈ s.enqueued, ∃ x ∈ s.queue.sends, x.logId = job.payload.logId) ∧
    ∀ rows id patch attempt occurredAt, getLog rows id = none →
      callbackOf newURL config rows id patch attempt occurredAt = none := by
  have hinv := mirrorInv_run h hes
  refine ⟨?_, ?_, ?_⟩
  · intro x hx
    obtain ⟨row, -, hrow, -, -⟩ := hinv.queue.row x hx
    have hfixed : ∀ r ∈ rowsOf s x.logId, r.fixed = row.fixed := by
      intro r hr
      obtain ⟨hmem, hid⟩ := List.mem_filter.mp hr
      obtain ⟨e, he, rfl⟩ := List.mem_map.mp hmem
      obtain ⟨y, -, row', hrow', hfixed⟩ := hinv.fixed e he
      have hy : y.logId = x.logId :=
        ((id_of_fixed hfixed).trans (getLog_id hrow')).symm.trans (beq_iff_eq.mp hid)
      rw [hy, hrow] at hrow'
      exact Option.some.inj hrow' ▸ hfixed
    have hallowed : ∀ r ∈ rowsOf s x.logId,
        callbackAllowed newURL config r = callbackAllowed newURL config row ∧
          effectiveUrl config r = effectiveUrl config row := by
      intro r hr
      have hurl := effectiveUrl_of_fixed config (hfixed r hr)
      exact ⟨by rw [callbackAllowed, callbackAllowed, hurl], hurl⟩
    refine ⟨row, hrow, hinv.written x hx, hfixed, ?_, ?_⟩
    · intro hyes
      rw [facts_jobsOf hinv, ← List.filterMap_eq_map, List.filterMap_filter]
      refine List.filterMap_congr fun r hr => ?_
      obtain ⟨hc, hurl⟩ := hallowed r hr
      rw [expected, hc, hyes, hurl]
      rfl
    · intro hno
      have hfacts : (jobsOf s x.logId).map Job.facts = [] := by
        rw [facts_jobsOf hinv, List.filterMap_eq_nil_iff]
        intro r hr
        simp [expected, (hallowed r hr).1, hno]
      exact List.map_eq_nil_iff.mp hfacts
  · intro job hjob
    have hmem := List.mem_map_of_mem (f := Job.facts) hjob
    rw [hinv.mirror] at hmem
    obtain ⟨e, he, hexpected⟩ := List.mem_filterMap.mp hmem
    obtain ⟨x, hx, row, hrow, hfixed⟩ := hinv.fixed e he
    refine ⟨x, hx, ?_⟩
    unfold expected at hexpected
    split at hexpected
    · have hid := congrArg Facts.logId (Option.some.inj hexpected)
      exact ((id_of_fixed hfixed).trans (getLog_id hrow)).symm.trans hid
    · cases hexpected
  · intro rows id patch attempt occurredAt hrow
    unfold callbackOf
    split
    case h_1 entry hentry =>
      rw [updateLog_unknown hrow hentry]
      rfl
    case h_2 => rfl

end

/-- A parser that knows one URL. -/
def hooksURL (url : JsString) : Option Url :=
  if url = js "https://hooks.example/sms" then some ⟨url, js "https:", js "hooks.example"⟩ else none

def hooks : Config :=
  { defaultUrl := [], sendIntermediate := true, allowedHosts := [js "hooks.example"] }

def onePool : ModemPool := ⟨[⟨js "m1", true⟩], 0, List.cons_ne_nil _ _⟩

def hooksEntry : Row :=
  { id := js "a", timestamp := js "t0", recipient := js "+99361234567", message := js "Hi"
    projectName := none, ip := none, status := [], error := none, sentAt := none, reference := none
    modemId := none, clientRef := none, callbackUrl := some (js "https://hooks.example/sms") }

/-- A send whose first attempt fails and whose second one succeeds. -/
def retriedSend : List Event :=
  [SendQueue.Event.post hooksEntry none, .added 0, .start 0, .call 0,
    .rejected 0 (newError (js "busy")), .failed 0, .start 0, .call 0,
    .resolved 0 none (js "t1")].map fun e => .send e (js "t")

def retriedRun : Option State := run hooksURL (fun _ _ => none) (start hooks onePool) retriedSend

theorem retriedRun_isSome : retriedRun.isSome = true := by decide +kernel

theorem callbacks_mirror_retried : ∃ x ∈ (retriedRun.get retriedRun_isSome).queue.sends,
    ∃ row, getLog (retriedRun.get retriedRun_isSome).queue.rows x.logId = some row ∧
      Mirrors hooksURL hooks (retriedRun.get retriedRun_isSome) x row := by
  have hsent : (retriedRun.get retriedRun_isSome).queue.sends ≠ [] :=
    List.ne_nil_of_length_pos (by decide +kernel)
  obtain ⟨x, hx⟩ := List.exists_mem_of_ne_nil _ hsent
  exact ⟨x, hx, (callbacks_mirror (Option.some_get retriedRun_isSome).symm (by decide)).1 x hx⟩

example : (retriedRun.get retriedRun_isSome).enqueued.map (·.payload.status) =
    [js "retrying", js "sent"] := by decide +kernel

end SmsGateway.Webhook.Gateway
