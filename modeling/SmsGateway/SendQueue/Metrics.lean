import SmsGateway.Pages
import SmsGateway.SendQueue.Lifecycle

/-!
# The delivery metrics

`countByStatus` and `getMetrics` of `store/log-store.js`, read in the states that
the sends of the queue go through: every accepted request is counted under the
status of its send, and the counts of the final statuses only grow.
-/

namespace SmsGateway.SendQueue.Metrics

open SmsGateway LogStore Pool Pages
open Lib

/-! ## The queries -/

/-- What `countByStatus` returns; the properties of `byStatus` in the order they are set. -/
structure Counts where
  total : Nat
  byStatus : List (JsString × Nat)
  deriving DecidableEq

/-- `byStatus[status]`, with 0 where there is none. -/
def Counts.of (c : Counts) (status : JsString) : Nat := (c.byStatus.lookup status).getD 0

/-- `SELECT status, COUNT(*) AS n … GROUP BY status`. -/
def groupByStatus (statuses : List JsString) : List (JsString × Nat) :=
  statuses.dedup.map fun status => (status, statuses.count status)

/-- `object[key] = n`. -/
def assign (object : List (JsString × Nat)) (key : JsString) (n : Nat) : List (JsString × Nat) :=
  if object.any (·.1 == key) then object.map fun p => if p.1 = key then (key, n) else p
  else object ++ [(key, n)]

def countByStatus (rows : List Row) : Counts :=
  (groupByStatus (rows.map (·.status))).foldl
    (fun c row => ⟨c.total + row.2, assign c.byStatus row.1 row.2⟩) ⟨0, []⟩

structure Report where
  all : Counts
  last24h : Counts
  deriving DecidableEq

/-- `getMetrics`; `cutoff` is the time a day ago, and SQLite compares the octets of texts. -/
def getMetrics (cutoff : JsString) (rows : List Row) : Report :=
  { all := countByStatus rows
    last24h := countByStatus (rows.filter fun r => utf8Octets cutoff ≤ sentKey r) }

/-! ## What the queries count -/

theorem assign_fresh {object : List (JsString × Nat)} {key : JsString}
    (h : key ∉ object.map (·.1)) (n : Nat) : assign object key n = object ++ [(key, n)] := by
  have hnone : object.any (·.1 == key) = false := by
    rw [List.any_eq_false]
    intro p hp he
    exact h (List.mem_map.mpr ⟨p, hp, eq_of_beq he⟩)
  rw [assign, hnone]
  rfl

theorem foldl_assign {groups : List (JsString × Nat)} {c : Counts}
    (h : ((c.byStatus ++ groups).map (·.1)).Nodup) :
    groups.foldl (fun c row => ⟨c.total + row.2, assign c.byStatus row.1 row.2⟩) c =
      ⟨c.total + (groups.map (·.2)).sum, c.byStatus ++ groups⟩ := by
  induction groups generalizing c with
  | nil => simp
  | cons g groups ih =>
      have hfresh : g.1 ∉ c.byStatus.map (·.1) := by
        rw [List.map_append, List.nodup_append] at h
        intro hmem
        exact h.2.2 g.1 hmem g.1 (by simp) rfl
      rw [List.foldl_cons, assign_fresh hfresh, ih (by simpa using h)]
      simp [Nat.add_assoc]

theorem groups_keys (statuses : List JsString) :
    (groupByStatus statuses).map (·.1) = statuses.dedup := by
  rw [groupByStatus, List.map_map]
  exact List.map_id _

theorem groups_sum (statuses : List JsString) :
    ((groupByStatus statuses).map (·.2)).sum = statuses.length := by
  have hsum := List.sum_map_count_dedup_eq_length statuses
  rw [groupByStatus, List.map_map]
  -- Mathlib compares with the decidable equality of strings
  rw [lawful_beq_subsingleton (instBEqOfDecidableEq (α := JsString)) List.instBEq] at hsum
  exact hsum

theorem countByStatus_eq (rows : List Row) :
    countByStatus rows = ⟨rows.length, groupByStatus (rows.map (·.status))⟩ := by
  have hkeys := groups_keys (rows.map (·.status))
  rw [countByStatus, foldl_assign (by rw [List.nil_append, hkeys]; exact List.nodup_dedup _),
    groups_sum, List.length_map]
  simp

theorem lookup_map_pair {l : List JsString} (f : JsString → Nat) (key : JsString) :
    (l.map fun x => (x, f x)).lookup key = if key ∈ l then some (f key) else none := by
  induction l with
  | nil => rfl
  | cons a l ih =>
      rw [List.map_cons, List.lookup_cons]
      by_cases he : key = a
      · simp [he]
      · have hne : (key == a) = false := by simpa using he
        rw [hne, ih]
        simp [he]

/-- Each property is the number of rows with its status. -/
theorem countByStatus_of (rows : List Row) (status : JsString) :
    (countByStatus rows).of status = (rows.map (·.status)).count status := by
  rw [Counts.of, countByStatus_eq, groupByStatus, lookup_map_pair]
  simp only [List.mem_dedup]
  split
  · rfl
  case isFalse hnone => rw [List.count_eq_zero_of_not_mem hnone]; rfl

theorem countByStatus_filter_le (rows : List Row) (p : Row → Bool) (status : JsString) :
    (countByStatus (rows.filter p)).of status ≤ (countByStatus rows).of status := by
  rw [countByStatus_of, countByStatus_of]
  exact (List.filter_sublist.map _).count_le status

/-- The listing of one status has the same total. -/
theorem listSent_total (order : List Row → List Row) (rows : List Row) {status : JsString}
    (h : status ≠ []) (limit offset : Nat) :
    (listSent order rows { status := .str status } limit offset).total =
      (countByStatus rows).of status := by
  rw [countByStatus_of, List.count, List.countP_map]
  refine List.countP_congr fun r _ => ?_
  simp [buildWhere, clause, h]

/-! ## Rows and sends -/

/-- The status a send has reached. -/
def reached (x : Send) : Status := ((x.writes.getLast?).map (·.status)).getD .pending

theorem updateLog_ids (rows : List Row) (id : JsString) (patch : Patch) :
    (updateLog rows id patch).2.map (·.id) = rows.map (·.id) := by
  unfold updateLog
  split
  case isTrue => rfl
  case isFalse =>
    split
    case h_1 => rfl
    case h_2 params _ =>
      cases hrow : getLog rows id with
      | none => rfl
      | some row =>
          cases hset : setColumns params row with
          | error e => simp only [hset]
          | ok row' =>
              have hid : row'.id = id := (setColumns_id hset).trans (getLog_id hrow)
              simp only [hset, List.map_map]
              refine List.map_congr_left fun r _ => ?_
              by_cases hr : r.id = id
              · simp [hr, hid]
              · simp [hr]

theorem restarted_same (x : Send) :
    x.restarted.logId = x.logId ∧ x.restarted.writes = x.writes ∧
      x.restarted.outcomes = x.outcomes ∧ x.restarted.attemptsMade = x.attemptsMade := by
  unfold Send.restarted
  split <;> exact ⟨rfl, rfl, rfl, rfl⟩

/-- The rows are those of the sends, in the order the requests came in. -/
structure Accounted (s : State) : Prop where
  rows : RowsInv s
  ids : s.rows.map (·.id) = s.sends.map (·.logId)
  lives : AllEmbody s

theorem accounted_step {s s' : State} {e : Event} (h : Accounted s) (hstep : step s e = some s') :
    Accounted s' := by
  refine ⟨rowsInv_step h.rows hstep, ?_, allEmbody_step h.rows h.lives hstep⟩
  rcases step_cases hstep with ⟨entry, modem, -, -, rfl⟩ | ⟨modemId, connected, -, rfl⟩ |
    ⟨pool, -, rfl⟩ | ⟨i, x, x', patch, -, hx, hx', rfl⟩
  · simp [h.ids, logEntry, newSend]
  · exact h.ids
  · rw [h.ids, List.map_map]
    exact List.map_congr_left fun x _ => (restarted_same x).1.symm
  · rw [Keyed.map_key_set hx (Send.step_writes hx').1, ← h.ids]
    cases patch with
    | none => rfl
    | some patch => exact updateLog_ids s.rows x.logId patch

theorem accounted_run {s s' : State} {es : List Event} (h : Accounted s)
    (hrun : run s es = some s') : Accounted s' :=
  Runs.run_induct (A := fun _ => True) (fun _ _ _ hs _ hstep => accounted_step hs hstep) h
    (fun _ _ => trivial) hrun

theorem accounted_start (pool : ModemPool) : Accounted (start pool) :=
  ⟨rowsInv_start pool, rfl, fun _ hx => absurd hx List.not_mem_nil⟩

/-- The status column is that of the sends. -/
theorem rows_status {s : State} (h : Accounted s) :
    s.rows.map (·.status) = s.sends.map fun x => (reached x).text := by
  have hlength : s.rows.length = s.sends.length := by
    have hids := congrArg List.length h.ids
    rwa [List.length_map, List.length_map] at hids
  apply List.ext_getElem
  · rw [List.length_map, List.length_map, hlength]
  · intro i hi hi'
    rw [List.length_map] at hi hi'
    obtain ⟨row, w, hrow, hw, hstatus⟩ := h.rows.row s.sends[i] (List.getElem_mem hi')
    have hid : s.rows[i].id = s.sends[i].logId := by
      have hget := congrArg (fun l => l[i]?) h.ids
      simpa [hi, hi'] using hget
    have hnodup : (s.rows.map (·.id)).Nodup := by
      rw [h.ids]
      exact h.rows.nodup
    have hsame : row = s.rows[i] := by
      refine List.inj_on_of_nodup_map hnodup (List.mem_of_find?_eq_some hrow)
        (List.getElem_mem hi) ?_
      rw [getLog_id hrow, hid]
    rw [List.getElem_map, List.getElem_map, ← hsame, hstatus, reached, hw]
    rfl

/-- A status is counted once for every send that has reached it. -/
theorem of_text {s : State} (h : Accounted s) (st : Status) :
    (countByStatus s.rows).of st.text = s.sends.countP fun x => reached x = st := by
  rw [countByStatus_of, rows_status h, List.count, List.countP_map]
  refine List.countP_congr fun x _ => ?_
  simp only [Function.comp_apply, beq_iff_eq, decide_eq_true_eq]
  exact ⟨fun he => Status.text_injective he, fun he => congrArg Status.text he⟩

/-- The requests that have reached a status. -/
def tally (s : State) (st : Status) : Nat := s.sends.countP fun x => reached x = st

theorem reached_life {x : Send} {l : Life} (h : Embodies x l) : reached x = l.status := by
  have hlast := l.getLast_statuses
  rw [← h.statuses, List.getLast?_map] at hlast
  rw [reached, hlast]
  rfl

/-- A send that has reached a final status is done. -/
theorem terminal_reached {x : Send} (h : ∃ l, Embodies x l) :
    terminal (reached x) ↔ x.stage = .done := by
  obtain ⟨l, hl⟩ := h
  rw [reached_life hl]
  exact (statusLaw_of_embodies (s := start ⟨[⟨[], true⟩], 0, by simp⟩) hl).ended

theorem step_done {x : Send} {chosen : Except Worker.Thrown Modem} {e : Event}
    (h : x.stage = .done) : x.step chosen e = none := by
  cases e <;> simp only [Send.step, h]

theorem tally_step {s s' : State} {e : Event} {st : Status} (h : Accounted s) (hst : terminal st)
    (hstep : step s e = some s') : tally s st ≤ tally s' st := by
  rcases step_cases hstep with ⟨entry, modem, -, -, rfl⟩ | ⟨modemId, connected, -, rfl⟩ |
    ⟨pool, -, rfl⟩ | ⟨i, x, x', patch, -, hx, hx', rfl⟩
  · rw [tally, tally, List.countP_append]
    exact Nat.le_add_right _ _
  · exact le_rfl
  · rw [tally, tally, List.countP_map]
    refine le_of_eq (List.countP_congr fun x _ => ?_)
    have hsame : reached x.restarted = reached x := by
      rw [reached, (restarted_same x).2.1, reached]
    rw [Function.comp_apply, hsame]
  · -- a send that takes a step has not reached a final status
    have hopen : ¬reached x = st := by
      intro he
      have hdone := (terminal_reached (h.lives x (List.mem_of_getElem? hx))).mp (he ▸ hst)
      rw [step_done hdone] at hx'
      cases hx'
    obtain ⟨hi, hget⟩ := List.getElem?_eq_some_iff.mp hx
    rw [tally, tally, List.countP_set hi, hget, if_neg (by simpa using hopen)]
    omega

theorem tally_run {s s' : State} {es : List Event} {st : Status} (h : Accounted s)
    (hst : terminal st) (hrun : run s es = some s') : tally s st ≤ tally s' st := by
  have hboth : Accounted s' ∧ tally s st ≤ tally s' st :=
    Runs.run_induct (P := fun t => Accounted t ∧ tally s st ≤ tally t st) (A := fun _ => True)
      (fun t _ t' ht _ hstep =>
        ⟨accounted_step ht.1 hstep, ht.2.trans (tally_step ht.1 hst hstep)⟩)
      ⟨h, le_rfl⟩ (fun _ _ => trivial) hrun
  exact hboth.2

theorem length_step {s s' : State} {e : Event} (hstep : step s e = some s') :
    s.sends.length ≤ s'.sends.length := by
  rcases step_cases hstep with ⟨entry, modem, -, -, rfl⟩ | ⟨modemId, connected, -, rfl⟩ |
    ⟨pool, -, rfl⟩ | ⟨i, x, x', patch, -, hx, hx', rfl⟩
  · rw [List.length_append]
    exact Nat.le_add_right _ _
  · exact le_rfl
  · rw [List.length_map]
  · rw [List.length_set]

theorem length_run {s s' : State} {es : List Event} (hrun : run s es = some s') :
    s.sends.length ≤ s'.sends.length :=
  Runs.run_induct (P := fun t => s.sends.length ≤ t.sends.length) (A := fun _ => True)
    (fun _ _ _ ht _ hstep => ht.trans (length_step hstep)) le_rfl (fun _ _ => trivial) hrun

theorem length_eq_countP (l : List Send) :
    l.length = l.countP (fun x => reached x = .pending) + l.countP (fun x => reached x = .retrying) +
      l.countP (fun x => reached x = .sent) + l.countP (fun x => reached x = .failed) +
      l.countP (fun x => reached x = .unconfirmed) := by
  induction l with
  | nil => rfl
  | cons x l ih =>
      cases hx : reached x <;> simp [hx] <;> omega

theorem countP_open {l : List Send} (h : ∀ x ∈ l, ∃ life, Embodies x life) :
    l.countP (fun x => reached x = .pending) + l.countP (fun x => reached x = .retrying) =
      l.countP fun x => x.stage ≠ .done := by
  induction l with
  | nil => rfl
  | cons x l ih =>
      have hrest := ih fun y hy => h y (List.mem_cons_of_mem x hy)
      have hdone := terminal_reached (h x List.mem_cons_self)
      cases hx : reached x <;> rw [hx] at hdone <;> simp [terminal] at hdone <;>
        simp [hx, hdone] <;> simp at hrest <;> omega

/-! ## The report in the states of a run -/

/-- The report accounts for every accepted request once. -/
structure Balanced (s : State) (m : Report) : Prop where
  total : m.all.total = s.sends.length
  status : ∀ st : Status, m.all.of st.text = tally s st
  sum : m.all.total = m.all.of Status.pending.text + m.all.of Status.retrying.text +
    m.all.of Status.sent.text + m.all.of Status.failed.text + m.all.of Status.unconfirmed.text
  only : ∀ p ∈ m.all.byStatus, 0 < p.2 ∧ ∃ st : Status, p.1 = st.text
  /-- what is not settled is still under way -/
  underWay : m.all.of Status.pending.text + m.all.of Status.retrying.text =
    s.sends.countP fun x => x.stage ≠ .done
  recent : ∀ status, m.last24h.of status ≤ m.all.of status
  listed : ∀ order (st : Status) limit offset,
    (listSent order s.rows { status := .str st.text } limit offset).total = m.all.of st.text

theorem balanced {s : State} (h : Accounted s) (cutoff : JsString) :
    Balanced s (getMetrics cutoff s.rows) := by
  have hlength : s.rows.length = s.sends.length := by
    have hids := congrArg List.length h.ids
    rwa [List.length_map, List.length_map] at hids
  have htotal : (countByStatus s.rows).total = s.sends.length := by
    rw [countByStatus_eq, ← hlength]
  refine ⟨htotal, of_text h, ?_, ?_, ?_, ?_, ?_⟩
  · rw [getMetrics, htotal, of_text h, of_text h, of_text h, of_text h, of_text h]
    exact length_eq_countP s.sends
  · intro p hp
    have hp' : p ∈ groupByStatus (s.rows.map (·.status)) := by
      rw [getMetrics, countByStatus_eq] at hp
      exact hp
    obtain ⟨status, hstatus, rfl⟩ := List.mem_map.mp hp'
    have hmem := List.mem_dedup.mp hstatus
    refine ⟨List.count_pos_iff.mpr hmem, ?_⟩
    rw [rows_status h] at hmem
    obtain ⟨x, -, rfl⟩ := List.mem_map.mp hmem
    exact ⟨_, rfl⟩
  · rw [getMetrics, of_text h, of_text h]
    exact countP_open h.lives
  · exact fun status => countByStatus_filter_le s.rows _ status
  · intro order st limit offset
    exact listSent_total order s.rows (by cases st <;> decide) limit offset

/-- In every state of every run the report counts each accepted request under the status of its
send and agrees with the listing. However the run goes on, the total and the counts of the final
statuses only grow. -/
theorem metrics_account {pool : ModemPool} {es : List Event} {s : State}
    (h : run (start pool) es = some s) (cutoff : JsString) :
    Balanced s (getMetrics cutoff s.rows) ∧
      ∀ es' s' cutoff', run s es' = some s' →
        (getMetrics cutoff s.rows).all.total ≤ (getMetrics cutoff' s'.rows).all.total ∧
          ∀ st, terminal st →
            (getMetrics cutoff s.rows).all.of st.text ≤ (getMetrics cutoff' s'.rows).all.of st.text := by
  have hs := accounted_run (accounted_start pool) h
  refine ⟨balanced hs cutoff, ?_⟩
  intro es' s' cutoff' hrun
  have hs' := accounted_run hs hrun
  have hnow := balanced hs cutoff
  have hlater := balanced hs' cutoff'
  constructor
  · rw [hnow.total, hlater.total]
    exact length_run hrun
  · intro st hst
    rw [hnow.status, hlater.status]
    exact tally_run hs hst hrun

theorem metrics_account_secondAttempt :
    Balanced ((run (start onePool) secondAttempt).get secondAttempt_isSome)
      (getMetrics (js "t0") ((run (start onePool) secondAttempt).get secondAttempt_isSome).rows) :=
  (metrics_account (Option.some_get secondAttempt_isSome).symm (js "t0")).1

end SmsGateway.SendQueue.Metrics
