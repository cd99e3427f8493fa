import SmsGateway.Js

/-!
# The table of sent messages

`store/log-store.js` over the `sent_messages` table of `store/db.js`. A row is
written under the names its entry has in the source; SQLite runs one statement at
a time and undoes a statement that fails.
-/

namespace SmsGateway.LogStore

open SmsGateway

inductive Status where
  | pending
  | retrying
  | sent
  | failed
  | unconfirmed
  deriving DecidableEq, Repr

def Status.text : Status → JsString
  | .pending => js "pending"
  | .retrying => js "retrying"
  | .sent => js "sent"
  | .failed => js "failed"
  | .unconfirmed => js "unconfirmed"

theorem Status.text_injective : Function.Injective Status.text := by
  intro a b
  cases a <;> cases b <;> decide

structure Row where
  id : JsString
  timestamp : JsString
  recipient : JsString
  message : JsString
  projectName : Option JsString
  ip : Option JsString
  status : JsString
  error : Option JsString
  sentAt : Option JsString
  reference : Option JsString
  modemId : Option JsString
  clientRef : Option JsString
  callbackUrl : Option JsString
  deriving DecidableEq, Repr

/-- What a property of a patch may hold; the database binds only strings and null here. -/
inductive Value where
  | undefined
  | null
  | text (s : JsString)
  | refused
  deriving DecidableEq, Repr

/-- The own properties of a patch object. -/
abbrev Patch := List (JsString × Value)

inductive Column where
  | status
  | error
  | sentAt
  | reference
  | modemId
  deriving DecidableEq, Repr

/-- `PATCHABLE`: the fields a caller may change, with their columns. -/
def patchable : List (JsString × Column) :=
  [(js "status", .status), (js "error", .error), (js "sentAt", .sentAt),
    (js "reference", .reference), (js "modemId", .modemId)]

def getLog (rows : List Row) (id : JsString) : Option Row := rows.find? fun r => r.id == id

/-- `appendLog`: the primary key refuses a second row with the same id. -/
def appendLog (rows : List Row) (entry : Row) : Except JsError Row × List Row :=
  match getLog rows entry.id with
  | some _ => (.error (newError (js "UNIQUE constraint failed: sent_messages.id")), rows)
  | none => (.ok entry, rows ++ [entry])

/-- `patch[field] ?? null`, as far as the database binds it. -/
def bindValue : Value → Option (Option JsString)
  | .undefined => some none
  | .null => some none
  | .text s => some (some s)
  | .refused => none

/-- One assignment of the `UPDATE`; `status` is `NOT NULL`. -/
def setColumn (row : Row) : Column → Option JsString → Except JsError Row
  | .status, some s => .ok { row with status := s }
  | .status, none => .error (newError (js "NOT NULL constraint failed: sent_messages.status"))
  | .error, v => .ok { row with error := v }
  | .sentAt, v => .ok { row with sentAt := v }
  | .reference, v => .ok { row with reference := v }
  | .modemId, v => .ok { row with modemId := v }

def setColumns : List (Column × Option JsString) → Row → Except JsError Row
  | [], row => .ok row
  | (c, v) :: sets, row =>
      match setColumn row c v with
      | .ok row => setColumns sets row
      | .error e => .error e

def sets (patch : Patch) : List (Column × Value) :=
  patchable.filterMap fun (field, column) => (patch.lookup field).map fun v => (column, v)

/-- `updateLog`: the resulting entry, or null when there is no such row. -/
def updateLog (rows : List Row) (id : JsString) (patch : Patch) :
    Except JsError (Option Row) × List Row :=
  if sets patch = [] then (.ok (getLog rows id), rows)
  else
    match (sets patch).mapM fun (column, v) => (bindValue v).map fun v => (column, v) with
    | none => (.error (newError (js "SQLite3 can only bind numbers, strings, bigints, buffers, and null")),
        rows)
    | some params =>
        match getLog rows id with
        | none => (.ok none, rows)
        | some row =>
            match setColumns params row with
            | .error e => (.error e, rows)
            | .ok row' => (.ok (some row'), rows.map fun r => if r.id = id then row' else r)

/-! ## What an update leaves alone -/

theorem getLog_id {rows : List Row} {id : JsString} {row : Row} (h : getLog rows id = some row) :
    row.id = id := by
  have hp := List.find?_some h
  simpa using hp

theorem getLog_none {rows : List Row} {id : JsString} (h : getLog rows id = none) :
    ∀ r ∈ rows, r.id ≠ id := by
  intro r hr
  simpa using List.find?_eq_none.mp h r hr

theorem setColumn_id {row row' : Row} {c : Column} {v : Option JsString}
    (h : setColumn row c v = .ok row') : row'.id = row.id := by
  unfold setColumn at h
  split at h <;> first | (obtain rfl := Except.ok.inj h; rfl) | cases h

theorem setColumns_id {params : List (Column × Option JsString)} {row row' : Row}
    (h : setColumns params row = .ok row') : row'.id = row.id := by
  induction params generalizing row with
  | nil =>
      obtain rfl := Except.ok.inj h
      rfl
  | cons p params ih =>
      obtain ⟨c, v⟩ := p
      rw [setColumns] at h
      cases hc : setColumn row c v with
      | error e => simp [hc] at h
      | ok r =>
          simp only [hc] at h
          exact (ih h).trans (setColumn_id hc)

/-- The columns that no update can change. -/
def Row.fixed (r : Row) : JsString × JsString × JsString × JsString × Option JsString ×
    Option JsString × Option JsString × Option JsString :=
  (r.id, r.timestamp, r.recipient, r.message, r.projectName, r.ip, r.clientRef, r.callbackUrl)

theorem setColumn_fixed {row row' : Row} {c : Column} {v : Option JsString}
    (h : setColumn row c v = .ok row') : row'.fixed = row.fixed := by
  unfold setColumn at h
  split at h <;> first | (obtain rfl := Except.ok.inj h; rfl) | cases h

theorem setColumns_fixed {params : List (Column × Option JsString)} {row row' : Row}
    (h : setColumns params row = .ok row') : row'.fixed = row.fixed := by
  induction params generalizing row with
  | nil =>
      obtain rfl := Except.ok.inj h
      rfl
  | cons p params ih =>
      obtain ⟨c, v⟩ := p
      rw [setColumns] at h
      cases hc : setColumn row c v with
      | error e => simp [hc] at h
      | ok r =>
          simp only [hc] at h
          exact (ih h).trans (setColumn_fixed hc)

theorem getLog_map_self {rows : List Row} {id : JsString} {row row' : Row}
    (hrow : getLog rows id = some row) (hid : row'.id = id) :
    getLog (rows.map fun r => if r.id = id then row' else r) id = some row' := by
  induction rows with
  | nil => simp [getLog] at hrow
  | cons r rows ih =>
      rw [getLog, List.find?_cons] at hrow
      rw [getLog, List.map_cons, List.find?_cons]
      by_cases hr : r.id = id
      · simp [hr, hid]
      · have hne : (r.id == id) = false := by simpa using hr
        simp only [hne] at hrow
        simp only [if_neg hr, hne]
        exact ih hrow

theorem getLog_map_other {rows : List Row} {id other : JsString} {row' : Row}
    (hid : row'.id = id) (hne : other ≠ id) :
    getLog (rows.map fun r => if r.id = id then row' else r) other = getLog rows other := by
  induction rows with
  | nil => rfl
  | cons r rows ih =>
      rw [getLog] at ih ⊢
      rw [getLog, List.map_cons, List.find?_cons, List.find?_cons]
      by_cases hr : r.id = id
      · have h₁ : (row'.id == other) = false := by simpa [hid] using Ne.symm hne
        have h₂ : (r.id == other) = false := by simpa [hr] using Ne.symm hne
        simp only [if_pos hr, h₁, h₂]
        exact ih
      · simp only [if_neg hr]
        cases r.id == other
        · exact ih
        · rfl

/-- An update never touches the row of another id. -/
theorem updateLog_other (rows : List Row) {id other : JsString} (patch : Patch) (hne : other ≠ id) :
    getLog (updateLog rows id patch).2 other = getLog rows other := by
  unfold updateLog
  split
  · rfl
  · split
    · rfl
    · rename_i params _
      cases hrow : getLog rows id with
      | none => rfl
      | some row =>
          cases hset : setColumns params row with
          | error e => simp [hset]
          | ok row' =>
              have hid := (setColumns_id hset).trans (getLog_id hrow)
              simp only [hset]
              exact getLog_map_other hid hne

theorem appendLog_self {rows : List Row} {entry : Row} (h : getLog rows entry.id = none) :
    appendLog rows entry = (.ok entry, rows ++ [entry]) ∧
      getLog (rows ++ [entry]) entry.id = some entry := by
  refine ⟨by simp [appendLog, h], ?_⟩
  rw [getLog] at h
  rw [getLog, List.find?_append, h]
  simp

theorem appendLog_other {rows : List Row} {entry : Row} {id : JsString} (hne : id ≠ entry.id) :
    getLog (rows ++ [entry]) id = getLog rows id := by
  have hf : (entry.id == id) = false := by simpa using Ne.symm hne
  rw [getLog, getLog, List.find?_append]
  simp [hf]

/-! ## Updates that write a status -/

theorem setColumns_ok {params : List (Column × Option JsString)} (h : ∀ p ∈ params, p.1 ≠ .status)
    (row : Row) : ∃ row', setColumns params row = .ok row' ∧ row'.status = row.status := by
  induction params generalizing row with
  | nil => exact ⟨row, rfl, rfl⟩
  | cons p params ih =>
      obtain ⟨c, v⟩ := p
      have hrest := ih fun q hq => h q (List.mem_cons_of_mem _ hq)
      have hc := h (c, v) (by simp)
      cases c with
      | status => exact absurd rfl hc
      | error => exact hrest { row with error := v }
      | sentAt => exact hrest { row with sentAt := v }
      | reference => exact hrest { row with reference := v }
      | modemId => exact hrest { row with modemId := v }

theorem bind_mapM {l : List (Column × Value)} (h : ∀ p ∈ l, p.2 ≠ .refused) :
    ∃ params, (l.mapM fun (column, v) => (bindValue v).map fun v => (column, v)) = some params ∧
      params.map (·.1) = l.map (·.1) := by
  induction l with
  | nil => exact ⟨[], rfl, rfl⟩
  | cons p l ih =>
      obtain ⟨c, v⟩ := p
      obtain ⟨params, hp, hcols⟩ := ih fun q hq => h q (List.mem_cons_of_mem _ hq)
      have hv := h (c, v) (by simp)
      obtain ⟨b, hb⟩ : ∃ b, bindValue v = some b := by
        cases v with
        | undefined => exact ⟨none, rfl⟩
        | null => exact ⟨none, rfl⟩
        | text s => exact ⟨some s, rfl⟩
        | refused => exact absurd rfl hv
      refine ⟨(c, b) :: params, ?_, by simp [hcols]⟩
      rw [List.mapM_cons, hp]
      simp [hb]

theorem sets_bindable {patch : Patch} (h : ∀ p ∈ patch, p.2 ≠ .refused) :
    ∀ p ∈ sets patch, p.2 ≠ .refused := by
  intro p hp
  obtain ⟨q, -, hq⟩ := List.mem_filterMap.mp hp
  obtain ⟨v, hv, rfl⟩ := Option.map_eq_some_iff.mp hq
  exact h _ (mem_of_lookup hv)

/-- A patch with a status and nothing the database refuses sets the row's status; the update
returns the row as it is then. -/
theorem updateLog_written {rows : List Row} {id st : JsString} {patch : Patch} {row : Row}
    (hrow : getLog rows id = some row) (hst : patch.lookup (js "status") = some (.text st))
    (hpatch : ∀ p ∈ patch, p.2 ≠ .refused) :
    ∃ row', (updateLog rows id patch).1 = .ok (some row') ∧
      getLog (updateLog rows id patch).2 id = some row' ∧ row'.status = st ∧
      row'.fixed = row.fixed := by
  have hbind := sets_bindable hpatch
  obtain ⟨tail, hsets, htail⟩ : ∃ tail, sets patch = (Column.status, .text st) :: tail ∧
      ∀ p ∈ tail, p.1 ≠ Column.status := by
    refine ⟨(patchable.drop 1).filterMap fun (field, column) =>
      (patch.lookup field).map fun v => (column, v), ?_, ?_⟩
    · simp [sets, patchable, hst]
    · intro p hp
      obtain ⟨q, hq, hpq⟩ := List.mem_filterMap.mp hp
      obtain ⟨v, -, rfl⟩ := Option.map_eq_some_iff.mp hpq
      have hall : ∀ q ∈ patchable.drop 1, q.2 ≠ Column.status := by decide
      exact hall q hq
  obtain ⟨params, hparams, hcols⟩ := bind_mapM (l := tail)
    fun p hp => hbind p (hsets ▸ List.mem_cons_of_mem _ hp)
  have hne : ∀ p ∈ params, p.1 ≠ Column.status := by
    intro p hp
    have hmem : p.1 ∈ tail.map (·.1) := hcols ▸ List.mem_map_of_mem hp
    obtain ⟨q, hq, hqp⟩ := List.mem_map.mp hmem
    exact hqp ▸ htail q hq
  obtain ⟨row', hset, hstatus⟩ := setColumns_ok hne { row with status := st }
  have hall : setColumns ((Column.status, some st) :: params) row = .ok row' := hset
  have hid := (setColumns_id hall).trans (getLog_id hrow)
  have hmapM : ((sets patch).mapM fun (column, v) => (bindValue v).map fun v => (column, v)) =
      some ((Column.status, some st) :: params) := by
    rw [hsets, List.mapM_cons, hparams]
    rfl
  have hupdate : updateLog rows id patch =
      (.ok (some row'), rows.map fun r => if r.id = id then row' else r) := by
    rw [updateLog, if_neg (by simp [hsets]), hmapM]
    simp only [hrow, hall]
  refine ⟨row', by rw [hupdate], ?_, hstatus, setColumns_fixed hall⟩
  rw [hupdate]
  exact getLog_map_self hrow hid

theorem updateLog_status {rows : List Row} {id st : JsString} {patch : Patch} {row : Row}
    (hrow : getLog rows id = some row) (hst : patch.lookup (js "status") = some (.text st))
    (hpatch : ∀ p ∈ patch, p.2 ≠ .refused) :
    ∃ row', getLog (updateLog rows id patch).2 id = some row' ∧ row'.status = st := by
  obtain ⟨row', -, hget, hstatus, -⟩ := updateLog_written hrow hst hpatch
  exact ⟨row', hget, hstatus⟩

/-- There is nothing to update under an unknown id. -/
theorem updateLog_unknown {rows : List Row} {id : JsString} {patch : Patch} {entry : Option Row}
    (hrow : getLog rows id = none) (h : (updateLog rows id patch).1 = .ok entry) : entry = none := by
  unfold updateLog at h
  split at h
  · rw [hrow] at h
    exact (Except.ok.inj h).symm
  · split at h
    · cases h
    · rw [hrow] at h
      exact (Except.ok.inj h).symm

end SmsGateway.LogStore
