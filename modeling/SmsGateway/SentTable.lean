import SmsGateway.LogStore

/-!
# The sent messages, column by column

`store/log-store.js` with the columns of `sent_messages` under their own names: the fields
of an entry are renamed on insert, in the assembled `UPDATE`, and once more by `toEntry`.
SQLite checks a statement's row for missing values before its key, and undoes a statement
that fails.
-/

namespace SmsGateway.SentTable

open LogStore (Value Patch bindValue)

/-- The columns of `sent_messages`. -/
inductive Column where
  | id
  | timestamp
  | toNumber
  | message
  | projectName
  | ip
  | status
  | error
  | sentAt
  | reference
  | modemId
  | clientRef
  | callbackUrl
  deriving DecidableEq, Repr

def Column.name : Column → JsString
  | .id => js "id"
  | .timestamp => js "timestamp"
  | .toNumber => js "to_number"
  | .message => js "message"
  | .projectName => js "project_name"
  | .ip => js "ip"
  | .status => js "status"
  | .error => js "error"
  | .sentAt => js "sent_at"
  | .reference => js "reference"
  | .modemId => js "modem_id"
  | .clientRef => js "client_ref"
  | .callbackUrl => js "callback_url"

/-- A row as SQLite holds it; `none` is NULL. -/
abbrev Record := Column → Option JsString

/-- The `NOT NULL` columns, in the order of the table. -/
def notNull : List Column := [.timestamp, .toNumber, .message, .status]

def violation (r : Record) : Option Column := notNull.find? fun c => (r c).isNone

def notNullError (c : Column) : JsError :=
  newError (js "NOT NULL constraint failed: sent_messages." ++ c.name)

def uniqueError : JsError := newError (js "UNIQUE constraint failed: sent_messages.id")

def bindError : JsError :=
  newError (js "SQLite3 can only bind numbers, strings, bigints, buffers, and null")

/-- `id = ?`. -/
def isRow (id : JsString) (r : Record) : Bool := r .id == some id

/-- The parameters of a statement, as far as the database binds them. -/
def bindAll {κ : Type} (params : List (κ × Value)) : Option (List (κ × Option JsString)) :=
  params.mapM fun (c, v) => (bindValue v).map fun b => (c, b)

/-- The columns that a statement assigns; the others stay. -/
def write (r : Record) (bound : List (Column × Option JsString)) : Record :=
  fun c => (bound.lookup c).getD (r c)

/-! ## Entries -/

/-- What the gateway gets back of a row. -/
structure Entry where
  id : Option JsString
  timestamp : Option JsString
  recipient : Option JsString
  message : Option JsString
  projectName : Option JsString
  ip : Option JsString
  status : Option JsString
  error : Option JsString
  sentAt : Option JsString
  reference : Option JsString
  modemId : Option JsString
  clientRef : Option JsString
  callbackUrl : Option JsString
  deriving DecidableEq, Repr

def toEntry (row : Record) : Entry :=
  { id := row .id
    timestamp := row .timestamp
    recipient := row .toNumber
    message := row .message
    projectName := row .projectName
    ip := row .ip
    status := row .status
    error := row .error
    sentAt := row .sentAt
    reference := row .reference
    modemId := row .modemId
    clientRef := row .clientRef
    callbackUrl := row .callbackUrl }

/-- The entry given to `appendLog`; a property that it lacks is undefined. -/
structure NewEntry where
  id : JsString
  timestamp : Value
  recipient : Value
  message : Value
  projectName : Value := .undefined
  ip : Value := .undefined
  status : Value
  error : Value := .undefined
  sentAt : Value := .undefined
  reference : Value := .undefined
  modemId : Value := .undefined
  clientRef : Value := .undefined
  callbackUrl : Value := .undefined
  deriving DecidableEq, Repr

/-- `v ?? null`. -/
def orNull : Value → Value
  | .undefined => .null
  | v => v

/-- What `insertStmt` is run with. -/
def insertParams (e : NewEntry) : List (Column × Value) :=
  [(.id, .text e.id), (.timestamp, e.timestamp), (.toNumber, e.recipient), (.message, e.message),
    (.projectName, orNull e.projectName), (.ip, orNull e.ip), (.status, e.status),
    (.error, orNull e.error), (.sentAt, orNull e.sentAt), (.reference, orNull e.reference),
    (.modemId, orNull e.modemId), (.clientRef, orNull e.clientRef),
    (.callbackUrl, orNull e.callbackUrl)]

/-! ## The operations -/

/-- `PATCHABLE`. -/
def patchable : List (JsString × Column) :=
  [(js "status", .status), (js "error", .error), (js "sentAt", .sentAt),
    (js "reference", .reference), (js "modemId", .modemId)]

def getLog (rows : List Record) (id : JsString) : Option Entry :=
  (rows.find? (isRow id)).map toEntry

def appendLog (rows : List Record) (e : NewEntry) : Except JsError NewEntry × List Record :=
  match bindAll (insertParams e) with
  | none => (.error bindError, rows)
  | some bound =>
      let row := write (fun _ => none) bound
      match violation row with
      | some c => (.error (notNullError c), rows)
      | none =>
          if rows.any (isRow e.id) then (.error uniqueError, rows)
          else (.ok e, rows ++ [row])

/-- The assignments of the `UPDATE`: `field in patch`, and `patch[field] ?? null`. -/
def sets (patch : Patch) : List (Column × Value) :=
  patchable.filterMap fun (field, column) => (patch.lookup field).map fun v => (column, orNull v)

def updateLog (rows : List Record) (id : JsString) (patch : Patch) :
    Except JsError (Option Entry) × List Record :=
  if sets patch = [] then (.ok (getLog rows id), rows)
  else
    match bindAll (sets patch) with
    | none => (.error bindError, rows)
    | some bound =>
        -- `result.changes`
        if rows.any (isRow id) then
          match rows.findSome? fun r => if isRow id r then violation (write r bound) else none with
          | some c => (.error (notNullError c), rows)
          | none =>
              let rows := rows.map fun r => if isRow id r then write r bound else r
              (.ok (getLog rows id), rows)
        else (.ok none, rows)

/-! ## What the statements write -/

/-- A value as a column holds it. -/
def stored : Value → Option JsString
  | .text s => some s
  | _ => none

/-- The row of a new entry: every field in its column, undefined as NULL. -/
def appended (e : NewEntry) : Record
  | .id => some e.id
  | .timestamp => stored e.timestamp
  | .toNumber => stored e.recipient
  | .message => stored e.message
  | .projectName => stored e.projectName
  | .ip => stored e.ip
  | .status => stored e.status
  | .error => stored e.error
  | .sentAt => stored e.sentAt
  | .reference => stored e.reference
  | .modemId => stored e.modemId
  | .clientRef => stored e.clientRef
  | .callbackUrl => stored e.callbackUrl

/-- The field of a patch that may change a column. -/
def fieldOf : Column → Option JsString
  | .status => some (js "status")
  | .error => some (js "error")
  | .sentAt => some (js "sentAt")
  | .reference => some (js "reference")
  | .modemId => some (js "modemId")
  | _ => none

/-- What a patch has for a column. -/
def patched (patch : Patch) (c : Column) : Option Value := (fieldOf c).bind fun field => patch.lookup field

/-- A row under a patch: the patchable fields that the patch has, and the rest as it was. -/
def overlay (patch : Patch) (r : Record) : Record :=
  fun c => ((patched patch c).map stored).getD (r c)

/-- Some patchable field of the patch is refused by the database. -/
def Refused (patch : Patch) : Prop := ∃ c, patched patch c = some .refused

/-- The patch has a status that would become NULL. -/
def NullStatus (patch : Patch) : Prop :=
  ∃ v, patched patch .status = some v ∧ v ≠ .refused ∧ stored v = none

theorem stored_orNull (v : Value) : stored (orNull v) = stored v := by
  cases v <;> rfl

theorem orNull_eq_refused {v : Value} : orNull v = .refused ↔ v = .refused := by
  cases v <;> simp [orNull]

theorem bindValue_eq {v : Value} (h : v ≠ .refused) : bindValue v = some (stored v) := by
  cases v with
  | refused => exact absurd rfl h
  | undefined => rfl
  | null => rfl
  | text s => rfl

theorem bindAll_refused {κ : Type} {params : List (κ × Value)} (h : ∃ p ∈ params, p.2 = .refused) :
    bindAll params = none := by
  obtain ⟨p, hp, hv⟩ := h
  unfold bindAll
  induction params with
  | nil => cases hp
  | cons q params ih =>
      obtain ⟨c, v⟩ := q
      rw [List.mapM_cons]
      rcases List.mem_cons.mp hp with rfl | hp
      · dsimp only at hv
        rw [hv]
        rfl
      · rw [ih hp]
        cases v <;> rfl

theorem bindAll_bound {κ : Type} {params : List (κ × Value)} (h : ∀ p ∈ params, p.2 ≠ .refused) :
    bindAll params = some (params.map fun p => (p.1, stored p.2)) := by
  unfold bindAll
  induction params with
  | nil => rfl
  | cons q params ih =>
      obtain ⟨c, v⟩ := q
      have hv : bindValue v = some (stored v) := bindValue_eq (h (c, v) List.mem_cons_self)
      rw [List.mapM_cons, ih fun p hp => h p (List.mem_cons_of_mem _ hp)]
      dsimp only
      rw [hv]
      rfl

theorem lookup_stored (params : List (Column × Value)) (c : Column) :
    (params.map fun p => (p.1, stored p.2)).lookup c = (params.lookup c).map stored := by
  induction params with
  | nil => rfl
  | cons q params ih =>
      rw [List.map_cons, List.lookup_cons, List.lookup_cons, ih]
      cases c == q.1 <;> rfl

theorem write_insertParams (e : NewEntry) :
    write (fun _ => none) ((insertParams e).map fun p => (p.1, stored p.2)) = appended e := by
  funext c
  rw [write, lookup_stored]
  cases c <;> first | rfl | exact stored_orNull _

/-- Columns that occur once are assigned by their own field. -/
theorem lookup_sets {l : List (JsString × Column)} (hl : (l.map (·.2)).Nodup) (patch : Patch)
    (c : Column) :
    (l.filterMap fun (field, column) =>
        (patch.lookup field).map fun v => (column, orNull v)).lookup c =
      (((l.find? fun p => p.2 == c).map (·.1)).bind fun field => patch.lookup field).map orNull := by
  induction l with
  | nil => rfl
  | cons p l ih =>
      obtain ⟨field, column⟩ := p
      rw [List.map_cons, List.nodup_cons] at hl
      have hrest := ih hl.2
      rw [List.filterMap_cons, List.find?_cons]
      by_cases hc : column = c
      · subst hc
        have hnone : (l.find? fun p => p.2 == column) = none := by
          apply List.find?_eq_none.mpr
          intro p hp he
          have hmem : p.2 ∈ l.map (·.2) := List.mem_map_of_mem hp
          have heq : p.2 = column := by simpa using he
          rw [heq] at hmem
          exact hl.1 hmem
        rw [hnone] at hrest
        cases hv : patch.lookup field with
        | none => simpa [hv] using hrest
        | some v => simp [hv]
      · have hne : (column == c) = false := by simpa using hc
        have hne' : (c == column) = false := by simpa using Ne.symm hc
        cases hv : patch.lookup field with
        | none => simpa [hv, hne] using hrest
        | some v => simpa [hv, hne, hne', List.lookup_cons] using hrest

theorem sets_lookup (patch : Patch) (c : Column) :
    (sets patch).lookup c = (patched patch c).map orNull := by
  have hfield : (patchable.find? fun p => p.2 == c).map (·.1) = fieldOf c := by
    cases c <;> rfl
  rw [sets, lookup_sets (by decide), hfield, patched]

theorem mem_sets {patch : Patch} {c : Column} {v : Value} :
    (c, v) ∈ sets patch ↔ ∃ w, patched patch c = some w ∧ v = orNull w := by
  constructor
  · intro h
    obtain ⟨⟨field, column⟩, hp, hv⟩ := List.mem_filterMap.mp h
    obtain ⟨w, hw, he⟩ := Option.map_eq_some_iff.mp hv
    obtain ⟨rfl, rfl⟩ := Prod.mk.inj he
    have hfield : ∀ p ∈ patchable, fieldOf p.2 = some p.1 := by decide
    refine ⟨w, ?_, rfl⟩
    rw [patched, hfield _ hp]
    exact hw
  · rintro ⟨w, hw, rfl⟩
    have hlookup := sets_lookup patch c
    rw [hw] at hlookup
    obtain ⟨l₁, l₂, heq, -⟩ := List.lookup_eq_some_iff.mp hlookup
    rw [heq]
    simp

theorem sets_refused {patch : Patch} : (∃ p ∈ sets patch, p.2 = .refused) ↔ Refused patch := by
  constructor
  · rintro ⟨⟨c, v⟩, hp, hv⟩
    obtain ⟨w, hw, rfl⟩ := mem_sets.mp hp
    exact ⟨c, by rw [hw, orNull_eq_refused.mp hv]⟩
  · rintro ⟨c, hc⟩
    exact ⟨(c, .refused), mem_sets.mpr ⟨.refused, hc, rfl⟩, rfl⟩

theorem write_sets (patch : Patch) (r : Record) :
    write r ((sets patch).map fun p => (p.1, stored p.2)) = overlay patch r := by
  funext c
  rw [write, lookup_stored, sets_lookup, overlay, Option.map_map]
  have hcomp : stored ∘ orNull = stored := funext stored_orNull
  rw [hcomp]

/-! ## One call -/

/-- Every row has an id of its own and all required values. -/
structure Sound (rows : List Record) : Prop where
  distinct : (rows.map fun r => r .id).Nodup
  named : ∀ r ∈ rows, r .id ≠ none
  complete : ∀ r ∈ rows, violation r = none

theorem overlay_eq_self {patch : Patch} {c : Column} (h : patched patch c = none) (r : Record) :
    overlay patch r c = r c := by
  simp [overlay, h]

theorem isRow_overlay (id : JsString) (patch : Patch) (r : Record) :
    isRow id (overlay patch r) = isRow id r := rfl

theorem isSome_of_complete {r : Record} {c : Column} (h : violation r = none)
    (hc : c ∈ notNull) : r c ≠ none := by
  have hall := List.find?_eq_none.mp h c hc
  simpa using hall

theorem isNone_overlay {r : Record} {c : Column} (h : violation r = none) (hc : c ∈ notNull)
    (hfield : fieldOf c = none) (patch : Patch) : (overlay patch r c).isNone = false := by
  have hsome := isSome_of_complete h hc
  rw [overlay_eq_self (by rw [patched, hfield]; rfl)]
  exact Option.isNone_eq_false_iff.mpr (Option.isSome_iff_ne_none.mpr hsome)

theorem violation_overlay {patch : Patch} {r : Record} (h : violation r = none) :
    violation (overlay patch r) = if overlay patch r .status = none then some .status else none := by
  have htimestamp := isNone_overlay h (by decide : Column.timestamp ∈ notNull) rfl patch
  have hto := isNone_overlay h (by decide : Column.toNumber ∈ notNull) rfl patch
  have hmessage := isNone_overlay h (by decide : Column.message ∈ notNull) rfl patch
  simp only [violation, notNull, List.find?_cons, List.find?_nil, htimestamp, hto, hmessage]
  cases overlay patch r .status <;> rfl

theorem overlay_status {patch : Patch} {r : Record} (h : violation r = none)
    (hpatch : ¬Refused patch) : overlay patch r .status = none ↔ NullStatus patch := by
  have hstatus := isSome_of_complete h (by decide : Column.status ∈ notNull)
  unfold overlay NullStatus
  cases hp : patched patch .status with
  | none => simpa using hstatus
  | some v =>
      have hv : v ≠ .refused := by
        rintro rfl
        exact hpatch ⟨.status, hp⟩
      simp [hv]

theorem violation_overlay_iff {patch : Patch} {r : Record} (h : violation r = none)
    (hpatch : ¬Refused patch) :
    (violation (overlay patch r) = some .status ∧ NullStatus patch) ∨
      (violation (overlay patch r) = none ∧ ¬NullStatus patch) := by
  rw [violation_overlay h, ← overlay_status h hpatch]
  by_cases hnone : overlay patch r .status = none
  · exact Or.inl ⟨if_pos hnone, hnone⟩
  · exact Or.inr ⟨if_neg hnone, hnone⟩

section

variable {rows : List Record} {id : JsString} {patch : Patch}

theorem bindAll_sets (h : ¬Refused patch) :
    bindAll (sets patch) = some ((sets patch).map fun p => (p.1, stored p.2)) := by
  apply bindAll_bound
  intro p hp hv
  exact h (sets_refused.mp ⟨p, hp, hv⟩)

theorem updateLog_refused (h : Refused patch) :
    updateLog rows id patch = (.error bindError, rows) := by
  obtain ⟨p, hp, hv⟩ := sets_refused.mpr h
  rw [updateLog, if_neg (List.ne_nil_of_mem hp), bindAll_refused ⟨p, hp, hv⟩]

theorem find_missing (h : rows.any (isRow id) = false) : rows.find? (isRow id) = none := by
  rw [List.find?_eq_none]
  intro r hr
  simpa using List.any_eq_false.mp h r hr

theorem getLog_missing (h : rows.any (isRow id) = false) : getLog rows id = none := by
  rw [getLog, find_missing h, Option.map_none]

theorem updateLog_missing (hpatch : ¬Refused patch) (h : rows.any (isRow id) = false) :
    updateLog rows id patch = (.ok none, rows) := by
  rw [updateLog, bindAll_sets hpatch, getLog_missing h]
  simp [h]

theorem updateLog_null (hrows : Sound rows) (hpatch : ¬Refused patch) (hnull : NullStatus patch)
    (h : rows.any (isRow id) = true) :
    updateLog rows id patch = (.error (notNullError .status), rows) := by
  have hsets : sets patch ≠ [] := by
    obtain ⟨v, hv, -⟩ := hnull
    exact List.ne_nil_of_mem (mem_sets.mpr ⟨v, hv, rfl⟩)
  have hviolation : (rows.findSome? fun r =>
      if isRow id r then violation (overlay patch r) else none) = some .status := by
    cases hfind : rows.findSome? fun r =>
        if isRow id r then violation (overlay patch r) else none with
    | none =>
        obtain ⟨r, hr, hid⟩ := List.any_eq_true.mp h
        have hnone := List.findSome?_eq_none_iff.mp hfind r hr
        rw [if_pos hid] at hnone
        rcases violation_overlay_iff (hrows.complete r hr) hpatch with hv | hv
        · rw [hv.1] at hnone
          cases hnone
        · exact absurd hnull hv.2
    | some c =>
        obtain ⟨r, hr, hc⟩ := List.exists_of_findSome?_eq_some hfind
        by_cases hid : isRow id r
        · rw [if_pos hid] at hc
          rcases violation_overlay_iff (hrows.complete r hr) hpatch with hv | hv
          · rw [← hc, hv.1]
          · exact absurd hnull hv.2
        · rw [if_neg hid] at hc
          cases hc
  rw [updateLog, if_neg hsets, bindAll_sets hpatch]
  simp only [write_sets, h, if_true, hviolation]

theorem getLog_overlay (patch : Patch) (h : rows.any (isRow id) = true) :
    ∃ r ∈ rows, isRow id r = true ∧
      getLog (rows.map fun r => if isRow id r then overlay patch r else r) id =
        some (toEntry (overlay patch r)) := by
  have hcomp : (isRow id ∘ fun r => if isRow id r then overlay patch r else r) = isRow id := by
    funext r
    dsimp only [Function.comp_apply]
    split
    · exact isRow_overlay id patch r
    · rfl
  cases hfind : rows.find? (isRow id) with
  | none =>
      obtain ⟨r, hr, hid⟩ := List.any_eq_true.mp h
      exact absurd hid (List.find?_eq_none.mp hfind r hr)
  | some r =>
      have hid := List.find?_some hfind
      refine ⟨r, List.mem_of_find?_eq_some hfind, hid, ?_⟩
      rw [getLog, List.find?_map, hcomp, hfind, Option.map_some, Option.map_some, if_pos hid]

theorem updateLog_ok (hrows : Sound rows) (hpatch : ¬Refused patch) (hstatus : ¬NullStatus patch)
    (h : rows.any (isRow id) = true) :
    ∃ r ∈ rows, isRow id r = true ∧ updateLog rows id patch =
      (.ok (some (toEntry (overlay patch r))),
        rows.map fun r => if isRow id r then overlay patch r else r) := by
  obtain ⟨r, hr, hid, hget⟩ := getLog_overlay patch h
  refine ⟨r, hr, hid, ?_⟩
  by_cases hsets : sets patch = []
  · have hself : ∀ r : Record, overlay patch r = r := by
      intro r
      funext c
      apply overlay_eq_self
      cases hp : patched patch c with
      | none => rfl
      | some v =>
          have hmem := mem_sets.mpr ⟨v, hp, rfl⟩
          rw [hsets] at hmem
          cases hmem
    simp only [hself, ite_self, List.map_id'] at hget ⊢
    rw [updateLog, if_pos hsets, hget]
  · have hviolation : (rows.findSome? fun r =>
        if isRow id r then violation (overlay patch r) else none) = none := by
      apply List.findSome?_eq_none_iff.mpr
      intro r hr
      rcases violation_overlay_iff (hrows.complete r hr) hpatch with hv | hv
      · exact absurd hv.2 hstatus
      · rw [hv.1, ite_self]
    rw [updateLog, if_neg hsets, bindAll_sets hpatch]
    simp only [write_sets, h, if_true, hviolation, hget]

theorem updateLog_cases (hrows : Sound rows) (id : JsString) (patch : Patch) :
    (∃ e, updateLog rows id patch = (.error e, rows)) ∨
      (rows.any (isRow id) = false ∧ updateLog rows id patch = (.ok none, rows)) ∨
      (¬Refused patch ∧ ¬NullStatus patch ∧ ∃ r ∈ rows, isRow id r = true ∧
        updateLog rows id patch = (.ok (some (toEntry (overlay patch r))),
          rows.map fun r => if isRow id r then overlay patch r else r)) := by
  by_cases hpatch : Refused patch
  · exact Or.inl ⟨_, updateLog_refused hpatch⟩
  cases h : rows.any (isRow id) with
  | false => exact Or.inr (Or.inl ⟨rfl, updateLog_missing hpatch h⟩)
  | true =>
      by_cases hstatus : NullStatus patch
      · exact Or.inl ⟨_, updateLog_null hrows hpatch hstatus h⟩
      · exact Or.inr (Or.inr ⟨hpatch, hstatus, updateLog_ok hrows hpatch hstatus h⟩)

theorem appendLog_cases (rows : List Record) (e : NewEntry) :
    (∃ x, appendLog rows e = (.error x, rows)) ∨
      (appendLog rows e = (.ok e, rows ++ [appended e]) ∧ violation (appended e) = none ∧
        rows.any (isRow e.id) = false) := by
  unfold appendLog
  by_cases hrefused : ∃ p ∈ insertParams e, p.2 = .refused
  · rw [bindAll_refused hrefused]
    exact Or.inl ⟨_, rfl⟩
  · have hbound : ∀ p ∈ insertParams e, p.2 ≠ .refused :=
      fun p hp hv => hrefused ⟨p, hp, hv⟩
    rw [bindAll_bound hbound]
    dsimp only
    rw [write_insertParams]
    cases hv : violation (appended e) with
    | some c => exact Or.inl ⟨_, rfl⟩
    | none =>
        cases hrow : rows.any (isRow e.id) with
        | true => exact Or.inl ⟨_, rfl⟩
        | false => exact Or.inr ⟨rfl, rfl, rfl⟩

end

end SmsGateway.SentTable
