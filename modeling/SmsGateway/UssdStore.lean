import SmsGateway.Js

/-!
# The table of USSD requests

`store/ussd-store.js` over the `ussd_requests` table of `store/db.js`. A statement that the
database refuses changes nothing.
-/

namespace SmsGateway.UssdStore

open SmsGateway

inductive Status where
  | pending
  | done
  | failed
  deriving DecidableEq, Repr

inductive Kind where
  | balance
  | tariff
  | number
  deriving DecidableEq, Repr

structure Row where
  id : JsString
  modemId : JsString
  kind : Kind
  code : JsString
  status : Status
  reply : Option JsString
  error : Option JsString
  requestedAt : JsString
  completedAt : Option JsString
  deriving DecidableEq, Repr

/-- The second argument of `completeRequest`; what it leaves out becomes null. -/
structure Outcome where
  status : Status
  reply : Option JsString
  error : Option JsString
  deriving DecidableEq, Repr

def getRequest (rows : List Row) (id : JsString) : Option Row := rows.find? fun r => r.id == id

/-- `createRequest`; `refusal` is what the statement throws, if the database refuses it. -/
def createRequest (refusal : Option JsError) (rows : List Row) (entry : Row) :
    Except JsError Row × List Row :=
  match refusal with
  | some e => (.error e, rows)
  | none =>
      match getRequest rows entry.id with
      | some _ => (.error (newError (js "UNIQUE constraint failed: ussd_requests.id")), rows)
      | none => (.ok entry, rows ++ [entry])

def Row.complete (row : Row) (o : Outcome) (now : JsString) : Row :=
  { row with status := o.status, reply := o.reply, error := o.error, completedAt := some now }

/-- `completeRequest`: the row as it is afterwards, or null when the id is unknown. -/
def completeRequest (refusal : Option JsError) (rows : List Row) (id : JsString) (o : Outcome)
    (now : JsString) : Except JsError (Option Row) × List Row :=
  match refusal with
  | some e => (.error e, rows)
  | none =>
      match getRequest rows id with
      | none => (.ok none, rows)
      | some row =>
          (.ok (some (row.complete o now)),
            rows.map fun r => if r.id = id then r.complete o now else r)

/-! ## Well-formed rows -/

/-- What a row of each status has to hold. -/
def Row.WellFormed (row : Row) : Prop :=
  match row.status with
  | .pending => row.reply = none ∧ row.error = none ∧ row.completedAt = none
  | .done => (∃ reply, row.reply = some reply ∧ reply ≠ []) ∧ row.error = none ∧
      row.completedAt ≠ none
  | .failed => row.reply = none ∧ row.error ≠ none ∧ row.completedAt ≠ none

/-- An outcome that settles a row. -/
def Outcome.Settles (o : Outcome) : Prop :=
  match o.status with
  | .pending => False
  | .done => (∃ reply, o.reply = some reply ∧ reply ≠ []) ∧ o.error = none
  | .failed => o.reply = none ∧ o.error ≠ none

theorem Outcome.Settles.status {o : Outcome} (h : o.Settles) : o.status ≠ .pending := by
  intro hpending
  rw [Outcome.Settles, hpending] at h
  exact h

theorem Row.complete_wellFormed {row : Row} {o : Outcome} {now : JsString} (h : o.Settles) :
    (row.complete o now).WellFormed := by
  unfold Outcome.Settles at h
  unfold Row.WellFormed Row.complete
  cases hstatus : o.status <;> rw [hstatus] at h <;> simp only
  case pending => exact h.elim
  case done => exact ⟨h.1, h.2, Option.some_ne_none _⟩
  case failed => exact ⟨h.1, h.2, Option.some_ne_none _⟩

/-! ## What the statements do -/

section

variable {rows : List Row} {id : JsString} {row : Row}

theorem getRequest_id (h : getRequest rows id = some row) : row.id = id := by
  have hp := List.find?_some h
  simpa using hp

theorem mem_of_getRequest (h : getRequest rows id = some row) : row ∈ rows :=
  List.mem_of_find?_eq_some h

theorem createRequest_ok {refusal : Option JsError} {entry r : Row}
    (h : (createRequest refusal rows entry).1 = .ok r) :
    r = entry ∧ getRequest rows entry.id = none ∧
      (createRequest refusal rows entry).2 = rows ++ [entry] := by
  unfold createRequest at h ⊢
  cases refusal with
  | some e => cases h
  | none =>
      cases hrow : getRequest rows entry.id with
      | some r' => simp [hrow] at h
      | none =>
          simp only [hrow] at h ⊢
          exact ⟨(Except.ok.inj h).symm, trivial, trivial⟩

theorem getRequest_append (entry : Row) (hid : entry.id ≠ id) :
    getRequest (rows ++ [entry]) id = getRequest rows id := by
  simp [getRequest, hid]

theorem getRequest_append_self {entry : Row} (h : getRequest rows entry.id = none) :
    getRequest (rows ++ [entry]) entry.id = some entry := by
  have hnone : rows.find? (fun r => r.id == entry.id) = none := h
  simp [getRequest, hnone]

/-- A settled row holds its outcome. -/
theorem completeRequest_self {o : Outcome} {now : JsString} (h : getRequest rows id = some row) :
    (completeRequest none rows id o now).1 = .ok (some (row.complete o now)) ∧
      getRequest (completeRequest none rows id o now).2 id = some (row.complete o now) := by
  have hid := getRequest_id h
  refine ⟨by simp only [completeRequest, h], ?_⟩
  simp only [completeRequest, h]
  unfold getRequest at h ⊢
  induction rows with
  | nil => cases h
  | cons r rows ih =>
      by_cases hr : r.id = id
      · rw [List.find?_cons_of_pos (by simpa using hr)] at h
        obtain rfl := Option.some.inj h
        simp [Row.complete, hr]
      · rw [List.find?_cons_of_neg (by simpa using hr)] at h
        simp [hr, ih h]

theorem completeRequest_other {refusal : Option JsError} {o : Outcome} {now id' : JsString}
    (hne : id' ≠ id) :
    getRequest (completeRequest refusal rows id o now).2 id' = getRequest rows id' := by
  unfold completeRequest
  cases refusal with
  | some e => rfl
  | none =>
      cases hrow : getRequest rows id with
      | none => rfl
      | some row =>
          simp only
          unfold getRequest
          clear hrow
          induction rows with
          | nil => rfl
          | cons r rows ih =>
              by_cases hr : r.id = id
              · have hr' : r.id ≠ id' := fun he => hne (he.symm.trans hr)
                have hc : (r.complete o now).id = r.id := rfl
                simp [hr, hc, hne.symm, ih]
              · rw [List.map_cons, if_neg hr]
                by_cases hr' : r.id = id'
                · simp [hr']
                · simp [hr', ih]

end

end SmsGateway.UssdStore
