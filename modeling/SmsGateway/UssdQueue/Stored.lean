import SmsGateway.UssdQueue

/-!
# The stored replies

`latestDone` of `store/ussd-store.js` and the stored view of `GET /sms/balance` and
`GET /sms/number` in `router/router.js`, over all runs of the USSD requests.
-/

namespace SmsGateway.UssdQueue

open SmsGateway UssdStore
open Lib

/-- `ORDER BY requested_at, rowid`; rows are never deleted, so a `rowid` is a place. -/
def requestedKey (p : Row × Nat) : List Nat ×ₗ Nat := toLex (utf8Octets p.1.requestedAt, p.2)

/-- The `WHERE` of `latestDone`. -/
def isDoneOf (modemId : JsString) (kind : Kind) (row : Row) : Bool :=
  row.modemId == modemId && row.kind == kind && row.status == .done

def latestDone (rows : List Row) (modemId : JsString) (kind : Kind) : Option Row :=
  ((rows.zipIdx.filter fun p => isDoneOf modemId kind p.1).argmax requestedKey).map (·.1)

/-- What the response has for one modem. -/
structure View where
  value : Option JsString
  checkedAt : Option JsString
  requestId : Option JsString
  error : Option JsString
  deriving DecidableEq, Repr

def kindText : Kind → JsString
  | .balance => js "balance"
  | .tariff => js "tariff"
  | .number => js "number"

def View.ofRow (row : Row) : View := ⟨row.reply, row.completedAt, some row.id, none⟩

/-- The entry of `storedUssdView` for one modem when the request is not a live one. -/
def storedUssdView (rows : List Row) (m : Modem) (kind : Kind) : View :=
  if !m.supportsUssd then
    ⟨none, none, none, some (js "USSD is not supported on the " ++ m.driver ++ js " driver")⟩
  else
    match latestDone rows m.id kind with
    | some last => .ofRow last
    | none => ⟨none, none, none, some (js "No stored " ++ kindText kind ++ js " yet — POST /sms/" ++
        kindText kind ++ js "/refresh or use ?live=true")⟩

/-! ## The newest row -/

section

variable {rows : List Row} {modemId : JsString} {kind : Kind}

theorem mem_done {p : Row × Nat} :
    p ∈ rows.zipIdx.filter (fun p => isDoneOf modemId kind p.1) ↔
      rows[p.2]? = some p.1 ∧ isDoneOf modemId kind p.1 = true := by
  rw [List.mem_filter, List.mem_zipIdx_iff_getElem?]

/-- The row found is a done one, and no other done one was requested later. -/
theorem latestDone_some {row : Row} (h : latestDone rows modemId kind = some row) :
    ∃ i, rows[i]? = some row ∧ isDoneOf modemId kind row = true ∧
      ∀ (j : Nat) (other : Row), rows[j]? = some other → isDoneOf modemId kind other = true →
        requestedKey (other, j) ≤ requestedKey (row, i) := by
  obtain ⟨⟨r, i⟩, hp, rfl⟩ := Option.map_eq_some_iff.mp h
  obtain ⟨hmem, hmax, -⟩ := List.argmax_eq_some_iff.mp hp
  obtain ⟨hrow, hdone⟩ := mem_done.mp hmem
  exact ⟨i, hrow, hdone, fun j other hj ho => hmax (other, j) (mem_done.mpr ⟨hj, ho⟩)⟩

theorem latestDone_isSome {j : Nat} {row : Row} (hj : rows[j]? = some row)
    (hdone : isDoneOf modemId kind row = true) : ∃ last, latestDone rows modemId kind = some last := by
  cases h : latestDone rows modemId kind with
  | some last => exact ⟨last, rfl⟩
  | none =>
      have hnil := List.argmax_eq_none.mp (Option.map_eq_none_iff.mp h)
      have hmem : (row, j) ∈ rows.zipIdx.filter fun p => isDoneOf modemId kind p.1 :=
        mem_done.mpr ⟨hj, hdone⟩
      rw [hnil] at hmem
      cases hmem

end

/-! ## The view -/

section

variable {rows : List Row} {m : Modem} {kind : Kind}

theorem storedUssdView_some {last : Row} (hm : m.supportsUssd = true)
    (h : latestDone rows m.id kind = some last) : storedUssdView rows m kind = .ofRow last := by
  rw [storedUssdView, hm, h]
  rfl

theorem storedUssdView_none (h : latestDone rows m.id kind = none) :
    (storedUssdView rows m kind).value = none := by
  rw [storedUssdView, h]
  split <;> rfl

theorem isDoneOf_status {modemId : JsString} {row : Row} (h : isDoneOf modemId kind row = true) :
    row.status = .done := by
  simp only [isDoneOf, Bool.and_eq_true, beq_iff_eq] at h
  exact h.2

end

/-! ## Places -/

/-- No two rows have one id. -/
def DistinctIds (s : State) : Prop := (s.rows.map (·.id)).Nodup

/-- Rows are added at the end and keep their places. -/
structure PlacesKept (rows rows' : List Row) : Prop where
  distinct : (rows.map (·.id)).Nodup → (rows'.map (·.id)).Nodup
  done : ∀ (i : Nat) (row : Row), rows[i]? = some row → row.status = .done → rows'[i]? = some row

section

variable {rows rows' : List Row}

theorem placesKept_refl (rows : List Row) : PlacesKept rows rows := ⟨id, fun _ _ h _ => h⟩

theorem placesKept_append {entry : Row} (hfree : getRequest rows entry.id = none) :
    PlacesKept rows (rows ++ [entry]) := by
  refine ⟨?_, ?_⟩
  · intro hnodup
    refine Keyed.nodup_append hnodup ?_
    intro row hrow hid
    have hnone := List.find?_eq_none.mp hfree row hrow
    simp [hid] at hnone
  · intro i row hi _
    have hlt := (List.getElem?_eq_some_iff.mp hi).1
    rw [List.getElem?_append_left hlt]
    exact hi

/-- Settling a pending row leaves the done ones alone. -/
theorem placesKept_complete {id : JsString} {o : Outcome} {now : JsString} {row : Row}
    (hnodup : (rows.map (·.id)).Nodup) (hrow : getRequest rows id = some row)
    (hpending : row.status = .pending) :
    PlacesKept rows (completeRequest none rows id o now).2 := by
  have hrows : (completeRequest none rows id o now).2 =
      rows.map fun r => if r.id = id then r.complete o now else r := by
    simp only [completeRequest, hrow]
  rw [hrows]
  refine ⟨?_, ?_⟩
  · intro _
    have hids : (rows.map fun r => if r.id = id then r.complete o now else r).map (·.id) =
        rows.map (·.id) := by
      rw [List.map_map]
      refine List.map_congr_left fun r _ => ?_
      show (if r.id = id then r.complete o now else r).id = r.id
      split <;> rfl
    rw [hids]
    exact hnodup
  · intro i r hi hdone
    have hne : r.id ≠ id := by
      intro hid
      have hsame : r = row :=
        List.inj_on_of_nodup_map hnodup (List.mem_of_getElem? hi) (mem_of_getRequest hrow)
          (hid.trans (getRequest_id hrow).symm)
      rw [hsame, hpending] at hdone
      cases hdone
    rw [List.getElem?_map, hi, Option.map_some, if_neg hne]

theorem Moves.placesKept {id : JsString} {refusal : Option JsError} {stage stage' : Stage} {row : Row}
    (h : Moves rows id refusal stage stage' rows') (hnodup : (rows.map (·.id)).Nodup)
    (hrow : getRequest rows id = some row) (hopen : stage.isOpen = true → row.status = .pending) :
    PlacesKept rows rows' := by
  cases h with
  | goesOn => exact placesKept_refl rows
  | stored => exact placesKept_refl rows
  | refused => exact placesKept_refl rows
  | settled h _ o _ now => exact placesKept_complete hnodup hrow (hopen h)

end

section

variable {s s' : State}

theorem placesKept_step {e : Event} (h : RowsInv s) (hids : DistinctIds s)
    (hstep : step s e = some s') : PlacesKept s.rows s'.rows := by
  rcases step_cases hstep with ⟨modem, kind, id, now, refusal, stage, -, -, -, rfl⟩ |
    ⟨i, x, x', rows, polls, -, hx, hx', rfl⟩ | ⟨polls, rfl⟩
  · rcases create_cases s modem kind id now refusal stage with he | ⟨hfree, he⟩
    · rw [he]
      exact placesKept_refl s.rows
    · rw [he]
      exact placesKept_append (show getRequest s.rows (newRequest modem kind id now).id = none from hfree)
  · obtain ⟨row, hrow, hopen, -⟩ := h.row x (List.mem_of_getElem? hx)
    exact (Request.step_moves hrow hx').2.placesKept hids hrow hopen
  · exact placesKept_refl s.rows

theorem distinctIds_run {es : List Event} (h : run start es = some s) :
    RowsInv s ∧ DistinctIds s := by
  refine Runs.run_induct (P := fun s => RowsInv s ∧ DistinctIds s) (A := fun _ => True) ?_
    ⟨rowsInv_start, List.nodup_nil⟩ (fun _ _ => trivial) h
  intro s e s' hs _ hstep
  exact ⟨rowsInv_step hs.1 hstep, (placesKept_step hs.1 hs.2 hstep).distinct hs.2⟩

theorem done_run {es : List Event} (hs : RowsInv s ∧ DistinctIds s) (h : run s es = some s') {i : Nat}
    {row : Row} (hi : s.rows[i]? = some row) (hdone : row.status = .done) :
    s'.rows[i]? = some row := by
  induction es generalizing s with
  | nil =>
      obtain rfl := Option.some.inj h
      exact hi
  | cons e es ih =>
      obtain ⟨s₁, hs₁, hrest⟩ := Option.bind_eq_some_iff.mp h
      have hkept := placesKept_step hs.1 hs.2 hs₁
      exact ih ⟨rowsInv_step hs.1 hs₁, hkept.distinct hs.2⟩ hrest (hkept.done i row hi hdone)

theorem reply_of_done {row : Row} (h : row.WellFormed) (hdone : row.status = .done) :
    ∃ reply, row.reply = some reply ∧ reply ≠ [] := by
  unfold Row.WellFormed at h
  rw [hdone] at h
  exact h.1

/-- What the view shows of a modem is the reply of its last requested session of the kind among
those that got one, and from then on, whatever else is requested, refused or left without a
reply, always that reply or the one of a session requested later. -/
theorem stored_view {es fs : List Event} (h : run start es = some s) (h' : run s fs = some s')
    (m : Modem) (hm : m.supportsUssd = true) (kind : Kind) :
    (∀ v, (storedUssdView s.rows m kind).value = some v → ∃ i row, s.rows[i]? = some row ∧
      isDoneOf m.id kind row = true ∧ row.reply = some v ∧ v ≠ [] ∧
      storedUssdView s.rows m kind = .ofRow row ∧
      ∀ (j : Nat) (other : Row), s.rows[j]? = some other → isDoneOf m.id kind other = true →
        requestedKey (other, j) ≤ requestedKey (row, i)) ∧
    ∀ (i : Nat) (row : Row), s.rows[i]? = some row → isDoneOf m.id kind row = true → ∃ j later,
      s'.rows[j]? = some later ∧ isDoneOf m.id kind later = true ∧
      storedUssdView s'.rows m kind = .ofRow later ∧
      requestedKey (row, i) ≤ requestedKey (later, j) := by
  have hinv := distinctIds_run h
  constructor
  · intro v hv
    cases hlast : latestDone s.rows m.id kind with
    | none =>
        rw [storedUssdView_none hlast] at hv
        cases hv
    | some row =>
        have hview := storedUssdView_some hm hlast
        rw [hview] at hv
        obtain ⟨i, hi, hdone, hmax⟩ := latestDone_some hlast
        obtain ⟨reply, hreply, hne⟩ :=
          reply_of_done (hinv.1.wellFormed row (List.mem_of_getElem? hi)) (isDoneOf_status hdone)
        obtain rfl : reply = v := Option.some.inj (hreply.symm.trans hv)
        exact ⟨i, row, hi, hdone, hreply, hne, hview, hmax⟩
  · intro i row hi hdone
    have hi' := done_run hinv h' hi (isDoneOf_status hdone)
    obtain ⟨later, hlater⟩ := latestDone_isSome hi' hdone
    obtain ⟨j, hj, hjdone, hmax⟩ := latestDone_some hlater
    exact ⟨j, later, hj, hjdone, storedUssdView_some hm hlater, hmax i row hi' hdone⟩

end

def answeredOnce : List Event :=
  [.enqueue serialModem .balance (js "u1") (js "t0") none, .added 0, .start 0 [serialModem],
    .replied 0 (.ok (some (js "12 TMT"))) none (js "t1"), .completes 0]

/-- A later session without a reply. -/
def silentLater : List Event :=
  [.live serialModem .balance (js "u2") (js "t2") none, .answered 1 (.ok none) none (js "t3")]

theorem answeredOnce_isSome : (run start answeredOnce).isSome = true := by decide +kernel

theorem silentLater_isSome :
    (run ((run start answeredOnce).get answeredOnce_isSome) silentLater).isSome = true := by
  decide +kernel

/-- The reply of the first session is still the one shown. -/
theorem stored_view_silentLater : ∃ later : Row, later.status = .done ∧
    storedUssdView ((run ((run start answeredOnce).get answeredOnce_isSome) silentLater).get
      silentLater_isSome).rows serialModem .balance = .ofRow later := by
  have hview := stored_view (Option.some_get answeredOnce_isSome).symm
    (Option.some_get silentLater_isSome).symm serialModem rfl .balance
  have hfirst : ((run start answeredOnce).get answeredOnce_isSome).rows[0]?.map
      (isDoneOf (js "m1") .balance) = some true := by decide +kernel
  obtain ⟨row, hrow, hdone⟩ := Option.map_eq_some_iff.mp hfirst
  obtain ⟨j, later, -, hlater, hshown, -⟩ := hview.2 0 row hrow hdone
  exact ⟨later, isDoneOf_status hlater, hshown⟩

end SmsGateway.UssdQueue
