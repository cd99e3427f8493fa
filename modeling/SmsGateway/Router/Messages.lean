import SmsGateway.Router
import SmsGateway.Serial.Inbox
import SmsGateway.Zte.Inbox
import SmsGateway.Adb.Inbox
import SmsGateway.Lib.Lanes

/-!
# Reading all inboxes

`GET /messages` of `router/router.js`: `fetchAndStore` reads the modems at the same time, each
behind its own lock, and all of them save to one table, as do the polls of the USSD worker.
Nothing is assumed here of what the modems answer.
-/

namespace SmsGateway.Router.Messages

open SmsGateway InboxStore
open Lib Lib.Async Lib.Serialized Lib.Ledger

/-! ## Readers -/

/-- A modem of the pool as `fetchAndStore` sees it. -/
inductive Reader where
  | serial (id : JsString)
  | zte (stick : Zte.Stick)
  | adb (bridgePkg : Option JsString) (id : JsString)
  deriving DecidableEq

def Reader.id : Reader → JsString
  | .serial id => id
  | .zte stick => stick.id
  | .adb _ id => id

@[reducible] def Reader.Op : Reader → Type
  | .serial _ => Serial.Op
  | .zte _ => Zte.Op
  | .adb _ _ => Adb.Op

@[reducible] def Reader.Ans : (m : Reader) → m.Op → Type
  | .serial _ => Serial.Ans
  | .zte _ => Zte.Ans
  | .adb _ _ => Adb.Ans

def fetchAndStore (otherDate : Json.JsValue → Except JsError JsString) :
    (m : Reader) → Prog m.Op m.Ans JsError (List Incoming)
  | .serial id => Serial.Inbox.fetchAndStore id
  | .zte stick => Zte.Inbox.fetchAndStore stick
  | .adb bridgePkg id => Adb.Inbox.fetchAndStore otherDate bridgePkg id

/-! ## The table -/

/-- How `saveReceived` may settle: it inserts all rows behind the others, or none. -/
inductive Saves (messages : List Incoming) (rows : List Row) : Except JsError Unit → List Row → Prop where
  | committed (receivedAt : JsString) :
      Saves messages rows (.ok ()) (rows ++ insertAll messages receivedAt)
  | rejected (e : JsError) : Saves messages rows (.error e) rows

def serialActs (id : JsString) (rows : List Row) : (op : Serial.Op) → Serial.Ans op → List Row → Prop
  | .persist messages, a, rows' => Saves (messages.map (Serial.Inbox.incoming id)) rows a rows'
  | _, _, rows' => rows' = rows

def zteActs (id : JsString) (rows : List Row) : (op : Zte.Op) → Zte.Ans op → List Row → Prop
  | .persist messages, a, rows' => Saves (messages.map (Zte.Inbox.incoming id)) rows a rows'
  | _, _, rows' => rows' = rows

def adbActs (id : JsString) (rows : List Row) : (op : Adb.Op) → Adb.Ans op → List Row → Prop
  | .persist messages, a, rows' => Saves (messages.map (Adb.Inbox.incoming id)) rows a rows'
  | _, _, rows' => rows' = rows

def Reader.acts : (m : Reader) → List Row → (op : m.Op) → m.Ans op → List Row → Prop
  | .serial id => serialActs id
  | .zte stick => zteActs stick.id
  | .adb _ id => adbActs id

/-- The table `received_messages` under one modem's reads, while others insert. -/
def received (m : Reader) : World (List Row) m.Op m.Ans :=
  { acts := m.acts, spont := fun rows rows' => rows <+: rows', enter := fun rows => rows }

/-- The modems' reads, and the results of those that have ended; a call has a number. -/
abbrev Reads := Lanes.State Nat (List Row) Reader.Op Reader.Ans JsError (List Incoming)

abbrev Reachable (otherDate : Json.JsValue → Except JsError JsString) (rows : List Row) :
    Reads → Prop :=
  Lanes.Reachable received (fun m _ => fetchAndStore otherDate m) rows

abbrev Read := Entry Nat (List Row) JsError (List Incoming)

/-! ## The route -/

inductive Answer where
  /-- 500 -/
  | failed (message : JsString) (errors : List (JsString × JsString))
  | success (messages : List Incoming) (errors : List (JsString × JsString))

def unknownModem (readers : List Reader) (modemId : JsString) : JsString :=
  js "Unknown modem \"" ++ modemId ++ js "\" — available: " ++
    Serial.joinWith (js ", ") (readers.map (·.id))

/-- All modems, unless the query names one; an empty name is none, and an unknown one a 400. -/
def targets (readers : List Reader) (modem : Option JsString) : Except JsString (List Reader) :=
  match modem with
  | none => .ok readers
  | some [] => .ok readers
  | some modemId =>
      match readers.find? fun m => m.id == modemId with
      | some m => .ok [m]
      | none => .error (unknownModem readers modemId)

/-- `r.messages || []`. -/
def messagesOf (result : Except JsError (List Incoming)) : List Incoming :=
  match result with
  | .ok found => found
  | .error _ => []

/-- `r.error`, where an empty message counts as none. -/
def errorOf (m : Reader) (result : Except JsError (List Incoming)) : Option (JsString × JsString) :=
  match result with
  | .ok _ => none
  | .error e => if e.message = [] then none else some (m.id, e.message)

/-- The answer to the results of the targets; without any target there is no first error. -/
def answer (results : List (Reader × Except JsError (List Incoming))) : Option Answer :=
  let errors := results.filterMap fun r => errorOf r.1 r.2
  if errors.length = results.length then errors.head?.map fun e => .failed e.2 errors
  else some (.success (results.flatMap fun r => messagesOf r.2) errors)

/-! ## What a read leaves -/

/-- The rows of the messages stand together in the table, behind all that was there before. -/
def Stored (before : List Row) (found : List Incoming) (rows : List Row) : Prop :=
  ∃ old receivedAt new, rows = old ++ insertAll found receivedAt ++ new ∧ before <+: old

/-- What a read of the modem reports is from this modem, and is in the table. -/
def Reported (m : Reader) (before : List Row) (result : Except JsError (List Incoming))
    (rows : List Row) : Prop :=
  ∀ found, result = .ok found → (∀ x ∈ found, x.modemId = m.id) ∧ Stored before found rows

section

variable {otherDate : Json.JsValue → Except JsError JsString} {before rows rows' : List Row}
  {found : List Incoming} {m : Reader}

theorem stored_nil (h : before <+: rows) : Stored before [] rows :=
  ⟨rows, [], [], by rw [insertAll, List.map_nil, List.append_nil, List.append_nil], h⟩

theorem stored_committed (h : before <+: rows) (receivedAt : JsString) :
    Stored before found (rows ++ insertAll found receivedAt) :=
  ⟨rows, receivedAt, [], (List.append_nil _).symm, h⟩

theorem Stored.mono (h : Stored before found rows) (hrows : rows <+: rows') :
    Stored before found rows' := by
  obtain ⟨old, receivedAt, new, rfl, hold⟩ := h
  obtain ⟨more, rfl⟩ := hrows
  exact ⟨old, receivedAt, new ++ more, by rw [List.append_assoc], hold⟩

theorem reported_ok (hid : ∀ x ∈ found, x.modemId = m.id) (h : Stored before found rows) :
    Reported m before (.ok found) rows := by
  intro found' heq
  obtain rfl := Except.ok.inj heq
  exact ⟨hid, h⟩

theorem reported_error (e : JsError) (rows : List Row) : Reported m before (.error e) rows := by
  intro found heq
  cases heq

/-! ## The drivers -/

def serialQuiet : Serial.Op → Prop
  | .persist _ => False
  | _ => True

def zteQuiet : Zte.Op → Prop
  | .persist _ => False
  | _ => True

def adbQuiet : Adb.Op → Prop
  | .persist _ => False
  | _ => True

def Reader.Quiet : (m : Reader) → m.Op → Prop
  | .serial _ => serialQuiet
  | .zte _ => zteQuiet
  | .adb _ _ => adbQuiet

theorem acts_quiet (m : Reader) {op : m.Op} {a : m.Ans op} (hop : m.Quiet op)
    (h : m.acts rows op a rows') : rows' = rows := by
  cases m with
  | serial id => cases op <;> first | exact h | exact hop.elim
  | zte stick => cases op <;> first | exact h | exact hop.elim
  | adb bridgePkg id => cases op <;> first | exact h | exact hop.elim

/-- A part of a read that does not save, and then the rest. -/
theorem safe_quiet {α β : Type} {A : List Row → Prop} {Q : Except JsError β → List Row → Prop}
    {p : Prog m.Op m.Ans JsError α} {f : α → Prog m.Op m.Ans JsError β}
    (hA : ∀ rows rows', A rows → rows <+: rows' → A rows') (hp : AllOps m.Quiet p) (h : A rows)
    (hf : ∀ a rows, A rows → Safe (received m) (fun _ => True) Q (f a) rows)
    (hfail : ∀ e rows, A rows → Q (.error e) rows) :
    Safe (received m) (fun _ => True) Q (p >>= f) rows := by
  refine safe_allOps_bind hp ?_ hA h hf hfail
  intro rows op a rows' hop hrows ha
  exact acts_quiet m hop ha ▸ hrows

theorem quiet_deleteAll (messages : List Serial.Listed) :
    AllOps serialQuiet (Serial.deleteAll messages) := by
  induction messages with
  | nil => trivial
  | cons m messages ih => exact allOps_bind (Serial.allOps_transact trivial) fun _ => ih

/-- A part before the save. -/
theorem safe_before {α β : Type} {p : Prog m.Op m.Ans JsError α}
    {f : α → Prog m.Op m.Ans JsError β} {Q : Except JsError β → List Row → Prop}
    (hp : AllOps m.Quiet p) (h : before <+: rows)
    (hf : ∀ a rows, before <+: rows → Safe (received m) (fun _ => True) Q (f a) rows)
    (hfail : ∀ e rows, Q (.error e) rows) :
    Safe (received m) (fun _ => True) Q (p >>= f) rows :=
  safe_quiet (fun _ _ hrows hmore => hrows.trans hmore) hp h hf fun e rows _ => hfail e rows

/-- A part behind it. -/
theorem safe_behind {α : Type} {p : Prog m.Op m.Ans JsError α}
    {f : α → Prog m.Op m.Ans JsError (List Incoming)} (hp : AllOps m.Quiet p)
    (h : Stored before found rows)
    (hf : ∀ a rows, Stored before found rows →
      Safe (received m) (fun _ => True) (Reported m before) (f a) rows) :
    Safe (received m) (fun _ => True) (Reported m before) (p >>= f) rows :=
  safe_quiet (fun _ _ hstored hmore => hstored.mono hmore) hp h hf fun e rows _ => reported_error e rows

/-- The save itself: what is behind it finds the messages stored, or is not reached. -/
theorem safe_save {o : m.Op} {s : m.Ans o → Except JsError Unit}
    {f : Unit → Prog m.Op m.Ans JsError (List Incoming)} (h : before <+: rows)
    (hacts : ∀ rows a rows', m.acts rows o a rows' → Saves found rows (s a) rows')
    (hf : ∀ u rows, Stored before found rows →
      Safe (received m) (fun _ => True) (Reported m before) (f u) rows) :
    Safe (received m) (fun _ => True) (Reported m before)
      (.call o (fun a => Prog.ofExcept (s a)) >>= f) rows := by
  refine safe_call (fun rows => before <+: rows) h (fun _ _ => trivial)
    (fun _ _ hrows hmore => hrows.trans hmore) ?_
  intro rows a rows' h ha
  apply safe_ofExcept_bind
  have hsaves := hacts rows a rows' ha
  generalize s a = answer at hsaves
  cases hsaves with
  | committed receivedAt => exact hf () _ (stored_committed h receivedAt)
  | rejected e => exact reported_error e _

theorem modemId_map {α : Type} {f : α → Incoming} (hf : ∀ y, (f y).modemId = m.id) (ys : List α) :
    ∀ x ∈ ys.map f, x.modemId = m.id := by
  intro x hx
  obtain ⟨y, -, rfl⟩ := List.mem_map.mp hx
  exact hf y

/-- Without messages nothing is saved. -/
theorem stored_none {α : Type} {f : α → Incoming} {ys : List α} {P : Prop} (hP : P)
    (hnone : ¬(ys ≠ [] ∧ P)) (h : before <+: rows) : Stored before (ys.map f) rows := by
  have hnil : ys = [] := by tauto
  subst hnil
  exact stored_nil h

theorem safe_serial (id : JsString) (h : before <+: rows) :
    Safe (received (.serial id)) (fun _ => True) (Reported (.serial id) before)
      (fetchAndStore otherDate (.serial id)) rows := by
  have hid := modemId_map (m := .serial id) (f := Serial.Inbox.incoming id) fun _ => rfl
  show Safe _ _ _ (Serial.Inbox.fetchAndStore id) rows
  unfold Serial.Inbox.fetchAndStore Serial.getMessages
  simp only [bind_assoc]
  refine safe_before (Serial.allOps_transact trivial) h (fun _ rows h => ?_) reported_error
  refine safe_before (Serial.allOps_transact trivial) h (fun _ rows h => ?_) reported_error
  refine safe_before (Serial.allOps_transact trivial) h (fun _ rows h => ?_) reported_error
  refine safe_before (Serial.allOps_transact trivial) h (fun lines rows h => ?_) reported_error
  have hrest : ∀ rows, Stored before (((Serial.parseListing lines).map (·.message)).map
      (Serial.Inbox.incoming id)) rows → Safe (received (.serial id)) (fun _ => True)
      (Reported (.serial id) before) (Serial.deleteAll (Serial.parseListing lines) >>= fun _ =>
        pure ((Serial.parseListing lines).map (·.message)) >>= fun messages =>
          pure (messages.map (Serial.Inbox.incoming id))) rows := by
    intro rows hstored
    exact safe_behind (quiet_deleteAll _) hstored fun _ rows hstored => reported_ok (hid _) hstored
  split
  case isTrue =>
    simp only [bind_assoc]
    refine safe_save (o := Serial.Op.persist _) (s := fun a => a) h ?_ fun _ => hrest
    exact fun _ _ _ ha => ha
  case isFalse hnone =>
    simp only [bind_assoc]
    exact hrest _ (stored_none trivial hnone h)

theorem quiet_request (r : Zte.HttpRequest) : AllOps zteQuiet (Zte.request r) :=
  ⟨trivial, fun _ => allOps_ofExcept _⟩

theorem quiet_login (stick : Zte.Stick) (password : JsString) :
    AllOps zteQuiet (Zte.login stick password) := by
  refine allOps_bind (quiet_request _) fun json => allOps_bind (allOps_ofExcept _) fun result => ?_
  split
  · trivial
  · exact ⟨trivial, fun _ => trivial⟩

theorem quiet_acceptOrReject (params : List (JsString × JsString)) (json : Json.JsValue) :
    AllOps zteQuiet (Zte.acceptOrReject params json) := by
  refine allOps_bind (allOps_ofExcept _) fun success => ?_
  split <;> trivial

theorem quiet_writeAuthed (stick : Zte.Stick) (password : JsString)
    (params : List (JsString × JsString)) :
    AllOps zteQuiet (Zte.writeAuthed stick password params) := by
  refine allOps_bind (quiet_request _) fun json => allOps_bind (allOps_ofExcept _) fun success => ?_
  split
  · trivial
  · refine allOps_bind ⟨trivial, fun _ => trivial⟩ fun _ => ?_
    refine allOps_bind (quiet_login stick password) fun _ => ?_
    exact allOps_bind (quiet_request _) fun json => quiet_acceptOrReject params json

theorem quiet_setCmd (stick : Zte.Stick) (params : List (JsString × JsString)) :
    AllOps zteQuiet (Zte.setCmd stick params) := by
  unfold Zte.setCmd
  split
  · exact allOps_bind (quiet_request _) fun json => quiet_acceptOrReject params json
  · refine allOps_bind ⟨trivial, fun _ => trivial⟩ fun loggedIn => ?_
    split
    · exact allOps_bind (quiet_login stick _) fun _ => quiet_writeAuthed stick _ params
    · exact quiet_writeAuthed stick _ params

theorem quiet_ensureAuthedForRead (stick : Zte.Stick) :
    AllOps zteQuiet (Zte.ensureAuthedForRead stick) := by
  unfold Zte.ensureAuthedForRead
  split
  · trivial
  · exact quiet_login stick _

theorem safe_zte (stick : Zte.Stick) (h : before <+: rows) :
    Safe (received (.zte stick)) (fun _ => True) (Reported (.zte stick) before)
      (fetchAndStore otherDate (.zte stick)) rows := by
  have hid := modemId_map (m := .zte stick) (f := Zte.Inbox.incoming stick.id) fun _ => rfl
  show Safe _ _ _ (Zte.Inbox.fetchAndStore stick) rows
  unfold Zte.Inbox.fetchAndStore Zte.getMessages
  simp only [bind_assoc]
  refine safe_before (quiet_ensureAuthedForRead stick) h (fun _ rows h => ?_) reported_error
  refine safe_before (quiet_request _) h (fun data rows h => ?_) reported_error
  refine safe_before (allOps_ofExcept _) h (fun inbox rows h => ?_) reported_error
  have hrest : ∀ rows, Stored before (inbox.2.map (Zte.Inbox.incoming stick.id)) rows →
      Safe (received (.zte stick)) (fun _ => True) (Reported (.zte stick) before)
      ((if inbox.1 ≠ [] then do
          let ids ← Prog.ofExcept (inbox.1.mapM Zte.idOf)
          let _ ← Zte.setCmd stick (Zte.deleteParams ids)
          pure inbox.2
        else pure inbox.2) >>= fun messages =>
          pure (messages.map (Zte.Inbox.incoming stick.id))) rows := by
    intro rows hstored
    split
    · simp only [bind_assoc]
      refine safe_behind (allOps_ofExcept _) hstored fun ids rows hstored => ?_
      exact safe_behind (quiet_setCmd stick _) hstored
        fun _ rows hstored => reported_ok (hid _) hstored
    · exact reported_ok (hid _) hstored
  split
  case isTrue =>
    simp only [bind_assoc]
    refine safe_save (o := Zte.Op.persist _) (s := fun a => a) h ?_ fun _ => hrest
    exact fun _ _ _ ha => ha
  case isFalse hnone => exact hrest _ (stored_none trivial hnone h)

theorem quiet_adb (args : List JsString) :
    AllOps adbQuiet ((Adb.adb args).catchError fun _ => return []) :=
  allOps_catchError ⟨trivial, fun _ => allOps_ofExcept _⟩ fun _ => trivial

theorem safe_adb (bridgePkg : Option JsString) (id : JsString) (h : before <+: rows) :
    Safe (received (.adb bridgePkg id)) (fun _ => True) (Reported (.adb bridgePkg id) before)
      (fetchAndStore otherDate (.adb bridgePkg id)) rows := by
  have hid := modemId_map (m := .adb bridgePkg id) (f := Adb.Inbox.incoming id) fun _ => rfl
  show Safe _ _ _ (Adb.Inbox.fetchAndStore otherDate bridgePkg id) rows
  unfold Adb.Inbox.fetchAndStore Adb.getMessages
  split
  case isTrue => exact reported_ok (hid []) (stored_nil h)
  case isFalse =>
    simp only [bind_assoc]
    refine safe_before ⟨trivial, fun _ => trivial⟩ h (fun connected rows h => ?_) reported_error
    split
    case isTrue => exact reported_ok (hid []) (stored_nil h)
    case isFalse =>
      simp only [bind_assoc]
      refine safe_before (quiet_adb _) h (fun out rows h => ?_) reported_error
      have hrest : ∀ rows, Stored before
          ((Adb.readLines otherDate out).map (Adb.Inbox.incoming id)) rows →
          Safe (received (.adb bridgePkg id)) (fun _ => True) (Reported (.adb bridgePkg id) before)
          (((Adb.adb [js "shell", Adb.removeReading]).catchError fun _ => pure []) >>= fun _ =>
            pure (Adb.readLines otherDate out) >>= fun messages =>
              pure (messages.map (Adb.Inbox.incoming id))) rows := by
        intro rows hstored
        exact safe_behind (quiet_adb _) hstored fun _ rows hstored => reported_ok (hid _) hstored
      split
      case isTrue =>
        simp only [bind_assoc]
        refine safe_save (o := Adb.Op.persist _) (s := fun a => a) h ?_ fun _ => hrest
        exact fun _ _ _ ha => ha
      case isFalse hnone =>
        simp only [bind_assoc]
        exact hrest _ (stored_none trivial hnone h)

theorem Saves.grows {messages : List Incoming} {a : Except JsError Unit}
    (h : Saves messages rows a rows') : rows <+: rows' := by
  cases h with
  | committed receivedAt => exact List.prefix_append _ _
  | rejected e => exact List.prefix_refl _

theorem acts_grow (m : Reader) {op : m.Op} {a : m.Ans op} (h : m.acts rows op a rows') :
    rows <+: rows' := by
  have hsame (h : rows' = rows) : rows <+: rows' := h ▸ List.prefix_refl rows
  cases m with
  | serial id => cases op <;> first | exact Saves.grows h | exact hsame h
  | zte stick => cases op <;> first | exact Saves.grows h | exact hsame h
  | adb bridgePkg id => cases op <;> first | exact Saves.grows h | exact hsame h

theorem received_grows (m : Reader) : Ledger.Grows (received m) (fun rows rows' => rows <+: rows') where
  refl := List.prefix_refl
  trans _ _ _ h h' := h.trans h'
  acts _ _ _ _ h := acts_grow m h
  spont _ _ h := h
  enter := List.prefix_refl

theorem received_expected : Lanes.Expected received where
  enter _ _ rows := List.prefix_refl rows
  acts m _ _ _ _ _ h := acts_grow m h
  spont _ _ _ _ h := h

theorem verified (m : Reader) : Ledger.Verified (received m) (fun _ : Nat => fetchAndStore otherDate m)
    (fun _ before result rows => Reported m before result rows) := by
  refine ⟨?_, ?_⟩
  · intro _ before result rows rows' h hmore found hfound
    exact ⟨(h found hfound).1, (h found hfound).2.mono hmore⟩
  · intro _ rows
    cases m with
    | serial id => exact safe_serial id (List.prefix_refl rows)
    | zte stick => exact safe_zte stick (List.prefix_refl rows)
    | adb bridgePkg id => exact safe_adb bridgePkg id (List.prefix_refl rows)

/-- A read that has ended is in the table as it is now. -/
theorem reported_of_ended {t : Reads} (h : Reachable otherDate rows t) {e : Read}
    (he : e ∈ (t.lanes m).ended) : Reported m e.before e.result t.world := by
  have hlane := Lanes.lane_reachable received_expected h m
  have hbelow : e.after <+: t.world := Ledger.below_reachable (received_grows m) hlane e he
  have hreported := Ledger.ended_reachable (verified m) hlane e he
  intro found hfound
  exact ⟨(hreported found hfound).1, (hreported found hfound).2.mono hbelow⟩

/-! ## The answer -/

theorem targets_ne_nil {readers ts : List Reader} {modem : Option JsString} (h : readers ≠ [])
    (hts : targets readers modem = .ok ts) : ts ≠ [] := by
  unfold targets at hts
  split at hts
  case h_1 => exact Except.ok.inj hts ▸ h
  case h_2 => exact Except.ok.inj hts ▸ h
  case h_3 =>
    split at hts
    case h_1 m _ => exact Except.ok.inj hts ▸ List.cons_ne_nil m []
    case h_2 => cases hts

/-- The read has failed, with a text. -/
def Failed (result : Except JsError (List Incoming)) : Prop :=
  ∃ e, result = .error e ∧ e.message ≠ []

theorem errorOf_eq_some {result : Except JsError (List Incoming)} {p : JsString × JsString} :
    errorOf m result = some p ↔
      ∃ e, result = .error e ∧ e.message ≠ [] ∧ p = (m.id, e.message) := by
  cases result with
  | ok found => simp [errorOf]
  | error e =>
      by_cases hmessage : e.message = []
      · simp [errorOf, hmessage]
      · simp [errorOf, hmessage, eq_comm]

theorem errorOf_isSome {result : Except JsError (List Incoming)} :
    (errorOf m result).isSome ↔ Failed result := by
  rw [Option.isSome_iff_exists]
  constructor
  · rintro ⟨p, hp⟩
    obtain ⟨e, he, hmessage, -⟩ := errorOf_eq_some.mp hp
    exact ⟨e, he, hmessage⟩
  · rintro ⟨e, he, hmessage⟩
    exact ⟨_, errorOf_eq_some.mpr ⟨e, he, hmessage, rfl⟩⟩

/-- The answer of a sweep that not all modems failed. -/
structure Complete (t : Reads) (reads : List (Reader × Read)) (messages : List Incoming)
    (errors : List (JsString × JsString)) : Prop where
  /-- whatever became of the other modems -/
  shown : ∀ r ∈ reads, ∀ found, r.2.result = .ok found →
    found <:+: messages ∧ (∀ x ∈ found, x.modemId = r.1.id) ∧ Stored r.2.before found t.world
  origin : ∀ x ∈ messages, ∃ r ∈ reads, ∃ found, r.2.result = .ok found ∧ x ∈ found ∧
    x.modemId = r.1.id
  errors : ∀ p, p ∈ errors ↔ ∃ r ∈ reads, ∃ e, r.2.result = .error e ∧ e.message ≠ [] ∧
    p = (r.1.id, e.message)

theorem errors_length (reads : List (Reader × Read)) :
    ((reads.map fun r => (r.1, r.2.result)).filterMap fun r => errorOf r.1 r.2).length =
      reads.length ↔ ∀ r ∈ reads, Failed r.2.result := by
  rw [List.filterMap_map, List.filterMap_length_eq_length]
  exact forall₂_congr fun r _ => errorOf_isSome

theorem mem_errors (reads : List (Reader × Read)) (p : JsString × JsString) :
    p ∈ ((reads.map fun r => (r.1, r.2.result)).filterMap fun r => errorOf r.1 r.2) ↔
      ∃ r ∈ reads, ∃ e, r.2.result = .error e ∧ e.message ≠ [] ∧ p = (r.1.id, e.message) := by
  rw [List.filterMap_map, List.mem_filterMap]
  exact exists_congr fun r => and_congr_right fun _ => errorOf_eq_some

theorem infix_flatMap {α β : Type} {f : α → List β} {l : List α} {a : α} (h : a ∈ l) :
    f a <:+: l.flatMap f := by
  obtain ⟨s, u, rfl⟩ := List.append_of_mem h
  exact ⟨s.flatMap f, u.flatMap f, by simp⟩

/-- Any number of reads, on any modems of the pool and at the same time, whatever the modems
answer: once the reads of the targets have ended, the request fails exactly when all of them have
failed, and otherwise the answer has all that was found, from its modem and in the table, and
an error for each modem that failed. -/
theorem sweep_reported {t : Reads} (h : Reachable otherDate rows t) {readers ts : List Reader}
    {modem : Option JsString} (hreaders : readers ≠ []) (hts : targets readers modem = .ok ts)
    {reads : List (Reader × Read)} (hreads : reads.map (·.1) = ts)
    (hended : ∀ r ∈ reads, r.2 ∈ (t.lanes r.1).ended) :
    ∃ a, answer (reads.map fun r => (r.1, r.2.result)) = some a ∧
      ((∃ message errors, a = .failed message errors) ↔ ∀ r ∈ reads, Failed r.2.result) ∧
      ∀ messages errors, a = .success messages errors → Complete t reads messages errors := by
  have hresults : (reads.map fun r => (r.1, r.2.result)).length = reads.length := List.length_map _
  have hfailed := errors_length reads
  have herrors := mem_errors reads
  have hmessages : (reads.map fun r => (r.1, r.2.result)).flatMap (fun r => messagesOf r.2) =
      reads.flatMap fun r => messagesOf r.2.result := List.flatMap_map _ _ _
  unfold answer
  dsimp only
  rw [hresults, hmessages]
  generalize (reads.map fun r => (r.1, r.2.result)).filterMap (fun r => errorOf r.1 r.2) = errors at *
  by_cases hall : ∀ r ∈ reads, Failed r.2.result
  · have hlength := hfailed.mpr hall
    rw [if_pos hlength]
    cases errors with
    | nil =>
        have hnil : reads = [] := List.length_eq_zero_iff.mp hlength.symm
        subst hnil
        exact absurd hreads.symm (targets_ne_nil hreaders hts)
    | cons e errors =>
        refine ⟨.failed e.2 (e :: errors), rfl, ⟨fun _ => hall, fun _ => ⟨_, _, rfl⟩⟩, ?_⟩
        intro messages errors' heq
        cases heq
  · rw [if_neg fun hlength => hall (hfailed.mp hlength)]
    refine ⟨_, rfl, ⟨?_, fun hall' => absurd hall' hall⟩, ?_⟩
    · rintro ⟨message, errors', heq⟩
      cases heq
    · rintro messages errors' heq
      cases heq
      refine ⟨?_, ?_, herrors⟩
      · intro r hr found hfound
        have hwithin : messagesOf r.2.result <:+: reads.flatMap fun r => messagesOf r.2.result :=
          infix_flatMap (f := fun r : Reader × Read => messagesOf r.2.result) hr
        rw [hfound] at hwithin
        exact ⟨hwithin, reported_of_ended h (hended r hr) found hfound⟩
      · intro x hx
        obtain ⟨r, hr, hxr⟩ := List.mem_flatMap.mp hx
        cases hfound : r.2.result with
        | error e =>
            rw [hfound] at hxr
            cases hxr
        | ok found =>
            rw [hfound] at hxr
            exact ⟨r, hr, found, hfound, hxr,
              (reported_of_ended h (hended r hr) found hfound).1 x hxr⟩

end

/-! ## A sweep -/

/-- The first modem has no port, the second one has an SMS. -/
def sim : Reader := .serial (js "sim1")

def app : Reader := .adb (some (js "com.smsbridge")) (js "adb1")

def halfDown : List Reader := [sim, app]

def portClosed : JsError := newError (js "Modem is not connected")

def greetingMessage : Incoming := Adb.Inbox.incoming (js "adb1") (Adb.report Adb.Inbox.greeting)

theorem completes_down (otherDate : Json.JsValue → Except JsError JsString) (rows : List Row) :
    Completes (received sim) rows (fetchAndStore otherDate sim) (.error portClosed) rows :=
  .act (a := .error portClosed) rfl (.done rows (.error portClosed))

theorem completes_greeting (otherDate : Json.JsValue → Except JsError JsString) (rows : List Row)
    (receivedAt : JsString) :
    Completes (received app) rows (fetchAndStore otherDate app) (.ok [greetingMessage])
      (rows ++ insertAll [greetingMessage] receivedAt) := by
  have hread : Adb.readLines otherDate (Adb.arrivedText [(Adb.Inbox.greeting, [])]) =
      [Adb.report Adb.Inbox.greeting] :=
    Adb.readLines_arrived otherDate fun l hl => Or.inl (List.mem_singleton.mp hl ▸ rfl)
  have hadb (args : List JsString) (out : JsString) (rows : List Row) :
      Completes (received app) rows ((Adb.adb args).catchError fun _ => return []) (.ok out) rows :=
    Completes.catchError (.act (a := .ok out) rfl (.done rows (.ok out)))
  show Completes _ _ (Adb.Inbox.fetchAndStore otherDate (some (js "com.smsbridge")) (js "adb1")) _ _
  unfold Adb.Inbox.fetchAndStore Adb.getMessages
  rw [if_neg (Option.some_ne_none _)]
  simp only [bind_assoc]
  refine Completes.bind (.act (a := true) rfl (.done rows (.ok true))) ?_
  rw [if_neg (by decide)]
  simp only [bind_assoc]
  refine Completes.bind (hadb _ (Adb.arrivedText [(Adb.Inbox.greeting, [])]) rows) ?_
  rw [hread, if_pos ⟨List.cons_ne_nil _ _, trivial⟩]
  simp only [bind_assoc]
  have hsave : adbActs (js "adb1") rows (.persist [Adb.report Adb.Inbox.greeting]) (.ok ())
      (rows ++ insertAll [greetingMessage] receivedAt) := Saves.committed receivedAt
  have hpersist : Completes (received app) rows (Adb.callPersist [Adb.report Adb.Inbox.greeting])
      (.ok ()) (rows ++ insertAll [greetingMessage] receivedAt) := .act hsave (.done _ (.ok ()))
  refine Completes.bind hpersist ?_
  exact Completes.bind (hadb _ [] _) (.done _ (.ok [greetingMessage]))

/-- Both modems are read, and the second one's SMS is answered and stored. -/
theorem sweep_reported_halfDown : ∃ (t : Reads) (reads : List (Reader × Read)),
    Reachable (fun _ => .ok []) [] t ∧ reads.map (·.1) = halfDown ∧
      (∀ r ∈ reads, r.2 ∈ (t.lanes r.1).ended) ∧
      ∃ messages errors, answer (reads.map fun r => (r.1, r.2.result)) =
          some (.success messages errors) ∧
        Complete t reads messages errors ∧ greetingMessage ∈ messages := by
  have hstart : Reachable (fun _ => .ok []) [] ⟨[], fun _ => ⟨[], none, []⟩⟩ := .start
  obtain ⟨t₁, ht₁, -, hdown, hothers₁⟩ := hstart.call (i := sim) rfl 0
    (completes_down (fun _ => .ok []) [])
  obtain ⟨t₂, ht₂, -, hup, hothers₂⟩ := ht₁.call (hothers₁ app nofun) 0
    (completes_greeting (fun _ => .ok []) t₁.world (js "2024-05-01T10:00:00.000Z"))
  have hfirst : ∃ e ∈ (t₂.lanes sim).ended, e.result = .error portClosed := by
    rw [hothers₂ sim nofun, hdown]
    exact ⟨_, List.mem_singleton_self _, rfl⟩
  have hsecond : ∃ e ∈ (t₂.lanes app).ended, e.result = .ok [greetingMessage] := by
    rw [hup]
    exact ⟨_, List.mem_singleton_self _, rfl⟩
  obtain ⟨e₁, he₁, hresult₁⟩ := hfirst
  obtain ⟨e₂, he₂, hresult₂⟩ := hsecond
  have hended : ∀ r ∈ [(sim, e₁), (app, e₂)], r.2 ∈ (t₂.lanes r.1).ended := by
    intro r hr
    rcases List.mem_pair.mp hr with rfl | rfl
    · exact he₁
    · exact he₂
  have htargets : targets halfDown none = .ok halfDown := rfl
  obtain ⟨a, ha, -, hcomplete⟩ := sweep_reported ht₂ (List.cons_ne_nil _ _) htargets rfl hended
  have hanswer : answer ([(sim, e₁), (app, e₂)].map fun r => (r.1, r.2.result)) =
      some (.success [greetingMessage] [(js "sim1", portClosed.message)]) := by
    simp only [List.map, hresult₁, hresult₂]
    rfl
  obtain rfl := Option.some.inj (ha.symm.trans hanswer)
  exact ⟨t₂, _, ht₂, rfl, hended, _, _, hanswer, hcomplete _ _ rfl, List.mem_singleton_self _⟩

end SmsGateway.Router.Messages
