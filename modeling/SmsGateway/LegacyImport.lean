import SmsGateway.Json
import SmsGateway.LogStore
import SmsGateway.Lib.Keyed
import SmsGateway.Lib.Runs

/-!
# The import of the legacy log

`migrateLegacyLog` of `store/db.js`, one access to the disk at a time, in processes that may
end at any point. A transaction that has not been committed leaves nothing behind, and a
rename happens or does not.
-/

namespace SmsGateway.LegacyImport

open Json LogStore
open Lib

/-! ## Entries -/

/-- A field as the database binds it: a string, or NULL for null and a missing one. -/
def column (entry : JsValue) (key : JsString) : Option JsString :=
  match prop entry key with
  | .ok (.str s) => some s
  | _ => none

/-- `field || other`. -/
def orOther (field : Option JsString) (other : JsString) : JsString :=
  match field with
  | some s => if s = [] then other else s
  | none => other

/-- The id of an entry; `!row || !row.id` are junk. -/
def entryId (entry : JsValue) : Option JsString :=
  if truthy entry then
    match column entry (js "id") with
    | some id => if id = [] then none else some id
    | none => none
  else none

/-- What `insert` is run with; `now` is the time of the import. -/
def rowOf (now id : JsString) (entry : JsValue) : Row :=
  { id
    timestamp := orOther (column entry (js "timestamp")) now
    recipient := orOther (column entry (js "to")) []
    message := orOther (column entry (js "message")) []
    projectName := column entry (js "projectName")
    ip := column entry (js "ip")
    status := orOther (column entry (js "status")) (js "unknown")
    error := column entry (js "error")
    sentAt := column entry (js "sentAt")
    reference := column entry (js "reference")
    modemId := none
    clientRef := none
    callbackUrl := none }

/-- `INSERT OR IGNORE`. -/
def insertOrIgnore (rows : List Row) (row : Row) : List Row :=
  match getLog rows row.id with
  | some _ => rows
  | none => rows ++ [row]

/-- One turn of the loop in `importAll`. -/
def importEntry (now : JsString) (rows : List Row) (entry : JsValue) : List Row :=
  match entryId entry with
  | some id => insertOrIgnore rows (rowOf now id entry)
  | none => rows

/-! ## Processes -/

/-- How far a process has come. -/
inductive Phase where
  /-- before the count of the rows -/
  | begun
  /-- the table is empty and the file is there -/
  | reading
  /-- inside the transaction -/
  | importing (rows : List Row) (entries : List JsValue)
  /-- before the rename -/
  | committed
  | completed

/-- The table, the content of `sent.json` until it is renamed, and the process, if one is up. -/
structure World where
  table : List Row
  file : Option JsString
  process : Option Phase

inductive Event where
  | start
  /-- the process goes on with `migrateLegacyLog`, at a time -/
  | advance (now : JsString)
  | crash
  /-- a send is logged -/
  | send (entry : Row)

def advance (w : World) (now : JsString) : Phase → World
  | .begun =>
      if w.table.length > 0 ∨ w.file = none then { w with process := some .completed }
      else { w with process := some .reading }
  | .reading =>
      match w.file.bind parse with
      | some (.arr (entry :: entries)) =>
          { w with process := some (.importing w.table (entry :: entries)) }
      | _ => { w with process := some .completed }
  | .importing rows (entry :: entries) =>
      { w with process := some (.importing (importEntry now rows entry) entries) }
  | .importing rows [] => { w with table := rows, process := some .committed }
  | .committed => { w with file := none, process := some .completed }
  | .completed => w

def step (w : World) : Event → Option World
  | .start =>
      match w.process with
      | none => some { w with process := some .begun }
      | some _ => none
  | .advance now => w.process.map (advance w now)
  | .crash =>
      match w.process with
      | none => none
      | some _ => some { w with process := none }
  | .send entry =>
      match w.process with
      | some .completed => some { w with table := (appendLog w.table entry).2 }
      | _ => none

/-- An empty table, and the log of the old version. -/
def fresh (text : JsString) : World := ⟨[], some text, none⟩

/-! ## What the import leaves -/

/-- The fields that are read of an entry. -/
def fields : List JsString :=
  [js "id", js "timestamp", js "to", js "message", js "projectName", js "ip", js "status",
    js "error", js "sentAt", js "reference"]

/-- A field with a string or null, or none at all. -/
def isTextField (entry : JsValue) (key : JsString) : Bool :=
  match prop entry key with
  | .ok .undefined => true
  | .ok .null => true
  | .ok (.str _) => true
  | .ok _ => false
  | .error _ => true

/-- The text of a log: an array of entries whose fields are strings or null. -/
structure LegacyLog (text : JsString) (entries : List JsValue) : Prop where
  array : parse text = some (.arr entries)
  texts : ∀ entry ∈ entries, ∀ key ∈ fields, isTextField entry key = true

/-- The row of the first entry with an id, imported at some time. -/
def FirstRow (times : JsString → Prop) (entries : List JsValue) (id : JsString) (row : Row) : Prop :=
  ∃ entry now, entries.find? (fun e => entryId e == some id) = some entry ∧ times now ∧
    row = rowOf now id entry

/-- Of every id in the entries the table has exactly one row, that of its first entry. -/
structure Imported (times : JsString → Prop) (entries : List JsValue) (table : List Row) : Prop where
  distinct : (table.map (·.id)).Nodup
  each : ∀ id, (∃ entry ∈ entries, entryId entry = some id) →
    ∃ row ∈ table, FirstRow times entries id row

theorem insertOrIgnore_cases (rows : List Row) (row : Row) :
    (insertOrIgnore rows row = rows ∧ ∃ r ∈ rows, r.id = row.id) ∨
      (insertOrIgnore rows row = rows ++ [row] ∧ ∀ r ∈ rows, r.id ≠ row.id) := by
  unfold insertOrIgnore
  cases h : getLog rows row.id with
  | some r => exact Or.inl ⟨rfl, r, List.mem_of_find?_eq_some h, getLog_id h⟩
  | none => exact Or.inr ⟨rfl, getLog_none h⟩

section

variable {T : JsString → Prop} {entries taken todo : List JsValue} {rows table : List Row}
  {id now : JsString} {row : Row}

theorem FirstRow.id_eq (h : FirstRow T entries id row) : row.id = id := by
  obtain ⟨entry, now, -, -, rfl⟩ := h
  rfl

theorem FirstRow.append (h : FirstRow T taken id row) (more : List JsValue) :
    FirstRow T (taken ++ more) id row := by
  obtain ⟨entry, now, hfind, hnow, hrow⟩ := h
  refine ⟨entry, now, ?_, hnow, hrow⟩
  rw [List.find?_append, hfind]
  rfl

/-- What the transaction has after some entries. -/
structure Taken (T : JsString → Prop) (taken : List JsValue) (rows : List Row) : Prop where
  imported : Imported T taken rows
  origin : ∀ row ∈ rows, ∃ entry ∈ taken, entryId entry = some row.id

theorem taken_nil (T : JsString → Prop) : Taken T [] [] :=
  ⟨⟨List.nodup_nil, by simp⟩, by simp⟩

theorem taken_skip {entry : JsValue} (h : Taken T taken rows)
    (hskip : ∀ id, entryId entry = some id → ∃ row ∈ rows, row.id = id) :
    Taken T (taken ++ [entry]) rows := by
  have hfirst : ∀ id, (∃ e ∈ taken, entryId e = some id) →
      ∃ row ∈ rows, FirstRow T (taken ++ [entry]) id row := by
    intro id hid
    obtain ⟨row, hrow, hr⟩ := h.imported.each id hid
    exact ⟨row, hrow, hr.append _⟩
  refine ⟨⟨h.imported.distinct, ?_⟩, ?_⟩
  · rintro id ⟨e, he, hid⟩
    rcases List.mem_append.mp he with he | he
    · exact hfirst id ⟨e, he, hid⟩
    · rw [List.mem_singleton.mp he] at hid
      obtain ⟨row, hrow, rfl⟩ := hskip id hid
      exact hfirst row.id (h.origin row hrow)
  · intro row hrow
    obtain ⟨e, he, hid⟩ := h.origin row hrow
    exact ⟨e, List.mem_append_left _ he, hid⟩

theorem taken_insert {entry : JsValue} (h : Taken T taken rows) (hnow : T now)
    (hid : entryId entry = some id) (hnew : ∀ r ∈ rows, r.id ≠ id) :
    Taken T (taken ++ [entry]) (rows ++ [rowOf now id entry]) := by
  have hnone : taken.find? (fun e => entryId e == some id) = none := by
    apply List.find?_eq_none.mpr
    intro e he heq
    obtain ⟨row, hrow, hr⟩ := h.imported.each id ⟨e, he, by simpa using heq⟩
    exact hnew row hrow hr.id_eq
  refine ⟨⟨?_, ?_⟩, ?_⟩
  · exact Keyed.nodup_append h.imported.distinct hnew
  · rintro i ⟨e, he, hi⟩
    rcases List.mem_append.mp he with he | he
    · obtain ⟨row, hrow, hr⟩ := h.imported.each i ⟨e, he, hi⟩
      exact ⟨row, List.mem_append_left _ hrow, hr.append _⟩
    · rw [List.mem_singleton.mp he] at hi
      obtain rfl : id = i := Option.some.inj (hid.symm.trans hi)
      refine ⟨rowOf now id entry, by simp, entry, now, ?_, hnow, rfl⟩
      rw [List.find?_append, hnone]
      simp [hid]
  · intro row hrow
    rcases List.mem_append.mp hrow with hrow | hrow
    · obtain ⟨e, he, hi⟩ := h.origin row hrow
      exact ⟨e, List.mem_append_left _ he, hi⟩
    · rw [List.mem_singleton.mp hrow]
      exact ⟨entry, by simp, hid⟩

theorem taken_importEntry (h : Taken T taken rows) (hnow : T now) (entry : JsValue) :
    Taken T (taken ++ [entry]) (importEntry now rows entry) := by
  unfold importEntry
  cases hid : entryId entry with
  | none => exact taken_skip h fun id he => by rw [hid] at he; cases he
  | some id =>
      rcases insertOrIgnore_cases rows (rowOf now id entry) with ⟨hins, r, hr, hrid⟩ | ⟨hins, hnew⟩
      · simp only [hins]
        refine taken_skip h ?_
        intro i hi
        obtain rfl : id = i := Option.some.inj (hid.symm.trans hi)
        exact ⟨r, hr, hrid⟩
      · simp only [hins]
        exact taken_insert h hnow hid hnew

/-- A row with another id leaves the import as it is. -/
theorem imported_append (h : Imported T entries table) (hnew : ∀ r ∈ table, r.id ≠ row.id) :
    Imported T entries (table ++ [row]) := by
  constructor
  · exact Keyed.nodup_append h.distinct hnew
  · intro id hid
    obtain ⟨r, hr, hfirst⟩ := h.each id hid
    exact ⟨r, List.mem_append_left _ hr, hfirst⟩

end

/-! ## Runs -/

/-- Nothing is left for a start to import. -/
def Settled (entries : List JsValue) (w : World) : Prop :=
  w.table ≠ [] ∨ w.file = none ∨ entries = []

/-- Before the import the table is empty and the file is there. -/
def Untouched (text : JsString) (w : World) : Prop := w.table = [] ∧ w.file = some text

/-- What the disk has at each point of a process. -/
def Stands (T : JsString → Prop) (text : JsString) (entries : List JsValue) (w : World) :
    Option Phase → Prop
  | none => Untouched text w ∨ Imported T entries w.table
  | some .begun => Untouched text w ∨ Imported T entries w.table
  | some .reading => Untouched text w
  | some (.importing rows todo) => Untouched text w ∧ entries ≠ [] ∧
      ∃ taken, taken ++ todo = entries ∧ Taken T taken rows
  | some .committed => Imported T entries w.table
  | some .completed => Imported T entries w.table ∧ Settled entries w

/-- The states that starts and crashes lead to. -/
structure Fits (T : JsString → Prop) (text : JsString) (entries : List JsValue) (w : World) :
    Prop where
  file : w.file = some text ∨ w.file = none
  stands : Stands T text entries w w.process

/-- What a start may do once another one has completed. -/
def Idle (entries : List JsValue) : Option Phase → Prop
  | some .reading => entries = []
  | some (.importing _ _) => False
  | some .committed => False
  | _ => True

/-- The states behind a completed start: there is nothing left to import. -/
structure Stays (T : JsString → Prop) (text : JsString) (entries : List JsValue) (w : World) :
    Prop where
  file : w.file = some text ∨ w.file = none
  imported : Imported T entries w.table
  settled : Settled entries w
  idle : Idle entries w.process

section

variable {T : JsString → Prop} {text : JsString} {entries : List JsValue} {w w' : World}

theorem step_start (h : step w .start = some w') :
    w.process = none ∧ w' = { w with process := some .begun } := by
  rw [step] at h
  split at h
  · rename_i hp
    exact ⟨hp, (Option.some.inj h).symm⟩
  · cases h

theorem step_advance {now : JsString} (h : step w (.advance now) = some w') :
    ∃ phase, w.process = some phase ∧ w' = advance w now phase := by
  obtain ⟨phase, hphase, hw⟩ := Option.map_eq_some_iff.mp h
  exact ⟨phase, hphase, hw.symm⟩

theorem step_crash (h : step w .crash = some w') :
    (∃ phase, w.process = some phase) ∧ w' = { w with process := none } := by
  rw [step] at h
  split at h
  · cases h
  · rename_i phase hp
    exact ⟨⟨phase, hp⟩, (Option.some.inj h).symm⟩

theorem step_send {row : Row} (h : step w (.send row) = some w') :
    w.process = some .completed ∧ w' = { w with table := (appendLog w.table row).2 } := by
  rw [step] at h
  split at h
  · rename_i hp
    exact ⟨hp, (Option.some.inj h).symm⟩
  · cases h

/-- Whatever a process was doing, its end leaves one of two disks. -/
theorem untouched_or_imported {p : Option Phase} (h : Stands T text entries w p) :
    Untouched text w ∨ Imported T entries w.table := by
  cases p with
  | none => exact h
  | some phase =>
      cases phase with
      | begun => exact h
      | reading => exact Or.inl h
      | importing rows todo => exact Or.inl h.1
      | committed => exact Or.inr h
      | completed => exact Or.inr h.1

theorem appendLog_cases (table : List Row) (row : Row) :
    (appendLog table row).2 = table ∨
      ((appendLog table row).2 = table ++ [row] ∧ ∀ r ∈ table, r.id ≠ row.id) := by
  unfold appendLog
  cases h : getLog table row.id with
  | some r => exact Or.inl rfl
  | none => exact Or.inr ⟨rfl, getLog_none h⟩

theorem imported_send (h : Imported T entries w.table) (hs : Settled entries w) (row : Row) :
    Imported T entries (appendLog w.table row).2 ∧
      Settled entries { w with table := (appendLog w.table row).2 } := by
  rcases appendLog_cases w.table row with heq | ⟨heq, hnew⟩
  · rw [heq]
    exact ⟨h, hs⟩
  · rw [heq]
    exact ⟨imported_append h hnew, Or.inl (by simp)⟩

theorem fits_advance (hlog : LegacyLog text entries) (h : Fits T text entries w) {now : JsString}
    (hnow : T now) {phase : Phase} (hphase : w.process = some phase) :
    Fits T text entries (advance w now phase) := by
  have hstands := h.stands
  rw [hphase] at hstands
  cases phase with
  | begun =>
      rw [advance]
      split
      · rename_i hskip
        refine ⟨h.file, ?_⟩
        rcases hstands with ⟨htable, hfile⟩ | himported
        · simp [htable, hfile] at hskip
        · refine ⟨himported, ?_⟩
          rcases hskip with hpos | hnone
          · exact Or.inl (List.ne_nil_of_length_pos hpos)
          · exact Or.inr (Or.inl hnone)
      · rename_i hgo
        rw [not_or] at hgo
        have htable : w.table = [] := List.eq_nil_of_length_eq_zero (by omega)
        exact ⟨h.file, htable, h.file.resolve_right hgo.2⟩
  | reading =>
      have huntouched : Untouched text w := hstands
      have hparse : w.file.bind parse = some (.arr entries) := by
        rw [huntouched.2]
        exact hlog.array
      rw [advance, hparse]
      cases entries with
      | nil =>
          refine ⟨h.file, ?_, Or.inr (Or.inr rfl)⟩
          rw [huntouched.1]
          exact (taken_nil T).imported
      | cons entry rest =>
          refine ⟨h.file, huntouched, List.cons_ne_nil _ _, [], rfl, ?_⟩
          rw [huntouched.1]
          exact taken_nil T
  | importing rows todo =>
      obtain ⟨huntouched, hne, taken, htaken, hrows⟩ := hstands
      cases todo with
      | nil =>
          rw [List.append_nil] at htaken
          subst htaken
          exact ⟨h.file, hrows.imported⟩
      | cons entry todo =>
          exact ⟨h.file, huntouched, hne, taken ++ [entry], by simpa using htaken,
            taken_importEntry hrows hnow entry⟩
  | committed => exact ⟨Or.inr rfl, hstands, Or.inr (Or.inl rfl)⟩
  | completed => exact h

theorem fits_step (hlog : LegacyLog text entries) (h : Fits T text entries w) {e : Event}
    (he : ∀ now, e = .advance now → T now) (hstep : step w e = some w') :
    Fits T text entries w' := by
  cases e with
  | start =>
      obtain ⟨-, rfl⟩ := step_start hstep
      exact ⟨h.file, untouched_or_imported h.stands⟩
  | advance now =>
      obtain ⟨phase, hp, rfl⟩ := step_advance hstep
      exact fits_advance hlog h (he now rfl) hp
  | crash =>
      obtain ⟨-, rfl⟩ := step_crash hstep
      exact ⟨h.file, untouched_or_imported h.stands⟩
  | send row =>
      obtain ⟨hp, rfl⟩ := step_send hstep
      have hstands := h.stands
      rw [hp] at hstands
      refine ⟨h.file, ?_⟩
      dsimp only
      rw [hp]
      exact imported_send hstands.1 hstands.2 row

theorem stays_advance (hlog : LegacyLog text entries) (h : Stays T text entries w) (now : JsString)
    {phase : Phase} (hphase : w.process = some phase) :
    Stays T text entries (advance w now phase) ∧ (advance w now phase).table = w.table := by
  have hidle := h.idle
  rw [hphase] at hidle
  cases phase with
  | begun =>
      rw [advance]
      split
      · exact ⟨⟨h.file, h.imported, h.settled, trivial⟩, rfl⟩
      · rename_i hgo
        rw [not_or] at hgo
        have htable : w.table = [] := List.eq_nil_of_length_eq_zero (by omega)
        have hempty : entries = [] := by
          rcases h.settled with hne | hnone | hnil
          · exact absurd htable hne
          · exact absurd hnone hgo.2
          · exact hnil
        exact ⟨⟨h.file, h.imported, h.settled, hempty⟩, rfl⟩
  | reading =>
      have hnil : entries = [] := hidle
      have hparse : w.file.bind parse = some (.arr []) ∨ w.file.bind parse = none := by
        rcases h.file with hfile | hfile
        · rw [hfile, ← hnil]
          exact Or.inl hlog.array
        · rw [hfile]
          exact Or.inr rfl
      rcases hparse with hparse | hparse
      · rw [advance, hparse]
        exact ⟨⟨h.file, h.imported, h.settled, trivial⟩, rfl⟩
      · rw [advance, hparse]
        exact ⟨⟨h.file, h.imported, h.settled, trivial⟩, rfl⟩
  | importing rows todo => exact hidle.elim
  | committed => exact hidle.elim
  | completed => exact ⟨h, rfl⟩

/-- Once a start has completed, only a send changes the table. -/
theorem stays_step (hlog : LegacyLog text entries) (h : Stays T text entries w) {e : Event}
    (hstep : step w e = some w') :
    Stays T text entries w' ∧ ((∀ row, e ≠ .send row) → w'.table = w.table) := by
  cases e with
  | start =>
      obtain ⟨-, rfl⟩ := step_start hstep
      exact ⟨⟨h.file, h.imported, h.settled, trivial⟩, fun _ => rfl⟩
  | advance now =>
      obtain ⟨phase, hp, rfl⟩ := step_advance hstep
      obtain ⟨hstays, htable⟩ := stays_advance hlog h now hp
      exact ⟨hstays, fun _ => htable⟩
  | crash =>
      obtain ⟨-, rfl⟩ := step_crash hstep
      exact ⟨⟨h.file, h.imported, h.settled, trivial⟩, fun _ => rfl⟩
  | send row =>
      obtain ⟨hp, rfl⟩ := step_send hstep
      obtain ⟨himported, hsettled⟩ := imported_send h.imported h.settled row
      refine ⟨⟨h.file, himported, hsettled, ?_⟩, fun hno => absurd rfl (hno row)⟩
      dsimp only
      rw [hp]
      trivial

end

/-- Once a start has completed, there is exactly one row for every id in the log, that of the first
entry with it, imported at some time up to then; and no later start changes the table. -/
theorem import_once {text : JsString} {entries : List JsValue} (hlog : LegacyLog text entries)
    {before later : List Event} {w w' : World}
    (hbefore : Runs.run step (fresh text) before = some w) (hdone : w.process = some .completed)
    (hlater : Runs.run step w later = some w') :
    (∀ id, (∃ entry ∈ entries, entryId entry = some id) →
        ∃ row, w'.table.filter (fun r => r.id == id) = [row] ∧
          FirstRow (fun now => Event.advance now ∈ before) entries id row) ∧
      ∀ e w'', step w' e = some w'' → (∀ row, e ≠ .send row) → w''.table = w'.table := by
  have hstart : Fits (fun now => Event.advance now ∈ before) text entries (fresh text) :=
    ⟨Or.inl rfl, Or.inl ⟨rfl, rfl⟩⟩
  have hfits := Runs.run_induct (P := Fits (fun now => Event.advance now ∈ before) text entries)
    (A := fun e => e ∈ before) (fun _ _ _ h he hstep =>
      fits_step hlog h (fun now hnow => hnow ▸ he) hstep) hstart (fun _ he => he) hbefore
  have hstands := hfits.stands
  rw [hdone] at hstands
  have hstays : Stays (fun now => Event.advance now ∈ before) text entries w := by
    refine ⟨hfits.file, hstands.1, hstands.2, ?_⟩
    rw [hdone]
    trivial
  have hend := Runs.run_induct (P := Stays (fun now => Event.advance now ∈ before) text entries)
    (A := fun _ => True) (fun _ _ _ h _ hstep => (stays_step hlog h hstep).1) hstays
    (fun _ _ => trivial) hlater
  refine ⟨?_, ?_⟩
  · intro id hid
    obtain ⟨row, hrow, hfirst⟩ := hend.imported.each id hid
    refine ⟨row, ?_, hfirst⟩
    have hone := Keyed.filter_key hend.imported.distinct hrow
    rw [hfirst.id_eq] at hone
    exact hone
  · intro e w'' hstep
    exact (stays_step hlog hend hstep).2

/-- Two entries with one id, and junk. -/
def oldLog : JsString :=
  js "[\x7b\"id\":\"a\",\"to\":\"+993\"\x7d,null,\x7b\"id\":\"a\"\x7d]"

def itemsOf : Option JsValue → List JsValue
  | some (.arr items) => items
  | _ => []

def isArray : Option JsValue → Bool
  | some (.arr _) => true
  | _ => false

theorem eq_itemsOf {v : Option JsValue} (h : isArray v = true) : v = some (.arr (itemsOf v)) := by
  unfold isArray at h
  split at h
  · rfl
  · cases h

theorem oldLog_legacy : LegacyLog oldLog (itemsOf (parse oldLog)) :=
  ⟨eq_itemsOf (by decide +kernel), by decide +kernel⟩

/-- A start that dies between the commit and the rename, and the one behind it. -/
def twoStarts : List Event :=
  [.start, .advance (js "12:00"), .advance (js "12:00"), .advance (js "12:00"),
    .advance (js "12:00"), .advance (js "12:00"), .advance (js "12:00"), .crash, .start,
    .advance (js "12:01")]

theorem twoStarts_isSome : (Runs.run step (fresh oldLog) twoStarts).isSome = true := by
  decide +kernel

def isCompleted : Option Phase → Bool
  | some .completed => true
  | _ => false

theorem eq_completed {p : Option Phase} (h : isCompleted p = true) : p = some .completed := by
  unfold isCompleted at h
  split at h
  · rfl
  · cases h

theorem import_once_twoStarts :
    ∃ row, ((Runs.run step (fresh oldLog) twoStarts).get twoStarts_isSome).table.filter
        (fun r => r.id == js "a") = [row] ∧
      FirstRow (fun now => Event.advance now ∈ twoStarts) (itemsOf (parse oldLog)) (js "a") row :=
  (import_once oldLog_legacy (Option.some_get twoStarts_isSome).symm
    (eq_completed (by decide +kernel))
    (rfl : Runs.run step ((Runs.run step (fresh oldLog) twoStarts).get twoStarts_isSome) [] =
      some _)).1 (js "a") (by decide +kernel)

end SmsGateway.LegacyImport
