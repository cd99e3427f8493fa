import SmsGateway.SentTable
import SmsGateway.Lib.Runs

/-!
# The schema of the database

The statements of `store/db.js` that make the tables, or bring those of an older version up to
date, in processes that may end between any two of them. Each statement commits by itself.
-/

namespace SmsGateway.Schema

open Lib

/-! ## Tables -/

inductive TableName where
  | sentMessages
  | receivedMessages
  | ussdRequests
  deriving DecidableEq, Repr

structure Column where
  name : JsString
  /-- declared `NOT NULL` -/
  notNull : Bool
  deriving DecidableEq, Repr

/-- The cells of a row by the names of their columns; `none` is NULL. -/
abbrev Record (V : Type) := JsString → Option V

structure Table (V : Type) where
  columns : List Column
  rows : List (Record V)

def Table.names {V : Type} (t : Table V) : List JsString := t.columns.map (·.name)

structure Database (V : Type) where
  tables : TableName → Option (Table V)
  indexes : List JsString

/-! ## Statements -/

inductive Statement where
  /-- `CREATE TABLE IF NOT EXISTS` -/
  | createTable (table : TableName) (columns : List Column)
  /-- `CREATE INDEX IF NOT EXISTS` -/
  | createIndex (index : JsString) (table : TableName) (columns : List JsString)
  | addColumnIfMissing (table : TableName) (column : Column)

def Statement.table : Statement → TableName
  | .createTable table _ => table
  | .createIndex _ table _ => table
  | .addColumnIfMissing table _ => table

section

variable {V : Type}

def Database.put (db : Database V) (table : TableName) (t : Table V) : Database V :=
  { db with tables := fun n => if n = table then some t else db.tables n }

/-- `ALTER TABLE … ADD COLUMN`: the rows that are there get NULL. -/
def Table.addColumn (t : Table V) (column : Column) : Table V where
  columns := t.columns ++ [column]
  rows := t.rows.map fun r c => if c = column.name then none else r c

/-- A table that does not exist has no columns for the `SELECT`, and cannot be altered. -/
def addColumnIfMissing (db : Database V) (table : TableName) (column : Column) : Option (Database V) :=
  match db.tables table with
  | none => none
  | some t =>
      if t.names.contains column.name then some db
      -- the rows would have NULL in a column that allows none
      else if column.notNull && !t.rows.isEmpty then none
      else some (db.put table (t.addColumn column))

/-- A statement, unless SQLite refuses it. -/
def exec (db : Database V) : Statement → Option (Database V)
  | .createTable table columns =>
      match db.tables table with
      | some _ => some db
      | none => some (db.put table ⟨columns, []⟩)
  | .createIndex index table columns =>
      match db.tables table with
      | none => none
      | some t =>
          if db.indexes.contains index then some db
          else if columns.all t.names.contains then
            some { db with indexes := db.indexes ++ [index] }
          else none
  | .addColumnIfMissing table column => addColumnIfMissing db table column

end

def nullable (name : String) : Column := ⟨js name, false⟩

def required (name : String) : Column := ⟨js name, true⟩

/-- The columns in the `CREATE TABLE` statements. -/
def created : TableName → List Column
  | .sentMessages =>
      [nullable "id", required "timestamp", required "to_number", required "message",
        nullable "project_name", nullable "ip", required "status", nullable "error",
        nullable "sent_at", nullable "reference"]
  | .receivedMessages =>
      [nullable "id", nullable "from_number", nullable "modem_date", nullable "text",
        required "received_at"]
  | .ussdRequests =>
      [nullable "id", required "modem_id", required "kind", required "code", required "status",
        nullable "reply", nullable "error", required "requested_at", nullable "completed_at"]

def statements : List Statement :=
  [.createTable .sentMessages (created .sentMessages),
    .createIndex (js "idx_sent_status") .sentMessages [js "status"],
    .createIndex (js "idx_sent_timestamp") .sentMessages [js "timestamp"],
    .createIndex (js "idx_sent_to") .sentMessages [js "to_number"],
    .createTable .receivedMessages (created .receivedMessages),
    .createIndex (js "idx_recv_from") .receivedMessages [js "from_number"],
    .createIndex (js "idx_recv_received_at") .receivedMessages [js "received_at"],
    .createTable .ussdRequests (created .ussdRequests),
    .createIndex (js "idx_ussd_modem_kind") .ussdRequests
      [js "modem_id", js "kind", js "requested_at"],
    .addColumnIfMissing .sentMessages (nullable "modem_id"),
    .addColumnIfMissing .receivedMessages (nullable "modem_id"),
    .addColumnIfMissing .sentMessages (nullable "client_ref"),
    .addColumnIfMissing .sentMessages (nullable "callback_url")]

/-! ## Processes -/

inductive Phase where
  | migrating (todo : List Statement)
  | completed
  /-- SQLite has refused a statement, which nothing catches -/
  | failed

/-- The database, and the process, if one is up. -/
structure World (V : Type) where
  db : Database V
  process : Option Phase

inductive Event (V : Type) where
  | start
  | advance
  | crash
  /-- the stores write to a table -/
  | write (table : TableName) (rows : List (Record V))

section

variable {V : Type}

def Event.isWrite : Event V → Bool
  | .write _ _ => true
  | _ => false

def advance (w : World V) : Phase → World V
  | .migrating (st :: todo) =>
      match exec w.db st with
      | some db => ⟨db, some (.migrating todo)⟩
      | none => { w with process := some .failed }
  | .migrating [] => { w with process := some .completed }
  | .completed => w
  | .failed => w

def step (w : World V) : Event V → Option (World V)
  | .start =>
      match w.process with
      | none => some { w with process := some (.migrating statements) }
      | some _ => none
  | .advance => w.process.map (advance w)
  | .crash =>
      match w.process with
      | none => none
      | some _ => some { w with process := none }
  | .write table rows =>
      match w.process, w.db.tables table with
      | some .completed, some t => some { w with db := w.db.put table { t with rows } }
      | _, _ => none

/-! ## What a migration leaves -/

/-- The columns that came with later versions. -/
def added : TableName → List Column
  | .sentMessages => [nullable "modem_id", nullable "client_ref", nullable "callback_url"]
  | .receivedMessages => [nullable "modem_id"]
  | .ussdRequests => []

def indexNames : List JsString :=
  [js "idx_sent_status", js "idx_sent_timestamp", js "idx_sent_to", js "idx_recv_from",
    js "idx_recv_received_at", js "idx_ussd_modem_kind"]

/-- A table of some version: the first version's columns, any others, and no other `NOT NULL`. -/
structure Table.Fits (n : TableName) (t : Table V) : Prop where
  distinct : t.names.Nodup
  original : ∀ c ∈ created n, c ∈ t.columns
  required : ∀ c ∈ t.columns, c.notNull = true → c ∈ created n

/-- A database of some version, or of some point between two: tables may be missing, and so may
later columns and any index. -/
def Older (db : Database V) : Prop := ∀ n t, db.tables n = some t → t.Fits n

structure UpToDate (db : Database V) : Prop where
  tables : ∀ n, ∃ t, db.tables n = some t ∧ t.Fits n ∧ ∀ c ∈ added n, c ∈ t.columns
  indexes : ∀ i ∈ indexNames, i ∈ db.indexes

/-- The table has each column that the sent log reads and writes, `NOT NULL` where it takes it
to be. -/
def Table.Serves (t : Table V) : Prop :=
  ∀ c : SentTable.Column, ∃ x ∈ t.columns,
    x.name = c.name ∧ (x.notNull = true ↔ c ∈ SentTable.notNull)

/-- Every row is there with the cells it had, and with NULL in the columns that are new. -/
structure Table.Kept (t t' : Table V) : Prop where
  columns : t.columns <+: t'.columns
  rows : List.Forall₂ (fun r r' : Record V => (∀ c ∈ t.names, r' c = r c) ∧
    ∀ c ∈ t'.names, c ∉ t.names → r' c = none) t.rows t'.rows

structure Kept (db db' : Database V) : Prop where
  tables : ∀ n t, db.tables n = some t → ∃ t', db'.tables n = some t' ∧ t.Kept t'
  indexes : db.indexes ⊆ db'.indexes

end


/-! ## Keeping rows -/

section

variable {V : Type} {db db' db'' : Database V} {t t' t'' : Table V} {n : TableName} {c : Column}

theorem forall₂_compose {α : Type} {R S T : α → α → Prop} {l l' l'' : List α}
    (h : ∀ a b c, R a b → S b c → T a c) (hl : List.Forall₂ R l l')
    (hl' : List.Forall₂ S l' l'') : List.Forall₂ T l l'' := by
  induction hl generalizing l'' with
  | nil =>
      cases hl'
      exact List.Forall₂.nil
  | cons hab _ ih =>
      cases hl' with
      | cons hbc hrest => exact List.Forall₂.cons (h _ _ _ hab hbc) (ih hrest)

theorem Table.Kept.refl (t : Table V) : t.Kept t :=
  ⟨List.prefix_refl _,
    List.forall₂_same.mpr fun _ _ => ⟨fun _ _ => rfl, fun _ hc hnew => absurd hc hnew⟩⟩

theorem Table.Kept.names (h : t.Kept t') : t.names ⊆ t'.names :=
  List.map_subset _ h.columns.subset

theorem Table.Kept.trans (h : t.Kept t') (h' : t'.Kept t'') : t.Kept t'' := by
  refine ⟨h.columns.trans h'.columns, forall₂_compose ?_ h.rows h'.rows⟩
  intro r r' r'' hr hr'
  constructor
  · intro c hc
    rw [hr'.1 c (h.names hc), hr.1 c hc]
  · intro c hc hnew
    by_cases hmid : c ∈ t'.names
    · rw [hr'.1 c hmid, hr.2 c hmid hnew]
    · exact hr'.2 c hc hmid

theorem Kept.refl (db : Database V) : Kept db db :=
  ⟨fun _ t ht => ⟨t, ht, Table.Kept.refl t⟩, List.Subset.refl _⟩

theorem Kept.trans (h : Kept db db') (h' : Kept db' db'') : Kept db db'' := by
  refine ⟨?_, List.Subset.trans h.indexes h'.indexes⟩
  intro n t ht
  obtain ⟨t', ht', hkept⟩ := h.tables n t ht
  obtain ⟨t'', ht'', hkept'⟩ := h'.tables n t' ht'
  exact ⟨t'', ht'', hkept.trans hkept'⟩

@[simp] theorem put_self (db : Database V) (n : TableName) (t : Table V) :
    (db.put n t).tables n = some t :=
  if_pos rfl

theorem put_other {m : TableName} (h : m ≠ n) (t : Table V) : (db.put n t).tables m = db.tables m :=
  if_neg h

theorem kept_put (h : ∀ t, db.tables n = some t → t.Kept t') : Kept db (db.put n t') := by
  refine ⟨?_, List.Subset.refl _⟩
  intro m t ht
  by_cases hm : m = n
  · subst hm
    exact ⟨t', put_self db m t', h t ht⟩
  · exact ⟨t, (put_other hm t').trans ht, Table.Kept.refl t⟩

theorem older_put (h : Older db) (ht : t.Fits n) : Older (db.put n t) := by
  intro m t' ht'
  by_cases hm : m = n
  · subst hm
    rw [put_self] at ht'
    exact Option.some.inj ht' ▸ ht
  · exact h m t' ((put_other hm t).symm.trans ht')

theorem names_addColumn (t : Table V) (c : Column) : (t.addColumn c).names = t.names ++ [c.name] :=
  List.map_append

theorem kept_addColumn (h : c.name ∉ t.names) : t.Kept (t.addColumn c) := by
  refine ⟨List.prefix_append _ _, List.forall₂_map_right_iff.mpr (List.forall₂_same.mpr ?_)⟩
  intro r _
  constructor
  · intro d hd
    have hne : d ≠ c.name := fun heq => h (heq ▸ hd)
    exact if_neg hne
  · intro d hd hnew
    rw [names_addColumn, List.mem_append, List.mem_singleton] at hd
    exact if_pos (hd.resolve_left hnew)

/-! ## Tables of this version -/

theorem created_distinct (n : TableName) : ((created n).map (·.name)).Nodup := by
  cases n <;> decide +kernel

theorem added_nullable (n : TableName) : ∀ c ∈ added n, c.notNull = false := by
  cases n <;> decide

theorem added_other (n : TableName) : ∀ c ∈ added n, ∀ d ∈ created n, d.name ≠ c.name := by
  cases n <;> decide +kernel

theorem fits_created (n : TableName) (rows : List (Record V)) : Table.Fits n ⟨created n, rows⟩ :=
  ⟨created_distinct n, fun _ hc => hc, fun _ hc _ => hc⟩

theorem Table.Fits.addColumn (h : t.Fits n) (hc : c ∈ added n) (hnew : c.name ∉ t.names) :
    (t.addColumn c).Fits n := by
  refine ⟨?_, ?_, ?_⟩
  · rw [names_addColumn]
    refine h.distinct.append (List.nodup_singleton _) ?_
    intro d hd hd'
    exact hnew (List.mem_singleton.mp hd' ▸ hd)
  · intro d hd
    exact List.mem_append_left _ (h.original d hd)
  · intro d hd hrequired
    rcases List.mem_append.mp hd with hd | hd
    · exact h.required d hd hrequired
    · rw [List.mem_singleton.mp hd, added_nullable n c hc] at hrequired
      cases hrequired

/-- A column that goes by the name of a later one is that column. -/
theorem Table.Fits.mem_columns (h : t.Fits n) (hc : c ∈ added n) (hname : c.name ∈ t.names) :
    c ∈ t.columns := by
  obtain ⟨d, hd, hdc⟩ := List.mem_map.mp hname
  have hnullable : d.notNull = c.notNull := by
    rw [added_nullable n c hc]
    by_contra hne
    have hcreated := h.required d hd (Bool.eq_true_of_not_eq_false hne)
    exact added_other n c hc d hcreated hdc
  obtain rfl : d = c := by
    cases d
    cases c
    cases hdc
    cases hnullable
    rfl
  exact hd

theorem Table.Fits.mem_names (h : t.Fits n) {name : JsString}
    (hname : name ∈ (created n).map (·.name)) : name ∈ t.names := by
  obtain ⟨d, hd, rfl⟩ := List.mem_map.mp hname
  exact List.mem_map_of_mem (h.original d hd)

theorem sentColumns (c : SentTable.Column) :
    ∃ x ∈ created .sentMessages ++ added .sentMessages,
      x.name = c.name ∧ (x.notNull = true ↔ c ∈ SentTable.notNull) := by
  cases c <;> decide +kernel

/-! ## One statement -/

/-- The statement has nothing left to do. -/
def Holds (db : Database V) : Statement → Prop
  | .createTable n _ => db.tables n ≠ none
  | .createIndex index _ _ => index ∈ db.indexes
  | .addColumnIfMissing n c => ∃ t, db.tables n = some t ∧ c.name ∈ t.names

/-- The statement can be run where these tables are. -/
def Statement.Sound (ns : List TableName) : Statement → Prop
  | .createTable n columns => columns = created n
  | .createIndex _ n columns => n ∈ ns ∧ ∀ c ∈ columns, c ∈ (created n).map (·.name)
  | .addColumnIfMissing n column => n ∈ ns ∧ column ∈ added n

/-- What a statement does. -/
structure Does (db : Database V) (st : Statement) (db' : Database V) : Prop where
  older : Older db'
  kept : Kept db db'
  holds : Holds db' st
  again : Holds db st → db' = db

theorem exec_createTable (hdb : Older db) (n : TableName) :
    ∃ db', exec db (.createTable n (created n)) = some db' ∧
      Does db (.createTable n (created n)) db' := by
  cases ht : db.tables n with
  | some t =>
      have hholds : Holds db (.createTable n (created n)) := by
        intro hnone
        rw [ht] at hnone
        cases hnone
      exact ⟨db, by rw [exec, ht], hdb, Kept.refl db, hholds, fun _ => rfl⟩
  | none =>
      refine ⟨db.put n ⟨created n, []⟩, by rw [exec, ht], older_put hdb (fits_created n []),
        ?_, ?_, ?_⟩
      · refine kept_put fun t ht' => ?_
        rw [ht] at ht'
        cases ht'
      · intro hnone
        rw [put_self] at hnone
        cases hnone
      · exact fun hholds => absurd ht hholds

theorem exec_createIndex (hdb : Older db) (ht : db.tables n = some t) {index : JsString}
    {columns : List JsString} (hcolumns : ∀ c ∈ columns, c ∈ (created n).map (·.name)) :
    ∃ db', exec db (.createIndex index n columns) = some db' ∧
      Does db (.createIndex index n columns) db' := by
  by_cases hindex : index ∈ db.indexes
  · refine ⟨db, ?_, hdb, Kept.refl db, hindex, fun _ => rfl⟩
    simp only [exec, ht, List.contains_iff_mem, hindex, if_true]
  · have hall : columns.all t.names.contains = true := by
      refine List.all_eq_true.mpr fun c hc => ?_
      exact List.contains_iff_mem.mpr ((hdb n t ht).mem_names (hcolumns c hc))
    refine ⟨{ db with indexes := db.indexes ++ [index] }, ?_, hdb, ?_, ?_, ?_⟩
    · simp only [exec, ht, List.contains_iff_mem, hindex, if_false, hall, if_true]
    · exact ⟨(Kept.refl db).tables, List.subset_append_left _ _⟩
    · exact List.mem_append_right _ (List.mem_singleton_self index)
    · exact fun hholds => absurd hholds hindex

theorem exec_addColumn (hdb : Older db) (ht : db.tables n = some t) (hc : c ∈ added n) :
    ∃ db', exec db (.addColumnIfMissing n c) = some db' ∧ Does db (.addColumnIfMissing n c) db' := by
  by_cases hname : c.name ∈ t.names
  · refine ⟨db, ?_, hdb, Kept.refl db, ⟨t, ht, hname⟩, fun _ => rfl⟩
    simp only [exec, addColumnIfMissing, ht, List.contains_iff_mem, hname, if_true]
  · have hfits := (hdb n t ht).addColumn hc hname
    refine ⟨db.put n (t.addColumn c), ?_, older_put hdb hfits, ?_, ?_, ?_⟩
    · simp only [exec, addColumnIfMissing, ht, List.contains_iff_mem, hname, added_nullable n c hc,
        Bool.false_and, if_false, Bool.false_eq_true]
    · refine kept_put fun t₀ ht₀ => ?_
      obtain rfl := Option.some.inj (ht.symm.trans ht₀)
      exact kept_addColumn hname
    · refine ⟨t.addColumn c, put_self db n _, ?_⟩
      rw [names_addColumn]
      exact List.mem_append_right _ (List.mem_singleton_self c.name)
    · rintro ⟨t₀, ht₀, hname₀⟩
      obtain rfl := Option.some.inj (ht.symm.trans ht₀)
      exact absurd hname₀ hname

theorem exec_sound {ns : List TableName} {st : Statement} (hdb : Older db)
    (hns : ∀ n ∈ ns, db.tables n ≠ none) (hst : st.Sound ns) :
    ∃ db', exec db st = some db' ∧ Does db st db' := by
  cases st with
  | createTable n columns =>
      obtain rfl : columns = created n := hst
      exact exec_createTable hdb n
  | createIndex index n columns =>
      obtain ⟨t, ht⟩ := Option.ne_none_iff_exists'.mp (hns n hst.1)
      exact exec_createIndex hdb ht hst.2
  | addColumnIfMissing n c =>
      obtain ⟨t, ht⟩ := Option.ne_none_iff_exists'.mp (hns n hst.1)
      exact exec_addColumn hdb ht hst.2

end

/-! ## The list of statements -/

/-- Each statement comes behind the tables it needs. -/
def Ordered (ns : List TableName) : List Statement → Prop
  | [] => True
  | st :: todo => st.Sound ns ∧ Ordered (st.table :: ns) todo

theorem ordered_statements : Ordered [] statements := by
  simp [Ordered, statements, Statement.Sound, Statement.table, created, added, required, nullable]

theorem createTable_mem (n : TableName) : .createTable n (created n) ∈ statements := by
  cases n <;> simp [statements]

theorem addColumn_mem {n : TableName} {c : Column} (hc : c ∈ added n) :
    .addColumnIfMissing n c ∈ statements := by
  cases n <;> simp only [added, List.mem_cons, List.not_mem_nil, or_false] at hc
  · rcases hc with rfl | rfl | rfl <;> simp [statements]
  · rw [hc]
    simp [statements]

theorem added_of_mem {n : TableName} {c : Column} (h : .addColumnIfMissing n c ∈ statements) :
    c ∈ added n := by
  simp only [statements, List.mem_cons, reduceCtorEq, Statement.addColumnIfMissing.injEq, false_or,
    List.not_mem_nil, or_false] at h
  rcases h with ⟨rfl, rfl⟩ | ⟨rfl, rfl⟩ | ⟨rfl, rfl⟩ | ⟨rfl, rfl⟩ <;> simp [added]

theorem createIndex_iff (index : JsString) :
    (∃ n columns, .createIndex index n columns ∈ statements) ↔ index ∈ indexNames := by
  simp [statements, indexNames, exists_or]

/-! ## Processes -/

section

variable {V : Type} {db db' : Database V} {w w' : World V}

/-- Tables keep their columns, and indexes stay. -/
structure Grows (db db' : Database V) : Prop where
  tables : ∀ n t, db.tables n = some t → ∃ t', db'.tables n = some t' ∧ t.names ⊆ t'.names
  indexes : db.indexes ⊆ db'.indexes

theorem Kept.grows (h : Kept db db') : Grows db db' := by
  refine ⟨?_, h.indexes⟩
  intro n t ht
  obtain ⟨t', ht', hkept⟩ := h.tables n t ht
  exact ⟨t', ht', hkept.names⟩

theorem Grows.tables_ne (h : Grows db db') {n : TableName} (hn : db.tables n ≠ none) :
    db'.tables n ≠ none := by
  obtain ⟨t, ht⟩ := Option.ne_none_iff_exists'.mp hn
  obtain ⟨t', ht', -⟩ := h.tables n t ht
  exact Option.ne_none_iff_exists'.mpr ⟨t', ht'⟩

theorem Holds.grows {st : Statement} (h : Holds db st) (hgrows : Grows db db') : Holds db' st := by
  cases st with
  | createTable n columns => exact hgrows.tables_ne h
  | createIndex index n columns => exact hgrows.indexes h
  | addColumnIfMissing n c =>
      obtain ⟨t, ht, hname⟩ := h
      obtain ⟨t', ht', hnames⟩ := hgrows.tables n t ht
      exact ⟨t', ht', hnames hname⟩

/-- What a process has run stays done, and it can run the rest. -/
structure Underway (db : Database V) (todo : List Statement) : Prop where
  past : ∃ past, past ++ todo = statements ∧ ∀ st ∈ past, Holds db st
  ordered : ∃ ns, (∀ n ∈ ns, db.tables n ≠ none) ∧ Ordered ns todo

structure MigrationInv (w : World V) : Prop where
  older : Older w.db
  migrating : ∀ todo, w.process = some (.migrating todo) → Underway w.db todo
  completed : w.process = some .completed → ∀ st ∈ statements, Holds w.db st
  unfailed : w.process ≠ some .failed

/-- A step that no store makes keeps the rows, and changes nothing where nothing is left to do. -/
structure Gentle (w w' : World V) : Prop where
  kept : Kept w.db w'.db
  again : (∀ st ∈ statements, Holds w.db st) → w'.db = w.db

theorem Gentle.refl_db (h : w'.db = w.db) : Gentle w w' :=
  ⟨h ▸ Kept.refl w.db, fun _ => h⟩

theorem underway_start (db : Database V) : Underway db statements :=
  ⟨⟨[], rfl, fun _ hst => absurd hst List.not_mem_nil⟩,
    ⟨[], fun _ hn => absurd hn List.not_mem_nil, ordered_statements⟩⟩

theorem Underway.next {st : Statement} {todo : List Statement} (h : Underway db (st :: todo))
    (hdoes : Does db st db') : Underway db' todo := by
  have hgrows := hdoes.kept.grows
  obtain ⟨past, hpast, hheld⟩ := h.past
  obtain ⟨ns, hns, hsound, hordered⟩ := h.ordered
  constructor
  · refine ⟨past ++ [st], by rw [List.append_assoc]; exact hpast, ?_⟩
    intro st' hst'
    rcases List.mem_append.mp hst' with hst' | hst'
    · exact (hheld st' hst').grows hgrows
    · rw [List.mem_singleton.mp hst']
      exact hdoes.holds
  · refine ⟨st.table :: ns, ?_, hordered⟩
    intro n hn
    rcases List.mem_cons.mp hn with rfl | hn
    -- the statement has made its table or has found it there
    · cases st with
      | createTable n columns => exact hdoes.holds
      | createIndex index n columns => exact hgrows.tables_ne (hns n hsound.1)
      | addColumnIfMissing n c => exact hgrows.tables_ne (hns n hsound.1)
    · exact hgrows.tables_ne (hns n hn)

/-- The next statement of a process is not refused. -/
theorem Underway.exec {st : Statement} {todo : List Statement} (hdb : Older db)
    (h : Underway db (st :: todo)) :
    ∃ db', Schema.exec db st = some db' ∧ Does db st db' ∧ st ∈ statements := by
  obtain ⟨past, hpast, -⟩ := h.past
  obtain ⟨ns, hns, hsound, -⟩ := h.ordered
  obtain ⟨db', hexec, hdoes⟩ := exec_sound hdb hns hsound
  exact ⟨db', hexec, hdoes, hpast ▸ List.mem_append_right _ List.mem_cons_self⟩

theorem advance_inv (h : MigrationInv w) {p : Phase} (hp : w.process = some p) :
    MigrationInv (advance w p) ∧ Gentle w (advance w p) := by
  cases p with
  | migrating todo =>
      have hunder := h.migrating todo hp
      cases todo with
      | nil =>
          obtain ⟨past, hpast, hheld⟩ := hunder.past
          rw [List.append_nil] at hpast
          refine ⟨⟨h.older, ?_, fun _ => hpast ▸ hheld, by simp [advance]⟩, Gentle.refl_db rfl⟩
          intro todo htodo
          cases htodo
      | cons st todo =>
          obtain ⟨db', hexec, hdoes, hmem⟩ := hunder.exec h.older
          have hadvance : advance w (.migrating (st :: todo)) = ⟨db', some (.migrating todo)⟩ := by
            rw [advance, hexec]
          rw [hadvance]
          refine ⟨⟨hdoes.older, ?_, (fun hcompleted => by cases hcompleted), by simp⟩,
            hdoes.kept, ?_⟩
          · intro todo' htodo'
            cases htodo'
            exact hunder.next hdoes
          · exact fun hall => hdoes.again (hall st hmem)
  | completed => exact ⟨h, Gentle.refl_db rfl⟩
  | failed => exact absurd hp h.unfailed

theorem step_write {n : TableName} {rows : List (Record V)} (h : step w (.write n rows) = some w') :
    ∃ t, w.process = some .completed ∧ w.db.tables n = some t ∧
      w' = { w with db := w.db.put n { t with rows } } := by
  rw [step] at h
  split at h
  case h_1 t hp ht => exact ⟨t, hp, ht, (Option.some.inj h).symm⟩
  case h_2 => cases h

theorem grows_write {n : TableName} {t : Table V} (ht : db.tables n = some t)
    (rows : List (Record V)) : Grows db (db.put n { t with rows }) := by
  refine ⟨?_, List.Subset.refl _⟩
  intro m t₀ ht₀
  by_cases hm : m = n
  · subst hm
    obtain rfl := Option.some.inj (ht.symm.trans ht₀)
    exact ⟨_, put_self db m _, List.Subset.refl _⟩
  · exact ⟨t₀, (put_other hm _).trans ht₀, List.Subset.refl _⟩

theorem migration_step {e : Event V} (h : MigrationInv w) (hstep : step w e = some w') :
    MigrationInv w' ∧ (e.isWrite = false → Gentle w w') := by
  cases e with
  | start =>
      rw [step] at hstep
      split at hstep
      case h_2 => cases hstep
      case h_1 hp =>
        obtain rfl := Option.some.inj hstep
        refine ⟨⟨h.older, ?_, (fun hcompleted => by cases hcompleted), by simp⟩,
          fun _ => Gentle.refl_db rfl⟩
        intro todo htodo
        cases htodo
        exact underway_start w.db
  | advance =>
      obtain ⟨p, hp, rfl⟩ := Option.map_eq_some_iff.mp hstep
      obtain ⟨hinv, hgentle⟩ := advance_inv h hp
      exact ⟨hinv, fun _ => hgentle⟩
  | crash =>
      rw [step] at hstep
      split at hstep
      case h_1 => cases hstep
      case h_2 =>
        obtain rfl := Option.some.inj hstep
        exact ⟨⟨h.older, (fun _ htodo => by cases htodo), (fun hcompleted => by cases hcompleted),
          by simp⟩, fun _ => Gentle.refl_db rfl⟩
  | write n rows =>
      obtain ⟨t, hp, ht, rfl⟩ := step_write hstep
      have hfits := h.older n t ht
      have holder : Older (w.db.put n { t with rows }) :=
        older_put h.older ⟨hfits.distinct, hfits.original, hfits.required⟩
      refine ⟨⟨holder, ?_, ?_, h.unfailed⟩, fun hwrite => by cases hwrite⟩
      · intro todo htodo
        rw [hp] at htodo
        cases htodo
      · intro _ st hst
        exact (h.completed hp st hst).grows (grows_write ht rows)

theorem migrationInv_run {es : List (Event V)} (hdb : Older db)
    (h : Runs.run step ⟨db, none⟩ es = some w) : MigrationInv w :=
  Runs.run_induct (P := MigrationInv) (A := fun _ => True)
    (fun _ _ _ hs _ hstep => (migration_step hs hstep).1)
    ⟨hdb, fun _ hp => (by cases hp), fun hp => (by cases hp), by simp⟩ (fun _ _ => trivial) h

theorem gentle_run {es : List (Event V)} (h : MigrationInv w) (hes : ∀ e ∈ es, e.isWrite = false)
    (hrun : Runs.run step w es = some w') : Gentle w w' := by
  have hboth : MigrationInv w' ∧ Gentle w w' := by
    refine Runs.run_induct (P := fun s => MigrationInv s ∧ Gentle w s)
      (A := fun e => e.isWrite = false) ?_ ⟨h, Gentle.refl_db rfl⟩ hes hrun
    intro s e s' hs he hstep
    obtain ⟨hinv, hgentle⟩ := migration_step hs.1 hstep
    refine ⟨hinv, hs.2.kept.trans (hgentle he).kept, ?_⟩
    intro hall
    have hdb := hs.2.again hall
    rw [(hgentle he).again (hdb ▸ hall), hdb]
  exact hboth.2

/-- Left alone, a process comes to the end of its statements. -/
theorem completes (todo : List Statement) (h : MigrationInv w)
    (hp : w.process = some (.migrating todo)) :
    ∃ w', Runs.run step w (List.replicate (todo.length + 1) .advance) = some w' ∧
      w'.process = some .completed := by
  induction todo generalizing w with
  | nil =>
      refine ⟨{ w with process := some .completed }, ?_, rfl⟩
      simp only [List.length_nil, List.replicate, Runs.run, step, hp, Option.map_some, advance,
        Option.bind_some]
  | cons st todo ih =>
      obtain ⟨db', hexec, -, -⟩ := (h.migrating _ hp).exec h.older
      have hstep : step w .advance = some ⟨db', some (.migrating todo)⟩ := by
        simp only [step, hp, Option.map_some, advance, hexec]
      obtain ⟨w', hrun, hcompleted⟩ := ih (migration_step h hstep).1 rfl
      refine ⟨w', ?_, hcompleted⟩
      rw [List.length_cons, List.replicate_succ, Runs.run, hstep, Option.bind_some, hrun]

theorem upToDate_iff (hdb : Older db) : UpToDate db ↔ ∀ st ∈ statements, Holds db st := by
  constructor
  · intro h st hst
    cases st with
    | createTable n columns =>
        obtain ⟨t, ht, -, -⟩ := h.tables n
        exact Option.ne_none_iff_exists'.mpr ⟨t, ht⟩
    | createIndex index n columns =>
        exact h.indexes index ((createIndex_iff index).mp ⟨n, columns, hst⟩)
    | addColumnIfMissing n c =>
        obtain ⟨t, ht, -, hadded⟩ := h.tables n
        exact ⟨t, ht, List.mem_map_of_mem (hadded c (added_of_mem hst))⟩
  · intro h
    constructor
    · intro n
      obtain ⟨t, ht⟩ := Option.ne_none_iff_exists'.mp (h _ (createTable_mem n))
      refine ⟨t, ht, hdb n t ht, fun c hc => ?_⟩
      obtain ⟨t₀, ht₀, hname⟩ := h _ (addColumn_mem hc)
      obtain rfl := Option.some.inj (ht.symm.trans ht₀)
      exact (hdb n t ht).mem_columns hc hname
    · intro index hindex
      obtain ⟨n, columns, hst⟩ := (createIndex_iff index).mpr hindex
      exact h _ hst

theorem serves {t : Table V} (hfits : t.Fits .sentMessages)
    (hadded : ∀ c ∈ added .sentMessages, c ∈ t.columns) : t.Serves := by
  intro c
  obtain ⟨x, hx, hname, hnull⟩ := sentColumns c
  refine ⟨x, ?_, hname, hnull⟩
  rcases List.mem_append.mp hx with hx | hx
  · exact hfits.original x hx
  · exact hadded x hx

/-- Whatever version the database is of and wherever earlier starts ended, SQLite refuses no
statement of a start; one that is left alone comes through, and then the tables have every
column the stores use. Until a store writes, rows keep their cells and get NULL in new columns,
and a database that is up to date does not change. -/
theorem migration_safe {es : List (Event V)} (hdb : Older db)
    (h : Runs.run step ⟨db, none⟩ es = some w) :
    w.process ≠ some .failed ∧
      (∀ todo, w.process = some (.migrating todo) → ∃ w',
        Runs.run step w (List.replicate (todo.length + 1) .advance) = some w' ∧
          w'.process = some .completed) ∧
      (w.process = some .completed → UpToDate w.db ∧
        ∃ t, w.db.tables .sentMessages = some t ∧ t.Serves) ∧
      ∀ fs w', (∀ e ∈ fs, e.isWrite = false) → Runs.run step w fs = some w' →
        Kept w.db w'.db ∧ (UpToDate w.db → w'.db = w.db) := by
  have hinv := migrationInv_run hdb h
  refine ⟨hinv.unfailed, fun todo hp => completes todo hinv hp, ?_, ?_⟩
  · intro hp
    have hdate := (upToDate_iff hinv.older).mpr (hinv.completed hp)
    obtain ⟨t, ht, hfits, hadded⟩ := hdate.tables .sentMessages
    exact ⟨hdate, t, ht, serves hfits hadded⟩
  · intro fs w' hfs hrun
    have hgentle := gentle_run hinv hfs hrun
    exact ⟨hgentle.kept, fun hdate => hgentle.again ((upToDate_iff hinv.older).mp hdate)⟩

end

/-- A database of the first version, with one row, whose cells are the names of their columns. -/
def firstVersion : Database JsString where
  tables n := if n = .sentMessages then some ⟨created .sentMessages, [fun c => some c]⟩ else none
  indexes := []

/-- The first start is cut off before the last two columns; the second comes through. -/
def interrupted : List (Event JsString) :=
  [.start] ++ List.replicate 11 .advance ++ [.crash, .start] ++ List.replicate 14 .advance

def Phase.isCompleted : Phase → Bool
  | .completed => true
  | _ => false

def isUp (w : World JsString) : Bool := w.process.any Phase.isCompleted

theorem firstVersion_older : Older firstVersion := by
  intro n t ht
  unfold firstVersion at ht
  dsimp only at ht
  split at ht
  case isTrue hn =>
    obtain rfl := Option.some.inj ht
    subst hn
    exact fits_created .sentMessages _
  case isFalse => cases ht

theorem completed_of_isUp {w : World JsString} (h : isUp w = true) :
    w.process = some .completed := by
  unfold isUp at h
  cases hp : w.process with
  | none => rw [hp] at h; cases h
  | some p =>
      rw [hp] at h
      cases p with
      | completed => rfl
      | migrating todo => cases h
      | failed => cases h

theorem interrupted_isUp :
    ((Runs.run step ⟨firstVersion, none⟩ interrupted).map isUp) = some true := by
  decide +kernel

theorem migration_safe_interrupted :
    Older firstVersion ∧ ∃ w, Runs.run step ⟨firstVersion, none⟩ interrupted = some w ∧
      w.process = some .completed ∧ UpToDate w.db ∧ Kept firstVersion w.db := by
  obtain ⟨w, hw, hup⟩ := Option.map_eq_some_iff.mp interrupted_isUp
  have hcompleted := completed_of_isUp hup
  obtain ⟨-, -, hafter, -⟩ := migration_safe firstVersion_older hw
  have hstart : Runs.run step ⟨firstVersion, none⟩ [] = some ⟨firstVersion, none⟩ := rfl
  obtain ⟨-, -, -, hbefore⟩ := migration_safe firstVersion_older hstart
  have hquiet : ∀ e ∈ interrupted, e.isWrite = false := by decide
  have hkept := (hbefore interrupted w hquiet hw).1
  exact ⟨firstVersion_older, w, hw, hcompleted, (hafter hcompleted).1, hkept⟩

end SmsGateway.Schema
