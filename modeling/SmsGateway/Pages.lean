import SmsGateway.LogStore
import SmsGateway.Json
import SmsGateway.Lib.Paging

/-!
# Listings in pages

`listSent`, `listReceived` and `listRequests` of `store/`. SQLite compares texts by their
octets; what it does with rows whose sort keys are equal is a parameter of each query.
-/

namespace SmsGateway.Pages

open Json LogStore
open Lib Paging

/-- A filter as a clause: `column = @v` for a string that is not empty, else none. -/
def clause (v : JsValue) (column : Option JsString) : Bool :=
  match v with
  | .str s => s == [] || column == some s
  | _ => true

/-- The id that SQLite gives a new row: above those there are, and positive. -/
def nextId (ids : List Int) : Int := ids.foldr max 0 + 1

theorem lt_nextId {ids : List Int} {i : Int} (h : i ∈ ids) : i < nextId ids := by
  unfold nextId
  induction ids with
  | nil => cases h
  | cons j ids ih =>
      rw [List.foldr_cons]
      rcases List.mem_cons.mp h with rfl | h
      · omega
      · have hle := ih h
        omega

theorem nodup_nextId {ids : List Int} (h : ids.Nodup) : (ids ++ [nextId ids]).Nodup := by
  rw [List.nodup_append_comm, List.singleton_append, List.nodup_cons]
  exact ⟨fun hmem => (lt_nextId hmem).false, h⟩

/-! ## Sent messages -/

/-- The content of `sent_messages`; `id` is the primary key. -/
structure SentRows where
  rows : List Row
  distinct : (rows.map (·.id)).Nodup

/-- `FILTERS`. -/
structure SentFilters where
  status : JsValue := .undefined
  projectName : JsValue := .undefined
  recipient : JsValue := .undefined
  modemId : JsValue := .undefined
  clientRef : JsValue := .undefined

def buildWhere (filters : SentFilters) (r : Row) : Bool :=
  clause filters.status (some r.status) && clause filters.projectName r.projectName &&
    clause filters.recipient (some r.recipient) && clause filters.modemId r.modemId &&
    clause filters.clientRef r.clientRef

/-- `ORDER BY timestamp DESC`. -/
def sentKey (r : Row) : List Nat := utf8Octets r.timestamp

structure SentListing where
  messages : List Row
  total : Nat

def listSent (order : List Row → List Row) (rows : List Row) (filters : SentFilters)
    (limit : Nat := 50) (offset : Nat := 0) : SentListing :=
  { messages := page (order (rows.filter (buildWhere filters))) limit offset
    total := rows.countP (buildWhere filters) }

/-! ## Received messages -/

structure ReceivedRow where
  id : Int
  fromNumber : Option JsString
  modemDate : Option JsString
  text : Option JsString
  receivedAt : JsString
  modemId : Option JsString
  deriving DecidableEq, Repr

structure ReceivedRows where
  rows : List ReceivedRow
  distinct : (rows.map (·.id)).Nodup

def ReceivedRows.empty : ReceivedRows := ⟨[], List.nodup_nil⟩

/-- `INSERT INTO received_messages`: the row's own `id` is not among the columns. -/
def ReceivedRows.insert (t : ReceivedRows) (r : ReceivedRow) : ReceivedRows :=
  { rows := t.rows ++ [{ r with id := nextId (t.rows.map (·.id)) }]
    distinct := by
      rw [List.map_append]
      exact nodup_nextId t.distinct }

structure ReceivedFilters where
  modemId : JsValue := .undefined
  sender : JsValue := .undefined

def receivedWhere (filters : ReceivedFilters) (r : ReceivedRow) : Bool :=
  clause filters.modemId r.modemId && clause filters.sender r.fromNumber

/-- `ORDER BY id DESC`. -/
def receivedKey (r : ReceivedRow) : Int := r.id

def listReceived (order : List ReceivedRow → List ReceivedRow) (rows : List ReceivedRow)
    (filters : ReceivedFilters) (limit : Nat := 50) (offset : Nat := 0) : List ReceivedRow :=
  page (order (rows.filter (receivedWhere filters))) limit offset

/-! ## USSD requests -/

/-- A row of `ussd_requests` with the `rowid` that SQLite gives it. -/
structure RequestRow where
  rowid : Int
  id : JsString
  modemId : JsString
  kind : JsString
  code : JsString
  status : JsString
  reply : Option JsString
  error : Option JsString
  requestedAt : JsString
  completedAt : Option JsString
  deriving DecidableEq, Repr

structure RequestRows where
  rows : List RequestRow
  distinct : (rows.map (·.rowid)).Nodup

def RequestRows.empty : RequestRows := ⟨[], List.nodup_nil⟩

/-- `INSERT INTO ussd_requests`. -/
def RequestRows.insert (t : RequestRows) (r : RequestRow) : RequestRows :=
  { rows := t.rows ++ [{ r with rowid := nextId (t.rows.map (·.rowid)) }]
    distinct := by
      rw [List.map_append]
      exact nodup_nextId t.distinct }

example (r : RequestRow) : ((RequestRows.empty.insert r).insert r).rows.map (·.rowid) = [1, 2] := rfl

structure RequestFilters where
  kind : JsValue := .undefined
  modemId : JsValue := .undefined

def requestWhere (filters : RequestFilters) (r : RequestRow) : Bool :=
  clause filters.kind (some r.kind) && clause filters.modemId (some r.modemId)

/-- `ORDER BY requested_at DESC, rowid DESC`. -/
def requestKey (r : RequestRow) : List Nat ×ₗ Int := toLex (utf8Octets r.requestedAt, r.rowid)

structure RequestListing where
  requests : List RequestRow
  total : Nat

def listRequests (order : List RequestRow → List RequestRow) (rows : List RequestRow)
    (filters : RequestFilters) (limit : Nat := 50) (offset : Nat := 0) : RequestListing :=
  { requests := page (order (rows.filter (requestWhere filters))) limit offset
    total := rows.countP (requestWhere filters) }

/-! ## What pages have to be -/

/-- The pages of `listSent` have every matching row once, newest first, and the total. -/
def SentPaged (t : SentRows) (filters : SentFilters) (limit : Nat) : Prop :=
  ∀ order : Nat → List Row → List Row, (∀ k l, Sorts sentKey l (order k l)) →
    (∀ k, (listSent (order k) t.rows filters limit (k * limit)).total =
      (t.rows.filter (buildWhere filters)).length) ∧
    ∀ n, (t.rows.filter (buildWhere filters)).length ≤ n * limit →
      Sorts sentKey (t.rows.filter (buildWhere filters))
        ((List.range n).flatMap fun k =>
          (listSent (order k) t.rows filters limit (k * limit)).messages)

def ReceivedPaged (t : ReceivedRows) (filters : ReceivedFilters) (limit : Nat) : Prop :=
  ∀ order : Nat → List ReceivedRow → List ReceivedRow, (∀ k l, Sorts receivedKey l (order k l)) →
    ∀ n, (t.rows.filter (receivedWhere filters)).length ≤ n * limit →
      Sorts receivedKey (t.rows.filter (receivedWhere filters))
        ((List.range n).flatMap fun k =>
          listReceived (order k) t.rows filters limit (k * limit))

def RequestsPaged (t : RequestRows) (filters : RequestFilters) (limit : Nat) : Prop :=
  ∀ order : Nat → List RequestRow → List RequestRow, (∀ k l, Sorts requestKey l (order k l)) →
    (∀ k, (listRequests (order k) t.rows filters limit (k * limit)).total =
      (t.rows.filter (requestWhere filters)).length) ∧
    ∀ n, (t.rows.filter (requestWhere filters)).length ≤ n * limit →
      Sorts requestKey (t.rows.filter (requestWhere filters))
        ((List.range n).flatMap fun k =>
          (listRequests (order k) t.rows filters limit (k * limit)).requests)

theorem sentPaged_iff (t : SentRows) (filters : SentFilters) (limit : Nat) :
    SentPaged t filters limit ↔
      ClearBorders sentKey (t.rows.filter (buildWhere filters)) limit := by
  have hnd : (t.rows.filter (buildWhere filters)).Nodup :=
    (List.Nodup.of_map _ t.distinct).filter _
  have htotal : t.rows.countP (buildWhere filters) = (t.rows.filter (buildWhere filters)).length :=
    List.countP_eq_length_filter
  rw [← partition_iff hnd]
  constructor
  · intro h order horder
    exact (h order horder).2
  · intro h order horder
    exact ⟨fun _ => htotal, h order horder⟩

/-- Ids are never equal. -/
theorem receivedPaged (t : ReceivedRows) (filters : ReceivedFilters) (limit : Nat) :
    ReceivedPaged t filters limit := by
  have hkeys : ((t.rows.filter (receivedWhere filters)).map receivedKey).Nodup :=
    t.distinct.sublist (List.filter_sublist.map _)
  exact partition_of_clear (clear_of_nodup hkeys)

/-- Equal times are told apart by the `rowid`. -/
theorem requestsPaged (t : RequestRows) (filters : RequestFilters) (limit : Nat) :
    RequestsPaged t filters limit := by
  have hrowids : ((t.rows.filter (requestWhere filters)).map (·.rowid)).Nodup :=
    t.distinct.sublist (List.filter_sublist.map _)
  have hkeys : ((t.rows.filter (requestWhere filters)).map requestKey).Nodup := by
    apply List.Nodup.of_map fun key => (ofLex key).2
    rw [List.map_map]
    exact hrowids
  have htotal : t.rows.countP (requestWhere filters) =
      (t.rows.filter (requestWhere filters)).length := List.countP_eq_length_filter
  intro order horder
  exact ⟨fun _ => htotal, partition_of_clear (clear_of_nodup hkeys) order horder⟩

/-- The pages of received messages and of requests always partition the matching rows; those of
sent messages do exactly when no border between two pages stands inside a group of matching
rows with equal timestamps. -/
theorem pages_partition (sent : SentRows) (received : ReceivedRows) (requests : RequestRows)
    (sentFilters : SentFilters) (receivedFilters : ReceivedFilters)
    (requestFilters : RequestFilters) (limit : Nat) :
    (SentPaged sent sentFilters limit ↔
        ClearBorders sentKey (sent.rows.filter (buildWhere sentFilters)) limit) ∧
      ReceivedPaged received receivedFilters limit ∧ RequestsPaged requests requestFilters limit :=
  ⟨sentPaged_iff sent sentFilters limit, receivedPaged received receivedFilters limit,
    requestsPaged requests requestFilters limit⟩

/-- Two messages of one batch, stamped with the same millisecond. -/
def twins : SentRows :=
  { rows := [
      ⟨js "m1", js "2026-07-07T10:00:00.000Z", js "+99361111111", js "Hi", none, none,
        js "pending", none, none, none, none, none, none⟩,
      ⟨js "m2", js "2026-07-07T10:00:00.000Z", js "+99362222222", js "Hi", none, none,
        js "pending", none, none, none, none, none, none⟩]
    distinct := by decide }

/-- Read one by one, one of them may come twice and the other not at all. -/
theorem twins_not_paged : ¬SentPaged twins {} 1 := by
  rw [sentPaged_iff]
  intro h
  have hmem : twins.rows[0] ∈ twins.rows.filter (buildWhere {}) := by decide
  have hborder := h _ hmem 1
  revert hborder
  decide

end SmsGateway.Pages
