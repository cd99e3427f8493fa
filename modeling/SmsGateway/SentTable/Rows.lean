import SmsGateway.SentTable

/-!
# Rows and records

The rows of `LogStore` are the records of the table that have all required values, and its
operations are those of the table on them.
-/

namespace SmsGateway.SentTable

open LogStore (Patch Value bindValue)

/-- A row, column by column. -/
def record (row : LogStore.Row) : Record
  | .id => some row.id
  | .timestamp => some row.timestamp
  | .toNumber => some row.recipient
  | .message => some row.message
  | .projectName => row.projectName
  | .ip => row.ip
  | .status => some row.status
  | .error => row.error
  | .sentAt => row.sentAt
  | .reference => row.reference
  | .modemId => row.modemId
  | .clientRef => row.clientRef
  | .callbackUrl => row.callbackUrl

/-- The column that `LogStore` names. -/
def columnOf : LogStore.Column → Column
  | .status => .status
  | .error => .error
  | .sentAt => .sentAt
  | .reference => .reference
  | .modemId => .modemId

def valueOf : Option JsString → Value
  | some s => .text s
  | none => .null

/-- The entry that `appendLog` is given for a row. -/
def newEntry (row : LogStore.Row) : NewEntry :=
  { id := row.id
    timestamp := .text row.timestamp
    recipient := .text row.recipient
    message := .text row.message
    projectName := valueOf row.projectName
    ip := valueOf row.ip
    status := .text row.status
    error := valueOf row.error
    sentAt := valueOf row.sentAt
    reference := valueOf row.reference
    modemId := valueOf row.modemId
    clientRef := valueOf row.clientRef
    callbackUrl := valueOf row.callbackUrl }

theorem isRow_record (id : JsString) (row : LogStore.Row) : isRow id (record row) = (row.id == id) := by
  rw [Bool.eq_iff_iff]
  simp [isRow, record]

theorem getLog_record (rows : List LogStore.Row) (id : JsString) :
    getLog (rows.map record) id = (LogStore.getLog rows id).map fun row => toEntry (record row) := by
  have hcomp : isRow id ∘ record = fun r => r.id == id := funext (isRow_record id)
  rw [getLog, List.find?_map, hcomp, LogStore.getLog, Option.map_map]
  rfl

theorem any_record (rows : List LogStore.Row) (id : JsString) :
    (rows.map record).any (isRow id) = (LogStore.getLog rows id).isSome := by
  have hcomp : isRow id ∘ record = fun r => r.id == id := funext (isRow_record id)
  rw [List.any_map, hcomp, LogStore.getLog, List.isSome_find?]

theorem violation_record (row : LogStore.Row) : violation (record row) = none := rfl

theorem stored_valueOf (v : Option JsString) : stored (valueOf v) = v := by
  cases v <;> rfl

theorem valueOf_ne_refused (v : Option JsString) : orNull (valueOf v) ≠ .refused := by
  cases v <;> simp [valueOf, orNull]

theorem appended_newEntry (row : LogStore.Row) : appended (newEntry row) = record row := by
  funext c
  cases c <;> first | rfl | exact stored_valueOf _

/-- Appending a row is appending its record. -/
theorem appendLog_record (rows : List LogStore.Row) (row : LogStore.Row) :
    appendLog (rows.map record) (newEntry row) =
      ((LogStore.appendLog rows row).1.map newEntry, (LogStore.appendLog rows row).2.map record) := by
  have hbound : ∀ p ∈ insertParams (newEntry row), p.2 ≠ .refused := by
    simp [insertParams, newEntry, valueOf_ne_refused]
  rw [appendLog, bindAll_bound hbound]
  dsimp only
  rw [write_insertParams, appended_newEntry, violation_record, LogStore.appendLog]
  dsimp only
  have hid : (newEntry row).id = row.id := rfl
  rw [hid, any_record]
  cases LogStore.getLog rows row.id with
  | some r => rfl
  | none => simp [Except.map]

/-! ## Updates -/

theorem sets_eq (patch : Patch) :
    sets patch = (LogStore.sets patch).map fun p => (columnOf p.1, orNull p.2) := by
  have hpatchable : patchable = LogStore.patchable.map fun p => (p.1, columnOf p.2) := rfl
  rw [sets, hpatchable, List.filterMap_map, LogStore.sets, List.map_filterMap]
  apply List.filterMap_congr
  intro p _
  simp only [Function.comp_apply, Option.map_map]
  rfl

theorem mapM_eq_bindAll {κ : Type} {f : κ × Value → Option (κ × Option JsString)}
    {params : List (κ × Value)} (h : ∀ p, f p = (bindValue p.2).map fun b => (p.1, b)) :
    params.mapM f = bindAll params := by
  rw [funext h]
  rfl

theorem stored_sets (patch : Patch) :
    (sets patch).map (fun p => (p.1, stored p.2)) =
      (LogStore.sets patch).map fun p => (columnOf p.1, stored p.2) := by
  rw [sets_eq, List.map_map]
  apply List.map_congr_left
  intro p _
  simp only [Function.comp_apply, stored_orNull]

theorem nodup_sets (patch : Patch) : ((LogStore.sets patch).map fun p => columnOf p.1).Nodup := by
  have hsub : ((LogStore.sets patch).map fun p => columnOf p.1).Sublist
      (LogStore.patchable.map fun p => columnOf p.2) := by
    unfold LogStore.sets
    induction LogStore.patchable with
    | nil => exact List.Sublist.refl _
    | cons p l ih =>
        obtain ⟨field, column⟩ := p
        cases hv : patch.lookup field with
        | none => simpa [hv] using ih.trans (List.sublist_cons_self _ _)
        | some v => simpa [hv] using ih
  have hnd : (LogStore.patchable.map fun p => columnOf p.2).Nodup := by decide
  exact hnd.sublist hsub

theorem setColumn_record (row : LogStore.Row) {c : LogStore.Column} {v : Option JsString}
    (h : c = .status → v ≠ none) :
    ∃ row', LogStore.setColumn row c v = .ok row' ∧
      record row' = Function.update (record row) (columnOf c) v := by
  cases c with
  | status =>
      cases v with
      | none => exact absurd rfl (h rfl)
      | some s =>
          refine ⟨_, rfl, ?_⟩
          funext col
          cases col <;> rfl
  | error => exact ⟨_, rfl, by funext col; cases col <;> rfl⟩
  | sentAt => exact ⟨_, rfl, by funext col; cases col <;> rfl⟩
  | reference => exact ⟨_, rfl, by funext col; cases col <;> rfl⟩
  | modemId => exact ⟨_, rfl, by funext col; cases col <;> rfl⟩

theorem write_cons {r : Record} {c : Column} {v : Option JsString}
    {bound : List (Column × Option JsString)} (hc : c ∉ bound.map (·.1)) :
    write r ((c, v) :: bound) = write (Function.update r c v) bound := by
  funext col
  rw [write, write, List.lookup_cons]
  by_cases hcol : col = c
  · subst hcol
    have hnone : bound.lookup col = none := by
      rw [List.lookup_eq_none_iff]
      intro p hp
      have hne : p.1 ≠ col := fun he => hc (he ▸ List.mem_map_of_mem hp)
      simpa using hne.symm
    simp [hnone]
  · have hne : (col == c) = false := by simpa using hcol
    simp [hne, hcol]

/-- Assigning the columns one after the other is writing them at once. -/
theorem setColumns_record {params : List (LogStore.Column × Option JsString)} (row : LogStore.Row)
    (hnd : (params.map fun p => columnOf p.1).Nodup) (h : ∀ p ∈ params, p.1 = .status → p.2 ≠ none) :
    ∃ row', LogStore.setColumns params row = .ok row' ∧
      record row' = write (record row) (params.map fun p => (columnOf p.1, p.2)) := by
  induction params generalizing row with
  | nil => exact ⟨row, rfl, rfl⟩
  | cons p params ih =>
      obtain ⟨c, v⟩ := p
      rw [List.map_cons, List.nodup_cons] at hnd
      obtain ⟨row₁, hset, hrow₁⟩ := setColumn_record row (h (c, v) List.mem_cons_self)
      obtain ⟨row', hsets, hrow'⟩ := ih row₁ hnd.2
        fun q hq => h q (List.mem_cons_of_mem _ hq)
      refine ⟨row', ?_, ?_⟩
      · rw [LogStore.setColumns, hset]
        exact hsets
      · rw [hrow', hrow₁, List.map_cons, write_cons]
        simpa using hnd.1

theorem setColumns_null {params : List (LogStore.Column × Option JsString)} {row : LogStore.Row}
    (h : (.status, none) ∈ params) :
    LogStore.setColumns params row = .error (notNullError .status) := by
  induction params generalizing row with
  | nil => cases h
  | cons p params ih =>
      obtain ⟨c, v⟩ := p
      rw [LogStore.setColumns]
      rcases List.mem_cons.mp h with he | h
      · obtain ⟨rfl, rfl⟩ := Prod.mk.inj he
        rfl
      · cases hset : LogStore.setColumn row c v with
        | ok row₁ => exact ih h
        | error e =>
            cases c with
            | status =>
                cases v with
                | none => exact congrArg Except.error (Except.error.inj hset.symm)
                | some s => cases hset
            | error => cases hset
            | sentAt => cases hset
            | reference => cases hset
            | modemId => cases hset

theorem mem_logStore_sets {patch : Patch} {v : Value} :
    (LogStore.Column.status, v) ∈ LogStore.sets patch ↔ patched patch .status = some v := by
  constructor
  · intro h
    obtain ⟨⟨field, column⟩, hp, hv⟩ := List.mem_filterMap.mp h
    obtain ⟨w, hw, he⟩ := Option.map_eq_some_iff.mp hv
    obtain ⟨rfl, rfl⟩ := Prod.mk.inj he
    have hfield : ∀ p ∈ LogStore.patchable, p.2 = .status → p.1 = js "status" := by decide
    have hname : field = js "status" := hfield _ hp rfl
    rw [patched, ← hw, hname]
    rfl
  · intro h
    apply List.mem_filterMap.mpr
    refine ⟨(js "status", .status), by decide, ?_⟩
    exact Option.map_eq_some_iff.mpr ⟨v, h, rfl⟩

theorem sound_record {rows : List LogStore.Row} (hnd : (rows.map (·.id)).Nodup) :
    Sound (rows.map record) := by
  have hids : ((rows.map record).map fun r => r .id) = (rows.map (·.id)).map some := by
    rw [List.map_map, List.map_map]
    rfl
  constructor
  · rw [hids]
    exact hnd.map (Option.some_injective _)
  · intro r hr
    obtain ⟨row, -, rfl⟩ := List.mem_map.mp hr
    exact Option.some_ne_none _
  · intro r hr
    obtain ⟨row, -, rfl⟩ := List.mem_map.mp hr
    exact violation_record row

/-- Updating rows is updating their records. -/
theorem updateLog_record {rows : List LogStore.Row} (hnd : (rows.map (·.id)).Nodup) (id : JsString)
    (patch : Patch) :
    updateLog (rows.map record) id patch =
      ((LogStore.updateLog rows id patch).1.map (Option.map fun row => toEntry (record row)),
        (LogStore.updateLog rows id patch).2.map record) := by
  have hempty : sets patch = [] ↔ LogStore.sets patch = [] := by
    rw [sets_eq, List.map_eq_nil_iff]
  rw [LogStore.updateLog, mapM_eq_bindAll]
  swap
  · intro p
    rfl
  by_cases hsets : LogStore.sets patch = []
  · rw [updateLog, if_pos (hempty.mpr hsets), if_pos hsets, getLog_record]
    rfl
  rw [if_neg hsets]
  by_cases hpatch : Refused patch
  · have hrefused : ∃ p ∈ LogStore.sets patch, p.2 = .refused := by
      obtain ⟨p, hp, hv⟩ := sets_refused.mpr hpatch
      rw [sets_eq] at hp
      obtain ⟨q, hq, rfl⟩ := List.mem_map.mp hp
      exact ⟨q, hq, orNull_eq_refused.mp hv⟩
    rw [updateLog_refused hpatch, bindAll_refused hrefused]
    rfl
  have hbound : ∀ p ∈ LogStore.sets patch, p.2 ≠ .refused := by
    intro p hp hv
    apply hpatch
    apply sets_refused.mp
    refine ⟨(columnOf p.1, orNull p.2), ?_, orNull_eq_refused.mpr hv⟩
    rw [sets_eq]
    exact List.mem_map_of_mem hp
  have hsetsBound := bindAll_sets hpatch
  rw [bindAll_bound hbound]
  dsimp only
  have hany := any_record rows id
  cases hrow : LogStore.getLog rows id with
  | none =>
      rw [hrow] at hany
      rw [updateLog_missing hpatch hany]
      rfl
  | some row =>
      rw [hrow] at hany
      have hid := LogStore.getLog_id hrow
      have hmem : row ∈ rows := List.mem_of_find?_eq_some hrow
      have hrecords := sound_record hnd
      by_cases hstatus : NullStatus patch
      · obtain ⟨v, hv, -, hnull⟩ := hstatus
        have hparam : (LogStore.Column.status, (none : Option JsString)) ∈
            (LogStore.sets patch).map fun p => (p.1, stored p.2) :=
          List.mem_map.mpr ⟨(.status, v), mem_logStore_sets.mpr hv, by rw [hnull]⟩
        rw [updateLog_null hrecords hpatch ⟨v, hv, fun h => hpatch ⟨.status, h ▸ hv⟩, hnull⟩ hany]
        simp only [setColumns_null hparam]
        rfl
      · have hparams : ∀ p ∈ (LogStore.sets patch).map (fun p => (p.1, stored p.2)),
            p.1 = .status → p.2 ≠ none := by
          intro p hp hc hnone
          obtain ⟨⟨c, v⟩, hq, rfl⟩ := List.mem_map.mp hp
          dsimp only at hc hnone
          subst hc
          exact hstatus ⟨v, mem_logStore_sets.mp hq, hbound _ hq, hnone⟩
        have hdistinct : (((LogStore.sets patch).map fun p => (p.1, stored p.2)).map
            fun p => columnOf p.1).Nodup := by
          rw [List.map_map]
          exact nodup_sets patch
        obtain ⟨row', hset, hrow'⟩ := setColumns_record row hdistinct hparams
        rw [List.map_map] at hrow'
        have hoverlay : record row' = overlay patch (record row) := by
          rw [hrow', ← write_sets, stored_sets]
          rfl
        obtain ⟨r, hr, hrid, hup⟩ := updateLog_ok hrecords hpatch hstatus hany
        have hself : ∀ r₀ ∈ rows, r₀.id = id → r₀ = row := fun r₀ hr₀ hid₀ =>
          List.inj_on_of_nodup_map hnd hr₀ hmem (hid₀.trans hid.symm)
        obtain ⟨r₀, hr₀, rfl⟩ := List.mem_map.mp hr
        rw [isRow_record, beq_iff_eq] at hrid
        rw [hup, hself r₀ hr₀ hrid, ← hoverlay]
        simp only [hset]
        refine Prod.ext rfl ?_
        rw [List.map_map, List.map_map]
        apply List.map_congr_left
        intro r₁ hr₁
        dsimp only [Function.comp_apply]
        rw [isRow_record]
        by_cases hid₁ : r₁.id = id
        · rw [if_pos (by simpa using hid₁), if_pos hid₁, hself r₁ hr₁ hid₁, hoverlay]
        · rw [if_neg (by simpa using hid₁), if_neg hid₁]

end SmsGateway.SentTable
