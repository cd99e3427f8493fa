import SmsGateway.SentTable
import SmsGateway.Lib.Keyed

/-!
# Histories of the sent messages

Any calls of `appendLog` and `updateLog`, in any order, some of which throw: what every row
keeps, and what `getLog` gives in the end.
-/

namespace SmsGateway.SentTable

open LogStore (Patch)

/-! ## Histories -/

inductive Call where
  | append (entry : NewEntry)
  | update (id : JsString) (patch : Patch)

/-- The table after a call. -/
def after (rows : List Record) : Call → List Record
  | .append e => (appendLog rows e).2
  | .update id patch => (updateLog rows id patch).2

/-- The call returns. -/
def succeeds (rows : List Record) : Call → Bool
  | .append e => (appendLog rows e).1.isOk
  | .update id patch => (updateLog rows id patch).1.isOk

def play (rows : List Record) (calls : List Call) : List Record := calls.foldl after rows

/-- The calls of a history that return. -/
def successes : List Record → List Call → List Call
  | _, [] => []
  | rows, c :: calls =>
      if succeeds rows c then c :: successes (after rows c) calls
      else successes (after rows c) calls

/-- What a successful call makes of the row of an id. -/
def overlaid (id : JsString) (row : Option Record) : Call → Option Record
  | .append e => if e.id = id then some (appended e) else row
  | .update i patch => if i = id then row.map (overlay patch) else row

/-- How a call that throws, one that finds nothing to do and the two that write differ. -/
inductive Effect (rows : List Record) (c : Call) : Prop where
  | threw : succeeds rows c = false → after rows c = rows → Effect rows c
  | missing (id : JsString) (patch : Patch) : c = .update id patch → succeeds rows c = true →
      rows.any (isRow id) = false → after rows c = rows → Effect rows c
  | updated (id : JsString) (patch : Patch) : c = .update id patch → succeeds rows c = true →
      ¬Refused patch → ¬NullStatus patch →
      after rows c = (rows.map fun r => if isRow id r then overlay patch r else r) → Effect rows c
  | appended (e : NewEntry) : c = .append e → succeeds rows c = true →
      violation (appended e) = none → rows.any (isRow e.id) = false →
      after rows c = rows ++ [SentTable.appended e] → Effect rows c

theorem effect {rows : List Record} (hrows : Sound rows) (c : Call) : Effect rows c := by
  cases c with
  | append e =>
      rcases appendLog_cases rows e with ⟨x, hx⟩ | ⟨hok, hv, hnew⟩
      · exact .threw (by simp [succeeds, hx, Except.isOk, Except.toBool]) (by simp [after, hx])
      · exact .appended e rfl (by simp [succeeds, hok, Except.isOk, Except.toBool]) hv hnew
          (by simp [after, hok])
  | update id patch =>
      rcases updateLog_cases hrows id patch with ⟨x, hx⟩ | ⟨hmissing, hok⟩ |
        ⟨hpatch, hstatus, r, -, -, hok⟩
      · exact .threw (by simp [succeeds, hx, Except.isOk, Except.toBool]) (by simp [after, hx])
      · exact .missing id patch rfl (by simp [succeeds, hok, Except.isOk, Except.toBool]) hmissing
          (by simp [after, hok])
      · exact .updated id patch rfl (by simp [succeeds, hok, Except.isOk, Except.toBool]) hpatch
          hstatus (by simp [after, hok])

theorem map_id_overlay (rows : List Record) (id : JsString) (patch : Patch) :
    ((rows.map fun r => if isRow id r then overlay patch r else r).map fun r => r .id) =
      rows.map fun r => r .id := by
  rw [List.map_map]
  apply List.map_congr_left
  intro r _
  dsimp only [Function.comp_apply]
  split
  · rfl
  · rfl

theorem sound_after {rows : List Record} (h : Sound rows) (c : Call) : Sound (after rows c) := by
  cases effect h c with
  | threw _ hafter => rw [hafter]; exact h
  | missing id patch _ _ _ hafter => rw [hafter]; exact h
  | updated id patch _ _ hpatch hstatus hafter =>
      rw [hafter]
      constructor
      · rw [map_id_overlay]
        exact h.distinct
      · intro r hr
        obtain ⟨r₀, hr₀, rfl⟩ := List.mem_map.mp hr
        split
        · exact h.named r₀ hr₀
        · exact h.named r₀ hr₀
      · intro r hr
        obtain ⟨r₀, hr₀, rfl⟩ := List.mem_map.mp hr
        have hcomplete := h.complete r₀ hr₀
        split
        · rcases violation_overlay_iff hcomplete hpatch with hv | hv
          · exact absurd hv.2 hstatus
          · exact hv.1
        · exact hcomplete
  | appended e _ _ hv hnew hafter =>
      rw [hafter]
      have hother : ∀ r ∈ rows, r .id ≠ appended e .id := by
        intro r hr
        simpa [isRow, appended] using List.any_eq_false.mp hnew r hr
      constructor
      · exact Lib.Keyed.nodup_append h.distinct hother
      · intro r hr
        rcases List.mem_append.mp hr with hr | hr
        · exact h.named r hr
        · rw [List.mem_singleton.mp hr]
          exact Option.some_ne_none _
      · intro r hr
        rcases List.mem_append.mp hr with hr | hr
        · exact h.complete r hr
        · rw [List.mem_singleton.mp hr]
          exact hv

theorem sound_play {rows : List Record} (h : Sound rows) (calls : List Call) :
    Sound (play rows calls) := by
  induction calls generalizing rows with
  | nil => exact h
  | cons c calls ih => exact ih (sound_after h c)

theorem sound_nil : Sound [] := ⟨List.nodup_nil, by simp, by simp⟩

theorem find_overlay (rows : List Record) (id i : JsString) (patch : Patch) :
    (rows.map fun r => if isRow i r then overlay patch r else r).find? (isRow id) =
      overlaid id (rows.find? (isRow id)) (.update i patch) := by
  have hcomp : (isRow id ∘ fun r => if isRow i r then overlay patch r else r) = isRow id := by
    funext r
    dsimp only [Function.comp_apply]
    split
    · exact isRow_overlay id patch r
    · rfl
  rw [List.find?_map, hcomp, overlaid]
  cases hfind : rows.find? (isRow id) with
  | none => simp
  | some r =>
      have hid : r .id = some id := by simpa [isRow] using List.find?_some hfind
      by_cases hi : i = id
      · subst hi
        simp [isRow, hid]
      · simp [isRow, hid, hi, Ne.symm hi]

/-- A call that returns does its part to each row; one that throws does nothing. -/
theorem find_after {rows : List Record} (h : Sound rows) (c : Call) (id : JsString) :
    (after rows c).find? (isRow id) =
      if succeeds rows c then overlaid id (rows.find? (isRow id)) c
      else rows.find? (isRow id) := by
  cases effect h c with
  | threw hfail hafter => simp [hafter, hfail]
  | missing i patch hc hok hnone hafter =>
      subst hc
      rw [hafter, if_pos hok, overlaid]
      by_cases hi : i = id
      · subst hi
        simp [find_missing hnone]
      · rw [if_neg hi]
  | updated i patch hc hok _ _ hafter =>
      subst hc
      rw [hafter, if_pos hok, find_overlay]
  | appended e hc hok _ hnew hafter =>
      subst hc
      rw [hafter, if_pos hok, overlaid, List.find?_append]
      by_cases he : e.id = id
      · subst he
        simp [find_missing hnew, isRow, appended]
      · simp [he, isRow, appended]

theorem find_play {rows : List Record} (h : Sound rows) (calls : List Call) (id : JsString) :
    (play rows calls).find? (isRow id) =
      (successes rows calls).foldl (overlaid id) (rows.find? (isRow id)) := by
  induction calls generalizing rows with
  | nil => rfl
  | cons c calls ih =>
      have hrest := ih (sound_after h c)
      rw [find_after h] at hrest
      rw [successes]
      split
      · rename_i hok
        rw [if_pos hok] at hrest
        exact hrest
      · rename_i hfail
        rw [if_neg hfail] at hrest
        exact hrest

/-! ## The frame -/

/-- The columns that no update changes. -/
def fixed : List Column :=
  [.id, .timestamp, .toNumber, .message, .projectName, .ip, .clientRef, .callbackUrl]

/-- Every row has what it was appended with in the fixed columns, and every entry has its row. -/
structure Keeps (calls : List Call) (rows : List Record) : Prop where
  origin : ∀ r ∈ rows, ∃ e, Call.append e ∈ calls ∧ ∀ c ∈ fixed, r c = appended e c
  present : ∀ e, Call.append e ∈ calls → ∃ r ∈ rows, ∀ c ∈ fixed, r c = appended e c

theorem overlay_fixed (patch : Patch) (r : Record) : ∀ c ∈ fixed, overlay patch r c = r c := by
  have hfield : ∀ c ∈ fixed, fieldOf c = none := by decide
  intro c hc
  exact overlay_eq_self (by rw [patched, hfield c hc]; rfl) r

/-- An update in place keeps the fixed columns of every row. -/
theorem keeps_map {calls : List Call} {rows : List Record} {f : Record → Record}
    (h : Keeps calls rows) (hf : ∀ r, ∀ c ∈ fixed, f r c = r c) : Keeps calls (rows.map f) := by
  constructor
  · intro r hr
    obtain ⟨r₀, hr₀, rfl⟩ := List.mem_map.mp hr
    obtain ⟨e, he, hfixed⟩ := h.origin r₀ hr₀
    exact ⟨e, he, fun c hc => (hf r₀ c hc).trans (hfixed c hc)⟩
  · intro e he
    obtain ⟨r, hr, hfixed⟩ := h.present e he
    exact ⟨f r, List.mem_map_of_mem hr, fun c hc => (hf r c hc).trans (hfixed c hc)⟩

theorem keeps_update {calls : List Call} {rows : List Record} (h : Keeps calls rows)
    (id : JsString) (patch : Patch) : Keeps (calls ++ [.update id patch]) rows := by
  constructor
  · intro r hr
    obtain ⟨e, he, hfixed⟩ := h.origin r hr
    exact ⟨e, List.mem_append_left _ he, hfixed⟩
  · intro e he
    exact h.present e (by simpa using he)

theorem keeps_append {calls : List Call} {rows : List Record} (h : Keeps calls rows)
    (e : NewEntry) : Keeps (calls ++ [.append e]) (rows ++ [appended e]) := by
  constructor
  · intro r hr
    rcases List.mem_append.mp hr with hr | hr
    · obtain ⟨e', he', hfixed⟩ := h.origin r hr
      exact ⟨e', List.mem_append_left _ he', hfixed⟩
    · rw [List.mem_singleton.mp hr]
      exact ⟨e, by simp, fun c _ => rfl⟩
  · intro e' he'
    rcases List.mem_append.mp he' with he' | he'
    · obtain ⟨r, hr, hfixed⟩ := h.present e' he'
      exact ⟨r, List.mem_append_left _ hr, hfixed⟩
    · obtain rfl : e' = e := by simpa using he'
      exact ⟨appended e', by simp, fun c _ => rfl⟩

/-- A call that throws leaves every row as it was. -/
theorem after_eq_self {rows : List Record} {c : Call} (hrows : Sound rows)
    (h : succeeds rows c = false) : after rows c = rows := by
  cases effect hrows c with
  | threw _ hafter => exact hafter
  | missing id patch _ _ _ hafter => exact hafter
  | updated id patch _ hok _ _ _ =>
      rw [h] at hok
      cases hok
  | appended e _ hok _ _ _ =>
      rw [h] at hok
      cases hok

theorem keeps_after {done : List Call} {rows : List Record} {c : Call} (hrows : Sound rows)
    (h : Keeps done rows) (hok : succeeds rows c = true) : Keeps (done ++ [c]) (after rows c) := by
  cases effect hrows c with
  | threw hfail _ =>
      rw [hok] at hfail
      cases hfail
  | missing id patch hc _ _ hafter =>
      rw [hafter, hc]
      exact keeps_update h id patch
  | updated id patch hc _ _ _ hafter =>
      rw [hafter, hc]
      apply keeps_update
      apply keeps_map h
      intro r col hcol
      split
      · exact overlay_fixed patch r col hcol
      · rfl
  | appended e hc _ _ _ hafter =>
      rw [hafter, hc]
      exact keeps_append h e

theorem keeps_play {calls done : List Call} {rows : List Record} (hrows : Sound rows)
    (h : Keeps done rows) : Keeps (done ++ successes rows calls) (play rows calls) := by
  induction calls generalizing rows done with
  | nil => simpa [successes, play] using h
  | cons c calls ih =>
      have hnext := sound_after hrows c
      cases hok : succeeds rows c with
      | true =>
          have hkeeps := ih hnext (keeps_after hrows h hok)
          rw [List.append_assoc] at hkeeps
          rw [successes, if_pos hok]
          exact hkeeps
      | false =>
          have hsame := after_eq_self hrows hok
          rw [successes, if_neg (by simp [hok])]
          exact ih hnext (hsame.symm ▸ h)

/-- What one update may do to a table. -/
structure UpdateFramed (rows : List Record) (id : JsString) (patch : Patch) : Prop where
  /-- it throws for a value that the database refuses, or for a row left without a status -/
  throws : (∃ e, (updateLog rows id patch).1 = .error e) ↔
    Refused patch ∨ (NullStatus patch ∧ ∃ r ∈ rows, isRow id r = true)
  throw_unchanged : ∀ e, (updateLog rows id patch).1 = .error e → (updateLog rows id patch).2 = rows
  null : ∀ entry, (updateLog rows id patch).1 = .ok entry →
    (entry = none ↔ ¬∃ r ∈ rows, isRow id r = true)
  null_unchanged : (updateLog rows id patch).1 = .ok none → (updateLog rows id patch).2 = rows
  /-- the one row of the id is overlaid with the patch and returned -/
  written : ∀ entry, (updateLog rows id patch).1 = .ok (some entry) →
    (updateLog rows id patch).2 = (rows.map fun r => if isRow id r then overlay patch r else r) ∧
      ∃ r, rows.filter (isRow id) = [r] ∧ entry = toEntry (overlay patch r)

theorem filter_isRow {rows : List Record} (hrows : Sound rows) {id : JsString} {r : Record}
    (hr : r ∈ rows) (hid : isRow id r = true) : rows.filter (isRow id) = [r] := by
  have hkey : r .id = some id := by simpa [isRow] using hid
  have hone := Lib.Keyed.filter_key hrows.distinct hr
  rw [hkey] at hone
  exact hone

theorem updateFramed {rows : List Record} (hrows : Sound rows) (id : JsString) (patch : Patch) :
    UpdateFramed rows id patch := by
  by_cases hpatch : Refused patch
  · have hup : updateLog rows id patch = (.error bindError, rows) := updateLog_refused hpatch
    constructor <;> simp [hup, hpatch]
  cases h : rows.any (isRow id) with
  | false =>
      have hup := updateLog_missing hpatch h
      have hnone : ¬∃ r ∈ rows, isRow id r = true := by simpa using h
      constructor <;> simp [hup, hpatch, hnone]
  | true =>
      have hsome : ∃ r ∈ rows, isRow id r = true := by simpa using h
      by_cases hstatus : NullStatus patch
      · have hup := updateLog_null hrows hpatch hstatus h
        constructor <;> simp [hup, hstatus, hsome]
      · obtain ⟨r, hr, hid, hup⟩ := updateLog_ok hrows hpatch hstatus h
        have hfilter := filter_isRow hrows hr hid
        constructor <;> simp [hup, hpatch, hstatus, hsome, hfilter]

/-- After every history of calls: the rows keep what they were appended with, an update does
no more than its patch says, a call that throws changes nothing, and `getLog` gives the
appended entry overlaid with the patches of the updates that returned, in order. -/
theorem log_framed (calls : List Call) :
    Keeps (successes [] calls) (play [] calls) ∧
      (∀ id patch, UpdateFramed (play [] calls) id patch) ∧
      (∀ e x, (appendLog (play [] calls) e).1 = .error x →
        (appendLog (play [] calls) e).2 = play [] calls) ∧
      ∀ id, getLog (play [] calls) id =
        ((successes [] calls).foldl (overlaid id) none).map toEntry := by
  have hrows := sound_play sound_nil calls
  refine ⟨?_, updateFramed hrows, ?_, ?_⟩
  · have hstart : Keeps [] [] := ⟨by simp, by simp⟩
    exact keeps_play sound_nil hstart
  · intro e x hx
    rcases appendLog_cases (play [] calls) e with ⟨y, hy⟩ | ⟨hok, -, -⟩
    · rw [hy]
    · rw [hok] at hx
      cases hx
  · intro id
    rw [getLog, find_play sound_nil]
    rfl

end SmsGateway.SentTable
