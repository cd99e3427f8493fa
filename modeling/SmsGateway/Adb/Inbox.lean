import SmsGateway.Adb.Files
import SmsGateway.InboxStore
import SmsGateway.Lib.Serialized

/-!
# Draining the bridge's files

`fetchAndStore` on an ADB device whose shell commands may fail, or be cut off after any
part of their work. No SMS arrives meanwhile.
-/

namespace SmsGateway.Adb.Inbox

open SmsGateway Json InboxStore
open Lib Lib.Async Lib.Serialized

/-! ## The device and the gateway -/

/-- A call of `saveReceived` that committed, with the SMS of the file it came from. -/
structure Batch where
  lines : List Captured
  receivedAt : JsString
  rows : List Row

/-- A removal of the reading file: its content, what the call's drain had printed, and the
SMS saved before the call and up to the removal. -/
structure Removal where
  file : File
  output : File
  before : List Captured
  saved : List Captured

structure Device where
  /-- `incoming.jsonl` -/
  incoming : List Captured
  /-- `incoming.reading.jsonl` -/
  reading : File
  committed : List Batch
  removals : List Removal
  /-- what the running call's drain has printed, and the SMS saved before the call -/
  output : File
  before : List Captured

def Device.saved (d : Device) : List Captured := d.committed.flatMap (·.lines)

/-- Every message line of a removed file was part of a `persist` call that resolved. -/
def Removal.Saved (r : Removal) : Prop := ∀ c, .whole c ∈ r.file → c ∈ r.saved

/-- The files as the app has left them. -/
def written (incoming reading : List Captured) : Device :=
  { incoming, reading := reading.map .whole, committed := [], removals := [], output := []
    before := [] }

def Device.enter (d : Device) : Device := { d with output := [], before := d.saved }

/-- The drain script up to some point: so many characters of the log are copied, or the log is
folded into the reading file. -/
inductive Folds (d : Device) : Device → Prop where
  | unchanged : Folds d d
  | copied (n : Nat) : Folds d { d with reading := d.reading ++ cutAt [] n (d.incoming.map .whole) }
  | moved : Folds d { d with reading := d.reading ++ d.incoming.map .whole, incoming := [] }

/-- How `adb shell` may end with the drain script. -/
inductive Drains (d : Device) : Except JsError JsString → Device → Prop where
  | printed {d' : Device} (h : Folds d d') {eol : JsString} (heol : IsEol eol) :
      Drains d (.ok (fileText eol d'.reading)) { d' with output := d'.reading }
  | cut {d' : Device} (h : Folds d d') {eol : JsString} (heol : IsEol eol) (n : Nat) :
      Drains d (.ok (fileText eol (cutAt eol n d'.reading)))
        { d' with output := cutAt eol n d'.reading }
  | failed {d' : Device} (h : Folds d d') (e : JsError) :
      Drains d (.error e) { d' with output := [] }

def Device.remove (d : Device) : Device :=
  { d with
    reading := []
    removals := d.removals ++ [⟨d.reading, d.output, d.before, d.saved⟩] }

/-- `rm -f` may take effect or not, whatever the answer. -/
inductive Removes (d : Device) : Except JsError JsString → Device → Prop where
  | removed (a : Except JsError JsString) : Removes d a d.remove
  | kept (a : Except JsError JsString) : Removes d a d

def incoming (modemId : JsString) (m : Message) : Incoming :=
  { status := m.status, sender := m.sender, date := m.date, text := m.text, modemId }

def Device.commit (d : Device) (receivedAt : JsString) (rows : List Row) : Device :=
  { d with committed := d.committed ++ [⟨readable .nothing d.output, receivedAt, rows⟩] }

/-- `saveReceived`: all rows or none. -/
inductive Persists (modemId : JsString) (d : Device) (messages : List Message) :
    Except JsError Unit → Device → Prop where
  | committed (receivedAt : JsString) : Persists modemId d messages (.ok ())
      (d.commit receivedAt (insertAll (messages.map (incoming modemId)) receivedAt))
  | rejected (e : JsError) : Persists modemId d messages (.error e) d

def Acts (modemId : JsString) (d : Device) : (op : Op) → Ans op → Device → Prop
  | .isConnected, _, d' => d' = d
  | .adb args _, a, d' =>
      if args = [js "shell", drain] then Drains d a d'
      else if args = [js "shell", removeReading] then Removes d a d'
      else d' = d
  | .persist messages, a, d' => Persists modemId d messages a d'

def world (modemId : JsString) : World Device Op Ans :=
  { acts := Acts modemId, spont := fun _ _ => False, enter := Device.enter }

/-- `fetchAndStore(modem)`. -/
def fetchAndStore (otherDate : JsValue → Except JsError JsString) (bridgePkg : Option JsString)
    (modemId : JsString) : Prog (List Incoming) := do
  let messages ← getMessages otherDate bridgePkg true
  return messages.map (incoming modemId)

/-! ## What a drain is for -/

/-- The row of an SMS. -/
def rowOf (modemId receivedAt : JsString) (c : Captured) : Row :=
  insertRow receivedAt (incoming modemId (report c))

/-- The reading file is removed only with saved lines, so every SMS is on the device or in
the table, and what is saved are exactly the rows that were inserted. -/
structure Kept (modemId : JsString) (captured : List Captured) (d : Device) : Prop where
  removed : ∀ r ∈ d.removals, r.Saved
  notLost : ∀ c ∈ captured, c ∈ d.incoming ∨ .whole c ∈ d.reading ∨ c ∈ d.saved
  rows : ∀ b ∈ d.committed, b.rows = b.lines.map (rowOf modemId b.receivedAt)

/-- Every message line of the file can be read in what the drain has printed, or was saved
before the call. -/
def Removal.Careful (r : Removal) : Prop :=
  ∀ c, .whole c ∈ r.file → c ∈ readable .nothing r.output ∨ c ∈ r.before

/-- What holds of every run: a call saves what its drain has printed, and a line can only be
lost by a removal without it being saved. -/
structure Base (modemId : JsString) (captured : List Captured) (d : Device) : Prop where
  removed : ∀ r ∈ d.removals, r.saved = r.before ++ readable .nothing r.output
  notLost : ∀ c ∈ captured, c ∈ d.incoming ∨ .whole c ∈ d.reading ∨ c ∈ d.saved ∨
    ∃ r ∈ d.removals, .whole c ∈ r.file ∧ c ∉ r.saved
  rows : ∀ b ∈ d.committed, b.rows = b.lines.map (rowOf modemId b.receivedAt)

theorem Removal.saved_iff_careful {r : Removal} (h : r.saved = r.before ++ readable .nothing r.output) :
    r.Saved ↔ r.Careful := by
  simp only [Removal.Saved, Removal.Careful, h, List.mem_append, or_comm]

theorem Base.kept_iff {modemId : JsString} {captured : List Captured} {d : Device}
    (h : Base modemId captured d) : Kept modemId captured d ↔ ∀ r ∈ d.removals, r.Careful := by
  constructor
  · exact fun hk r hr => (Removal.saved_iff_careful (h.removed r hr)).mp (hk.removed r hr)
  · intro hc
    have hsaved : ∀ r ∈ d.removals, r.Saved :=
      fun r hr => (Removal.saved_iff_careful (h.removed r hr)).mpr (hc r hr)
    refine ⟨hsaved, ?_, h.rows⟩
    intro c hcap
    rcases h.notLost c hcap with hin | hread | hin | ⟨r, hr, hfile, hnot⟩
    · exact Or.inl hin
    · exact Or.inr (Or.inl hread)
    · exact Or.inr (Or.inr hin)
    · exact absurd (hsaved r hr c hfile) hnot

/-! ## Steps of a call -/

section

variable {modemId : JsString} {captured : List Captured} {d d' : Device}

theorem base_written (lines reading : List Captured) :
    Base modemId (lines ++ reading) (written lines reading) := by
  refine ⟨nofun, ?_, nofun⟩
  intro c hc
  rcases List.mem_append.mp hc with hc | hc
  · exact Or.inl hc
  · exact Or.inr (Or.inl (List.mem_map_of_mem hc))

/-- However far the script gets, it takes no line off the device. -/
theorem Base.folds (h : Base modemId captured d) (hf : Folds d d') : Base modemId captured d' := by
  cases hf with
  | unchanged => exact h
  | copied n =>
      refine { h with notLost := fun c hc => ?_ }
      exact (h.notLost c hc).imp_right (Or.imp_left (List.mem_append_left _))
  | moved =>
      refine { h with notLost := fun c hc => ?_ }
      rcases h.notLost c hc with hin | hrest
      · exact Or.inr (Or.inl (List.mem_append_right _ (List.mem_map_of_mem hin)))
      · exact Or.inr (hrest.imp_left (List.mem_append_left _))

theorem saved_commit (receivedAt : JsString) (rows : List Row) :
    (d.commit receivedAt rows).saved = d.saved ++ readable .nothing d.output := by
  simp [Device.saved, Device.commit]

theorem Base.commit (h : Base modemId captured d) (receivedAt : JsString) {rows : List Row}
    (hrows : rows = (readable .nothing d.output).map (rowOf modemId receivedAt)) :
    Base modemId captured (d.commit receivedAt rows) := by
  refine { h with notLost := ?_, rows := ?_ }
  · intro c hc
    rw [saved_commit]
    exact (h.notLost c hc).imp_right (Or.imp_right (Or.imp_left (List.mem_append_left _)))
  · intro b hb
    rcases List.mem_append.mp hb with hb | hb
    · exact h.rows b hb
    · rw [List.mem_singleton.mp hb]
      exact hrows

/-- The file is removed after everything that the drain has printed was saved. -/
theorem Base.remove (h : Base modemId captured d)
    (hsaved : d.saved = d.before ++ readable .nothing d.output) : Base modemId captured d.remove := by
  refine { h with removed := ?_, notLost := ?_ }
  · intro r hr
    rcases List.mem_append.mp hr with hr | hr
    · exact h.removed r hr
    · rw [List.mem_singleton.mp hr]
      exact hsaved
  · intro c hc
    rcases h.notLost c hc with hin | hread | hin | ⟨r, hr, hlost⟩
    · exact Or.inl hin
    · by_cases hs : c ∈ d.saved
      · exact Or.inr (Or.inr (Or.inl hs))
      · exact Or.inr (Or.inr (Or.inr ⟨_, List.mem_append_right _ List.mem_cons_self, hread, hs⟩))
    · exact Or.inr (Or.inr (Or.inl hin))
    · exact Or.inr (Or.inr (Or.inr ⟨r, List.mem_append_left _ hr, hlost⟩))

/-- What a running call knows before it has saved anything. -/
structure Running (modemId : JsString) (captured : List Captured) (d : Device) : Prop where
  base : Base modemId captured d
  saved : d.saved = d.before

theorem Folds.same (h : Folds d d') : d'.saved = d.saved ∧ d'.before = d.before := by
  cases h <;> exact ⟨rfl, rfl⟩

theorem Running.drains (h : Running modemId captured d) {a : Except JsError JsString}
    (hd : Drains d a d') : Running modemId captured d' ∧
      match a with
      | .ok out => ∃ eol, IsEol eol ∧ out = fileText eol d'.output
      | .error _ => d'.output = [] := by
  have hrun {d' : Device} (hf : Folds d d') (out : File) :
      Running modemId captured { d' with output := out } := by
    have hbase := h.base.folds hf
    exact ⟨⟨hbase.removed, hbase.notLost, hbase.rows⟩, by
      exact hf.same.1.trans (h.saved.trans hf.same.2.symm)⟩
  cases hd with
  | printed hf heol => exact ⟨hrun hf _, _, heol, rfl⟩
  | cut hf heol n => exact ⟨hrun hf _, _, heol, rfl⟩
  | failed hf e => exact ⟨hrun hf _, rfl⟩

/-! ## One call -/

variable {otherDate : JsValue → Except JsError JsString} {α : Type}

/-- What the rest of a call has to keep. -/
abbrev Keeps (modemId : JsString) (captured : List Captured) : Prog α → Device → Prop :=
  Safe (world modemId) (Base modemId captured) fun _ => Base modemId captured

theorem acts_adb (args : List JsString) (timeoutMs : Nat) (a : Except JsError JsString) :
    (world modemId).acts d (.adb args timeoutMs) a d' =
      if args = [js "shell", drain] then Drains d a d'
      else if args = [js "shell", removeReading] then Removes d a d'
      else d' = d := rfl

/-- The removal at the end of a call. -/
theorem safe_remove (h : Base modemId captured d)
    (hsaved : d.saved = d.before ++ readable .nothing d.output)
    {f : JsString → Prog α} (hf : ∀ out d, Base modemId captured d → Keeps modemId captured (f out) d) :
    Keeps modemId captured
      ((adb [js "shell", removeReading]).catchError (fun _ => pure []) >>= f) d := by
  have hne : [js "shell", removeReading] ≠ [js "shell", drain] := by decide
  refine safe_bind (safe_catchError (safe_call (fun d' => Base modemId captured d' ∧
    d'.saved = d'.before ++ readable .nothing d'.output) ⟨h, hsaved⟩
    (fun d' h => h.1) (fun _ _ _ => False.elim) ?_))
  rintro d a d' ⟨h, hsaved⟩ ha
  rw [acts_adb, if_neg hne, if_pos rfl] at ha
  have hbase : Base modemId captured d' := by
    cases ha with
    | removed => exact h.remove hsaved
    | kept => exact h
  cases a with
  | ok out => exact hf out d' hbase
  | error e => exact hf [] d' hbase

/-- A call saves the lines that its drain has printed. -/
theorem safe_persist (h : Running modemId captured d) {messages : List Message}
    (hmessages : messages = (readable .nothing d.output).map report) {g : Unit → Prog α}
    (hg : ∀ d, Base modemId captured d → d.saved = d.before ++ readable .nothing d.output →
      Keeps modemId captured (g ()) d) :
    Keeps modemId captured (callPersist messages >>= g) d := by
  refine safe_call (fun d' => Running modemId captured d' ∧
    messages = (readable .nothing d'.output).map report) ⟨h, hmessages⟩
    (fun d' h => h.1.base) (fun _ _ _ => False.elim) ?_
  rintro d a d' ⟨h, hmessages⟩ ha
  apply safe_ofExcept_bind
  cases ha with
  | committed receivedAt =>
      have hrows : insertAll (messages.map (incoming modemId)) receivedAt =
          (readable .nothing d.output).map (rowOf modemId receivedAt) := by
        rw [hmessages, insertAll, List.map_map, List.map_map]
        rfl
      refine hg _ (h.base.commit receivedAt hrows) ?_
      rw [saved_commit, h.saved]
      rfl
  | rejected e => exact h.base

/-- What a call does with the output of its drain. -/
theorem safe_output (h : Running modemId captured d) {messages : List Message}
    (hmessages : messages = (readable .nothing d.output).map report)
    {k : List Message → Prog α}
    (hk : ∀ d, Base modemId captured d → Keeps modemId captured (k messages) d) :
    Keeps modemId captured
      ((if messages ≠ [] ∧ true = true then
        callPersist messages >>= fun _ =>
          (adb [js "shell", removeReading]).catchError (fun _ => pure []) >>= fun _ => pure messages
      else (adb [js "shell", removeReading]).catchError (fun _ => pure []) >>= fun _ =>
        pure messages) >>= k) d := by
  by_cases hne : messages = []
  · rw [if_neg fun hp => hp.1 hne, bind_assoc]
    refine safe_remove h.base ?_ fun _ => hk
    rw [hne, eq_comm, List.map_eq_nil_iff] at hmessages
    rw [hmessages, List.append_nil, h.saved]
  · rw [if_pos ⟨hne, rfl⟩, bind_assoc]
    refine safe_persist h hmessages fun d hb hsaved => ?_
    rw [bind_assoc]
    exact safe_remove hb hsaved fun _ => hk

theorem safe_fetchAndStore (bridgePkg : Option JsString) (h : Running modemId captured d) :
    Keeps modemId captured (fetchAndStore otherDate bridgePkg modemId) d := by
  unfold fetchAndStore getMessages
  split
  · exact h.base
  rw [bind_assoc]
  refine safe_call (Running modemId captured) h (fun _ h => h.base) (fun _ _ _ => False.elim) ?_
  rintro d connected d' h rfl
  cases connected with
  | false => exact h.base
  | true =>
      show Keeps modemId captured (((adb [js "shell", drain]).catchError (fun _ => pure []) >>=
        fun out => _) >>= _) d'
      rw [bind_assoc]
      refine safe_bind (safe_catchError (safe_call (Running modemId captured) h (fun _ h => h.base)
        (fun _ _ _ => False.elim) ?_))
      intro d a d' h
      rw [acts_adb, if_pos rfl]
      intro hd
      obtain ⟨hrun, hout⟩ := h.drains hd
      cases a with
      | ok out =>
          obtain ⟨eol, heol, rfl⟩ := hout
          exact safe_output hrun (readLines_fileText otherDate heol _) fun _ hb => hb
      | error e =>
          have hout : d'.output = [] := hout
          have hread : readLines otherDate [] = (readable .nothing d'.output).map report := by
            rw [hout]
            rfl
          exact safe_output hrun hread fun _ hb => hb

end

theorem verified (otherDate : JsValue → Except JsError JsString) (bridgePkg : Option JsString)
    (modemId : JsString) (captured : List Captured) : Verified (world modemId)
      (fun p => p = fetchAndStore otherDate bridgePkg modemId) (Base modemId captured)
      (Base modemId captured) := by
  refine ⟨fun _ h => h, fun _ _ _ => False.elim, ?_⟩
  rintro p rfl d h
  exact safe_fetchAndStore bridgePkg ⟨⟨h.removed, h.notLost, h.rows⟩, rfl⟩

/-- The states of a device that holds these files and is read by calls of `fetchAndStore`. -/
abbrev DeviceReachable (otherDate : JsValue → Except JsError JsString) (bridgePkg : Option JsString)
    (modemId : JsString) (lines reading : List Captured) :=
  Reachable (world modemId) (fun p => p = fetchAndStore otherDate bridgePkg modemId)
    (written lines reading)

/-- After any number of calls, nothing is lost exactly when every removal was careful. -/
theorem drain_keeps_iff {otherDate : JsValue → Except JsError JsString}
    {bridgePkg : Option JsString} {modemId : JsString} {lines reading : List Captured}
    {s : Sys Device Op Ans JsError (List Incoming)}
    (h : DeviceReachable otherDate bridgePkg modemId lines reading s) :
    Kept modemId (lines ++ reading) s.world ↔ ∀ r ∈ s.world.removals, r.Careful :=
  (observe_reachable (verified otherDate bridgePkg modemId (lines ++ reading))
    (base_written lines reading) h).kept_iff

/-! ## Whole calls -/

/-- A guarded command that rejects is taken to have printed nothing. -/
theorem completes_adb {modemId : JsString} {args : List JsString} {d d' d'' : Device} {α : Type}
    {a : Except JsError JsString} {f : JsString → Prog α} {r : Except JsError α}
    (ha : (world modemId).acts d (.adb args adbTimeoutMs) a d')
    (h : Completes (world modemId) d' (f (a.toOption.getD [])) r d'') :
    Completes (world modemId) d ((adb args).catchError (fun _ => pure []) >>= f) r d'' := by
  cases a with
  | ok out => exact .act ha h
  | error e => exact .act ha h

section

variable {otherDate : JsValue → Except JsError JsString} {pkg modemId : JsString}
  {d d' d'' : Device}

theorem completes_drain {α : Type} {a : Except JsError JsString} {f : JsString → Prog α}
    {r : Except JsError α} (hd : Drains d a d')
    (h : Completes (world modemId) d' (f (a.toOption.getD [])) r d'') :
    Completes (world modemId) d ((adb [js "shell", drain]).catchError (fun _ => pure []) >>= f) r
      d'' := by
  refine completes_adb ?_ h
  rw [acts_adb, if_pos rfl]
  exact hd

theorem completes_remove {α : Type} {f : JsString → Prog α} {r : Except JsError α}
    (h : Completes (world modemId) d.remove (f []) r d'') :
    Completes (world modemId) d
      ((adb [js "shell", removeReading]).catchError (fun _ => pure []) >>= f) r d'' := by
  have hne : [js "shell", removeReading] ≠ [js "shell", drain] := by decide
  refine completes_adb (a := .ok []) ?_ h
  rw [acts_adb, if_neg hne, if_pos rfl]
  exact .removed _

/-- What a drain has printed is saved, if it is anything, and then the reading file is removed. -/
theorem completes_read {a : Except JsError JsString} {messages : List Message} (hd : Drains d a d')
    (hread : readLines otherDate (a.toOption.getD []) = messages)
    (hp : if messages = [] then d'' = d' else Persists modemId d' messages (.ok ()) d'') :
    Completes (world modemId) d (fetchAndStore otherDate (some pkg) modemId)
      (.ok (messages.map (incoming modemId))) d''.remove := by
  unfold fetchAndStore getMessages
  rw [if_neg nofun, bind_assoc]
  have hconnected : (world modemId).acts d .isConnected true d := rfl
  refine .act hconnected ?_
  show Completes _ d (((adb [js "shell", drain]).catchError (fun _ => pure []) >>= fun out => _) >>= _) _ _
  rw [bind_assoc]
  refine completes_drain hd ?_
  rw [hread]
  by_cases hnil : messages = []
  · rw [if_pos hnil] at hp
    subst hp
    rw [if_neg fun h => h.1 hnil, bind_assoc]
    exact completes_remove (.done _ (.ok _))
  · rw [if_neg hnil] at hp
    rw [if_pos ⟨hnil, rfl⟩, bind_assoc]
    refine .act hp ?_
    show Completes _ d'' (((adb [js "shell", removeReading]).catchError (fun _ => pure []) >>=
      fun _ => _) >>= _) _ _
    rw [bind_assoc]
    exact completes_remove (.done _ (.ok _))

/-- What a drain has printed is saved. -/
theorem completes_saved {out : JsString} {messages : List Message} (hd : Drains d (.ok out) d')
    (hread : readLines otherDate out = messages) (hne : messages ≠ [])
    (hp : Persists modemId d' messages (.ok ()) d'') :
    Completes (world modemId) d (fetchAndStore otherDate (some pkg) modemId)
      (.ok (messages.map (incoming modemId))) d''.remove :=
  completes_read hd hread (by rwa [if_neg hne])

/-- A drain that rejects is taken for an empty inbox: the reading file is removed unread. -/
theorem completes_unread {e : JsError} (hd : Drains d (.error e) d') :
    Completes (world modemId) d (fetchAndStore otherDate (some pkg) modemId) (.ok []) d'.remove := by
  have hread : readLines otherDate ((Except.error e : Except JsError JsString).toOption.getD []) = [] := rfl
  exact completes_read hd hread (by rw [if_pos rfl])

end

/-- An SMS in the log of the app. -/
def greeting : Captured := ⟨0, js "+99361234567", js "Hi", 1714550400123, by decide⟩

def invalidDate : JsValue → Except JsError JsString :=
  fun _ => .error (newError (js "Invalid time value"))

abbrev GreetingReachable :=
  DeviceReachable invalidDate (some (js "com.smsbridge")) (js "adb1") [greeting] []

/-- The device when a drain has folded its log. -/
def folded : Device :=
  { (written [greeting] []).enter with incoming := [], reading := [.whole greeting] }

theorem folds_greeting : Folds (written [greeting] []).enter folded := .moved

/-- What a drain has printed that was cut off just before its last line feed. -/
def cutOutput : File := [.torn greeting (line greeting).length]

def drained : Device := { folded with output := cutOutput }

theorem drains_cut : Drains (written [greeting] []).enter (.ok (fileText [] cutOutput)) drained := by
  have hcut : cutAt [] (line greeting).length folded.reading = cutOutput := by
    obtain ⟨n, hn⟩ := Nat.exists_eq_succ_of_ne_zero
      (List.length_pos_of_ne_nil (line_ne_nil greeting)).ne'
    have hlong : ¬ ((Entry.whole greeting).text []).length ≤ n + 1 := by
      simp only [Entry.text, List.length_append, List.length_nil, List.length_singleton]
      omega
    rw [cutOutput, hn, folded, cutAt, if_neg hlong]
    rfl
  have hdrains : Drains (written [greeting] []).enter _ _ :=
    .cut folds_greeting (Or.inl rfl) (line greeting).length
  rw [hcut] at hdrains
  exact hdrains

theorem readable_cut : readable .nothing cutOutput = [greeting] := by
  have hpos := List.length_pos_of_ne_nil (line_ne_nil greeting)
  rw [cutOutput, readable, Held.extend, if_neg hpos.ne', if_pos ⟨rfl, le_refl _⟩]
  rfl

def receivedAt : JsString := js "2024-05-01T08:00:01.000Z"

def greetingRow : Row := rowOf (js "adb1") receivedAt greeting

def saved : Device := drained.commit receivedAt [greetingRow]

/-- An SMS is read, saved and only then removed, from an output that lacks its last line feed. -/
theorem drain_keeps_iff_greeting : ∃ s, GreetingReachable s ∧ s.running = none ∧
    s.world.removals = [⟨[.whole greeting], cutOutput, [], [greeting]⟩] ∧
    Kept (js "adb1") [greeting] s.world := by
  have hread : readLines invalidDate (fileText [] cutOutput) = [report greeting] := by
    rw [readLines_fileText invalidDate (Or.inl rfl), readable_cut]
    rfl
  have hpersist : Persists (js "adb1") drained [report greeting] (.ok ()) saved :=
    .committed receivedAt
  have hreach : GreetingReachable ⟨saved.remove, [], none⟩ :=
    Reachable.start.call rfl (completes_saved drains_cut hread (List.cons_ne_nil _ _) hpersist)
  have hremovals : saved.remove.removals = [⟨[.whole greeting], cutOutput, [], [greeting]⟩] := by
    show [] ++ [Removal.mk [.whole greeting] cutOutput [] (readable .nothing cutOutput ++ [])] = _
    rw [readable_cut]
    rfl
  refine ⟨_, hreach, rfl, hremovals, (drain_keeps_iff hreach).mpr ?_⟩
  rw [hremovals]
  intro r hr c hc
  rw [List.mem_singleton.mp hr] at hc ⊢
  show c ∈ readable .nothing cutOutput ∨ c ∈ []
  rw [readable_cut]
  rw [Entry.whole.inj (List.mem_singleton.mp hc)]
  exact Or.inl List.mem_cons_self

/-- The drain has folded the log, but rejects; the file is removed all the same. -/
theorem rejected_drain_loses : ∃ s, GreetingReachable s ∧ ¬ Kept (js "adb1") [greeting] s.world := by
  have hdrain : Drains (written [greeting] []).enter _ { folded with output := [] } :=
    .failed folds_greeting (newError (js "Command failed: adb shell"))
  have hreach : GreetingReachable ⟨Device.remove { folded with output := [] }, [], none⟩ :=
    Reachable.start.call rfl (completes_unread hdrain)
  refine ⟨_, hreach, fun h => ?_⟩
  exact List.not_mem_nil (h.removed _ List.mem_cons_self greeting List.mem_cons_self)

end SmsGateway.Adb.Inbox
