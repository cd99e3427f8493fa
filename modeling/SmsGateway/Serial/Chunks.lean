import SmsGateway.Serial.Current
import SmsGateway.Unicode

/-!
# The modem's octets in chunks

`handleData` as the port calls it, with the octets of a chunk. Each chunk is decoded on its own:
how the port cuts the stream makes no difference exactly as long as no character is cut.
-/

namespace SmsGateway.Serial

open SmsGateway Lib

/-- `handleData(chunk)`: the lines handed on, and `rxBuffer` behind the loop. -/
def handleData (rxBuffer : JsString) (chunk : List Nat) : List JsString × JsString :=
  readLines (rxBuffer ++ utf8Decode chunk)

/-- One chunk after the other. -/
def feed (rxBuffer : JsString) : List (List Nat) → List JsString × JsString
  | [] => ([], rxBuffer)
  | chunk :: chunks =>
      let r := handleData rxBuffer chunk
      let t := feed r.2 chunks
      (r.1 ++ t.1, t.2)

/-- How the stream was cut makes no difference. -/
structure Unaffected (rxBuffer : JsString) (chunks : List (List Nat)) : Prop where
  lines : (feed rxBuffer chunks).1 = (handleData rxBuffer chunks.flatten).1
  buffer : (feed rxBuffer chunks).2 = (handleData rxBuffer chunks.flatten).2
  /-- a turn of the loop leaves less text than it found -/
  terminates : ∀ rx line rest, cutLine rx = some (line, rest) → rest.length < rx.length

/-! ## The driver's own loop -/

section

open Machine

/-- The driver takes up a chunk. -/
theorem step_handleData {s : State} (hscan : s.scan = none) (hdue : due s = false)
    (hconnected : s.connected = true) (chunk : List Nat) :
    step s (.data (utf8Decode chunk)) =
      some { s with rxBuffer := (handleData s.rxBuffer chunk).2
                    scan := some (handleData s.rxBuffer chunk).1 } := by
  simp [step, react, hscan, hdue, hconnected, handleData]

theorem expectsPrompt_receive {s : State} {r : Running} (hr : s.running = some r)
    (h : expectsPrompt s = false) (line : JsString) :
    expectsPrompt (s.mapRunning (·.receive line)) = false := by
  simp only [expectsPrompt, State.mapRunning, hr, Option.map_some] at h ⊢
  cases hph : r.phase with
  | command c k =>
      simp only [hph] at h
      by_cases hterminal : isTerminalLine line = true
      · by_cases herror : isErrorLine line = true
        · simp [Running.receive, Running.settle, hph, hterminal, herror]
        · simp [Running.receive, Running.settle, hph, hterminal, herror]
      · simp [Running.receive, hph, hterminal, h]
  | ready p => simp [Running.receive, hph]
  | quiet d q k => simp [Running.receive, hph]
  | urc w k => simp [Running.receive, hph]
  | persist l k => simp [Running.receive, hph]

theorem expectsPrompt_resolveWaiter {s : State} (h : expectsPrompt s = false) (w : Waiter)
    (line : Option JsString) : expectsPrompt (resolveWaiter s w line) = false := by
  simp only [expectsPrompt, resolveWaiter] at h ⊢
  cases hr : s.running with
  | none => rfl
  | some r =>
      simp only [hr, Option.map_some] at h ⊢
      cases hph : r.phase with
      | command c k =>
          simp only [hph] at h
          simp only [Running.resolveUrc, hph, h]
      | urc v k =>
          by_cases hw : v = w.id
          · simp [Running.resolveUrc, hph, hw]
          · simp [Running.resolveUrc, hph, hw]
      | ready p => simp [Running.resolveUrc, hph]
      | quiet d q k => simp [Running.resolveUrc, hph]
      | persist l k => simp [Running.resolveUrc, hph]

/-- A line does not make the driver wait for a prompt. -/
theorem expectsPrompt_handleLine {s : State} (h : expectsPrompt s = false) (line : JsString) :
    expectsPrompt (handleLine s line) = false := by
  unfold handleLine
  split
  · exact expectsPrompt_resolveWaiter h _ _
  · cases hr : s.running with
    | none => simp [expectsPrompt, State.mapRunning, hr]
    | some r => exact expectsPrompt_receive hr h line

theorem handleLine_scan (s : State) (scan : Option (List JsString)) (line : JsString) :
    handleLine { s with scan } line = { handleLine s line with scan } := by
  simp only [handleLine]
  cases s.urcWaiters.find? (takes line) <;> rfl

theorem same_scan {s : State} (h : s.scan = none) : { s with scan := none } = s := by
  rw [← h]

/-- Lines are handled in turn, and while no prompt is awaited the rest of the text stays. -/
theorem run_scans {s : State} (hscan : s.scan = none) (hprompt : expectsPrompt s = false)
    (lines : List JsString) :
    Machine.run { s with scan := some lines } (List.replicate (lines.length + 1) .scan) =
      some (lines.foldl handleLine s) := by
  induction lines generalizing s with
  | nil =>
      have hstep : step { s with scan := some [] } .scan = some { s with scan := none } := by
        have hnone : expectsPrompt { s with scan := some [] } = false := hprompt
        simp [step, runScan, hnone]
      rw [same_scan hscan] at hstep
      exact (congrArg (·.bind fun s => Machine.run s []) hstep).trans rfl
  | cons line lines ih =>
      have hstep : step { s with scan := some (line :: lines) } .scan =
          some { handleLine s line with scan := some lines } := by
        rw [← handleLine_scan]
        rfl
      have hscan' : (handleLine s line).scan = none := (Same.handleLine s line).scan.trans hscan
      have hrest := ih hscan' (expectsPrompt_handleLine hprompt line)
      rw [List.length_cons, List.replicate_succ, Machine.run, Runs.run, hstep]
      exact hrest

/-- The driver takes a chunk as `handleData` does, while no prompt is awaited. -/
theorem run_handleData {s : State} (hscan : s.scan = none) (hdue : due s = false)
    (hconnected : s.connected = true) (hprompt : expectsPrompt s = false) (chunk : List Nat) :
    Machine.run s (.data (utf8Decode chunk) ::
        List.replicate ((handleData s.rxBuffer chunk).1.length + 1) .scan) =
      some ((handleData s.rxBuffer chunk).1.foldl handleLine
        { s with rxBuffer := (handleData s.rxBuffer chunk).2 }) := by
  rw [Machine.run, Runs.run, step_handleData hscan hdue hconnected]
  exact run_scans (s := { s with rxBuffer := (handleData s.rxBuffer chunk).2 }) hscan hprompt _

end

/-! ## The chunks of a stream -/

/-- Chunk by chunk the loop reads the text of all chunks. -/
theorem feed_eq (rxBuffer : JsString) {chunks : List (List Nat)} (h : chunks ≠ []) :
    feed rxBuffer chunks = readLines (rxBuffer ++ chunks.flatMap utf8Decode) := by
  induction chunks generalizing rxBuffer with
  | nil => exact absurd rfl h
  | cons chunk chunks ih =>
      by_cases hlast : chunks = []
      · subst hlast
        simp [feed, handleData]
      · rw [feed, List.flatMap_cons, ← List.append_assoc, readLines_append, ih _ hlast, handleData,
          readLines_eq, readLines_eq]

/-- The damage in what the loop hands on and keeps. -/
def readDamage (r : List JsString × JsString) : Nat := damage r.1.flatten + damage r.2

theorem damage_dropWhile (s : JsString) : damage (s.dropWhile isSpace) = damage s := by
  induction s with
  | nil => rfl
  | cons c s ih =>
      rw [List.dropWhile_cons]
      split
      case isTrue hspace =>
        have hc : c ≠ replacement := by
          rintro rfl
          exact absurd hspace (by decide)
        rw [ih, damage, damage, List.count_cons_of_ne hc]
      case isFalse => rfl

theorem damage_trim (s : JsString) : damage (trim s) = damage s := by
  have hreverse (t : JsString) : damage t.reverse = damage t := List.count_reverse
  rw [trim, trimEnd, hreverse, damage_dropWhile, hreverse, trimStart, damage_dropWhile]

/-- The loop loses blanks and line breaks, never a U+FFFD. -/
theorem readDamage_readLines (rx : JsString) : readDamage (readLines rx) = damage rx := by
  rw [readLines_eq, readDamage]
  induction hn : rx.length using Nat.strong_induction_on generalizing rx with
  | _ n ih =>
      by_cases hlf : LF ∈ rx
      · obtain ⟨p, rest, hp, rfl⟩ := Lines.exists_piece hlf
        have hlt : rest.length < n := by
          rw [← hn, List.length_append, List.length_cons]
          omega
        have hrest := ih rest.length hlt rest rfl
        have hbreak : damage (LF :: rest) = damage rest :=
          List.count_cons_of_ne (by decide)
        have hline : damage (if trim p = [] then ([] : List JsString) else [trim p]).flatten =
            damage p := by
          rw [← damage_trim p]
          split
          case isTrue he => rw [he]; rfl
          case isFalse => rw [List.flatten_singleton]
        rw [damage_append, hbreak, Lines.tail_piece hp, ← hrest, ← hline, linesOf,
          Lines.pieces_piece hp]
        by_cases he : trim p = []
        · simp [he, linesOf, damage]
        · simp [he, linesOf, damage_append]
          omega
      · simp [linesOf, Lines.pieces, Lines.tail, Lines.split_tail hlf, damage]

open Utf8 in
/-- Chunks that end between characters are decoded as their text. -/
theorem flatMap_utf8Decode {chunks : List (List Nat)} (h : ∀ c ∈ chunks, IsUtf8 c) :
    chunks.flatMap utf8Decode = (read .start chunks.flatten).1 ∧
      (read .start chunks.flatten).2 = .start := by
  induction chunks with
  | nil => exact ⟨rfl, rfl⟩
  | cons chunk chunks ih =>
      obtain ⟨s, hs, rfl⟩ := h chunk List.mem_cons_self
      obtain ⟨hrest, hend⟩ := ih fun c hc => h c (List.mem_cons_of_mem _ hc)
      have hread := (read_flatMap (List.all_eq_true.mp hs)).2
      rw [List.flatMap_cons, utf8Decode_utf8Octets hs, hrest, List.flatten_cons, read_append,
        utf8Octets, hread, forOf_flatten]
      exact ⟨rfl, hend⟩

theorem flatMap_utf8Decode_eq {chunks : List (List Nat)} (h : ∀ c ∈ chunks, IsUtf8 c) :
    chunks.flatMap utf8Decode = utf8Decode chunks.flatten := by
  obtain ⟨hdecode, hend⟩ := flatMap_utf8Decode h
  rw [hdecode, utf8Decode, hend]
  simp only [Utf8.flush, List.append_nil]

/-- How the port cuts a UTF-8 stream makes no difference exactly when it cuts no character. -/
theorem unaffected_iff {rxBuffer : JsString} {chunks : List (List Nat)} (hne : chunks ≠ [])
    (hstream : IsUtf8 chunks.flatten) : Unaffected rxBuffer chunks ↔ ∀ c ∈ chunks, IsUtf8 c := by
  have haccepts := (isUtf8_iff _).mp hstream
  constructor
  · intro h
    have hsame : feed rxBuffer chunks = handleData rxBuffer chunks.flatten :=
      Prod.ext h.lines h.buffer
    rw [feed_eq rxBuffer hne, handleData] at hsame
    have hdamage := congrArg readDamage hsame
    rw [readDamage_readLines, readDamage_readLines, damage_append, damage_append] at hdamage
    have hend : (Utf8.read .start chunks.flatten).2 = .start := Utf8.end_of_accepts haccepts
    rw [utf8Decode, hend, damage_append] at hdamage
    have hflush : damage (Utf8.flush .start) = 0 := rfl
    have hall := (Utf8.damage_chunks haccepts).2 rfl (by omega)
    intro c hc
    exact (isUtf8_iff c).mpr (hall c hc)
  · intro h
    have hsame : feed rxBuffer chunks = handleData rxBuffer chunks.flatten := by
      rw [feed_eq rxBuffer hne, handleData, flatMap_utf8Decode_eq h]
    exact ⟨congrArg Prod.fst hsame, congrArg Prod.snd hsame, fun _ _ _ hcut => cutLine_length hcut⟩

/-- "Жду" cut between characters. -/
def whole : List (List Nat) := [[0xd0, 0x96], [0xd0, 0xb4, 0xd1, 0x83, 0x0d], [0x0a]]

theorem unaffected_iff_whole : Unaffected [] whole ↔ ∀ c ∈ whole, IsUtf8 c :=
  unaffected_iff (by decide) ⟨js "Жду\r\n", by decide, by decide⟩

/-- The same stream with its second letter cut in two. -/
def severed : List (List Nat) := [[0xd0, 0x96, 0xd0], [0xb4, 0xd1, 0x83, 0x0d, 0x0a]]

theorem severed_affected : IsUtf8 severed.flatten ∧ ¬Unaffected [] severed := by
  constructor
  · exact ⟨js "Жду\r\n", by decide, by decide⟩
  · intro h
    have hlines := h.lines
    rw [feed_eq [] (by decide), handleData, readLines_eq, readLines_eq] at hlines
    exact absurd hlines (by decide +kernel)

end SmsGateway.Serial
