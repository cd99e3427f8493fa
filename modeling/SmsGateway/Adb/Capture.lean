import SmsGateway.Adb.Bridge
import SmsGateway.Lib.Runs

/-!
# Captures during a drain

`SmsReceiver.onReceive` appends to `incoming.jsonl` while the shell runs the drain script. A
file that is removed lives on for those who have it open. The commands of a drain and its
`persist` succeed here, and without the directory neither file exists.
-/

namespace SmsGateway.Adb.Capture

open SmsGateway Json
open Lib

/-- What `Out.append` is given for the SMS. -/
def logText (sms : List Captured) : JsString := sms.flatMap fun c => line c ++ [LF]

/-- A call of `Out.append` that has opened its file. -/
structure Append where
  sms : Captured
  file : Nat
  written : Bool
  deriving DecidableEq

/-- How far the drain of the moment has come. -/
inductive Stage where
  | idle
  /-- the log is there -/
  | found
  /-- `cat` has read so much of the file it has opened -/
  | copying (file copied : Nat)
  /-- `cat` has read to the end -/
  | copied (file copied : Nat)
  | folded
  /-- the gateway has the output, the reading file is still there -/
  | printed
  deriving DecidableEq

structure State where
  /-- every file that `incoming.jsonl` has been the name of -/
  files : List JsString
  /-- the one it is the name of now -/
  log : Option Nat
  /-- `incoming.reading.jsonl` -/
  reading : JsString
  appends : List Append
  stage : Stage
  outputs : List JsString
  /-- the SMS whose lines have been written -/
  written : List Captured
  deriving DecidableEq

/-- The device with what an earlier drain has left in the reading file. -/
def start (left : List Captured) : State :=
  { files := [], log := none, reading := logText left, appends := [], stage := .idle, outputs := []
    written := left }

inductive Event where
  | opens (c : Captured)
  | writes (i : Nat)
  | closes (i : Nat)
  /-- `[ -f incoming.jsonl ]` -/
  | test
  /-- `cat incoming.jsonl >> incoming.reading.jsonl` opens the log, copies some more, ends -/
  | cat
  | copies (n : Nat)
  | catEnds
  /-- `rm -f incoming.jsonl` -/
  | removesLog
  /-- `cat incoming.reading.jsonl` -/
  | prints
  /-- the driver's own `rm -f` -/
  | removesReading

def State.content (s : State) (file : Nat) : JsString := s.files.getD file []

def step (s : State) : Event → Option State
  | .opens c =>
      match s.log with
      | some f => some { s with appends := s.appends ++ [⟨c, f, false⟩] }
      | none => some { s with
          files := s.files ++ [[]]
          log := some s.files.length
          appends := s.appends ++ [⟨c, s.files.length, false⟩] }
  | .writes i =>
      match s.appends[i]? with
      | some a =>
          if a.written then none
          else some { s with
            files := s.files.modify a.file fun text => text ++ (line a.sms ++ [LF])
            appends := s.appends.set i { a with written := true }
            written := s.written ++ [a.sms] }
      | none => none
  | .closes i =>
      match s.appends[i]? with
      | some a => if a.written then some { s with appends := s.appends.eraseIdx i } else none
      | none => none
  | .test =>
      match s.stage with
      | .idle => some { s with stage := if s.log.isSome then .found else .folded }
      | _ => none
  | .cat =>
      match s.stage, s.log with
      | .found, some f => some { s with stage := .copying f 0 }
      | _, _ => none
  | .copies n =>
      match s.stage with
      | .copying f k =>
          if k + n ≤ (s.content f).length then
            some { s with
              reading := s.reading ++ ((s.content f).drop k).take n
              stage := .copying f (k + n) }
          else none
      | _ => none
  | .catEnds =>
      match s.stage with
      | .copying f k => if k = (s.content f).length then some { s with stage := .copied f k } else none
      | _ => none
  | .removesLog =>
      match s.stage with
      | .copied _ _ => some { s with log := none, stage := .folded }
      | _ => none
  | .prints =>
      match s.stage with
      | .folded => some { s with outputs := s.outputs ++ [s.reading], stage := .printed }
      | _ => none
  | .removesReading =>
      match s.stage with
      | .printed => some { s with reading := [], stage := .idle }
      | _ => none

abbrev run : State → List Event → Option State := Runs.run step

/-! ## What is still to come -/

/-- How much of the log is in the reading file already. -/
def Stage.offset : Stage → Nat
  | .copying _ k => k
  | .copied _ k => k
  | _ => 0

/-- What of the log is not in the reading file. -/
def State.unread (s : State) : JsString :=
  match s.log with
  | some f => (s.content f).drop s.stage.offset
  | none => []

/-- What the gateway has not got of the two files. -/
def State.pending (s : State) : JsString :=
  (if s.stage = .printed then [] else s.reading) ++ s.unread

/-- Each drain has emitted whole lines, and with what is still to come they are the lines that
were written, each once. -/
def Delivered (s : State) : Prop :=
  ∃ (emitted : List (List Captured)) (waiting : List Captured),
    s.outputs = emitted.map logText ∧ s.pending = logText waiting ∧
      s.written = emitted.flatten ++ waiting

/-- A line is written to a file that is still the log, and the log is removed when `cat` has
read all of it. -/
def keeps (s : State) : Event → Bool
  | .writes i =>
      match s.appends[i]? with
      | some a => s.log == some a.file
      | none => true
  | .removesLog =>
      match s.stage with
      | .copied f k => (s.content f).length == k
      | _ => true
  | _ => true

/-! ## Lines -/

@[simp] theorem logText_nil : logText [] = [] := rfl

@[simp] theorem logText_append (a b : List Captured) : logText (a ++ b) = logText a ++ logText b :=
  List.flatMap_append

theorem logText_singleton (c : Captured) : logText [c] = line c ++ [LF] := by simp [logText]

theorem count_logText (sms : List Captured) : (logText sms).count LF = sms.length := by
  induction sms with
  | nil => rfl
  | cons c sms ih =>
      have hline : (line c).count LF = 0 := List.count_eq_zero.mpr (lf_not_mem_line c)
      have hcons : logText (c :: sms) = line c ++ LF :: logText sms := by simp [logText]
      rw [hcons, List.count_append, hline, List.count_cons_self, ih, List.length_cons]
      omega

theorem logText_eq_nil {sms : List Captured} (h : logText sms = []) : sms = [] := by
  have hcount := count_logText sms
  rw [h] at hcount
  exact List.length_eq_zero_iff.mp hcount.symm

theorem count_outputs (emitted : List (List Captured)) :
    ((emitted.map logText).map (·.count LF)).sum = emitted.flatten.length := by
  rw [List.map_map, List.length_flatten]
  congr 1
  exact List.map_congr_left fun sms _ => count_logText sms

/-- Delivered lines add up. -/
theorem Delivered.count {s : State} (h : Delivered s) :
    (s.outputs.map (·.count LF)).sum + s.pending.count LF = s.written.length := by
  obtain ⟨emitted, waiting, houtputs, hpending, hwritten⟩ := h
  rw [houtputs, count_outputs, hpending, count_logText, hwritten, List.length_append]

/-- The driver reports every line of an output. -/
theorem readLines_logText (otherDate : JsValue → Except JsError JsString) (sms : List Captured) :
    readLines otherDate (logText sms) = sms.map report := by
  have harrived : logText sms = arrivedText (sms.map fun c => (c, [])) := by
    simp [logText, arrivedText, List.flatMap_map]
  have heol : ∀ l ∈ sms.map fun c => (c, ([] : JsString)), IsEol l.2 := by
    intro l hl
    obtain ⟨c, -, rfl⟩ := List.mem_map.mp hl
    exact Or.inl rfl
  rw [harrived, readLines_arrived otherDate heol, List.map_map]
  rfl

/-! ## What the files show -/

/-- The lines in the files: those the drains have emitted, those of the reading file, and those
of the log, a part of which may be copied already. -/
structure Shows (s : State) (emitted : List (List Captured)) (read logged : List Captured) :
    Prop where
  outputs : s.outputs = emitted.map logText
  log : ∀ f, s.log = some f → s.files[f]? = some (logText logged)
  noLog : s.log = none → logged = []
  stage : match s.stage with
    | .found => s.log ≠ none ∧ s.reading = logText read
    | .copying f k => s.log = some f ∧ k ≤ (logText logged).length ∧
        s.reading = logText read ++ (logText logged).take k
    | .copied f k => s.log = some f ∧ ∃ front back, logged = front ++ back ∧
        k = (logText front).length ∧ s.reading = logText (read ++ front)
    | .printed => read = []
    | _ => s.reading = logText read
  kept : (emitted.flatten ++ read ++ logged).Sublist s.written
  appends : ∀ a ∈ s.appends, a.file < s.files.length

section

variable {s s' : State} {emitted : List (List Captured)} {read logged : List Captured}

theorem shows_start (left : List Captured) : Shows (start left) [] left [] := by
  refine ⟨rfl, nofun, fun _ => rfl, rfl, ?_, nofun⟩
  simp [start]

theorem Shows.content (h : Shows s emitted read logged) {f : Nat} (hf : s.log = some f) :
    s.content f = logText logged := by
  simp [State.content, h.log f hf]

theorem Shows.pending (h : Shows s emitted read logged) : s.pending = logText (read ++ logged) := by
  have hstage := h.stage
  have hunread : s.stage.offset = 0 → s.unread = logText logged := by
    intro hzero
    unfold State.unread
    cases hlog : s.log with
    | none => simp [h.noLog hlog]
    | some f => simp [h.content hlog, hzero]
  unfold State.pending
  cases hs : s.stage <;> simp only [hs] at hstage <;> rw [hs] at hunread
  case idle => simp [hunread rfl, hstage]
  case found => simp [hunread rfl, hstage.2]
  case folded => simp [hunread rfl, hstage]
  case printed => simp [hunread rfl, hstage]
  case copying f k =>
    obtain ⟨hf, -, hread⟩ := hstage
    have hcontent := h.content hf
    simp [State.unread, hf, hcontent, hs, Stage.offset, hread]
  case copied f k =>
    obtain ⟨hf, front, back, rfl, rfl, hread⟩ := hstage
    have hcontent := h.content hf
    simp [State.unread, hf, hcontent, hs, Stage.offset, hread]

/-- The lines are delivered when all that were written are shown. -/
theorem Shows.delivered_iff (h : Shows s emitted read logged) :
    Delivered s ↔ emitted.flatten ++ read ++ logged = s.written := by
  constructor
  · intro hdelivered
    have hcount := hdelivered.count
    rw [h.outputs, count_outputs, h.pending, count_logText, List.length_append] at hcount
    refine h.kept.eq_of_length ?_
    simp only [List.length_append]
    omega
  · intro hkept
    refine ⟨emitted, read ++ logged, h.outputs, h.pending, ?_⟩
    rw [← hkept, List.append_assoc]

/-! ## Steps -/

/-- The lines that a step leaves, and whether all that were written are among them. -/
def Follows (s s' : State) (emitted : List (List Captured)) (read logged : List Captured)
    (kept : Bool) : Prop :=
  ∃ emitted' read' logged', Shows s' emitted' read' logged' ∧
    (emitted'.flatten ++ read' ++ logged' = s'.written ↔
      emitted.flatten ++ read ++ logged = s.written ∧ kept = true)

/-- A step that moves no line. -/
theorem Follows.same (h : Shows s' emitted read logged) (hwritten : s'.written = s.written) :
    Follows s s' emitted read logged true :=
  ⟨emitted, read, logged, h, by simp [hwritten]⟩

theorem follows_opens {c : Captured} (h : Shows s emitted read logged)
    (hstep : step s (.opens c) = some s') : Follows s s' emitted read logged true := by
  have hstage := h.stage
  rw [step] at hstep
  split at hstep
  case h_1 f hf =>
    obtain rfl := Option.some.inj hstep
    refine Follows.same { h with appends := ?_ } rfl
    intro a ha
    rcases List.mem_append.mp ha with ha | ha
    · exact h.appends a ha
    · rw [List.mem_singleton.mp ha]
      exact (List.getElem?_eq_some_iff.mp (h.log f hf)).1
  case h_2 hnone =>
    obtain rfl := Option.some.inj hstep
    obtain rfl := h.noLog hnone
    refine Follows.same ⟨h.outputs, ?_, nofun, ?_, h.kept, ?_⟩ rfl
    · intro f hf
      obtain rfl := Option.some.inj hf
      simp
    · dsimp only
      cases hs : s.stage <;> simp only [hs] at hstage <;> simp only
      case found => exact absurd hnone hstage.1
      case copying f k => rw [hnone] at hstage; cases hstage.1
      case copied f k => rw [hnone] at hstage; cases hstage.1
      all_goals exact hstage
    · intro a ha
      dsimp only
      rw [List.length_append]
      rcases List.mem_append.mp ha with ha | ha
      · have hlt := h.appends a ha
        omega
      · rw [List.mem_singleton.mp ha]
        simp

theorem follows_writes {i : Nat} (h : Shows s emitted read logged)
    (hstep : step s (.writes i) = some s') :
    Follows s s' emitted read logged (keeps s (.writes i)) := by
  have hstage := h.stage
  rw [step] at hstep
  split at hstep
  case h_2 => cases hstep
  case h_1 a ha =>
    split at hstep
    · cases hstep
    · obtain rfl := Option.some.inj hstep
      have hfile := h.appends a (List.mem_of_getElem? ha)
      have hopen : ∀ b ∈ s.appends.set i { a with written := true }, b.file < s.files.length := by
        intro b hb
        rcases List.mem_or_eq_of_mem_set hb with hb | rfl
        · exact h.appends b hb
        · exact hfile
      have hkeeps : keeps s (.writes i) = (s.log == some a.file) := by simp only [keeps, ha]
      rw [hkeeps]
      by_cases hlog : s.log = some a.file
      · refine ⟨emitted, read, logged ++ [a.sms], ⟨h.outputs, ?_, ?_, ?_, ?_, ?_⟩, ?_⟩
        · intro f hf
          obtain rfl := Option.some.inj (hlog.symm.trans hf)
          simp [h.log _ hlog, logText_singleton]
        · intro hnone
          rw [hlog] at hnone
          cases hnone
        · dsimp only
          cases hs : s.stage <;> simp only [hs] at hstage <;> simp only
          case copying f k =>
            obtain ⟨hf, hk, hread⟩ := hstage
            refine ⟨hf, ?_, ?_⟩
            · rw [logText_append, List.length_append]
              omega
            · rw [logText_append, List.take_append_of_le_length hk]
              exact hread
          case copied f k =>
            obtain ⟨hf, front, back, rfl, hk, hread⟩ := hstage
            exact ⟨hf, front, back ++ [a.sms], List.append_assoc _ _ _, hk, hread⟩
          all_goals exact hstage
        · rw [← List.append_assoc]
          exact h.kept.append (List.Sublist.refl _)
        · simpa using hopen
        · rw [← List.append_assoc, List.append_left_inj]
          simp [hlog]
      · refine ⟨emitted, read, logged, ⟨h.outputs, ?_, h.noLog, hstage, ?_, ?_⟩, ?_⟩
        · intro f hf
          have hne : a.file ≠ f := by
            rintro rfl
            exact hlog hf
          simp [hne, h.log f hf]
        · exact h.kept.trans (List.sublist_append_left _ _)
        · simpa using hopen
        · have hshort := h.kept.length_le
          have hne : emitted.flatten ++ read ++ logged ≠ s.written ++ [a.sms] := by
            intro he
            rw [he, List.length_append, List.length_singleton] at hshort
            omega
          refine iff_of_false hne ?_
          simp [hlog]

theorem follows_removesLog (h : Shows s emitted read logged)
    (hstep : step s .removesLog = some s') :
    Follows s s' emitted read logged (keeps s .removesLog) := by
  have hstage := h.stage
  rw [step] at hstep
  split at hstep
  case h_2 => cases hstep
  case h_1 f k hs =>
    obtain rfl := Option.some.inj hstep
    simp only [hs] at hstage
    obtain ⟨hf, front, back, rfl, rfl, hread⟩ := hstage
    have hkeeps : keeps s .removesLog = true ↔ back = [] := by
      simp only [keeps, hs, h.content hf, logText_append, List.length_append, beq_iff_eq,
        Nat.add_eq_left, List.length_eq_zero_iff]
      exact ⟨logText_eq_nil, fun hback => by rw [hback, logText_nil]⟩
    have hsplit : emitted.flatten ++ read ++ (front ++ back) =
        emitted.flatten ++ (read ++ front) ++ back := by simp
    have hkept := h.kept
    rw [hsplit] at hkept
    refine ⟨emitted, read ++ front, [], ⟨h.outputs, nofun, fun _ => rfl, hread, ?_, h.appends⟩, ?_⟩
    · rw [List.append_nil]
      exact (List.sublist_append_left _ _).trans hkept
    · rw [hkeeps, hsplit, List.append_nil]
      constructor
      · intro he
        have hshort := hkept.length_le
        rw [← he, List.length_append] at hshort
        have hback : back = [] := List.length_eq_zero_iff.mp (by omega)
        exact ⟨by rw [hback, List.append_nil]; exact he, hback⟩
      · rintro ⟨he, rfl⟩
        rwa [List.append_nil] at he

theorem follows_step {e : Event} (h : Shows s emitted read logged) (hstep : step s e = some s') :
    Follows s s' emitted read logged (keeps s e) := by
  have hstage := h.stage
  cases e with
  | opens c => exact follows_opens h hstep
  | writes i => exact follows_writes h hstep
  | removesLog => exact follows_removesLog h hstep
  | closes i =>
      rw [step] at hstep
      split at hstep
      case h_2 => cases hstep
      case h_1 a ha =>
        split at hstep
        · obtain rfl := Option.some.inj hstep
          refine Follows.same { h with appends := ?_ } rfl
          exact fun b hb => h.appends b (List.mem_of_mem_eraseIdx hb)
        · cases hstep
  | test =>
      rw [step] at hstep
      split at hstep
      case h_2 => cases hstep
      case h_1 hs =>
        obtain rfl := Option.some.inj hstep
        refine Follows.same { h with stage := ?_ } rfl
        simp only [hs] at hstage
        cases hlog : s.log with
        | none => exact hstage
        | some f => exact ⟨nofun, hstage⟩
  | cat =>
      rw [step] at hstep
      split at hstep
      case h_2 => cases hstep
      case h_1 f hs hf =>
        obtain rfl := Option.some.inj hstep
        refine Follows.same { h with stage := ?_ } rfl
        simp only [hs] at hstage
        exact ⟨hf, Nat.zero_le _, by simp [hstage.2]⟩
  | copies n =>
      rw [step] at hstep
      split at hstep
      case h_2 => cases hstep
      case h_1 f k hs =>
        split at hstep
        case isFalse => cases hstep
        case isTrue hle =>
          obtain rfl := Option.some.inj hstep
          refine Follows.same { h with stage := ?_ } rfl
          simp only [hs] at hstage
          obtain ⟨hf, -, hread⟩ := hstage
          rw [h.content hf] at hle ⊢
          refine ⟨hf, hle, ?_⟩
          rw [hread, List.append_assoc, ← List.take_add]
  | catEnds =>
      rw [step] at hstep
      split at hstep
      case h_2 => cases hstep
      case h_1 f k hs =>
        split at hstep
        case isFalse => cases hstep
        case isTrue hend =>
          obtain rfl := Option.some.inj hstep
          refine Follows.same { h with stage := ?_ } rfl
          simp only [hs] at hstage
          obtain ⟨hf, -, hread⟩ := hstage
          rw [h.content hf] at hend
          refine ⟨hf, logged, [], (List.append_nil _).symm, hend, ?_⟩
          rw [logText_append, ← List.take_length (l := logText logged), ← hend]
          exact hread
  | prints =>
      rw [step] at hstep
      split at hstep
      case h_2 => cases hstep
      case h_1 hs =>
        obtain rfl := Option.some.inj hstep
        simp only [hs] at hstage
        refine ⟨emitted ++ [read], [], logged, ⟨?_, h.log, h.noLog, rfl, ?_, h.appends⟩, ?_⟩
        · rw [List.map_append, h.outputs, hstage]
          rfl
        · simpa using h.kept
        · simp [keeps]
  | removesReading =>
      rw [step] at hstep
      split at hstep
      case h_2 => cases hstep
      case h_1 hs =>
        obtain rfl := Option.some.inj hstep
        simp only [hs] at hstage
        obtain rfl := hstage
        exact Follows.same { h with stage := rfl } rfl

/-- The files show some lines. -/
def Lined (s : State) : Prop := ∃ emitted read logged, Shows s emitted read logged

theorem lined_step {e : Event} (h : Lined s) (hstep : step s e = some s') : Lined s' := by
  obtain ⟨emitted, read, logged, h⟩ := h
  obtain ⟨emitted', read', logged', h', -⟩ := follows_step h hstep
  exact ⟨emitted', read', logged', h'⟩

theorem delivered_step {e : Event} (h : Lined s) (hstep : step s e = some s') :
    Delivered s' ↔ Delivered s ∧ keeps s e = true := by
  obtain ⟨emitted, read, logged, h⟩ := h
  obtain ⟨emitted', read', logged', h', hfollows⟩ := follows_step h hstep
  rw [h.delivered_iff, h'.delivered_iff]
  exact hfollows

/-- The captures and the drains of a run deliver every line exactly when each line is written to
the log before `cat` has read the last of it. -/
theorem captures_delivered_iff {left : List Captured} {es : List Event} (h : run (start left) es = some s) :
    Delivered s ↔ Runs.allSteps step keeps (start left) es = true := by
  have hstart : Delivered (start left) := (shows_start left).delivered_iff.mpr (by simp [start])
  have hinv (s : State) (e : Event) (s' : State) (hs : Lined s) (_ : True)
      (hstep : step s e = some s') : Lined s' := lined_step hs hstep
  have hkeeps (s : State) (e : Event) (s' : State) (hs : Lined s) (_ : True)
      (hstep : step s e = some s') : Delivered s' ↔ Delivered s ∧ keeps s e = true :=
    delivered_step hs hstep
  exact (Runs.allSteps_iff hinv hkeeps ⟨_, _, _, shows_start left⟩ (fun _ _ => trivial) h).trans
    (and_iff_right hstart)

end

/-- A drain with no capture beside it. -/
def quietDrain (s : State) : List Event :=
  match s.log with
  | some f =>
      [.test, .cat, .copies (s.content f).length, .catEnds, .removesLog, .prints, .removesReading]
  | none => [.test, .prints, .removesReading]

/-- It emits all that is still to come. -/
theorem run_quietDrain {s : State} (hidle : s.stage = .idle) :
    run s (quietDrain s) = some { s with
      log := none, reading := [], outputs := s.outputs ++ [s.pending] } := by
  unfold quietDrain
  cases hlog : s.log with
  | none =>
      have hpending : s.pending = s.reading := by
        simp [State.pending, State.unread, hlog, hidle]
      simp [run, Runs.run, step, hidle, hlog, hpending]
  | some f =>
      have hpending : s.pending = s.reading ++ s.content f := by
        simp [State.pending, State.unread, hlog, hidle, Stage.offset]
      simp [run, Runs.run, step, hidle, hlog, hpending, State.content]

def early : Captured := ⟨0, js "+99361234567", js "Hi", 1714550400200, by decide⟩

def late : Captured := ⟨1, js "+99361234567", js "Again", 1714550400300, by decide⟩

/-- The log with one SMS is copied; another one is captured before `cat` has read the end. -/
def duringCopy : List Event :=
  [.opens early, .writes 0, .closes 0, .test, .cat, .copies (logText [early]).length, .opens late,
    .writes 0, .copies (logText [late]).length, .catEnds, .removesLog, .prints, .removesReading]

theorem duringCopy_isSome : (run (start []) duringCopy).isSome = true := by decide +kernel

theorem captures_delivered_iff_duringCopy :
    Delivered ((run (start []) duringCopy).get duringCopy_isSome) :=
  (captures_delivered_iff (Option.some_get duringCopy_isSome).symm).mpr (by decide +kernel)

/-- Here it is captured after that, and the log is removed. -/
def afterCopy : List Event :=
  [.opens early, .writes 0, .closes 0, .test, .cat, .copies (logText [early]).length, .catEnds,
    .opens late, .writes 0, .closes 0, .removesLog, .prints, .removesReading]

/-- Here the app has opened the log and writes to it when it has been removed. -/
def afterRemoval : List Event :=
  [.opens early, .writes 0, .closes 0, .opens late, .test, .cat, .copies (logText [early]).length,
    .catEnds, .removesLog, .writes 0, .closes 0, .prints, .removesReading]

/-- Either way the second SMS is on neither file and in no output. -/
theorem drain_loses_capture :
    (∃ s, run (start []) afterCopy = some s ∧ ¬ Delivered s) ∧
      ∃ s, run (start []) afterRemoval = some s ∧ ¬ Delivered s := by
  have hlost {s : State} (h : ((s.outputs.map (·.count LF)).sum + s.pending.count LF !=
      s.written.length) = true) : ¬ Delivered s := by
    intro hdelivered
    rw [hdelivered.count] at h
    simp at h
  have hcopy : (run (start []) afterCopy).any (fun s =>
      (s.outputs.map (·.count LF)).sum + s.pending.count LF != s.written.length) = true := by
    decide +kernel
  have hremoval : (run (start []) afterRemoval).any (fun s =>
      (s.outputs.map (·.count LF)).sum + s.pending.count LF != s.written.length) = true := by
    decide +kernel
  obtain ⟨s, hs, hcount⟩ := Option.any_eq_true _ _ |>.mp hcopy
  obtain ⟨s', hs', hcount'⟩ := Option.any_eq_true _ _ |>.mp hremoval
  exact ⟨⟨s, hs, hlost hcount⟩, s', hs', hlost hcount'⟩

end SmsGateway.Adb.Capture
