import SmsGateway.Adb.Driver
import SmsGateway.SmsEncoding
import SmsGateway.Worker

/-!
# Sending through the ADB driver

`sendSMS` of `utils/adb.js`: every part of a message is an SMS of its own, handed to the
telephony service by one `isms` call. The statements count what the device accepts over the
attempts of a job.
-/

namespace SmsGateway.Adb.Send

open SmsGateway SmsEncoding Worker
open Lib.Async

/-! ## The driver -/

structure Config where
  id : JsString
  smsTxn : Nat
  callingPkg : JsString

/-- A value for the shell of the device, in single quotes. -/
def shQuote (s : JsString) : JsString :=
  js "'" ++ s.flatMap (fun c => if c = 0x27 then js "'\\''" else [c]) ++ js "'"

def remote (config : Config) (recipient text : JsString) : JsString :=
  js "service call isms " ++ decimal config.smsTxn ++ js " s16 " ++ shQuote config.callingPkg ++
    js " s16 " ++ shQuote recipient ++ js " s16 'null' s16 " ++ shQuote text ++ js " i32 0 i32 0"

/-- `\w`. -/
def isWord (c : CodeUnit) : Bool :=
  isDigit c || (0x41 ≤ c && c ≤ 0x5a) || (0x61 ≤ c && c ≤ 0x7a) || c == 0x5f

/-- `Parcel\(0+\b` at the start of a text. -/
def parcelAt (s : JsString) : Bool :=
  let zeros := s.drop (js "Parcel(").length
  startsWith s (js "Parcel(0") && !((zeros.dropWhile (· == 0x30)).head?.any isWord)

/-- `/Parcel\(0+\b/.test(s)`. -/
def parcelRe : JsString → Bool
  | [] => false
  | c :: s => parcelAt (c :: s) || parcelRe s

def cleanReply (out : JsString) : Bool := parcelRe (out.filter fun c => !isSpace c)

example : cleanReply (js "Result: Parcel(00000000    '....')\n") = true := by decide
example : cleanReply (js "Result: Parcel(ffffffff 00000012)") = false := by decide

def notAccepted (out : JsString) : JsError :=
  newError (js "SMS not accepted by device (isms reply: " ++ (trim out).take 120 ++ js ")")

def sendOne (config : Config) (recipient text : JsString) : Prog Unit := do
  let out ← adb [js "shell", remote config recipient text]
  if !cleanReply out then .fail (notAccepted out)

def sendParts (config : Config) (recipient : JsString) : List JsString → Prog Unit
  | [] => return ()
  | part :: parts => do
      sendOne config recipient part
      sendParts config recipient parts

def invalidRecipient (recipient : JsString) : JsError :=
  newError (js "Invalid recipient number: " ++ recipient)

def encodingName : Encoding → JsString
  | .GSM => js "GSM"
  | .UCS2 => js "UCS2"

def tooLong (info : MessageInfo) : JsError :=
  newError (js "Message too long: " ++ decimal info.length ++ js "/" ++ decimal info.maxLength ++
    js " (" ++ encodingName info.encoding ++ js ", max 3 SMS parts)")

/-- The standalone messages of a text. -/
def parts (message : JsString) : List JsString :=
  if (analyzeMessage message).segments = 1 then [message] else splitMessage message

def reference (n : Nat) : JsString :=
  js "adb:sent" ++ if n > 1 then js ":" ++ decimal n ++ js "parts" else []

/-- `sendSMS`, resolving with the `reference` of its result. -/
def sendSMS (config : Config) (recipient message : JsString) : Prog JsString :=
  if !phoneRe recipient then .fail (invalidRecipient recipient)
  else if !(analyzeMessage message).ok then .fail (tooLong (analyzeMessage message))
  else do
    sendParts config recipient (parts message)
    return reference (parts message).length

/-! ## Attempts -/

/-- How an `isms` call ends: adb prints the reply of the device, or fails when the device may
have accepted the part. -/
inductive Reply where
  | printed (out : JsString)
  | failed (e : JsError) (taken : Bool)

def Reply.answer : Reply → Except JsError JsString
  | .printed out => .ok out
  | .failed e _ => .error e

/-- The device has accepted the part. -/
def Reply.accepted : Reply → Bool
  | .printed out => cleanReply out
  | .failed _ taken => taken

/-- The calls of an attempt are answered in their order. -/
def oracle (replies : Nat → Reply) : Oracle Op Ans := fun n op =>
  match op with
  | .isConnected => true
  | .adb _ _ => (replies n).answer
  | .persist _ => .ok ()

structure Attempt where
  trace : List (Done Op Ans)
  result : Except JsError JsString
  replies : Nat → Reply

def attempt (config : Config) (recipient message : JsString) (replies : Nat → Reply) : Attempt :=
  let call := sendSMS config recipient message
  ⟨trace (oracle replies) 0 call, result (oracle replies) 0 call, replies⟩

/-- The parts that the attempt hands to the device, by their place in the message. -/
def Attempt.sent (a : Attempt) : List Nat := List.range a.trace.length

def Attempt.accepted (a : Attempt) : List Nat := a.sent.filter fun k => (a.replies k).accepted

/-- The attempts of a job from the one with number `finished` on, each with a device and
replies of its own. -/
def attemptsFrom (recipient message : JsString) (devices : Nat → Config)
    (replies : Nat → Nat → Reply) (finished : Nat) : List Attempt :=
  let a := attempt (devices finished) recipient message (replies finished)
  match a.result with
  | .ok _ => [a]
  | .error e =>
      if retried (finished + 1) (sendFailed (devices finished).id e) then
        a :: attemptsFrom recipient message devices replies (finished + 1)
      else [a]
termination_by attempts - finished
decreasing_by
  have hlt : finished + 1 < attempts := ((retried_sendFailed _ _ _).mp ‹_›).1
  omega

/-- Over the attempts of a job every part is accepted at most once, and no attempt sends
again what an earlier one has got accepted. -/
structure NoDuplicatedPart (as : List Attempt) : Prop where
  once : ∀ k, (as.flatMap (·.accepted)).count k ≤ 1
  notResent : as.Pairwise fun a b => ∀ k ∈ a.accepted, k ∉ b.sent

/-! ## The calls of an attempt -/

section

variable {config : Config} {recipient message : JsString} {replies : Nat → Reply}

/-- The driver goes on behind this reply. -/
def Reply.clean : Reply → Bool
  | .printed out => cleanReply out
  | .failed _ _ => false

theorem Reply.accepted_of_clean {r : Reply} (h : r.clean = true) : r.accepted = true := by
  cases r with
  | printed out => exact h
  | failed e taken => cases h

theorem trace_sendParts_cons (part : JsString) (ps : List JsString) (n : Nat) :
    trace (oracle replies) n (sendParts config recipient (part :: ps)) =
      ⟨.adb [js "shell", remote config recipient part] adbTimeoutMs, (replies n).answer⟩ ::
        if (replies n).clean then trace (oracle replies) (n + 1) (sendParts config recipient ps)
        else [] := by
  have hop : trace (oracle replies) n (sendParts config recipient (part :: ps)) =
      ⟨.adb [js "shell", remote config recipient part] adbTimeoutMs, (replies n).answer⟩ ::
        trace (oracle replies) (n + 1) (((Prog.ofExcept (replies n).answer : Prog JsString) >>= fun out =>
          if !cleanReply out then Prog.fail (notAccepted out) else pure ()) >>= fun _ =>
            sendParts config recipient ps) := rfl
  rw [hop]
  cases hr : replies n with
  | printed out =>
      show _ :: trace _ (n + 1) ((if !cleanReply out then Prog.fail (notAccepted out) else pure ())
        >>= fun _ => sendParts config recipient ps) = _
      cases hclean : cleanReply out with
      | false => simp [Reply.clean, hclean, trace]
      | true => simp [Reply.clean, hclean]
  | failed e taken => rfl

/-- Behind the last call, every part has been accepted. -/
theorem accepted_of_lt (ps : List JsString) (n k : Nat)
    (h : k + 1 < (trace (oracle replies) n (sendParts config recipient ps)).length) :
    (replies (n + k)).accepted = true := by
  induction ps generalizing n k with
  | nil => exact absurd h (by simp [sendParts, trace])
  | cons part ps ih =>
      rw [trace_sendParts_cons, List.length_cons] at h
      split at h
      case isTrue hclean =>
        cases k with
        | zero => exact Reply.accepted_of_clean hclean
        | succ k =>
            have hk := ih (n + 1) k (by omega)
            rwa [show n + 1 + k = n + (k + 1) by omega] at hk
      case isFalse =>
        rw [List.length_nil] at h
        omega

theorem trace_attempt : (attempt config recipient message replies).trace =
    if phoneRe recipient = true ∧ (analyzeMessage message).ok = true then
      trace (oracle replies) 0 (sendParts config recipient (parts message))
    else [] := by
  cases hto : phoneRe recipient with
  | false => simp [attempt, sendSMS, hto, trace]
  | true =>
      cases hok : (analyzeMessage message).ok with
      | false => simp [attempt, sendSMS, hto, hok, trace]
      | true =>
          have hcall : sendSMS config recipient message =
              (sendParts config recipient (parts message) >>= fun _ =>
                Prog.ret (reference (parts message).length)) := by
            simp [sendSMS, hto, hok]
          rw [if_pos ⟨rfl, rfl⟩, attempt, hcall]
          exact trace_map _ _ _

theorem mem_sent {k : Nat} {a : Attempt} : k ∈ a.sent ↔ k < a.trace.length := List.mem_range

theorem mem_accepted {k : Nat} {a : Attempt} :
    k ∈ a.accepted ↔ k < a.trace.length ∧ (a.replies k).accepted = true := by
  rw [Attempt.accepted, List.mem_filter, mem_sent]

theorem nodup_accepted (a : Attempt) : a.accepted.Nodup := List.nodup_range.filter _

/-- An attempt that has got any part accepted has got the first one accepted, which every
other attempt sends. -/
theorem resent {k : Nat} (h : k ∈ (attempt config recipient message replies).accepted)
    (config' : Config) (replies' : Nat → Reply) :
    0 ∈ (attempt config recipient message replies).accepted ∧
      0 ∈ (attempt config' recipient message replies').sent := by
  rw [mem_accepted, trace_attempt] at h
  rw [mem_accepted, mem_sent, trace_attempt, trace_attempt]
  split at h
  case isTrue hvalid =>
    rw [if_pos hvalid, if_pos hvalid]
    have hfirst : (replies 0).accepted = true := by
      cases k with
      | zero => exact h.2
      | succ k =>
          have hlt : 0 + 1 <
              (trace (oracle replies) 0 (sendParts config recipient (parts message))).length := by
            omega
          exact accepted_of_lt (parts message) 0 0 hlt
    cases hparts : parts message with
    | nil =>
        rw [hparts] at h
        exact absurd h.1 (by simp [sendParts, trace])
    | cons part ps =>
        rw [trace_sendParts_cons, trace_sendParts_cons]
        exact ⟨⟨Nat.succ_pos _, hfirst⟩, Nat.succ_pos _⟩
  case isFalse =>
    exact absurd h.1 (Nat.not_lt_zero k)

end

/-! ## A job -/

section

variable {recipient message : JsString} {devices : Nat → Config} {replies : Nat → Nat → Reply}

theorem attemptsFrom_ne_nil (finished : Nat) :
    attemptsFrom recipient message devices replies finished ≠ [] := by
  rw [attemptsFrom]
  split
  · exact List.cons_ne_nil _ _
  · split <;> exact List.cons_ne_nil _ _

theorem mem_attemptsFrom (finished : Nat) :
    ∀ a ∈ attemptsFrom recipient message devices replies finished,
      ∃ config r, a = attempt config recipient message r := by
  induction finished using attemptsFrom.induct recipient message devices replies with
  | case1 finished a reference hr =>
      rw [attemptsFrom, hr]
      simpa using ⟨_, _, rfl⟩
  | case2 finished a e hr hretried ih =>
      rw [attemptsFrom, hr]
      simp only [hretried, if_true, List.mem_cons, forall_eq_or_imp]
      exact ⟨⟨_, _, rfl⟩, ih⟩
  | case3 finished a e hr hretried =>
      rw [attemptsFrom, hr]
      simpa [hretried] using ⟨_, _, rfl⟩

theorem noDuplicatedPart_single (a : Attempt) : NoDuplicatedPart [a] := by
  refine ⟨fun k => ?_, List.pairwise_singleton _ _⟩
  rw [List.flatMap_singleton]
  exact List.nodup_iff_count_le_one.mp (nodup_accepted a) k

theorem noDuplicatedPart_cons {a : Attempt} {as : List Attempt} (h : a.accepted = []) :
    NoDuplicatedPart (a :: as) ↔ NoDuplicatedPart as := by
  constructor
  · rintro ⟨honce, hnot⟩
    refine ⟨?_, (List.pairwise_cons.mp hnot).2⟩
    simpa [h] using honce
  · rintro ⟨honce, hnot⟩
    refine ⟨by simpa [h] using honce, List.pairwise_cons.mpr ⟨?_, hnot⟩⟩
    intro b _ k hk
    rw [h] at hk
    cases hk

/-- A job gets no part accepted twice, and sends none again, exactly when no attempt that is
followed by another one has got a part accepted. -/
theorem noDuplicatedPart_iff (recipient message : JsString) (devices : Nat → Config)
    (replies : Nat → Nat → Reply) :
    NoDuplicatedPart (attemptsFrom recipient message devices replies 0) ↔
      ∀ a ∈ (attemptsFrom recipient message devices replies 0).dropLast, a.accepted = [] := by
  generalize 0 = finished
  induction finished using attemptsFrom.induct recipient message devices replies with
  | case1 finished a reference hr =>
      rw [attemptsFrom, hr]
      exact iff_of_true (noDuplicatedPart_single _) nofun
  | case3 finished a e hr hretried =>
      rw [attemptsFrom, hr]
      simp only [hretried]
      exact iff_of_true (noDuplicatedPart_single _) nofun
  | case2 finished a e hr hretried ih =>
      rw [attemptsFrom, hr]
      simp only [hretried, if_true]
      have hne : attemptsFrom recipient message devices replies (finished + 1) ≠ [] :=
        attemptsFrom_ne_nil (finished + 1)
      rw [List.dropLast_cons_of_ne_nil hne, List.forall_mem_cons, ← ih]
      constructor
      · intro h
        have hnone : a.accepted = [] := by
          rw [List.eq_nil_iff_forall_not_mem]
          intro k hk
          obtain ⟨b, hb⟩ := List.exists_mem_of_ne_nil _ hne
          obtain ⟨config, r, rfl⟩ := mem_attemptsFrom (finished + 1) b hb
          obtain ⟨hfirst, hagain⟩ := resent hk config r
          exact (List.pairwise_cons.mp h.notResent).1 _ hb 0 hfirst hagain
        exact ⟨hnone, (noDuplicatedPart_cons hnone).mp h⟩
      · rintro ⟨hnone, h⟩
        exact (noDuplicatedPart_cons hnone).mpr h

/-- The device takes the first part and adb fails on the second one, once; then all is well. -/
def failsOnSecond (finished n : Nat) : Reply :=
  if finished = 0 ∧ n = 1 then .failed (newError (js "adb shell failed: device offline")) false
  else .printed (js "Result: Parcel(00000000    '....')")

/-- The first part of two is accepted twice. -/
theorem failsOnSecond_duplicates : ¬ NoDuplicatedPart (attemptsFrom (js "+99361234567")
    (List.replicate 161 97) (fun _ => ⟨js "adb", 6, js "com.android.shell"⟩) failsOnSecond 0) := by
  intro h
  exact absurd (h.once 0) (by decide +kernel)

end

end SmsGateway.Adb.Send
