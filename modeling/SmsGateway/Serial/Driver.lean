import SmsGateway.Pdu
import SmsGateway.Lib.Async

/-!
# The serial driver's conversations

`utils/modem.js`, above the level of single lines: which AT commands an operation
sends and what it makes of their answers. A command's promise resolves with the
lines received for it and rejects with an error.
-/

namespace SmsGateway.Serial

open SmsGateway SmsEncoding Pdu
open Lib.Async

abbrev cmdTimeoutMs : Nat := 10000
abbrev smsSendTimeoutMs : Nat := 30000
abbrev ussdTimeoutMs : Nat := 20000

/-! ## Terminal lines -/

def isTerminalLine (line : JsString) : Bool :=
  line == js "OK" || line == js "ERROR" || line == js "NO CARRIER" ||
    startsWith line (js "+CMS ERROR") || startsWith line (js "+CME ERROR")

def isErrorLine (line : JsString) : Bool := line != js "OK" && isTerminalLine line

/-! ## Operations the driver awaits -/

/-- The argument of `transact`. -/
structure Request where
  write : JsString
  label : JsString
  timeoutMs : Nat
  expectPrompt : Bool
  deriving DecidableEq, Repr

def request (write label : JsString) : Request := ⟨write, label, cmdTimeoutMs, false⟩

/-- A received message as `getMessages` reports it. -/
structure Message where
  status : JsString
  sender : JsString
  date : JsString
  text : JsString
  deriving DecidableEq, Repr

inductive Op where
  | transact (r : Request)
  | writeEsc
  | waitForUrc (pre : JsString) (timeoutMs : Nat)
  | urc (waiter : Nat)
  | persist (messages : List Message)
  | randomInt (max : Nat)

/-- The answers: commands and `persist` may reject, a waiter resolves with its line or null. -/
@[reducible] def Ans : Op → Type
  | .transact _ => Except JsError (List JsString)
  | .writeEsc => Unit
  | .waitForUrc _ _ => Nat
  | .urc _ => Option JsString
  | .persist _ => Except JsError Unit
  | .randomInt _ => Nat

abbrev Prog (α : Type) := Lib.Async.Prog Op Ans JsError α

def perform (op : Op) : Prog (Ans op) := Prog.perform op

def transact (r : Request) : Prog (List JsString) := .call (.transact r) Prog.ofExcept

def callPersist (messages : List Message) : Prog Unit :=
  .call (.persist messages) Prog.ofExcept

/-! ## Sending -/

def esc : JsString := [0x1b]
def ctrlZ : JsString := [0x1a]
def quoted (s : JsString) : JsString := js "\"" ++ s ++ js "\""

def promptRequest (atCommand label : JsString) : Request := ⟨atCommand, label, cmdTimeoutMs, true⟩

def bodyRequest (label body : JsString) : Request :=
  ⟨body ++ ctrlZ, label ++ js " body", smsSendTimeoutMs, false⟩

/-- After a timeout the network may still deliver the body. -/
def markTimeout (err : JsError) : JsError :=
  if err.code = some (js "TIMEOUT") then { err with confirmTimeout := true } else err

/-- `submitBody`: the prompt, then the body with its Ctrl+Z. -/
def submitBody (atCommand label body : JsString) : Prog (Option JsString) := do
  let _ ← (transact (promptRequest atCommand label)).catchError fun err => do
    -- ESC leaves a prompt that may still be open
    let _ ← perform .writeEsc
    .fail err
  Prog.catchError
    (do
      let lines ← transact (bodyRequest label body)
      return lines.find? fun l => startsWith l (js "+CMGS"))
    fun err => .fail (markTimeout err)

/-- The character set and coding scheme commands of `sendSingle`. -/
def selectCharset (encoding : Encoding) : Prog Unit := do
  if encoding = .UCS2 then
    let _ ← transact (request (js "AT+CSCS=\"UCS2\"\r") (js "CSCS"))
    let _ ← transact (request (js "AT+CSMP=17,167,0,8\r") (js "CSMP"))
  else
    let _ ← transact (request (js "AT+CSCS=\"GSM\"\r") (js "CSCS"))
    let _ ← transact (request (js "AT+CSMP=17,167,0,0\r") (js "CSMP"))

/-- How `sendSingle` writes an address or a body. -/
def textModeForm (encoding : Encoding) (s : JsString) : JsString :=
  if encoding = .UCS2 then ucs2Hex s else s

def sendSingle (smsc recipient message : JsString) (info : MessageInfo) :
    Prog (Option JsString) := do
  let _ ← transact (request (js "AT+CMGF=1\r") (js "CMGF"))
  if smsc ≠ [] then
    let _ ← transact (request (js "AT+CSCA=" ++ quoted smsc ++ js "\r") (js "CSCA"))
  selectCharset info.encoding
  submitBody (js "AT+CMGS=" ++ quoted (textModeForm info.encoding recipient) ++ js "\r")
    (js "CMGS") (textModeForm info.encoding message)

def submitPdus : List BuiltPdu → Prog (List (Option JsString))
  | [] => return []
  | p :: pdus => do
      let ref ← submitBody (js "AT+CMGS=" ++ decimal p.length ++ js "\r") (js "CMGS (PDU)") p.pdu
      let refs ← submitPdus pdus
      return ref :: refs

/-- `xs.join(sep)`. -/
def joinWith (sep : JsString) : List JsString → JsString
  | [] => []
  | [x] => x
  | x :: xs => x ++ sep ++ joinWith sep xs

def joinRefs (refs : List (Option JsString)) : Option JsString :=
  let text := joinWith (js "; ") ((refs.filterMap id).filter (· ≠ []))
  if text = [] then none else some text

def sendMultipart (smsc recipient message : JsString) (info : MessageInfo) :
    Prog (Option JsString) := do
  let ref : Nat ← perform (.randomInt 256)
  match buildConcatPdus recipient (splitMessage message) info.encoding ref
      (if smsc = [] then none else some smsc) with
  | .error err => .fail err
  | .ok pdus =>
      let _ ← transact (request (js "AT+CMGF=0\r") (js "CMGF=0"))
      Prog.andFinally
        (do
          let refs ← submitPdus pdus
          return joinRefs refs)
        (Prog.catchError
          (do
            let _ ← transact (request (js "AT+CMGF=1\r") (js "CMGF=1"))
            return ())
          fun _ => return ())

def encodingName : Encoding → JsString
  | .GSM => js "GSM"
  | .UCS2 => js "UCS2"

def invalidRecipient (recipient : JsString) : JsError :=
  newError (js "Invalid recipient number: " ++ recipient)

def tooLong (info : MessageInfo) : JsError :=
  newError (js "Message too long: " ++ decimal info.length ++ js "/" ++ decimal info.maxLength ++
    js " (" ++ encodingName info.encoding ++ js ", max 3 SMS parts)")

/-- `sendSMS`, resolving with the `reference` of its result. -/
def sendSMS (smsc recipient message : JsString) : Prog (Option JsString) :=
  let info := analyzeMessage message
  if !phoneRe recipient then .fail (invalidRecipient recipient)
  else if !info.ok then .fail (tooLong info)
  else if info.segments = 1 then sendSingle smsc recipient message info
  else sendMultipart smsc recipient message info

/-! ## Reading -/

structure Header where
  index : Nat
  status : JsString
  sender : JsString
  date : JsString
  deriving DecidableEq, Repr

def quote : CodeUnit := 0x22
def comma : CodeUnit := 0x2c

def stripPrefix (pre s : JsString) : Option JsString :=
  if startsWith s pre then some (s.drop pre.length) else none

/-- `"([^"]*)"`, with the text behind it. -/
def readQuoted (s : JsString) : Option (JsString × JsString) := do
  let s ← stripPrefix (js "\"") s
  let rest ← stripPrefix (js "\"") (s.dropWhile (· != quote))
  some (s.takeWhile (· != quote), rest)

/-- `headerRe`: `^\+CMGL:\s*(\d+),"([^"]*)","([^"]*)",[^,]*,"?([^"]*)"?`. Each
repeated class excludes the character that follows it, so nothing backtracks. -/
def headerRe (line : JsString) : Option Header := do
  let s ← stripPrefix (js "+CMGL:") line
  let s := s.dropWhile isSpace
  let index := s.takeWhile isDigit
  if index = [] then none
  let s ← stripPrefix (js ",") (s.dropWhile isDigit)
  let (status, s) ← readQuoted s
  let s ← stripPrefix (js ",") s
  let (sender, s) ← readQuoted s
  let s ← stripPrefix (js ",") s
  let s ← stripPrefix (js ",") (s.dropWhile (· != comma))
  let s := (stripPrefix (js "\"") s).getD s
  some { index := parseInt index, status, sender, date := s.takeWhile (· != quote) }

/-- A parsed message with the slot it came from. -/
structure Listed where
  index : Nat
  message : Message
  deriving DecidableEq, Repr

def Listed.ofHeader (h : Header) : Listed :=
  ⟨h.index, { status := h.status, sender := h.sender, date := h.date, text := [] }⟩

/-- `current.text += (current.text ? '\n' : '') + line`. -/
def Listed.addLine (m : Listed) (line : JsString) : Listed :=
  { m with message := { m.message with
      text := m.message.text ++ (if m.message.text = [] then [] else [LF]) ++ line } }

/-- One turn of the parser's loop; `current` is the last message pushed. -/
def listingStep (messages : List Listed) (line : JsString) : List Listed :=
  match headerRe line with
  | some h => messages ++ [Listed.ofHeader h]
  | none =>
      match messages.getLast? with
      | none => messages
      | some current =>
          if isTerminalLine line then messages
          else messages.dropLast ++ [current.addLine line]

def parseListing (lines : List JsString) : List Listed := lines.foldl listingStep []

def cmgd (index : Nat) : JsString := js "AT+CMGD=" ++ decimal index ++ js ",0\r"

def deleteRequest (index : Nat) : Request := request (cmgd index) (js "CMGD " ++ decimal index)

/-- Delete only the messages that were read. -/
def deleteAll : List Listed → Prog Unit
  | [] => return ()
  | m :: messages => do
      let _ ← transact (deleteRequest m.index)
      deleteAll messages

/-- `getMessages(persist)`; without `persist` the messages are only read and deleted. -/
def getMessages (persist : Bool) : Prog (List Message) := do
  let _ ← transact (request (js "AT+CMGF=1\r") (js "CMGF"))
  let _ ← transact (request (js "AT+CSCS=\"GSM\"\r") (js "CSCS"))
  let _ ← transact (request (js "AT+CPMS=\"SM\",\"SM\",\"SM\"\r") (js "CPMS"))
  let lines ← transact ⟨js "AT+CMGL=\"ALL\"\r", js "CMGL", 15000, false⟩
  let messages := parseListing lines
  let result := messages.map (·.message)
  if result ≠ [] ∧ persist then
    callPersist result
  deleteAll messages
  return result

/-! ## The other operations -/

def initModem : Prog Unit := do
  let _ ← transact (request (js "AT\r") (js "AT"))
  let _ ← transact (request (js "ATE0\r") (js "ATE0"))
  let _ ← transact (request (js "AT+CMGF=1\r") (js "CMGF"))

def ping : Prog Bool := do
  let _ ← transact ⟨js "AT\r", js "AT (ping)", 3000, false⟩
  return true

def runUssd (code : JsString) : Prog (Option JsString) := do
  let _ ← transact (request (js "AT+CSCS=\"GSM\"\r") (js "CSCS"))
  let urc : Nat ← perform (.waitForUrc (js "+CUSD") ussdTimeoutMs)
  let _ ← transact (request (js "AT+CUSD=1," ++ quoted code ++ js ",15\r") (js "CUSD"))
  perform (.urc urc)

/-! ## Runs that are answered -/

section

variable {α : Type} {o : Oracle Op Ans} {n : Nat}

theorem trace_transact_ok {r : Request} {lines : List JsString}
    (h : o n (.transact r) = .ok lines) (f : List JsString → Prog α) :
    trace o n (transact r >>= f) = ⟨.transact r, .ok lines⟩ :: trace o (n + 1) (f lines) := by
  rw [transact, Prog.bind_call, trace, h]
  rfl

theorem result_transact_ok {r : Request} {lines : List JsString}
    (h : o n (.transact r) = .ok lines) (f : List JsString → Prog α) :
    result o n (transact r >>= f) = result o (n + 1) (f lines) := by
  rw [transact, Prog.bind_call, result, h]
  rfl

theorem trace_callPersist_ok {messages : List Message} (h : o n (.persist messages) = .ok ())
    (f : Unit → Prog α) :
    trace o n (callPersist messages >>= f) =
      ⟨.persist messages, .ok ()⟩ :: trace o (n + 1) (f ()) := by
  rw [callPersist, Prog.bind_call, trace, h]
  rfl

theorem result_callPersist_ok {messages : List Message} (h : o n (.persist messages) = .ok ())
    (f : Unit → Prog α) :
    result o n (callPersist messages >>= f) = result o (n + 1) (f ()) := by
  rw [callPersist, Prog.bind_call, result, h]
  rfl

end

/-! ## Operations of each function -/

/-- A command line: the interpreter reads it, and no prompt answers it. -/
def IsLine (r : Request) : Prop := r.expectPrompt = false ∧ r.write.getLast? = some CR

theorem isLine_append (write label : JsString) : IsLine (request (write ++ js "\r") label) := by
  have hreturn : js "\r" = [CR] := by decide
  refine ⟨rfl, ?_⟩
  rw [request, hreturn, List.getLast?_concat]

theorem isLine_cmgd (index : Nat) : IsLine (deleteRequest index) := by
  have hend : js ",0\r" = js ",0" ++ [CR] := by decide
  refine ⟨rfl, ?_⟩
  rw [deleteRequest, request, cmgd, hend, ← List.append_assoc, List.getLast?_concat]

section

variable {A : Op → Prop}

theorem allOps_transact {r : Request} (h : A (.transact r)) : AllOps A (transact r) :=
  ⟨h, fun a => allOps_ofExcept a⟩

theorem allOps_submitBody {atCommand label body : JsString}
    (hprompt : A (.transact (promptRequest atCommand label)))
    (hbody : A (.transact (bodyRequest label body))) (hesc : A .writeEsc) :
    AllOps A (submitBody atCommand label body) := by
  refine allOps_bind (allOps_catchError (allOps_transact hprompt) ?_) ?_
  · exact fun e => ⟨hesc, fun _ => trivial⟩
  · intro _
    refine allOps_catchError (allOps_bind (allOps_transact hbody) fun _ => trivial) ?_
    exact fun e => trivial

theorem allOps_selectCharset (hline : ∀ r, IsLine r → A (.transact r)) (encoding : Encoding) :
    AllOps A (selectCharset encoding) := by
  have hset {r : Request} (h : IsLine r) : AllOps A (transact r) := allOps_transact (hline r h)
  unfold selectCharset
  split
  · exact allOps_bind (hset ⟨rfl, by decide⟩) fun _ =>
      allOps_bind (hset ⟨rfl, by decide⟩) fun _ => trivial
  · exact allOps_bind (hset ⟨rfl, by decide⟩) fun _ =>
      allOps_bind (hset ⟨rfl, by decide⟩) fun _ => trivial

theorem allOps_initModem (hline : ∀ r, IsLine r → A (.transact r)) : AllOps A initModem := by
  have hset {r : Request} (h : IsLine r) : AllOps A (transact r) := allOps_transact (hline r h)
  exact allOps_bind (hset ⟨rfl, by decide⟩) fun _ => allOps_bind (hset ⟨rfl, by decide⟩) fun _ =>
    allOps_bind (hset ⟨rfl, by decide⟩) fun _ => trivial

theorem allOps_ping (hline : ∀ r, IsLine r → A (.transact r)) : AllOps A ping :=
  allOps_bind (allOps_transact (hline _ ⟨rfl, by decide⟩)) fun _ => trivial

theorem allOps_deleteAll (hline : ∀ r, IsLine r → A (.transact r)) (messages : List Listed) :
    AllOps A (deleteAll messages) := by
  induction messages with
  | nil => trivial
  | cons m messages ih =>
      exact allOps_bind (allOps_transact (hline _ (isLine_cmgd m.index))) fun _ => ih

theorem allOps_getMessages (hline : ∀ r, IsLine r → A (.transact r))
    (hpersist : ∀ messages, A (.persist messages)) (persist : Bool) :
    AllOps A (getMessages persist) := by
  have hset {r : Request} (h : IsLine r) : AllOps A (transact r) := allOps_transact (hline r h)
  have hdelete (lines : List JsString) (result : List Message) : AllOps A
      (deleteAll (parseListing lines) >>= fun _ => (pure result : Prog (List Message))) :=
    allOps_bind (allOps_deleteAll hline _) fun _ => trivial
  unfold getMessages
  refine allOps_bind (hset ⟨rfl, by decide⟩) fun _ => allOps_bind (hset ⟨rfl, by decide⟩) fun _ =>
    allOps_bind (hset ⟨rfl, by decide⟩) fun _ => allOps_bind (hset ⟨rfl, by decide⟩) fun lines => ?_
  dsimp only
  split
  · exact allOps_bind ⟨hpersist _, fun a => allOps_ofExcept a⟩ fun _ => hdelete _ _
  · exact hdelete _ _

theorem allOps_runUssd (hline : ∀ r, IsLine r → A (.transact r))
    (hwait : ∀ pre ms, A (.waitForUrc pre ms)) (hurc : ∀ w, A (.urc w)) (code : JsString) :
    AllOps A (runUssd code) := by
  have hend : js ",15\r" = js ",15" ++ js "\r" := by decide
  have hcode : IsLine (request (js "AT+CUSD=1," ++ quoted code ++ js ",15\r") (js "CUSD")) := by
    rw [hend, ← List.append_assoc]
    exact isLine_append _ _
  refine allOps_bind (allOps_transact (hline _ ⟨rfl, by decide⟩)) fun _ => ?_
  refine allOps_bind ⟨hwait _ _, fun _ => trivial⟩ fun w => ?_
  exact allOps_bind (allOps_transact (hline _ hcode)) fun _ => ⟨hurc w, fun _ => trivial⟩

end

/-! ## Protocols of a submission -/

theorem sendSMS_single {smsc recipient message : JsString} (hto : phoneRe recipient = true)
    (hone : (analyzeMessage message).segments = 1) :
    sendSMS smsc recipient message = sendSingle smsc recipient message (analyzeMessage message) := by
  have hok : (analyzeMessage message).ok = true := by
    rw [analyzeMessage_ok, hone]
    rfl
  simp only [sendSMS, hto, hok, hone, Bool.not_true, Bool.false_eq_true, if_false, if_true]

section

variable {σ : Type} {P : Protocol Op Ans JsError (Option JsString) σ} {s : σ}

theorem obeys_transact {α : Type} {P : Protocol Op Ans JsError α σ} {r : Request}
    {f : List JsString → Prog α} (ha : P.allowed s (.transact r))
    (hok : ∀ lines, Obeys P (P.next s (.transact r) (.ok lines)) (f lines))
    (herr : ∀ e, P.mayFail (P.next s (.transact r) (.error e)) e) :
    Obeys P s (transact r >>= f) := by
  refine ⟨ha, ?_⟩
  intro a
  cases a with
  | ok lines => exact hok lines
  | error e => exact herr e

/-- The stage at the prompt decides how the submission may go on: after an error
with ESC and that error, otherwise with the body. -/
theorem obeys_submitBody {atCommand label body : JsString}
    (hcmd : P.allowed s (.transact (promptRequest atCommand label)))
    (hesc : ∀ e, Obeys P (P.next s (.transact (promptRequest atCommand label)) (.error e))
      (.call .writeEsc fun _ => .fail e))
    (hbody : ∀ lines, Obeys P (P.next s (.transact (promptRequest atCommand label)) (.ok lines))
      (.call (.transact (bodyRequest label body)) fun
        | .ok lines => .ret (lines.find? fun l => startsWith l (js "+CMGS"))
        | .error err => .fail (markTimeout err))) :
    Obeys P s (submitBody atCommand label body) := by
  refine ⟨hcmd, ?_⟩
  intro r
  cases r with
  | ok lines =>
      refine ⟨(hbody lines).1, ?_⟩
      intro r
      cases r with
      | ok lines' => exact (hbody lines).2 (.ok lines')
      | error e => exact (hbody lines).2 (.error e)
  | error e =>
      exact ⟨(hesc e).1, (hesc e).2⟩

theorem obeys_selectCharset {f : Unit → Prog (Option JsString)} {encoding : Encoding}
    (hsetup : ∀ r, IsLine r → r.label ≠ js "CMGS body" →
      P.allowed s (.transact r) ∧ ∀ a, P.next s (.transact r) a = s)
    (hfail : ∀ e, P.mayFail s e) (hf : Obeys P s (f ())) :
    Obeys P s (selectCharset encoding >>= f) := by
  unfold selectCharset
  cases encoding with
  | GSM =>
      have h₁ := hsetup (request (js "AT+CSCS=\"GSM\"\r") (js "CSCS")) ⟨rfl, by decide⟩ (by decide)
      have h₂ := hsetup (request (js "AT+CSMP=17,167,0,0\r") (js "CSMP")) ⟨rfl, by decide⟩ (by decide)
      simp only [reduceCtorEq, if_false, bind_assoc, pure_bind]
      refine obeys_transact h₁.1 (fun _ => ?_) (fun e => (h₁.2 _).symm ▸ hfail e)
      rw [h₁.2]
      refine obeys_transact h₂.1 (fun _ => ?_) (fun e => (h₂.2 _).symm ▸ hfail e)
      rw [h₂.2]
      exact hf
  | UCS2 =>
      have h₁ := hsetup (request (js "AT+CSCS=\"UCS2\"\r") (js "CSCS")) ⟨rfl, by decide⟩ (by decide)
      have h₂ := hsetup (request (js "AT+CSMP=17,167,0,8\r") (js "CSMP")) ⟨rfl, by decide⟩ (by decide)
      simp only [if_true, bind_assoc, pure_bind]
      refine obeys_transact h₁.1 (fun _ => ?_) (fun e => (h₁.2 _).symm ▸ hfail e)
      rw [h₁.2]
      refine obeys_transact h₂.1 (fun _ => ?_) (fun e => (h₂.2 _).symm ▸ hfail e)
      rw [h₂.2]
      exact hf

/-- A protocol that ignores the setup commands sees only the submission. -/
theorem obeys_sendSingle {smsc recipient message : JsString} {info : MessageInfo}
    (hsetup : ∀ r, IsLine r → r.label ≠ js "CMGS body" →
      P.allowed s (.transact r) ∧ ∀ a, P.next s (.transact r) a = s)
    (hfail : ∀ e, P.mayFail s e)
    (hsubmit : Obeys P s (submitBody
      (js "AT+CMGS=" ++ quoted (textModeForm info.encoding recipient) ++ js "\r") (js "CMGS")
      (textModeForm info.encoding message))) :
    Obeys P s (sendSingle smsc recipient message info) := by
  have h₁ := hsetup (request (js "AT+CMGF=1\r") (js "CMGF")) ⟨rfl, by decide⟩ (by decide)
  have h₂ := hsetup _ (isLine_append (js "AT+CSCA=" ++ quoted smsc) (js "CSCA"))
    (show js "CSCA" ≠ js "CMGS body" by decide)
  have hrest := @obeys_selectCharset _ P s (fun _ => submitBody
      (js "AT+CMGS=" ++ quoted (textModeForm info.encoding recipient) ++ js "\r") (js "CMGS")
      (textModeForm info.encoding message)) info.encoding hsetup hfail hsubmit
  unfold sendSingle
  refine obeys_transact h₁.1 (fun _ => ?_) (fun e => (h₁.2 _).symm ▸ hfail e)
  rw [h₁.2]
  dsimp only
  split
  · refine obeys_transact h₂.1 (fun _ => ?_) (fun e => (h₂.2 _).symm ▸ hfail e)
    rw [h₂.2]
    exact hrest
  · exact hrest

end

end SmsGateway.Serial
