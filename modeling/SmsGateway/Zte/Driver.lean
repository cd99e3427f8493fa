import SmsGateway.Json
import SmsGateway.SmsEncoding
import SmsGateway.Lib.Async

/-!
# The ZTE HTTP driver

`utils/zte-http.js`: the requests an operation makes to the stick's HTTP API and
what it makes of their answers. The stick answers anything, in any order.
-/

namespace SmsGateway.Zte

open SmsGateway SmsEncoding Json
open Lib.Async

abbrev sendPollTimeoutMs : Nat := 60000
abbrev pollIntervalMs : Nat := 1500

/-! ## Configuration -/

inductive Api where
  | goform
  | reqproc
  deriving DecidableEq, Repr

structure Config where
  id : Option JsString
  api : Api
  password : Option JsString
  deriving DecidableEq, Repr

/-- `v || w` for an optional string. -/
def orString (v : Option JsString) (w : JsString) : JsString :=
  match v with
  | some s => if s = [] then w else s
  | none => w

/-- What `createZteModem` keeps of its configuration; `password` is `PASSWORD`. -/
structure Stick where
  id : JsString
  password : Option JsString
  deriving DecidableEq, Repr

/-- A blank password counts as unset. -/
def createZteModem (config : Config) : Stick :=
  { id := orString config.id (js "zte")
    password := match config.password with
      | some (c :: cs) => some (c :: cs)
      | _ => if config.api = .reqproc then some (js "admin") else none }

/-! ## Operations the driver awaits -/

/-- A read with its query, or a write with its form parameters. -/
inductive HttpRequest where
  | get (cmds extra : JsString)
  | post (params : List (JsString × JsString))
  deriving DecidableEq, Repr

structure HttpResponse where
  statusCode : Nat
  data : JsString
  deriving DecidableEq, Repr

/-- The request's `error` event: a refused or broken connection, or the timeout. -/
structure NetError where
  message : JsString
  code : Option JsString
  deriving DecidableEq, Repr

/-- The fields of a `Date` in the process's time zone. -/
structure LocalTime where
  fullYear : Nat
  month : Nat
  date : Nat
  hours : Nat
  minutes : Nat
  seconds : Nat
  timezoneOffset : Int
  deriving DecidableEq, Repr

/-- A message as `getMessages` reports it; the number is passed on unread. -/
structure Message where
  status : JsString
  sender : JsValue
  date : JsString
  text : JsString

/-- `loggedIn` outlives the call: it is a variable of the modem. -/
inductive Op where
  | http (r : HttpRequest)
  | isLoggedIn
  | setLoggedIn (b : Bool)
  | now
  | sleep (ms : Nat)
  /-- the milliseconds that passed since the last reading, sleeps apart -/
  | elapsed
  | persist (messages : List Message)

@[reducible] def Ans : Op → Type
  | .http _ => Except NetError HttpResponse
  | .isLoggedIn => Bool
  | .setLoggedIn _ => Unit
  | .now => LocalTime
  | .sleep _ => Unit
  | .elapsed => Nat
  | .persist _ => Except JsError Unit

abbrev Prog (α : Type) := Lib.Async.Prog Op Ans JsError α

def perform (op : Op) : Prog (Ans op) := Prog.perform op

/-! ## Requests -/

def NetError.toError (e : NetError) : JsError := { newError e.message with code := e.code }

/-- What `request` makes of the response: its status first, then its JSON. -/
def readResponse : Except NetError HttpResponse → Except JsError JsValue
  | .error e => .error e.toError
  | .ok res =>
      if res.statusCode ≠ 200 then
        .error (newError (js "Modem HTTP error " ++ decimal res.statusCode))
      else
        match Json.parse res.data with
        | some v => .ok v
        | none => .error (newError (js "Invalid JSON from modem: " ++ res.data.take 100))

def request (r : HttpRequest) : Prog JsValue :=
  .call (.http r) fun a => .ofExcept (readResponse a)

def getCmd (cmds extra : JsString) : Prog JsValue := request (.get cmds extra)

def postCmd (params : List (JsString × JsString)) : Prog JsValue := request (.post params)

def base64Unit (n : Nat) : CodeUnit :=
  (js "ABCDEFGHIJKLMNOPQRSTUVWXYZabcdefghijklmnopqrstuvwxyz0123456789+/").getD n 0x3d

/-- `Buffer.toString('base64')`. -/
def base64 : List Nat → JsString
  | [] => []
  | [a] => [base64Unit (a / 4), base64Unit (a % 4 * 16)] ++ js "=="
  | [a, b] => [base64Unit (a / 4), base64Unit (a % 4 * 16 + b / 16), base64Unit (b % 16 * 4)] ++
      js "="
  | a :: b :: c :: rest =>
      [base64Unit (a / 4), base64Unit (a % 4 * 16 + b / 16), base64Unit (b % 16 * 4 + c / 64),
        base64Unit (c % 64)] ++ base64 rest

def loginParams (password : JsString) : List (JsString × JsString) :=
  [(js "goformId", js "LOGIN"), (js "password", base64 (utf8Octets password))]

/-- `String(json.result)`. -/
def loginResult (json : JsValue) : Except JsError JsString := toStr <$> prop json (js "result")

def loginFailed (stick : Stick) (json : JsValue) : JsError :=
  newError (js "Login failed on \"" ++ stick.id ++ js "\": " ++ stringify json)

def login (stick : Stick) (password : JsString) : Prog Unit := do
  let json ← postCmd (loginParams password)
  let result ← Prog.ofExcept (loginResult json)
  if result ≠ js "0" ∧ result ≠ js "4" then .fail (loginFailed stick json)
  else perform (.setLoggedIn true)

/-- `json.result === 'success'`. -/
def isSuccess (json : JsValue) : Except JsError Bool :=
  (isStr · (js "success")) <$> prop json (js "result")

def goformId (params : List (JsString × JsString)) : JsString :=
  (params.lookup (js "goformId")).getD (js "undefined")

def rejected (params : List (JsString × JsString)) (json : JsValue) : JsError :=
  newError (js "Modem rejected " ++ goformId params ++ js ": " ++ stringify json)

/-- The last check of `setCmd`. -/
def acceptOrReject (params : List (JsString × JsString)) (json : JsValue) : Prog JsValue := do
  let success ← Prog.ofExcept (isSuccess json)
  if success then return json else .fail (rejected params json)

/-- A rejected write on a stick with a login is repeated once after a new login. -/
def writeAuthed (stick : Stick) (password : JsString) (params : List (JsString × JsString)) :
    Prog JsValue := do
  let json ← postCmd params
  let success ← Prog.ofExcept (isSuccess json)
  if success then return json
  else
    let _ ← perform (.setLoggedIn false)
    login stick password
    let json ← postCmd params
    acceptOrReject params json

def setCmd (stick : Stick) (params : List (JsString × JsString)) : Prog JsValue :=
  match stick.password with
  | none => do
      let json ← postCmd params
      acceptOrReject params json
  | some password => do
      let loggedIn : Bool ← perform .isLoggedIn
      if !loggedIn then login stick password
      writeAuthed stick password params

/-! ## Sending -/

/-- This driver always transmits UCS2. -/
def analyzeUcs2 (message : JsString) : MessageInfo :=
  let length := message.length
  let segments := if length ≤ ucs2Single then 1 else (length + ucs2PerSegment - 1) / ucs2PerSegment
  { encoding := .UCS2
    length
    segments
    maxLength := ucs2PerSegment * maxSegments
    ok := segments ≤ maxSegments }

def pad2 (n : Nat) : JsString := if n < 10 then js "0" ++ decimal n else decimal n

/-- `Math.round(-offset / 60)` with its sign. -/
def zoneText (offset : Int) : JsString :=
  let tz := (30 - offset) / 60
  if 0 ≤ tz then js "+" ++ decimal tz.toNat else js "-" ++ decimal (-tz).toNat

/-- `smsTime`: `yy;MM;dd;hh;mm;ss;+tz`, where months count from 0. -/
def smsTime (d : LocalTime) : JsString :=
  pad2 (d.fullYear % 100) ++ js ";" ++ pad2 (d.month + 1) ++ js ";" ++ pad2 d.date ++ js ";" ++
    pad2 d.hours ++ js ";" ++ pad2 d.minutes ++ js ";" ++ pad2 d.seconds ++ js ";" ++
    zoneText d.timezoneOffset

def sendParams (recipient message : JsString) (d : LocalTime) : List (JsString × JsString) :=
  [(js "goformId", js "SEND_SMS"), (js "notCallback", js "true"), (js "Number", recipient),
    (js "sms_time", smsTime d), (js "MessageBody", ucs2Hex message), (js "ID", js "-1"),
    (js "encode_type", js "UNICODE")]

/-- The status of the last submission: `sms_cmd_status_result ?? sms_cmd_status_info`. -/
def statusOf (st : JsValue) : Except JsError JsValue := do
  let result ← prop st (js "sms_cmd_status_result")
  let info ← prop st (js "sms_cmd_status_info")
  return orElse result info

def invalidRecipient (recipient : JsString) : JsError :=
  newError (js "Invalid recipient number: " ++ recipient)

def tooLong (info : MessageInfo) : JsError :=
  newError (js "Message too long: " ++ decimal info.length ++ js "/" ++ decimal info.maxLength ++
    js " (UCS2, max 3 SMS parts)")

def sendFailure : JsError := newError (js "Modem reported SMS send failure")

/-- `SEND_SMS` was accepted, so the message may still be delivered. -/
def confirmTimeoutError : JsError :=
  { newError (js "Timed out waiting for SMS send confirmation") with confirmTimeout := true }

def statusRequest : HttpRequest := .get (js "sms_cmd_status_info") (js "&sms_cmd=4")

/-- The status loop at `now = t`, both times counted from the submission. No timer
fires early, so every turn brings the clock closer to the deadline. -/
def pollStatus (deadline t : Nat) : Prog JsString :=
  if t < deadline then do
    let _ ← perform (.sleep pollIntervalMs)
    let st ← request statusRequest
    let result ← Prog.ofExcept (statusOf st)
    if isStr result (js "3") then return js "zte-http:sent"
    else if isStr result (js "2") then .fail sendFailure
    else
      let extra : Nat ← perform .elapsed
      pollStatus deadline (t + pollIntervalMs + extra)
  else .fail confirmTimeoutError
termination_by deadline - t
decreasing_by
  have hms : 0 < pollIntervalMs := by decide
  omega

/-- `sendSMS`, resolving with the `reference` of its result. -/
def sendSMS (stick : Stick) (recipient message : JsString) : Prog JsString :=
  let info := analyzeUcs2 message
  if !phoneRe recipient then .fail (invalidRecipient recipient)
  else if !info.ok then .fail (tooLong info)
  else do
    let d : LocalTime ← perform .now
    let _ ← setCmd stick (sendParams recipient message d)
    pollStatus (sendPollTimeoutMs * info.segments) 0

/-! ## Reading -/

/-- The code units of a hex string of whole units. -/
def hexUnits : JsString → Option JsString
  | [] => some []
  | a :: b :: c :: d :: rest => do
      let u ← hexUnit a b c d
      let us ← hexUnits rest
      some (u :: us)
  | _ => none

/-- `ucs2Decode(v)`: the empty string for anything but UCS2 hex. -/
def ucs2Decode : JsValue → JsString
  | .str hex => (hexUnits hex).getD []
  | _ => []

def tagOf (m : JsValue) : Except JsError JsString := toStr <$> prop m (js "tag")

/-- `(m.date || '').replace(/,/g, '/')`; only a string has `replace`. -/
def dateText (date : JsValue) : Except JsError JsString :=
  match date with
  | .str s => .ok (s.map fun c => if c = 0x2c then 0x2f else c)
  | v => if truthy v then .error (newError (js "(m.date || \"\").replace is not a function")) else .ok []

/-- What one listed entry is reported as. -/
def toMessage (m : JsValue) : Except JsError Message := do
  let tag ← tagOf m
  let number ← prop m (js "number")
  let date ← prop m (js "date")
  let date ← dateText date
  let content ← prop m (js "content")
  let text := ucs2Decode content
  return { status := if tag = js "1" then js "REC UNREAD" else js "REC READ"
           sender := number
           date
           text := if text = [] then toStr (orElse content (.str [])) else text }

/-- Tag 1 is the unread inbox and 0 the read one. -/
def inInbox (m : JsValue) : Except JsError Bool := do
  let tag ← tagOf m
  return tag == js "0" || tag == js "1"

/-- `data.messages` when it is an array. -/
def rawMessages (data : JsValue) : Except JsError (List JsValue) := do
  let messages ← prop data (js "messages")
  match messages with
  | .arr items => return items
  | _ => return []

/-- The inbox entries of a listing with what they are reported as. -/
def readInbox (data : JsValue) : Except JsError (List JsValue × List Message) := do
  let raw ← rawMessages data
  let inbox ← raw.filterM inInbox
  let messages ← inbox.mapM toMessage
  return (inbox, messages)

def idOf (m : JsValue) : Except JsError JsString := toStr <$> prop m (js "id")

def deleteParams (ids : List JsString) : List (JsString × JsString) :=
  [(js "goformId", js "DELETE_SMS"), (js "msg_id", ids.flatMap fun i => i ++ js ";"),
    (js "notCallback", js "true")]

def listRequest : HttpRequest :=
  .get (js "sms_data_total")
    (js "&page=0&data_per_page=500&mem_store=1&tags=10&order_by=order+by+id+desc")

/-- An expired session returns no data instead of an error, so log in before a read. -/
def ensureAuthedForRead (stick : Stick) : Prog Unit :=
  match stick.password with
  | none => return ()
  | some password => login stick password

def callPersist (messages : List Message) : Prog Unit := .call (.persist messages) .ofExcept

/-- `getMessages(persist)`: what was read is deleted in one write after `persist`. -/
def getMessages (stick : Stick) (persist : Bool) : Prog (List Message) := do
  ensureAuthedForRead stick
  let data ← request listRequest
  let (inbox, messages) ← Prog.ofExcept (readInbox data)
  if messages ≠ [] ∧ persist then
    callPersist messages
  if inbox ≠ [] then
    let ids ← Prog.ofExcept (inbox.mapM idOf)
    let _ ← setCmd stick (deleteParams ids)
  return messages

/-! ## USSD -/

abbrev ussdPollTimeoutMs : Nat := 30000

def cancelParams : List (JsString × JsString) :=
  [(js "goformId", js "USSD_PROCESS"), (js "USSD_operator", js "ussd_cancel")]

def ussdParams (code : JsString) : List (JsString × JsString) :=
  [(js "goformId", js "USSD_PROCESS"), (js "USSD_operator", js "ussd_send"),
    (js "USSD_send_number", code)]

def flagRequest : HttpRequest := .get (js "ussd_write_flag") []

def dataRequest : HttpRequest := .get (js "ussd_data_info") []

/-- `const { ussd_write_flag: flag } = v`. -/
def flagOf (v : JsValue) : Except JsError JsValue :=
  match v with
  | .null => .error (newError (js ("Cannot destructure property 'ussd_write_flag' of " ++
      "'(intermediate value)' as it is null.")))
  | v => prop v (js "ussd_write_flag")

/-- `ucs2Decode(data) || data`. -/
def ussdText (data : JsValue) : JsValue :=
  if ucs2Decode data = [] then data else .str (ucs2Decode data)

/-- The reply loop at `now = t`, both times counted from the request: nothing is
read before the flag says that a fresh reply is there. -/
def pollUssd (deadline t : Nat) : Prog JsValue :=
  if t < deadline then do
    let _ ← perform (.sleep pollIntervalMs)
    let status ← request flagRequest
    let flag ← Prog.ofExcept (flagOf status)
    if toStr flag ≠ js "16" then
      let extra : Nat ← perform .elapsed
      pollUssd deadline (t + pollIntervalMs + extra)
    else
      let info ← request dataRequest
      let data ← Prog.ofExcept (prop info (js "ussd_data"))
      if truthy data then return ussdText data
      else
        let extra : Nat ← perform .elapsed
        pollUssd deadline (t + pollIntervalMs + extra)
  else return .null
termination_by deadline - t
decreasing_by
  all_goals
    have hms : 0 < pollIntervalMs := by decide
    omega

/-- A stuck session is cleared first; there may be none to cancel. -/
def cancelSession (stick : Stick) : Prog Unit :=
  Prog.catchError (do
    let _ ← setCmd stick cancelParams
    perform (.sleep 1000)) fun _ => return ()

/-- `runUssd(code)`, resolving with null when no reply came. -/
def runUssd (stick : Stick) (code : JsString) : Prog JsValue := do
  cancelSession stick
  let _ ← setCmd stick (ussdParams code)
  pollUssd ussdPollTimeoutMs 0

end SmsGateway.Zte
