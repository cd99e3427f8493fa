import SmsGateway.Json
import SmsGateway.Webhook
import SmsGateway.Zte.Ucs2
import SmsGateway.Adb.Send
import SmsGateway.Serial.Driver

/-!
# What `POST /sms/send` accepts

`validateSend` of `router/router.js` over the modems of the pool, each with the limits of its
driver. A refusal is the `message` of the 400 response.
-/

namespace SmsGateway.Router

open SmsGateway SmsEncoding Json

/-! ## The modems -/

inductive Driver where
  | serial
  | zteHttp
  | adb
  deriving DecidableEq, Repr

structure Modem where
  id : JsString
  driver : Driver
  deriving DecidableEq, Repr

/-- `analyzeMessage` of the modem's driver. -/
def Modem.analyzeMessage (m : Modem) (message : JsString) : MessageInfo :=
  match m.driver with
  | .zteHttp => Zte.analyzeUcs2 message
  | .serial => SmsEncoding.analyzeMessage message
  | .adb => SmsEncoding.analyzeMessage message

/-- The configured modems; `parseModemConfigs` refuses blank and repeated ids. -/
structure Fleet where
  modems : List Modem
  nodup : (modems.map (·.id)).Nodup
  named : ∀ m ∈ modems, m.id ≠ []

def Fleet.get (fleet : Fleet) (id : JsString) : Option Modem :=
  fleet.modems.find? fun m => m.id == id

def Fleet.ids (fleet : Fleet) : List JsString := fleet.modems.map (·.id)

/-! ## The body -/

/-- The body behind `validateSend`. -/
structure SendBody where
  recipient : JsString
  message : JsString
  projectName : JsString
  modem : Option JsString
  clientRef : Option JsString
  callbackUrl : Option JsString
  deriving DecidableEq, Repr

/-- `CONTROL_CHARS_RE`: all control characters but the line breaks. -/
def controlCharsRe (s : JsString) : Bool :=
  s.any fun c => c ≤ 0x09 || c == 0x0b || c == 0x0c || (0x0e ≤ c && c ≤ 0x1f)

abbrev clientRefMax : Nat := 200

/-- A property of `req.body || {}`. -/
def field (body : JsValue) (key : JsString) : JsValue :=
  match prop (if truthy body then body else .obj []) key with
  | .ok v => v
  | .error _ => .undefined

/-- `typeof v === 'string' ? v.trim() : ''`. -/
def trimmed : JsValue → JsString
  | .str s => trim s
  | _ => []

/-- A string that is not blank. -/
def filled (refusal : JsString) : JsValue → Except JsString JsString
  | .str s => if (trim s).length = 0 then .error refusal else .ok s
  | _ => .error refusal

def badRecipient : JsString :=
  js "to must be a phone number in international format, e.g. +99360123456"

def noMessage : JsString := js "Message content is required"

def badMessage : JsString := js "Message contains unsupported control characters"

def noProject : JsString := js "Project name is required"

def unknownModem (fleet : Fleet) (modemId : JsValue) : JsString :=
  js "Unknown modem \"" ++ toStr modemId ++ js "\" — available: " ++
    Serial.joinWith (js ", ") fleet.ids

def badClientRef : JsString :=
  js "clientRef must be a string of at most " ++ decimal clientRefMax ++ js " characters"

def badCallbackUrl (allowedHosts : List JsString) : JsString :=
  js "callbackUrl must be a valid http(s) URL" ++
    if allowedHosts.length > 0 then js " on an allowed host" else []

def encodingName : Encoding → JsString
  | .GSM => js "GSM"
  | .UCS2 => js "UCS2"

def tooLong (m : Modem) (info : MessageInfo) : JsString :=
  js "Message too long for modem \"" ++ m.id ++ js "\": " ++ decimal info.length ++ js " of max " ++
    decimal info.maxLength ++ js " characters (" ++ encodingName info.encoding ++
    js " encoding, up to 3 concatenated SMS)"

/-- A modem that is named is one of the pool's. -/
def checkModem (fleet : Fleet) : JsValue → Except JsString (Option JsString)
  | .undefined => .ok none
  | .str id => if (fleet.get id).isSome then .ok (some id) else .error (unknownModem fleet (.str id))
  | v => .error (unknownModem fleet v)

/-- A blank reference collapses to null. -/
def checkClientRef : JsValue → Except JsString (Option JsString)
  | .undefined => .ok none
  | .str s =>
      if (trim s).length > clientRefMax then .error badClientRef
      else .ok (if trim s = [] then none else some (trim s))
  | _ => .error badClientRef

/-- Without a pinned modem the message must fit every modem's limits. -/
def candidates (fleet : Fleet) : Option JsString → List Modem
  | some id => (fleet.get id).toList
  | none => fleet.modems

def checkLength (fleet : Fleet) (modem : Option JsString) (message : JsString) :
    Except JsString Unit :=
  match (candidates fleet modem).find? fun m => !(m.analyzeMessage message).ok with
  | some m => .error (tooLong m (m.analyzeMessage message))
  | none => .ok ()

section

variable (newURL : JsString → Option Webhook.Url)

def checkCallbackUrl (allowedHosts : List JsString) : JsValue → Except JsString (Option JsString)
  | .undefined => .ok none
  | .str url =>
      if Webhook.isAllowedUrl newURL url allowedHosts then .ok (some url)
      else .error (badCallbackUrl allowedHosts)
  | _ => .error (badCallbackUrl allowedHosts)

/-- `validateSend`; the checks are made in the order of the source. -/
def validateSend (allowedHosts : List JsString) (fleet : Fleet) (body : JsValue) :
    Except JsString SendBody := do
  let recipient := trimmed (field body (js "to"))
  if !phoneRe recipient then .error badRecipient
  let message ← filled noMessage (field body (js "message"))
  if controlCharsRe message then .error badMessage
  let projectName ← filled noProject (field body (js "projectName"))
  let modem ← checkModem fleet (field body (js "modem"))
  let clientRef ← checkClientRef (field body (js "clientRef"))
  let callbackUrl ← checkCallbackUrl newURL allowedHosts (field body (js "callbackUrl"))
  checkLength fleet modem message
  return { recipient, message, projectName, modem, clientRef, callbackUrl }

end

end SmsGateway.Router
