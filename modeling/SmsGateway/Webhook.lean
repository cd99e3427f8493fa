import SmsGateway.LogStore

/-!
# Callbacks about a send

The helpers of `utils/webhook.js`, and `enqueueWebhook` and the worker's request of
`config/webhook.config.js`. The URL parser of the platform is a parameter.
-/

namespace SmsGateway.Webhook

open SmsGateway LogStore

/-! ## The helpers -/

/-- `TERMINAL_STATUSES`. -/
def terminalStatuses : List JsString := [js "sent", js "failed", js "unconfirmed"]

def shouldNotify (status : JsString) (sendIntermediate : Bool) : Bool :=
  if terminalStatuses.contains status then true
  else if status = js "retrying" then sendIntermediate
  else false

structure Payload where
  event : JsString
  logId : JsString
  clientRef : Option JsString
  recipient : JsString
  projectName : Option JsString
  status : JsString
  reference : Option JsString
  modemId : Option JsString
  error : Option JsString
  sentAt : Option JsString
  occurredAt : JsString
  attempt : Option Nat
  deriving DecidableEq, Repr

def buildPayload (entry : Row) (occurredAt : JsString) (attempt : Option Nat) : Payload :=
  { event := js "sms.status", logId := entry.id, clientRef := entry.clientRef
    recipient := entry.recipient, projectName := entry.projectName, status := entry.status
    reference := entry.reference, modemId := entry.modemId, error := entry.error
    sentAt := entry.sentAt, occurredAt, attempt }

/-- What the platform's `URL` has of a URL. -/
structure Url where
  href : JsString
  protocol : JsString
  hostname : JsString
  deriving DecidableEq, Repr

/-- `toLowerCase` on a host name, which is ASCII. -/
def toLowerCase (s : JsString) : JsString :=
  s.map fun c => if 0x41 ≤ c && c ≤ 0x5a then c + 0x20 else c

def isHttp (url : Url) : Bool := url.protocol == js "http:" || url.protocol == js "https:"

/-- The URL is one of http(s) whose host is on the allowlist. -/
def onAllowlist (allowedHosts : List JsString) (url : Url) : Bool :=
  isHttp url && allowedHosts.contains (toLowerCase url.hostname)

/-- The environment of a process; `allowedHosts` is what `parseAllowedHosts` makes of its variable. -/
structure Config where
  defaultUrl : JsString
  sendIntermediate : Bool
  allowedHosts : List JsString
  deriving DecidableEq, Repr

structure Job where
  callbackUrl : JsString
  payload : Payload
  deriving DecidableEq, Repr

section

variable (newURL : JsString → Option Url)

def isAllowedUrl (url : JsString) (allowedHosts : List JsString) : Bool :=
  match newURL url with
  | none => false
  | some parsed =>
      if !isHttp parsed then false
      else if allowedHosts.length > 0 then allowedHosts.contains (toLowerCase parsed.hostname)
      else true

/-! ## Enqueueing -/

/-- `entry.callbackUrl || DEFAULT_URL`. -/
def effectiveUrl (config : Config) (entry : Row) : JsString :=
  match entry.callbackUrl with
  | some url => if url = [] then config.defaultUrl else url
  | none => config.defaultUrl

/-- `enqueueWebhook`: the job it adds, if any. -/
def enqueueWebhook (config : Config) (entry : Option Row) (attempt : Option Nat)
    (occurredAt : JsString) : Option Job :=
  match entry with
  | none => none
  | some entry =>
      if entry.status = [] then none
      else if !shouldNotify entry.status config.sendIntermediate then none
      else
        let callbackUrl := effectiveUrl config entry
        if callbackUrl = [] then none
        else if !isAllowedUrl newURL callbackUrl config.allowedHosts then none
        else some ⟨callbackUrl, buildPayload entry occurredAt attempt⟩

/-! ## The worker's request -/

/-- How a contacted host answers one request of `fetch`. -/
inductive Answer where
  | response (status : Nat)
  /-- a redirect with a `Location` -/
  | redirect (location : JsString)
  | failed

/-- `fetch` gives up behind so many redirects. -/
abbrev maxRedirects : Nat := 20

variable (resolve : Url → JsString → Option Url)

/-- The requests of `fetch` from a parsed URL on, and the status it resolves with; `resolve`
parses a `Location` against the URL of its request. -/
def follow : Nat → Url → List Answer → List Url × Option Nat
  | _, _, [] => ([], none)
  | redirects, url, answer :: answers =>
      if isHttp url then
        match answer with
        | .response status => ([url], some status)
        | .failed => ([url], none)
        | .redirect location =>
            match redirects, resolve url location with
            | redirects + 1, some target =>
                let rest := follow redirects target answers
                (url :: rest.1, rest.2)
            | _, _ => ([url], none)
      else ([], none)

/-- `fetch(callbackUrl, …)`. -/
def fetch (callbackUrl : JsString) (answers : List Answer) : List Url × Option Nat :=
  match newURL callbackUrl with
  | none => ([], none)
  | some url => follow resolve maxRedirects url answers

def isPermanent (status : Nat) : Bool :=
  400 ≤ status && status < 500 && status != 408 && status != 429

/-- The processor ends without an error. -/
def settles (status : Option Nat) : Bool :=
  match status with
  | some status => (200 ≤ status && status ≤ 299) || isPermanent status
  | none => false

end

/-- `defaultJobOptions.attempts` of the callback queue. -/
abbrev callbackAttempts : Nat := 5

end SmsGateway.Webhook
