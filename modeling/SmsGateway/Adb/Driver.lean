import SmsGateway.Json
import SmsGateway.Lib.Async
import SmsGateway.Lib.Lines

/-!
# The inbox of the ADB driver

`getMessages` of `utils/adb.js`: the shell commands it runs on the device and what it
makes of their output.
-/

namespace SmsGateway.Adb

open SmsGateway Json
open Lib Lib.Async

abbrev adbTimeoutMs : Nat := 15000

/-! ## Operations the driver awaits -/

structure Message where
  status : JsString
  sender : JsValue
  date : JsString
  text : JsValue

/-- `isConnected` reads the variable that the background poll sets. -/
inductive Op where
  | isConnected
  | adb (args : List JsString) (timeoutMs : Nat)
  | persist (messages : List Message)

/-- `adb` resolves with the standard output, or rejects on an exit code, a signal, the
timeout or too much output. -/
@[reducible] def Ans : Op → Type
  | .isConnected => Bool
  | .adb _ _ => Except JsError JsString
  | .persist _ => Except JsError Unit

abbrev Prog (α : Type) := Lib.Async.Prog Op Ans JsError α

def perform (op : Op) : Prog (Ans op) := Prog.perform op

def adb (args : List JsString) : Prog JsString := .call (.adb args adbTimeoutMs) .ofExcept

def callPersist (messages : List Message) : Prog Unit := .call (.persist messages) .ofExcept

/-! ## Dates -/

/-- Year, month and day of a day counted from 1970-01-01. -/
def civil (days : Int) : Int × Nat × Nat :=
  let z := days + 719468
  let era := z / 146097
  let doe := (z % 146097).toNat
  let yoe := (doe - doe / 1460 + doe / 36524 - doe / 146096) / 365
  let doy := doe - (365 * yoe + yoe / 4 - yoe / 100)
  let mp := (5 * doy + 2) / 153
  let month := if mp < 10 then mp + 3 else mp - 9
  (era * 400 + yoe + (if month ≤ 2 then 1 else 0), month, doy - (153 * mp + 2) / 5 + 1)

def padded (width n : Nat) : JsString :=
  List.replicate (width - (decimal n).length) 0x30 ++ decimal n

def yearText (year : Int) : JsString :=
  if 0 ≤ year ∧ year ≤ 9999 then padded 4 year.toNat
  else (if year < 0 then js "-" else js "+") ++ padded 6 year.natAbs

/-- The greatest time value of a `Date`, in milliseconds. -/
def maxTime : Nat := 8640000000000000

/-- `new Date(ms).toISOString()`. -/
def toISOString (ms : Int) : Except JsError JsString :=
  if ms.natAbs ≤ maxTime then
    let (year, month, day) := civil (ms / 86400000)
    let t := (ms % 86400000).toNat
    .ok (yearText year ++ js "-" ++ padded 2 month ++ js "-" ++ padded 2 day ++ js "T" ++
      padded 2 (t / 3600000) ++ js ":" ++ padded 2 (t / 60000 % 60) ++ js ":" ++
      padded 2 (t / 1000 % 60) ++ js "." ++ padded 3 (t % 1000) ++ js "Z")
  else .error (newError (js "Invalid time value"))

example : toISOString 1714550400123 = .ok (js "2024-05-01T08:00:00.123Z") := by decide +kernel

/-- The number an integer's text stands for. -/
def readInteger (text : JsString) : Option Int :=
  let digits (ds : JsString) : Option Nat :=
    if ds ≠ [] ∧ ds.all isDigit = true then some (parseInt ds) else none
  match text with
  | 0x2d :: ds => (digits ds).map fun n : Nat => -(n : Int)
  | ds => (digits ds).map fun n : Nat => (n : Int)

/-- `new Date(v).toISOString()`; `otherDate` is what it does to all but integers. -/
def dateString (otherDate : JsValue → Except JsError JsString) (v : JsValue) :
    Except JsError JsString :=
  match v with
  | .num text =>
      match readInteger text with
      | some ms => toISOString ms
      | none => otherDate v
  | _ => otherDate v

/-! ## Reading -/

def bridgeDir : JsString := js "/sdcard/smsbridge"

/-- Folds the live log into the reading file and prints that. -/
def drain : JsString :=
  js "cd " ++ bridgeDir ++ js " 2>/dev/null || exit 0; " ++
    js "[ -f incoming.jsonl ] && cat incoming.jsonl >> incoming.reading.jsonl && " ++
    js "rm -f incoming.jsonl; " ++ js "cat incoming.reading.jsonl 2>/dev/null"

def removeReading : JsString := js "rm -f " ++ bridgeDir ++ js "/incoming.reading.jsonl"

/-- `v || ''`. -/
def orEmpty (v : JsValue) : JsValue := if truthy v then v else .str []

section

variable (otherDate : JsValue → Except JsError JsString)

def toMessage (m : JsValue) : Except JsError Message := do
  let sender ← prop m (js "from")
  let date ← prop m (js "date")
  let date ← if truthy date then dateString otherDate date else .ok []
  let text ← prop m (js "text")
  return { status := js "REC UNREAD", sender := orEmpty sender, date, text := orEmpty text }

/-- One turn of the loop; a line that cannot be read is skipped. -/
def readLine (line : JsString) : Option Message :=
  let s := trim line
  if s = [] then none
  else match Json.parse s with
    | none => none
    | some m => (toMessage otherDate m).toOption

/-- `out.split('\n')`. -/
def splitLines (out : JsString) : List JsString := Lines.pieces LF out ++ [Lines.tail LF out]

def readLines (out : JsString) : List Message := (splitLines out).filterMap (readLine otherDate)

/-- `getMessages(persist)`; `bridgePkg` is null when the bridge is turned off. -/
def getMessages (bridgePkg : Option JsString) (persist : Bool) : Prog (List Message) :=
  if bridgePkg = none then return []
  else do
    let connected : Bool ← perform .isConnected
    if !connected then return []
    else
      let out ← (adb [js "shell", drain]).catchError fun _ => return []
      let messages := readLines otherDate out
      if messages ≠ [] ∧ persist then
        callPersist messages
      let _ ← (adb [js "shell", removeReading]).catchError fun _ => return []
      return messages

end

end SmsGateway.Adb
