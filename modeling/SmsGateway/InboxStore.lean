import SmsGateway.Json

/-!
# The inbox table

`store/inbox-store.js`: what `saveReceived` inserts into `received_messages`, in one
transaction for all messages of a call.
-/

namespace SmsGateway.InboxStore

open SmsGateway Json

/-- A driver's message with the `modemId` that `fetchAndStore` adds. -/
structure Incoming where
  status : JsString
  sender : JsValue
  date : JsString
  text : JsValue
  modemId : JsString

/-- A row of `received_messages`; `status` has no column. -/
structure Row where
  fromNumber : JsValue
  modemDate : JsString
  text : JsValue
  receivedAt : JsString
  modemId : JsString

/-- `insertStmt.run({ … })`; a date and a modem's id are strings, which have no default. -/
def insertRow (receivedAt : JsString) (m : Incoming) : Row :=
  { fromNumber := orElse m.sender .null
    modemDate := m.date
    text := orElse m.text (.str [])
    receivedAt
    modemId := m.modemId }

def insertAll (messages : List Incoming) (receivedAt : JsString) : List Row :=
  messages.map (insertRow receivedAt)

end SmsGateway.InboxStore
