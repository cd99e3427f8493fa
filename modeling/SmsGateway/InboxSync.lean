import SmsGateway.Serial.Inbox
import SmsGateway.Zte.Inbox
import SmsGateway.Zte.Ussd

/-!
# Reading inboxes

What `utils/inbox-sync.js` relies on when readers, arrivals and failures meet on one
modem, for the two drivers whose modems keep their SMS until they are deleted.
-/

namespace SmsGateway.InboxSync

open SmsGateway InboxStore Inbox
open Lib Lib.Async Lib.Serialized
open SmsGateway.Serial.Listing (greeting listingText upToTerminal)

def receivedAt : JsString := js "2024-05-01T05:00:00.000Z"

def stick : Zte.Stick := ⟨js "zte", none⟩

/-- A page with its one entry. -/
def page : Except Zte.NetError Zte.HttpResponse :=
  .ok ⟨200, js "\x7b\"messages\":[\x7b\"id\":\"17\",\"number\":\"+99361234567\"," ++
    js "\"content\":\"00480069\",\"tag\":\"1\",\"date\":\"24,05,01,10,00,00,+5\"\x7d]\x7d"⟩

/-- The entry has these strings. -/
def holds (fields : List (JsString × JsString)) (entry : Json.JsValue) : Bool :=
  fields.all fun f => (Json.prop entry f.1).toOption.any (Json.isStr · f.2)

end SmsGateway.InboxSync
