import SmsGateway.MultipartRoundTrip
import SmsGateway.Splitting
import SmsGateway.SendQueue.Lifecycle
import SmsGateway.SendQueue.Unconfirmed
import SmsGateway.Serial.Listing
import SmsGateway.Serial.TextMode
import SmsGateway.Serial.DoubleSend
import SmsGateway.Serial.Ussd
import SmsGateway.Serial.Prompt
import SmsGateway.Serial.Answers
import SmsGateway.Serial.Chunks
import SmsGateway.Serial.Texts
import SmsGateway.Serial.Reply
import SmsGateway.Serial.Modes
import SmsGateway.Zte.Ucs2
import SmsGateway.Zte.Ussd
import SmsGateway.Zte.Send
import SmsGateway.InboxSync
import SmsGateway.Adb.Torn
import SmsGateway.Adb.Files
import SmsGateway.Adb.Inbox
import SmsGateway.Adb.Send
import SmsGateway.Adb.Capture
import SmsGateway.Adb.RoundTrip
import SmsGateway.Adb.Quote
import SmsGateway.Serializer
import SmsGateway.Webhook.Allowlist
import SmsGateway.Webhook.Attribution
import SmsGateway.Webhook.Attempts
import SmsGateway.Webhook.Delivery
import SmsGateway.UssdQueue
import SmsGateway.UssdQueue.Stored
import SmsGateway.UssdQueue.Settlement
import SmsGateway.Packing
import SmsGateway.SentTable.Frame
import SmsGateway.SentTable.Rows
import SmsGateway.Pages
import SmsGateway.ModemConfig.Fleet
import SmsGateway.LegacyImport
import SmsGateway.Schema
import SmsGateway.Serial.Progress
import SmsGateway.Serial.Connection
import SmsGateway.Serial.Framing
import SmsGateway.Serial.Delivery
import SmsGateway.Serial.Waiters
import SmsGateway.Serial.Reading
import SmsGateway.Router.Admission
import SmsGateway.Router.Messages
import SmsGateway.Lib.Base64
import SmsGateway.Auth
import SmsGateway.SendQueue.Metrics
import SmsGateway.Lib.Spacing
import SmsGateway.Lib.Lanes
import SmsGateway.SendQueue.Balance
