import SmsGateway.Serial.Calls
import SmsGateway.Serial.Chunks
import SmsGateway.Serial.Listing
import SmsGateway.Serial.Waiters
import SmsGateway.Serial.Wire

/-!
# A USSD reply from the port to its caller

What the modem reports in answer to `AT+CUSD`, before or after the OK of the command, and what the
driver makes of it however the stream is cut and whatever else the driver does meanwhile.
-/

namespace SmsGateway.Serial.Reply

open Machine Ussd
open Lib Lib.Async
open Listing (crlf)

/-! ## The modem's side -/

/-- `+CUSD: <m>,"<text>",<dcs>`. -/
def report (m dcs : Nat) (text : JsString) : JsString :=
  js "+CUSD: " ++ decimal m ++ js ",\"" ++ text ++ js "\"," ++ decimal dcs

inductive Order where
  | before
  | after
  deriving DecidableEq

/-- What the modem writes in answer to `AT+CUSD`: its report, before or after the OK. -/
def answerText (order : Order) (m dcs : Nat) (text : JsString) : JsString :=
  match order with
  | .before => crlf ++ report m dcs text ++ crlf ++ (crlf ++ js "OK" ++ crlf)
  | .after => crlf ++ js "OK" ++ crlf ++ (crlf ++ report m dcs text ++ crlf)

/-! ## The driver's side -/

def cusdRequest (code : JsString) : Request :=
  request (js "AT+CUSD=1," ++ quoted code ++ js ",15\r") (js "CUSD")

/-- The call goes on to the reply. -/
def awaitReply (w : Nat) : Prog Result := .call (.urc w) fun line => .ret (.reply line)

/-- The call has just written its `AT+CUSD`; the waiter it goes on to await is registered, maybe
behind others, and no other call has its number. -/
structure Asked (id w : Nat) (s : State) : Prop where
  holder : ∃ r c k code, s.running = some r ∧ r.id = id ∧ r.phase = .command c k ∧
    c.request = cusdRequest code ∧ c.lines = [] ∧ ∀ lines, k (.ok lines) = awaitReply w
  waiter : ∃ x ∈ s.urcWaiters, x.id = w
  registered : Registered s
  unfinished : Unfinished id s
  scan : s.scan = none
  buffer : s.rxBuffer = []

def returned (id : Nat) (s : State) : Bool := s.results.any (·.id == id)

/-- The waiter is the first one when a `+CUSD` line is handed on. -/
def served (w : Nat) (s : State) : Bool :=
  match s.scan with
  | some (line :: _) => !startsWith line cusd || s.urcWaiters.head?.any (·.id == w)
  | _ => true

/-- Nothing times out but the waiters of earlier calls, nothing fails while a command waits, and
the waiter is the first one for a `+CUSD` line. -/
def calm (w : Nat) (s : State) : Event → Bool
  | .scan => served w s
  | .waiterTimeout v => v != w
  | .commandTimeout => false
  | .writeFailed _ _ => (current s).isNone
  | .portClosed => false
  | .close => false
  | .opened _ => false
  | .reconnect => false
  | _ => true

/-- What happens once the call has returned makes no difference. -/
def undisturbed (id w : Nat) (s : State) (e : Event) : Bool := returned id s || calm w s e

/-- The texts that the port delivers. -/
def delivered (es : List Event) : List JsString :=
  es.filterMap fun e => match e with
    | .data text => some text
    | _ => none

/-- What the call returns contains the whole text, and no piece of the reply is among the lines
of another call's command. -/
structure ReplyWhole (id : Nat) (text : JsString) (s : State) : Prop where
  returned : ∀ f ∈ s.results, f.id = id →
    ∃ line, f.result = .ok (.reply (some line)) ∧ text <:+: line
  separate : ∀ r c k, s.running = some r → r.id ≠ id → r.phase = .command c k → c.lines = []

/-- The driver has nothing left to do by itself. -/
def AtRest (s : State) : Prop := s.scan = none ∧ due s = false

/-! ## The lines of the answer -/

theorem linesOf_crlf_append (s : JsString) : linesOf (crlf ++ s) = linesOf s := by
  have hcrlf : linesOf crlf = [] := by decide
  rw [show crlf ++ s = [CR] ++ LF :: s by rfl, linesOf_append, show [CR] ++ [LF] = crlf by rfl, hcrlf,
    List.nil_append]

theorem report_shape (m dcs : Nat) (text : JsString) :
    ∃ s z, report m dcs text = 0x2b :: (s ++ [z]) ∧ isSpace z = false := by
  obtain ⟨ds, z, hds⟩ : ∃ ds z, decimal dcs = ds ++ [z] :=
    ⟨_, _, (List.dropLast_append_getLast (decimal_ne_nil dcs)).symm⟩
  have hz : isDigit z = true := decimal_digits dcs z (by rw [hds]; simp)
  refine ⟨js "CUSD: " ++ decimal m ++ js ",\"" ++ text ++ js "\"," ++ ds, z, ?_,
    isSpace_of_isDigit hz⟩
  rw [report, hds]
  simp only [List.append_assoc]
  rfl

theorem trim_report (m dcs : Nat) (text : JsString) :
    trim (report m dcs text) = report m dcs text := by
  obtain ⟨s, z, hshape, hz⟩ := report_shape m dcs text
  rw [hshape]
  exact trim_eq_self (by decide) hz

theorem not_mem_report {m dcs : Nat} {text : JsString} (h : LF ∉ text) :
    LF ∉ report m dcs text := by
  have hdecimal (n : Nat) : LF ∉ decimal n := by
    intro hm
    exact absurd (decimal_digits n LF hm) (by decide)
  have hlit : LF ∉ js "+CUSD: " ∧ LF ∉ js ",\"" ∧ LF ∉ js "\"," := by decide
  simp only [report, List.mem_append, not_or, hdecimal, hlit, h, not_false_eq_true, and_self]

theorem startsWith_report (m dcs : Nat) (text : JsString) :
    startsWith (report m dcs text) cusd = true := by
  have hshape : report m dcs text = cusd ++ (js ": " ++ decimal m ++ js ",\"" ++ text ++
      js "\"," ++ decimal dcs) := by
    rw [report, show js "+CUSD: " = cusd ++ js ": " by decide]
    simp only [List.append_assoc]
  rw [hshape]
  exact startsWith_append _ _

theorem infix_report (m dcs : Nat) (text : JsString) : text <:+: report m dcs text :=
  ⟨js "+CUSD: " ++ decimal m ++ js ",\"", js "\"," ++ decimal dcs, by
    simp only [report, List.append_assoc]⟩

/-- A reply without line breaks is one line. -/
theorem linesOf_answerText {m dcs : Nat} {text : JsString} (h : LF ∉ text) (order : Order) :
    linesOf (answerText order m dcs text) =
      match order with
      | .before => [report m dcs text, js "OK"]
      | .after => [js "OK", report m dcs text] := by
  have hreport (rest : JsString) :
      linesOf (report m dcs text ++ crlf ++ rest) = report m dcs text :: linesOf rest := by
    have hne : trim (report m dcs text) ≠ [] := by
      rw [trim_report, report]
      simp [js, utf16Encode]
    rw [Listing.linesOf_piece (not_mem_report h) hne, trim_report]
  have hok (rest : JsString) : linesOf (js "OK" ++ crlf ++ rest) = js "OK" :: linesOf rest :=
    Listing.linesOf_piece (by decide) (by decide) rest
  cases order with
  | before =>
      have hlast := hok []
      rw [List.append_nil] at hlast
      rw [answerText, List.append_assoc crlf, List.append_assoc crlf, linesOf_crlf_append, hreport,
        List.append_assoc crlf, linesOf_crlf_append, hlast]
      rfl
  | after =>
      have hlast := hreport []
      rw [List.append_nil] at hlast
      rw [answerText, List.append_assoc crlf, List.append_assoc crlf, linesOf_crlf_append, hok,
        List.append_assoc crlf, linesOf_crlf_append, hlast]
      rfl

theorem wellFormed_answerText {m dcs : Nat} {text : JsString} {order : Order}
    (h : isWellFormed text = true) : isWellFormed (answerText order m dcs text) = true := by
  have hcrlf : isWellFormed crlf = true := by decide
  have hok : isWellFormed (crlf ++ js "OK" ++ crlf) = true := by decide
  have hreport : isWellFormed (report m dcs text) = true := by
    refine wellFormed_append (wellFormed_append (wellFormed_append (wellFormed_append
      (wellFormed_append ?_ (wellFormed_decimal m)) ?_) h) ?_) (wellFormed_decimal dcs)
    all_goals decide
  have hwritten := wellFormed_append (wellFormed_append hcrlf hreport) hcrlf
  cases order with
  | before => exact wellFormed_append hwritten hok
  | after => exact wellFormed_append hok hwritten

/-! ## The call -/

/-- Where a `runUssd` call stands. -/
inductive Turn where
  | selects
  | registers
  | asks (waiter : Nat)
  | awaits (waiter : Nat)
  | returns (line : Option JsString)
  | fails (e : JsError)

def Turn.next (t : Turn) : (op : Op) → Ans op → Turn
  | .transact _, .error e => .fails e
  | .transact _, .ok _ =>
      match t with
      | .selects => .registers
      | .asks w => .awaits w
      | t => t
  | .waitForUrc _ _, w => .asks w
  | .urc _, line => .returns line
  | _, _ => t

/-- The course of `runUssd(code)`. -/
def course (code : JsString) : Protocol Op Ans JsError Result Turn :=
  { allowed := fun t op =>
      match t with
      | .selects => op = .transact (request (js "AT+CSCS=\"GSM\"\r") (js "CSCS"))
      | .registers => op = .waitForUrc cusd ussdTimeoutMs
      | .asks _ => op = .transact (cusdRequest code)
      | .awaits w => op = .urc w
      | _ => False
    next := Turn.next
    mayReturn := fun t a =>
      match t with
      | .returns line => a = .reply line
      | _ => False
    mayFail := fun t e => t = .fails e }

theorem obeys_course (smsc code : JsString) :
    Obeys (course code) .selects (Job.prog smsc (.runUssd code)) := by
  refine ⟨rfl, ?_⟩
  intro a
  cases a with
  | error e => rfl
  | ok lines =>
      refine ⟨rfl, ?_⟩
      intro w
      refine ⟨rfl, ?_⟩
      intro a
      cases a with
      | error e => rfl
      | ok lines => exact ⟨rfl, fun line => rfl⟩

theorem eq_awaitReply {code : JsString} {w : Nat} {p : Prog Result}
    (h : Obeys (course code) (.awaits w) p) : p = awaitReply w := by
  cases p with
  | ret a => exact h.elim
  | fail e => cases h
  | call op k =>
      obtain ⟨hop, hnext⟩ := h
      have hop : op = .urc w := hop
      subst hop
      have hk : k = fun line => .ret (.reply line) := by
        funext line
        have hline : Obeys (course code) (.returns line) (k line) := hnext line
        cases hp : k line with
        | ret a =>
            rw [hp] at hline
            have ha : a = .reply line := hline
            rw [ha]
        | fail e =>
            rw [hp] at hline
            cases hline
        | call op k' =>
            rw [hp] at hline
            exact hline.1.elim
      rw [hk]
      rfl

/-- Once the modem has confirmed `AT+CUSD`, the call awaits its waiter. -/
theorem continuation {code : JsString} {r : Running} {c : Command}
    {k : Except JsError (List JsString) → Prog Result} (h : r.Within)
    (hjob : r.job = .runUssd code) (hph : r.phase = .command c k)
    (hreq : c.request = cusdRequest code) : ∃ w, ∀ lines, k (.ok lines) = awaitReply w := by
  obtain ⟨smsc, hrest⟩ := h
  rw [hjob, hph] at hrest
  obtain ⟨t, hobeys⟩ := obeys_rest hrest (obeys_course smsc code)
  obtain ⟨hop, hnext⟩ := hobeys
  rw [hreq] at hop
  cases t with
  | selects =>
      have hlabel : js "CUSD" = js "CSCS" := congrArg Request.label (Op.transact.inj hop)
      exact absurd hlabel (by decide)
  | registers => cases hop
  | asks w => exact ⟨w, fun lines => eq_awaitReply (hnext (.ok lines))⟩
  | awaits w => cases hop
  | returns line => exact hop.elim
  | fails e => exact hop.elim

/-- The waiter that the call awaits once its command is confirmed. -/
def awaited : Phase → Option Nat
  | .command _ k =>
      match k (.ok []) with
      | .call (.urc w) _ => some w
      | _ => none
  | _ => none

/-- A `runUssd` call comes to its `AT+CUSD` like this in every run. -/
theorem asked_run {smsc code : JsString} {es : List Event} {s : State} {id w : Nat}
    (h : run (Machine.start smsc) es = some s)
    (hcurrent : (current s).map (fun p => (p.1, p.2.request, p.2.lines)) =
      some (id, cusdRequest code, []))
    (hjob : s.running.map (·.job) = some (.runUssd code))
    (hawaited : s.running.bind (awaited ·.phase) = some w)
    (hwaiter : s.urcWaiters.any (·.id == w) = true) (hscan : s.scan = none)
    (hbuffer : s.rxBuffer = []) : Asked id w s := by
  obtain ⟨⟨id', c⟩, hc, heq⟩ := Option.map_eq_some_iff.mp hcurrent
  obtain ⟨rfl, hreq, hlines⟩ : id' = id ∧ c.request = cusdRequest code ∧ c.lines = [] := by
    simpa using heq
  obtain ⟨r, k, hr, rfl, hph⟩ := current_eq_some hc
  rw [hr, Option.map_some] at hjob
  obtain ⟨v, hk⟩ := continuation (within_run h r hr) (Option.some.inj hjob) hph hreq
  obtain rfl : v = w := by
    have hv : awaited r.phase = some v := by rw [hph, awaited, hk, awaitReply]
    rw [hr, Option.bind_some, hv] at hawaited
    exact Option.some.inj hawaited
  obtain ⟨x, hx, hid⟩ := List.any_eq_true.mp hwaiter
  exact ⟨⟨r, c, k, code, hr, rfl, hph, hreq, hlines, hk⟩, ⟨x, hx, beq_iff_eq.mp hid⟩,
    registered_run h, unfinished_run h hr, hscan, hbuffer⟩

/-! ## The exchange -/

section

variable {id w : Nat} {line : JsString} {s s' : State}

/-- The call awaits the OK of its `AT+CUSD`. -/
def Commanding (id w : Nat) (s : State) : Prop :=
  ∃ r c k, s.running = some r ∧ r.id = id ∧ r.phase = .command c k ∧
    c.request.expectPrompt = false ∧ ∀ lines, k (.ok lines) = awaitReply w

def Holds (id : Nat) (ph : Phase) (s : State) : Prop :=
  ∃ r, s.running = some r ∧ r.id = id ∧ r.phase = ph

/-- All waiters are for USSD replies. -/
def OnlyUssd (s : State) : Prop := ∀ x ∈ s.urcWaiters, x.pre = cusd

/-- The waiter of the call is registered, and has no report yet. -/
structure Waiting (w : Nat) (s : State) : Prop where
  waiter : ∃ x ∈ s.urcWaiters, x.id = w
  ussd : OnlyUssd s
  unresolved : s.settledUrcs.lookup w = none

/-- The waiter of the call has the report. -/
structure Taken (w : Nat) (line : JsString) (s : State) : Prop where
  ussd : OnlyUssd s
  resolved : s.settledUrcs.lookup w = some (some line)

/-- How far the exchange has come, with the lines that are still to be handled. -/
inductive Talk (id w : Nat) (line : JsString) (s : State) : List JsString → Prop where
  | asked {todo : List JsString} (htodo : todo = [line, js "OK"] ∨ todo = [js "OK", line])
      (hc : Commanding id w s) (hw : Waiting w s) : Talk id w line s todo
  | replied (hc : Commanding id w s) (ht : Taken w line s) : Talk id w line s [js "OK"]
  | confirmed (hh : Holds id (.ready (awaitReply w)) s) (hw : Waiting w s) : Talk id w line s [line]
  | awaiting (hh : Holds id (.urc w fun line => .ret (.reply line)) s) (hw : Waiting w s) :
      Talk id w line s [line]
  | resumed (hh : Holds id (.ready (awaitReply w)) s) (ht : Taken w line s) : Talk id w line s []
  | returning (hh : Holds id (.ready (.ret (.reply (some line)))) s) : Talk id w line s []

/-- The lines that the driver has still to handle, with the text that is still to come. -/
def pending (s : State) (rest : JsString) : List JsString :=
  s.scan.getD [] ++ linesOf (s.rxBuffer ++ rest)

/-- The call has returned the report, and no line has been handed to a later command. -/
structure Over (id : Nat) (line : JsString) (s : State) : Prop where
  finished : ∃ f ∈ s.results, f.id = id
  results : ∀ f ∈ s.results, f.id = id → f.result = .ok (.reply (some line))
  others : ∀ r, s.running = some r → r.id ≠ id
  queue : ∀ p ∈ s.queue, p.1 ≠ id
  next : id < s.nextCall
  clean : ∀ i c, current s = some (i, c) → c.lines = []

inductive Session (id w : Nat) (line rest : JsString) (s : State) : Prop where
  | talks (talk : Talk id w line s (pending s rest)) (unfinished : Unfinished id s)
  | ended (h : Over id line s) (hnil : pending s rest = [])

/-- The text that an event delivers. -/
def textOf : Event → JsString
  | .data text => text
  | _ => []

/-- A chunk moves text into lines. -/
theorem pending_data {text : JsString} (hscan : s.scan = none) (rest : JsString) :
    pending { s with rxBuffer := (readLines (s.rxBuffer ++ text)).2
                     scan := some (readLines (s.rxBuffer ++ text)).1 } rest =
      pending s (text ++ rest) := by
  rw [pending, pending, hscan, readLines_eq, Option.getD_some, Option.getD_none, List.nil_append,
    ← List.append_assoc, linesOf_tail_append (s.rxBuffer ++ text) rest]

/-! ### After the call -/

theorem pending_nil {rest : JsString} (h : pending s rest = [])
    (hscan : s'.scan = s.scan ∨ s'.scan = none)
    (hbuffer : s'.rxBuffer = s.rxBuffer ∨ s'.rxBuffer = []) : pending s' rest = [] := by
  rw [pending, List.append_eq_nil_iff] at h ⊢
  obtain ⟨hlines, htext⟩ := h
  constructor
  · obtain hscan | hscan := hscan
    · rw [hscan]
      exact hlines
    · rw [hscan]
      rfl
  · obtain hbuffer | hbuffer := hbuffer
    · rw [hbuffer]
      exact htext
    · rw [hbuffer, List.nil_append]
      exact linesOf_eq_nil_right htext

/-- Where nothing is left to be handled, a step leaves nothing. -/
theorem pending_nil_step {rest : JsString} {e : Event} (h : pending s (textOf e ++ rest) = [])
    (hs : step s e = some s') : pending s' rest = [] := by
  by_cases hdata : ∃ text, e = .data text
  · obtain ⟨text, rfl⟩ := hdata
    obtain ⟨hscan, -, rfl⟩ := Wire.step_data hs
    rw [pending_data hscan]
    exact h
  have htext : textOf e = [] := by
    cases e with
    | data text => exact absurd ⟨text, rfl⟩ hdata
    | _ => rfl
  rw [htext, List.nil_append] at h
  cases step_fields hs with
  | data text hscan hconnected hsame => exact absurd ⟨text, rfl⟩ hdata
  | line l lines hscan hsame =>
      rw [pending, hscan] at h
      cases h
  | prompt hscan hexpects hprompt hsame =>
      exact pending_nil h (Or.inr hsame.scan) (Or.inr hsame.rxBuffer)
  | scanned hscan hsame => exact pending_nil h (Or.inr hsame.scan) (Or.inl hsame.rxBuffer)
  | issued _ hscan hfree hcurrent hconnected hsame =>
      exact pending_nil h (Or.inl hsame.scan) (Or.inr hsame.rxBuffer)
  | reconnect hscan timer htimer hsame =>
      rcases hsame with hsame | hsame
      · exact pending_nil h (Or.inl hsame.scan) (Or.inl hsame.rxBuffer)
      · exact pending_nil h (Or.inl hsame.scan) (Or.inr hsame.rxBuffer)
  | same _ hscan hsame => exact pending_nil h (Or.inl hsame.scan) (Or.inl hsame.rxBuffer)
  | timeout hscan hcurrent hsame => exact pending_nil h (Or.inl hsame.scan) (Or.inl hsame.rxBuffer)
  | tick ms hscan hsame => exact pending_nil h (Or.inl hsame.scan) (Or.inl hsame.rxBuffer)
  | opened hscan hopening hsame => exact pending_nil h (Or.inl hsame.scan) (Or.inl hsame.rxBuffer)
  | notOpened hscan hopening timer hsame =>
      exact pending_nil h (Or.inl hsame.scan) (Or.inl hsame.rxBuffer)
  | closed hscan hconnected timer hsame =>
      exact pending_nil h (Or.inl hsame.scan) (Or.inl hsame.rxBuffer)
  | close hscan hsame => exact pending_nil h (Or.inl hsame.scan) (Or.inl hsame.rxBuffer)

/-- The next commands have no lines where none is handed on. -/
theorem clean_step {rest : JsString} {e : Event} (hclean : ∀ i c, current s = some (i, c) → c.lines = [])
    (hnil : pending s rest = []) (hs : step s e = some s') :
    ∀ i c, current s' = some (i, c) → c.lines = [] := by
  intro i c hc
  have hcurrent : current s' ≠ none := by rw [hc]; exact Option.some_ne_none _
  rcases Wire.current_step hs hcurrent with ⟨i', c', hc', hnone⟩ | ⟨hfree, -⟩
  · obtain ⟨r, k, hr, -, hph⟩ := current_eq_some hc'
    obtain ⟨more, hmore, r', hr', -, hph'⟩ := (step_current hs hr hph).2 hnone
    rw [current_of_command hr' hph'] at hc
    obtain ⟨-, rfl⟩ := Prod.mk.inj (Option.some.inj hc)
    rcases hmore with rfl | ⟨l, lines, hscan, -⟩
    · rw [List.append_nil]
      exact hclean i' c' hc'
    · rw [pending, hscan] at hnil
      cases hnil
  · obtain ⟨r, req, k, -, -, hconnected, -, -, rfl⟩ := (step_goes hs hfree).issued hcurrent
    rw [Wire.current_issue hconnected] at hc
    obtain ⟨-, rfl⟩ := Prod.mk.inj (Option.some.inj hc)
    rfl

theorem Over.others_of_same (h : Over id line s)
    (hids : s'.running.map (·.id) = s.running.map (·.id)) : ∀ r, s'.running = some r → r.id ≠ id := by
  intro r' hr'
  rw [hr', Option.map_some] at hids
  obtain ⟨r, hr, hid⟩ := Option.map_eq_some_iff.mp hids.symm
  rw [← hid]
  exact h.others r hr

/-- A call that is over stays so, whatever happens. -/
theorem Over.step {rest : JsString} {e : Event} (h : Over id line s)
    (hnil : pending s (textOf e ++ rest) = []) (hs : Machine.step s e = some s') :
    Session id w line rest s' := by
  refine .ended ?_ (pending_nil_step hnil hs)
  have hclean := clean_step h.clean hnil hs
  cases step_calls hs with
  | same hsame =>
      refine ⟨?_, ?_, ?_, ?_, ?_, hclean⟩
      · rw [hsame.results]
        exact h.finished
      · rw [hsame.results]
        exact h.results
      · exact h.others_of_same hsame.running
      · rw [hsame.queue]
        exact h.queue
      · rw [hsame.next]
        exact h.next
  | called job hsame =>
      refine ⟨?_, ?_, ?_, ?_, ?_, hclean⟩
      · rw [hsame.results]
        exact h.finished
      · rw [hsame.results]
        exact h.results
      · exact h.others_of_same hsame.running
      · intro p hp
        rw [hsame.queue] at hp
        obtain hp | hp := List.mem_append.mp hp
        · exact h.queue p hp
        · rw [List.mem_singleton.mp hp]
          exact Nat.ne_of_gt h.next
      · rw [hsame.next]
        exact Nat.lt_succ_of_lt h.next
  | started id' job queue hfree hqueue h' =>
      subst h'
      refine ⟨h.finished, h.results, ?_, ?_, h.next, hclean⟩
      · intro r hr
        obtain rfl := Option.some.inj hr
        exact h.queue (id', job) (by rw [hqueue]; exact List.mem_cons_self)
      · intro p hp
        exact h.queue p (by rw [hqueue]; exact List.mem_cons_of_mem _ hp)
  | finished r result hr h' =>
      subst h'
      refine ⟨?_, ?_, nofun, h.queue, h.next, hclean⟩
      · obtain ⟨f, hf, hid⟩ := h.finished
        exact ⟨f, List.mem_append_left _ hf, hid⟩
      · intro f hf hid
        obtain hf | hf := List.mem_append.mp hf
        · exact h.results f hf hid
        · rw [List.mem_singleton.mp hf] at hid
          exact absurd hid (h.others r hr)

/-! ### Steps that do not concern the exchange -/

theorem Talk.congr {todo : List JsString} (h : Talk id w line s todo)
    (hrun : s'.running = s.running) (hwaiting : Waiting w s → Waiting w s')
    (htaken : Taken w line s → Taken w line s') : Talk id w line s' todo := by
  have hcommanding : Commanding id w s → Commanding id w s' := by
    rintro ⟨r, c, k, hr, hrest⟩
    exact ⟨r, c, k, hrun.trans hr, hrest⟩
  have hholds {ph : Phase} : Holds id ph s → Holds id ph s' := by
    rintro ⟨r, hr, hrest⟩
    exact ⟨r, hrun.trans hr, hrest⟩
  cases h with
  | asked htodo hc hw => exact .asked htodo (hcommanding hc) (hwaiting hw)
  | replied hc ht => exact .replied (hcommanding hc) (htaken ht)
  | confirmed hh hw => exact .confirmed (hholds hh) (hwaiting hw)
  | awaiting hh hw => exact .awaiting (hholds hh) (hwaiting hw)
  | resumed hh ht => exact .resumed (hholds hh) (htaken ht)
  | returning hh => exact .returning (hholds hh)

theorem Talk.same {todo : List JsString} (h : Talk id w line s todo)
    (hrun : s'.running = s.running) (hwaiters : s'.urcWaiters = s.urcWaiters)
    (hsettled : s'.settledUrcs = s.settledUrcs) : Talk id w line s' todo := by
  have hussd (h : OnlyUssd s) : OnlyUssd s' := by
    rw [OnlyUssd, hwaiters]
    exact h
  refine h.congr hrun ?_ ?_
  · intro hw
    exact ⟨by rw [hwaiters]; exact hw.waiter, hussd hw.ussd, by rw [hsettled]; exact hw.unresolved⟩
  · intro ht
    exact ⟨hussd ht.ussd, by rw [hsettled]; exact ht.resolved⟩

/-- The holder awaits its command, its waiter, or is about to go on. -/
theorem Talk.cases {todo : List JsString} (h : Talk id w line s todo) :
    Commanding id w s ∨
      (∃ p, Holds id (.ready p) s ∧ (p = awaitReply w ∨ p = .ret (.reply (some line)))) ∨
      Holds id (.urc w fun line => .ret (.reply line)) s := by
  cases h with
  | asked _ hc _ => exact Or.inl hc
  | replied hc _ => exact Or.inl hc
  | confirmed hh _ => exact Or.inr (Or.inl ⟨_, hh, Or.inl rfl⟩)
  | awaiting hh _ => exact Or.inr (Or.inr hh)
  | resumed hh _ => exact Or.inr (Or.inl ⟨_, hh, Or.inl rfl⟩)
  | returning hh => exact Or.inr (Or.inl ⟨_, hh, Or.inr rfl⟩)

theorem unfinished_same (h : Unfinished id s) (hsame : SameCalls s s') : Unfinished id s' := by
  refine ⟨?_, ?_, ?_⟩
  · rw [hsame.results]
    exact h.results
  · rw [hsame.queue]
    exact h.queue
  · rw [hsame.next]
    exact h.next

theorem unfinished_call (h : Unfinished id s) (job : Job) : Unfinished id (enqueue s job) := by
  refine ⟨h.results, ?_, Nat.lt_succ_of_lt h.next⟩
  intro p hp
  obtain hp | hp := List.mem_append.mp hp
  · exact h.queue p hp
  · rw [List.mem_singleton.mp hp]
    exact Nat.ne_of_gt h.next

theorem not_returned (h : Unfinished id s) : returned id s = false := by
  rw [returned, List.any_eq_false]
  intro f hf
  rw [beq_iff_eq]
  exact h.results f hf

/-- A holder that awaits something else is not told of a waiter's line. -/
theorem Talk.resolveUrc {todo : List JsString} (h : Talk id w line s todo) {v : Nat} (hv : v ≠ w)
    (answer : Option JsString) : s.running.map (·.resolveUrc v answer) = s.running := by
  obtain ⟨r, c, k, hr, -, hph, -⟩ | ⟨p, ⟨r, hr, -, hph⟩, -⟩ | ⟨r, hr, -, hph⟩ := h.cases
  · rw [hr, Option.map_some, Running.resolveUrc, hph]
  · rw [hr, Option.map_some, Running.resolveUrc, hph]
  · rw [hr, Option.map_some, Running.resolveUrc, hph]
    simp only [Ne.symm hv, if_false]

/-- The waiter of an earlier call times out. -/
theorem Talk.waiterTimeout {todo : List JsString} (h : Talk id w line s todo) {v : Waiter}
    (hv : v.id ≠ w) : Talk id w line (resolveWaiter
      { s with urcWaiters := s.urcWaiters.filter (·.id != v.id) } v none) todo := by
  have hlookup : ((v.id, none) :: s.settledUrcs).lookup w = s.settledUrcs.lookup w := by
    rw [List.lookup_cons, beq_false_of_ne (Ne.symm hv)]
  have hussd (h : OnlyUssd s) : ∀ x ∈ s.urcWaiters.filter (·.id != v.id), x.pre = cusd :=
    fun x hx => h x (List.mem_filter.mp hx).1
  refine h.congr (h.resolveUrc hv none) ?_ ?_
  · rintro ⟨⟨x, hx, hid⟩, hall, hunresolved⟩
    refine ⟨⟨x, List.mem_filter.mpr ⟨hx, ?_⟩, hid⟩, hussd hall, hlookup.trans hunresolved⟩
    rw [bne_iff_ne, hid]
    exact Ne.symm hv
  · rintro ⟨hall, hresolved⟩
    exact ⟨hussd hall, hlookup.trans hresolved⟩

/-! ### A line -/

/-- The first waiter takes a `+CUSD` line. -/
theorem handleLine_taken {l : JsString} (hall : OnlyUssd s)
    (hfirst : s.urcWaiters.head?.any (·.id == w) = true) (hl : startsWith l cusd = true) :
    ∃ x waiters, s.urcWaiters = x :: waiters ∧ x.id = w ∧
      handleLine s l = resolveWaiter { s with urcWaiters := waiters } x (some l) := by
  cases hw : s.urcWaiters with
  | nil =>
      rw [hw] at hfirst
      cases hfirst
  | cons x waiters =>
      rw [hw] at hfirst
      have htakes : takes l x = true := by
        rw [takes, hall x (by rw [hw]; exact List.mem_cons_self)]
        exact hl
      refine ⟨x, waiters, rfl, beq_iff_eq.mp hfirst, ?_⟩
      rw [handleLine, hw, List.find?_cons_of_pos htakes]
      dsimp only
      rw [List.eraseP_cons_of_pos htakes]

/-- No waiter takes another line. -/
theorem handleLine_passed {l : JsString} (hall : OnlyUssd s) (hl : startsWith l cusd = false) :
    handleLine s l = s.mapRunning (·.receive l) := by
  rw [handleLine, find_passed hall hl]

/-- The waiter of the call has taken the line. -/
theorem taken_resolveWaiter {x : Waiter} {waiters : List Waiter} (hall : OnlyUssd s)
    (hw : s.urcWaiters = x :: waiters) (hid : x.id = w) (l : JsString) :
    Taken w l (resolveWaiter { s with urcWaiters := waiters } x (some l)) := by
  refine ⟨fun y hy => hall y (by rw [hw]; exact List.mem_cons_of_mem x hy), ?_⟩
  rw [resolveWaiter, hid]
  exact List.lookup_cons_self

/-- The OK lets the call go on. -/
theorem holds_ok (hc : Commanding id w s) :
    Holds id (.ready (awaitReply w)) (s.mapRunning (·.receive (js "OK"))) := by
  obtain ⟨r, c, k, hr, hid, hph, -, hk⟩ := hc
  obtain ⟨hid', hph'⟩ := receive_phase hph (js "OK")
  refine ⟨r.receive (js "OK"), ?_, hid'.trans hid, ?_⟩
  · rw [State.mapRunning, hr, Option.map_some]
  · rw [hph', if_pos (by decide), if_neg (by decide), hk]

theorem talk_line {l : JsString} {todo : List JsString} (hline : startsWith line cusd = true)
    (hserved : startsWith l cusd = true → s.urcWaiters.head?.any (·.id == w) = true)
    (h : Talk id w line s (l :: todo)) : Talk id w line (handleLine s l) todo := by
  have hok : startsWith (js "OK") cusd = false := by decide
  generalize htodo : l :: todo = all at h
  cases h with
  | asked hall hc hw =>
      obtain hall | hall := hall
      · obtain ⟨rfl, rfl⟩ := List.cons.inj (htodo.trans hall)
        obtain ⟨x, waiters, hx, hxid, hstate⟩ := handleLine_taken hw.ussd (hserved hline) hline
        rw [hstate]
        refine .replied ?_ (taken_resolveWaiter hw.ussd hx hxid l)
        obtain ⟨r, c, k, hr, hid, hph, hrest⟩ := hc
        obtain ⟨hid', hph'⟩ := resolveUrc_phase hph x.id (some l)
        refine ⟨r.resolveUrc x.id (some l), c, k, ?_, hid'.trans hid, hph', hrest⟩
        rw [resolveWaiter, hr, Option.map_some]
      · obtain ⟨rfl, rfl⟩ := List.cons.inj (htodo.trans hall)
        rw [handleLine_passed hw.ussd hok]
        exact .confirmed (holds_ok hc) ⟨hw.waiter, hw.ussd, hw.unresolved⟩
  | replied hc ht =>
      obtain ⟨rfl, rfl⟩ := List.cons.inj htodo
      rw [handleLine_passed ht.ussd hok]
      exact .resumed (holds_ok hc) ⟨ht.ussd, ht.resolved⟩
  | confirmed hh hw =>
      obtain ⟨rfl, rfl⟩ := List.cons.inj htodo
      obtain ⟨x, waiters, hx, hxid, hstate⟩ := handleLine_taken hw.ussd (hserved hline) hline
      obtain ⟨r, hr, hid, hph⟩ := hh
      rw [hstate]
      refine .resumed ⟨r, ?_, hid, hph⟩ (taken_resolveWaiter hw.ussd hx hxid l)
      rw [resolveWaiter, hr, Option.map_some, Running.resolveUrc, hph]
  | awaiting hh hw =>
      obtain ⟨rfl, rfl⟩ := List.cons.inj htodo
      obtain ⟨x, waiters, hx, hxid, hstate⟩ := handleLine_taken hw.ussd (hserved hline) hline
      obtain ⟨r, hr, hid, hph⟩ := hh
      rw [hstate]
      refine .returning ⟨{ r with phase := .ready (.ret (.reply (some l))) }, ?_, hid, rfl⟩
      rw [resolveWaiter, hr, Option.map_some, Running.resolveUrc, hph]
      simp only [hxid, if_true]
  | resumed hh ht => cases htodo
  | returning hh => cases htodo

/-! ### Steps of the exchange -/

theorem talks_scan {rest : JsString} (hline : startsWith line cusd = true)
    (hserved : served w s = true) (htalk : Talk id w line s (pending s rest))
    (hunfinished : Unfinished id s) (hs : runScan s = some s') : Session id w line rest s' := by
  cases hscan : s.scan with
  | none =>
      rw [runScan, hscan] at hs
      cases hs
  | some lines =>
      cases lines with
      | nil =>
          have hprompt : expectsPrompt s = false := by
            obtain ⟨r, c, k, hr, -, hph, hexpect, -⟩ | ⟨p, ⟨r, hr, -, hph⟩, -⟩ | ⟨r, hr, -, hph⟩ :=
              htalk.cases
            · simp [expectsPrompt, hr, hph, hexpect]
            · simp [expectsPrompt, hr, hph]
            · simp [expectsPrompt, hr, hph]
          rw [runScan, hscan] at hs
          simp only [hprompt, Bool.false_and, Bool.false_eq_true, if_false] at hs
          obtain rfl := Option.some.inj hs
          rw [pending, hscan] at htalk
          exact .talks (htalk.same rfl rfl rfl) (unfinished_same hunfinished ⟨rfl, rfl, rfl, rfl⟩)
      | cons l lines =>
          rw [runScan, hscan] at hs
          obtain rfl := Option.some.inj hs
          have hfields := Same.handleLine { s with scan := some lines } l
          have hpending : pending s rest =
              l :: pending (handleLine { s with scan := some lines } l) rest := by
            rw [pending, pending, hfields.scan, hfields.rxBuffer, hscan]
            rfl
          have hcalls : SameCalls s { s with scan := some lines } := ⟨rfl, rfl, rfl, rfl⟩
          rw [hpending] at htalk
          rw [served, hscan] at hserved
          have hscanned : Talk id w line { s with scan := some lines } _ := htalk.same rfl rfl rfl
          refine .talks (talk_line hline ?_ hscanned) (unfinished_same hunfinished (hcalls.handleLine l))
          intro hl
          simpa [hl] using hserved

theorem not_microtask {ph : Phase} (h : Holds id ph s) (hph : ∀ p, ph ≠ .ready p) (random : Nat) :
    runMicrotask s random = none := by
  obtain ⟨r, hr, -, rfl⟩ := h
  rw [runMicrotask, hr]
  dsimp only
  split
  case h_1 p hp => exact absurd hp (hph p)
  case h_2 => rfl

theorem Commanding.holds (h : Commanding id w s) :
    ∃ c k, Holds id (.command c k) s := by
  obtain ⟨r, c, k, hr, hid, hph, -⟩ := h
  exact ⟨c, k, r, hr, hid, hph⟩

theorem runMicrotask_ready {p : Prog Result} (h : Holds id (.ready p) s) (random : Nat) :
    ∃ r, s.running = some r ∧ r.id = id ∧ r.phase = .ready p ∧
      runMicrotask s random = some (advance s r p random) := by
  obtain ⟨r, hr, hid, hph⟩ := h
  exact ⟨r, hr, hid, hph, by rw [runMicrotask, hr]; simp only [hph]⟩

theorem talks_microtask {rest : JsString} {random : Nat} (htalk : Talk id w line s (pending s rest))
    (hunfinished : Unfinished id s) (hs : runMicrotask s random = some s') :
    Session id w line rest s' := by
  generalize htodo : pending s rest = todo at htalk
  cases htalk with
  | asked _ hc _ =>
      obtain ⟨c, k, hh⟩ := hc.holds
      rw [not_microtask hh (fun _ => Phase.noConfusion)] at hs
      cases hs
  | replied hc _ =>
      obtain ⟨c, k, hh⟩ := hc.holds
      rw [not_microtask hh (fun _ => Phase.noConfusion)] at hs
      cases hs
  | awaiting hh _ =>
      rw [not_microtask hh (fun _ => Phase.noConfusion)] at hs
      cases hs
  | confirmed hh hw =>
      obtain ⟨r, hr, hid, hph, htask⟩ := runMicrotask_ready hh random
      have hadvance : advance s r (awaitReply w) random =
          { s with running := some { r with phase := .urc w fun line => .ret (.reply line) } } := by
        rw [awaitReply, advance_urc, hw.unresolved]
      rw [htask, hadvance] at hs
      obtain rfl := Option.some.inj hs
      refine .talks ?_ (unfinished_same hunfinished ⟨rfl, by rw [hr]; rfl, rfl, rfl⟩)
      have hpending : pending { s with
          running := some { r with phase := .urc w fun line => .ret (.reply line) } } rest = [line] :=
        htodo
      rw [hpending]
      exact .awaiting ⟨_, rfl, hid, rfl⟩ ⟨hw.waiter, hw.ussd, hw.unresolved⟩
  | resumed hh ht =>
      obtain ⟨r, hr, hid, hph, htask⟩ := runMicrotask_ready hh random
      have hadvance : advance s r (awaitReply w) random =
          goOn s r (.ret (.reply (some line))) := by
        rw [awaitReply, advance_urc, ht.resolved]
      rw [htask, hadvance] at hs
      obtain rfl := Option.some.inj hs
      refine .talks ?_ (unfinished_same hunfinished ⟨rfl, by rw [hr]; rfl, rfl, rfl⟩)
      have hpending : pending (goOn s r (.ret (.reply (some line)))) rest = [] := htodo
      rw [hpending]
      exact .returning ⟨_, rfl, hid, rfl⟩
  | returning hh =>
      obtain ⟨r, hr, hid, hph, htask⟩ := runMicrotask_ready hh random
      rw [htask] at hs
      obtain rfl := Option.some.inj hs
      refine .ended ⟨⟨_, List.mem_append_right _ (List.mem_singleton_self _), hid⟩, ?_, nofun,
        hunfinished.queue, hunfinished.next, nofun⟩ (pending_nil htodo (Or.inl rfl) (Or.inl rfl))
      intro f hf hfid
      obtain hf | hf := List.mem_append.mp hf
      · exact absurd hfid (hunfinished.results f hf)
      · rw [List.mem_singleton.mp hf]

theorem talks_react {rest : JsString} {e : Event} (hundisturbed : undisturbed id w s e = true)
    (htalk : Talk id w line s (pending s (textOf e ++ rest))) (hunfinished : Unfinished id s)
    (hscan : s.scan = none) (hs : react s e = some s') : Session id w line rest s' := by
  have hneither {r : Running} (hr : s.running = some r) (hph : ∀ c k, r.phase ≠ .command c k)
      (hph' : ∀ p, r.phase ≠ .ready p) (hph'' : ∀ v k, r.phase ≠ .urc v k) : False := by
    obtain ⟨r', c, k, hr', -, hc, -⟩ | ⟨p, ⟨r', hr', -, hp⟩, -⟩ | ⟨r', hr', -, hu⟩ := htalk.cases
    · obtain rfl := Option.some.inj (hr.symm.trans hr')
      exact hph c k hc
    · obtain rfl := Option.some.inj (hr.symm.trans hr')
      exact hph' p hp
    · obtain rfl := Option.some.inj (hr.symm.trans hr')
      exact hph'' _ _ hu
  rw [undisturbed, not_returned hunfinished, Bool.false_or] at hundisturbed
  cases e with
  | call job =>
      obtain rfl := Option.some.inj hs
      have hcalled : Talk id w line (enqueue s job) (pending s rest) := htalk.same rfl rfl rfl
      exact .talks hcalled (unfinished_call hunfinished job)
  | data text =>
      rw [react] at hs
      split at hs
      · obtain rfl := Option.some.inj hs
        rw [textOf, ← pending_data hscan] at htalk
        exact .talks (htalk.same rfl rfl rfl) (unfinished_same hunfinished ⟨rfl, rfl, rfl, rfl⟩)
      · cases hs
  | tick ms =>
      obtain rfl := Option.some.inj hs
      have hticked : Talk id w line { s with now := s.now + ms } (pending s rest) :=
        htalk.same rfl rfl rfl
      exact .talks hticked (unfinished_same hunfinished ⟨rfl, rfl, rfl, rfl⟩)
  | waiterTimeout v =>
      rw [react] at hs
      split at hs
      case h_1 x hfind =>
        split at hs
        · obtain rfl := Option.some.inj hs
          have hmatch := List.find?_some hfind
          obtain rfl : x.id = v := beq_iff_eq.mp hmatch
          have hv : (x.id != w) = true := hundisturbed
          exact .talks (htalk.waiterTimeout (bne_iff_ne.mp hv))
            (unfinished_same hunfinished (.map (fun r => resolveUrc_id r x.id none) rfl rfl rfl rfl))
        · cases hs
      case h_2 => cases hs
  | writeFailed message reached =>
      obtain rfl := Option.some.inj hs
      have hfree : current s = none := Option.isNone_iff_eq_none.mp hundisturbed
      have hrun : s.running.map (·.failWrite message reached) = s.running := by
        obtain ⟨r, c, k, hr, -, hph, -⟩ | ⟨p, ⟨r, hr, -, hph⟩, -⟩ | ⟨r, hr, -, hph⟩ := htalk.cases
        · rw [current_of_command hr hph] at hfree
          cases hfree
        · cases reached <;> simp [hr, Running.failWrite, Running.abandon, hph]
        · cases reached <;> simp [hr, Running.failWrite, Running.abandon, hph]
      have hfailed : Talk id w line (s.mapRunning (·.failWrite message reached)) (pending s rest) :=
        htalk.same hrun rfl rfl
      exact .talks hfailed (unfinished_same hunfinished (.map (fun r => failWrite_id r message reached) rfl rfl rfl rfl))
  | quietOver =>
      rw [react] at hs
      split at hs
      case h_1 r hr =>
        split at hs
        case h_1 deadline req k hph =>
          exact (hneither hr (by simp [hph]) (by simp [hph]) (by simp [hph])).elim
        case h_2 => cases hs
      case h_2 => cases hs
  | persisted answer =>
      rw [react] at hs
      split at hs
      case h_1 r hr =>
        split at hs
        case h_1 messages k hph =>
          exact (hneither hr (by simp [hph]) (by simp [hph]) (by simp [hph])).elim
        case h_2 => cases hs
      case h_2 => cases hs
  | scan => cases hs
  | microtask random => cases hs
  | _ => cases hundisturbed

theorem session_step {rest : JsString} {e : Event} (hline : startsWith line cusd = true)
    (hundisturbed : undisturbed id w s e = true) (h : Session id w line (textOf e ++ rest) s)
    (hs : step s e = some s') : Session id w line rest s' := by
  cases h with
  | ended h hnil => exact h.step hnil hs
  | talks htalk hunfinished =>
      obtain ⟨rfl, hscan⟩ | ⟨random, rfl, -, htask⟩ | ⟨hscan, -, hreact⟩ := step_cases hs
      · rw [undisturbed, not_returned hunfinished, Bool.false_or] at hundisturbed
        exact talks_scan hline hundisturbed htalk hunfinished hscan
      · exact talks_microtask htalk hunfinished htask
      · exact talks_react hundisturbed htalk hunfinished hscan hreact

theorem session_asked {m dcs : Nat} {text : JsString} {order : Order} (h : Asked id w s)
    (hbreak : LF ∉ text) :
    Session id w (report m dcs text) (answerText order m dcs text) s := by
  obtain ⟨r, c, k, code, hr, hid, hph, hreq, -, hk⟩ := h.holder
  obtain ⟨x, hx, rfl⟩ := h.waiter
  refine .talks ?_ h.unfinished
  rw [pending, h.scan, h.buffer, List.nil_append, linesOf_answerText hbreak]
  refine .asked ?_ ⟨r, c, k, hr, hid, hph, by rw [hreq]; rfl, hk⟩
    ⟨⟨x, hx, rfl⟩, h.registered.pre, h.registered.unresolved x hx⟩
  cases order with
  | before => exact Or.inl rfl
  | after => exact Or.inr rfl

theorem session_run {rest : JsString} {es : List Event} (hline : startsWith line cusd = true)
    (hundisturbed : Runs.allSteps step (undisturbed id w) s es = true)
    (h : Session id w line ((delivered es).flatten ++ rest) s) (hrun : run s es = some s') :
    Session id w line rest s' := by
  induction es generalizing s with
  | nil =>
      obtain rfl := Option.some.inj hrun
      exact h
  | cons e es ih =>
      obtain ⟨t, ht, hrest⟩ := Option.bind_eq_some_iff.mp hrun
      rw [Runs.allSteps, Bool.and_eq_true, ht] at hundisturbed
      have htext : (delivered (e :: es)).flatten = textOf e ++ (delivered es).flatten := by
        cases e <;> rfl
      rw [htext, List.append_assoc] at h
      exact ih hundisturbed.2 (session_step hline hundisturbed.1 h ht) hrest

/-- What is left in the buffer is the start of a line. -/
theorem buffer_step {e : Event} (h : LF ∉ s.rxBuffer) (hs : step s e = some s') :
    LF ∉ s'.rxBuffer := by
  cases step_fields hs with
  | data text _ _ hsame =>
      rw [hsame.rxBuffer, readLines_eq]
      exact Lines.not_mem_tail LF _
  | prompt _ _ _ hsame => simp [hsame.rxBuffer]
  | issued _ _ _ _ _ hsame => simp [hsame.rxBuffer]
  | reconnect _ _ _ hsame =>
      obtain hsame | hsame := hsame
      · rw [hsame.rxBuffer]
        exact h
      · simp [hsame.rxBuffer]
  | line _ _ _ hsame => rwa [hsame.rxBuffer]
  | scanned _ hsame => rwa [hsame.rxBuffer]
  | same _ _ hsame => rwa [hsame.rxBuffer]
  | timeout _ _ hsame => rwa [hsame.rxBuffer]
  | opened _ _ hsame => rwa [hsame.rxBuffer]
  | notOpened _ _ _ hsame => rwa [hsame.rxBuffer]
  | closed _ _ _ hsame => rwa [hsame.rxBuffer]
  | close _ hsame => rwa [hsame.rxBuffer]
  | tick _ _ hsame => rwa [hsame.rxBuffer]

/-- With everything handled, a driver at rest has returned the reply. -/
theorem session_done (h : Session id w line [] s) (hbuffer : LF ∉ s.rxBuffer) (hrest : AtRest s) :
    ∃ f ∈ s.results, f.id = id := by
  cases h with
  | ended h _ => exact h.finished
  | talks htalk _ =>
      have hnil : pending s [] = [] := by
        rw [pending, hrest.1, List.append_nil, linesOf, Lines.pieces, Lines.split_tail hbuffer]
        rfl
      rw [hnil] at htalk
      have hready {p : Prog Result} (hh : Holds id (.ready p) s) : due s = true := by
        obtain ⟨r, hr, -, hph⟩ := hh
        rw [due, hr]
        simp only [hph]
      generalize htodo : ([] : List JsString) = todo at htalk
      cases htalk with
      | asked hall _ _ =>
          subst htodo
          obtain hall | hall := hall <;> cases hall
      | replied _ _ => cases htodo
      | confirmed _ _ => cases htodo
      | awaiting _ _ => cases htodo
      | resumed hh _ => exact absurd (hready hh) (by simp [hrest.2])
      | returning hh => exact absurd (hready hh) (by simp [hrest.2])

/-- While the exchange is on, no other call has a command. -/
theorem session_whole {rest text : JsString} (h : Session id w line rest s) (htext : text <:+: line) :
    ReplyWhole id text s := by
  cases h with
  | ended h _ =>
      refine ⟨fun f hf hid => ⟨line, h.results f hf hid, htext⟩, ?_⟩
      intro r c k hr _ hph
      exact h.clean r.id c (current_of_command hr hph)
  | talks htalk hunfinished =>
      refine ⟨fun f hf hid => absurd hid (hunfinished.results f hf), ?_⟩
      intro r c k hr hne _
      obtain ⟨r', -, -, hr', hid, -⟩ | ⟨p, ⟨r', hr', hid, -⟩, -⟩ | ⟨r', hr', hid, -⟩ := htalk.cases
      · obtain rfl := Option.some.inj (hr.symm.trans hr')
        exact absurd hid hne
      · obtain rfl := Option.some.inj (hr.symm.trans hr')
        exact absurd hid hne
      · obtain rfl := Option.some.inj (hr.symm.trans hr')
        exact absurd hid hne

end

/-- A reply without line breaks, cut at no character, is returned whole, in every run in which
nothing disturbs the call; and it is returned once it has arrived and been worked off. -/
theorem reply_whole {id w : Nat} {s : State} (hasked : Asked id w s) {order : Order} {m dcs : Nat}
    {text : JsString} (htext : isWellFormed text = true) (hbreak : LF ∉ text)
    {chunks : List (List Nat)} (hstream : chunks.flatten = utf8Octets (answerText order m dcs text))
    (hcut : ∀ c ∈ chunks, IsUtf8 c) {es : List Event} {s' : State}
    (hundisturbed : Runs.allSteps step (undisturbed id w) s es = true)
    (hdata : delivered es <+: chunks.map utf8Decode) (hrun : run s es = some s') :
    ReplyWhole id text s' ∧
      (delivered es = chunks.map utf8Decode → AtRest s' → ∃ f ∈ s'.results, f.id = id) := by
  have hsession : Session id w (report m dcs text) (answerText order m dcs text) s :=
    session_asked hasked hbreak
  have hanswer : (chunks.map utf8Decode).flatten = answerText order m dcs text := by
    rw [← List.flatMap_def, flatMap_utf8Decode_eq hcut, hstream,
      utf8Decode_utf8Octets (wellFormed_answerText htext)]
  obtain ⟨rest, hrest⟩ := hdata
  have hend : Session id w (report m dcs text) rest.flatten s' := by
    refine session_run (startsWith_report m dcs text) hundisturbed ?_ hrun
    rw [← List.flatten_append, hrest, hanswer]
    exact hsession
  refine ⟨session_whole hend (infix_report m dcs text), ?_⟩
  intro hall hidle
  have hnil : rest = [] := by
    rw [hall] at hrest
    exact List.append_right_eq_self.mp hrest
  rw [hnil] at hend
  refine session_done hend ?_ hidle
  refine Runs.run_induct (P := fun s => LF ∉ s.rxBuffer) (A := fun _ => True)
    (fun _ _ _ hb _ hstep => buffer_step hb hstep) ?_ (fun _ _ => trivial) hrun
  simp [hasked.buffer]

/-! ## Two replies -/

/-- A `runUssd` call comes to its `AT+CUSD`. -/
def callUssd : List Event :=
  [.call (.runUssd (js "*0800#")), .microtask 0, .microtask 0] ++ answered (js "OK") ++ [.microtask 0]

/-- The first session of a code is answered ERROR and leaves its waiter behind; it is run again 15 s
later, with a ping behind it. -/
def retrying : List Event :=
  boot ++ callUssd ++ answered (js "ERROR") ++ [.tick 15000] ++ callUssd ++ [.call .ping]

theorem retrying_isSome : (run (Machine.start []) retrying).isSome = true := by decide +kernel

def retriedState : State := (run (Machine.start []) retrying).get retrying_isSome

theorem asked_retrying : Asked 2 1 retriedState :=
  asked_run (Option.some_get retrying_isSome).symm
    (by decide +kernel : _ = some (2, cusdRequest (js "*0800#"), [])) (by decide +kernel)
    (by decide +kernel) (by decide +kernel) (by decide +kernel) (by decide +kernel)

/-- The octets of an answer, cut behind the first `n`. -/
def cutAt (n : Nat) (text : JsString) : List (List Nat) :=
  let octets := utf8Octets (answerText .after 0 15 text)
  [octets.take n, octets.drop n]

/-- The port delivers a chunk that completes so many lines, and calls go on. -/
def arrival (chunk : List Nat) (lines microtasks : Nat) : List Event :=
  .data (utf8Decode chunk) :: (List.replicate (lines + 1) .scan ++ List.replicate microtasks (.microtask 0))

def oneLine : JsString := js "Balance 4.20 €"

/-- The report is complete only when the waiter left behind has timed out. -/
def oneLineRun : List Event :=
  match cutAt 20 oneLine with
  | [first, second] => arrival first 1 1 ++ [.tick 5000, .waiterTimeout 0] ++ arrival second 1 3
  | _ => []

theorem oneLine_isSome : (run retriedState oneLineRun).isSome = true := by decide +kernel

theorem oneLine_uncut : ∀ c ∈ cutAt 20 oneLine, IsUtf8 c := by
  have hfirst : IsUtf8 ((utf8Octets (answerText .after 0 15 oneLine)).take 20) :=
    ⟨(answerText .after 0 15 oneLine).take 20, by decide +kernel, by decide +kernel⟩
  have hsecond : IsUtf8 ((utf8Octets (answerText .after 0 15 oneLine)).drop 20) :=
    ⟨(answerText .after 0 15 oneLine).drop 20, by decide +kernel, by decide +kernel⟩
  intro c hc
  obtain rfl | hc := List.mem_cons.mp hc
  · exact hfirst
  · rw [List.mem_singleton.mp hc]
    exact hsecond

theorem reply_whole_oneLine :
    ReplyWhole 2 oneLine ((run retriedState oneLineRun).get oneLine_isSome) ∧
      (delivered oneLineRun = (cutAt 20 oneLine).map utf8Decode →
        AtRest ((run retriedState oneLineRun).get oneLine_isSome) →
        ∃ f ∈ ((run retriedState oneLineRun).get oneLine_isSome).results, f.id = 2) := by
  have hstream : (cutAt 20 oneLine).flatten = utf8Octets (answerText .after 0 15 oneLine) := by
    decide +kernel
  exact reply_whole asked_retrying (by decide) (by decide) hstream oneLine_uncut (by decide +kernel)
    (by decide +kernel) (Option.some_get oneLine_isSome).symm

/-- A first session, with a ping behind it. -/
def asking : List Event := boot ++ callUssd ++ [.call .ping]

theorem asking_isSome : (run (Machine.start []) asking).isSome = true := by decide +kernel

def askedState : State := (run (Machine.start []) asking).get asking_isSome

theorem asked_asking : Asked 1 0 askedState :=
  asked_run (Option.some_get asking_isSome).symm
    (by decide +kernel : _ = some (1, cusdRequest (js "*0800#"), [])) (by decide +kernel)
    (by decide +kernel) (by decide +kernel) (by decide +kernel) (by decide +kernel)

/-- A menu of two lines, cut between them. -/
def menu : JsString := js "1 Balance\n2 Tariff"

def menuRun : List Event :=
  match cutAt 28 menu with
  | [first, second] => arrival first 2 4 ++ arrival second 1 0
  | _ => []

theorem menu_isSome : (run askedState menuRun).isSome = true := by decide +kernel

/-- The caller gets the first line, and the second one becomes a line of the ping's command. -/
theorem menu_not_whole :
    Asked 1 0 askedState ∧ Runs.allSteps step (undisturbed 1 0) askedState menuRun = true ∧
      delivered menuRun = (cutAt 28 menu).map utf8Decode ∧
      ¬ReplyWhole 1 menu ((run askedState menuRun).get menu_isSome) ∧
      ((run askedState menuRun).get menu_isSome).results.getLast?.map (·.result) =
        some (.ok (.reply (some (js "+CUSD: 0,\"1 Balance")))) ∧
      (current ((run askedState menuRun).get menu_isSome)).map (fun p => (p.1, p.2.lines)) =
        some (2, [js "2 Tariff\",15"]) := by
  refine ⟨asked_asking, by decide +kernel, by decide +kernel, ?_, by decide +kernel,
    by decide +kernel⟩
  intro h
  have hresult : (⟨1, .runUssd (js "*0800#"), false, false, false,
      .ok (.reply (some (js "+CUSD: 0,\"1 Balance")))⟩ : Finished) ∈
        ((run askedState menuRun).get menu_isSome).results := by decide +kernel
  obtain ⟨line, hline, hwhole⟩ := h.returned _ hresult rfl
  obtain rfl := Option.some.inj (Result.reply.inj (Except.ok.inj hline))
  revert hwhole
  decide +kernel

end SmsGateway.Serial.Reply
