import SmsGateway.Router
import SmsGateway.SendQueue
import SmsGateway.Splitting

/-!
# An accepted request reaches its modem

The route checks a request against the limits of every modem that may come to send it, so
none of the drivers refuses it: an attempt fails only after its driver has begun to talk to
the modem.
-/

namespace SmsGateway.Router

open SmsGateway SmsEncoding Json
open LogStore Pool Worker SendQueue
open Lib Lib.Async

/-! ## What is accepted -/

/-- The request `body` asks for `req`, and every modem that may send it can take it. -/
structure Accepted (newURL : JsString → Option Webhook.Url) (allowedHosts : List JsString)
    (fleet : Fleet) (body : JsValue) (req : SendBody) : Prop where
  recipient : req.recipient = trimmed (field body (js "to")) ∧ phoneRe req.recipient = true
  message : field body (js "message") = .str req.message ∧ trim req.message ≠ []
  plain : controlCharsRe req.message = false
  project : field body (js "projectName") = .str req.projectName ∧ trim req.projectName ≠ []
  modem : (field body (js "modem") = .undefined ∧ req.modem = none) ∨
    ∃ id, field body (js "modem") = .str id ∧ req.modem = some id ∧ ∃ m ∈ fleet.modems, m.id = id
  clientRef : (field body (js "clientRef") = .undefined ∧ req.clientRef = none) ∨
    ∃ s, field body (js "clientRef") = .str s ∧ (trim s).length ≤ clientRefMax ∧
      req.clientRef = if trim s = [] then none else some (trim s)
  callbackUrl : (field body (js "callbackUrl") = .undefined ∧ req.callbackUrl = none) ∨
    ∃ url, field body (js "callbackUrl") = .str url ∧ req.callbackUrl = some url ∧
      Webhook.isAllowedUrl newURL url allowedHosts = true
  fits : ∀ m ∈ fleet.modems, req.modem = none ∨ req.modem = some m.id →
    (m.analyzeMessage req.message).ok = true

section

variable {newURL : JsString → Option Webhook.Url} {allowedHosts : List JsString} {fleet : Fleet}
  {body : JsValue} {req : SendBody}

theorem filled_ok {refusal s : JsString} {v : JsValue} (h : filled refusal v = .ok s) :
    v = .str s ∧ trim s ≠ [] := by
  unfold filled at h
  split at h
  · split at h
    · cases h
    · next hlength =>
        obtain rfl := Except.ok.inj h
        exact ⟨rfl, fun hnil => hlength (by rw [hnil]; rfl)⟩
  · cases h

theorem get_isSome {id : JsString} (h : (fleet.get id).isSome = true) : ∃ m ∈ fleet.modems, m.id = id := by
  obtain ⟨m, hm⟩ := Option.isSome_iff_exists.mp h
  exact ⟨m, List.mem_of_find?_eq_some hm, by simpa using List.find?_some hm⟩

theorem get_mem {m : Modem} (h : m ∈ fleet.modems) : fleet.get m.id = some m := by
  have hsome : (fleet.get m.id).isSome = true := List.find?_isSome.mpr ⟨m, h, by simp⟩
  obtain ⟨m', hm'⟩ := Option.isSome_iff_exists.mp hsome
  have hid : m'.id = m.id := by simpa using List.find?_some hm'
  rw [hm', List.inj_on_of_nodup_map fleet.nodup (List.mem_of_find?_eq_some hm') h hid]

theorem checkModem_ok {v : JsValue} {modem : Option JsString} (h : checkModem fleet v = .ok modem) :
    (v = .undefined ∧ modem = none) ∨
      ∃ id, v = .str id ∧ modem = some id ∧ ∃ m ∈ fleet.modems, m.id = id := by
  unfold checkModem at h
  split at h
  · obtain rfl := Except.ok.inj h
    exact Or.inl ⟨rfl, rfl⟩
  · next id =>
      split at h
      · next hget =>
          obtain rfl := Except.ok.inj h
          exact Or.inr ⟨id, rfl, rfl, get_isSome hget⟩
      · cases h
  · cases h

theorem checkClientRef_ok {v : JsValue} {ref : Option JsString} (h : checkClientRef v = .ok ref) :
    (v = .undefined ∧ ref = none) ∨ ∃ s, v = .str s ∧ (trim s).length ≤ clientRefMax ∧
      ref = if trim s = [] then none else some (trim s) := by
  unfold checkClientRef at h
  split at h
  · obtain rfl := Except.ok.inj h
    exact Or.inl ⟨rfl, rfl⟩
  · next s =>
      split at h
      · cases h
      · next hlength =>
          obtain rfl := Except.ok.inj h
          exact Or.inr ⟨s, rfl, Nat.le_of_not_lt hlength, rfl⟩
  · cases h

theorem checkCallbackUrl_ok {v : JsValue} {callbackUrl : Option JsString}
    (h : checkCallbackUrl newURL allowedHosts v = .ok callbackUrl) :
    (v = .undefined ∧ callbackUrl = none) ∨ ∃ url, v = .str url ∧ callbackUrl = some url ∧
      Webhook.isAllowedUrl newURL url allowedHosts = true := by
  unfold checkCallbackUrl at h
  split at h
  · obtain rfl := Except.ok.inj h
    exact Or.inl ⟨rfl, rfl⟩
  · next url =>
      split at h
      · next hallowed =>
          obtain rfl := Except.ok.inj h
          exact Or.inr ⟨url, rfl, rfl, hallowed⟩
      · cases h
  · cases h

theorem checkLength_ok {modem : Option JsString} {message : JsString}
    (h : checkLength fleet modem message = .ok ()) :
    ∀ m ∈ fleet.modems, modem = none ∨ modem = some m.id → (m.analyzeMessage message).ok = true := by
  intro m hm hmodem
  have hmem : m ∈ candidates fleet modem := by
    rcases hmodem with rfl | rfl
    · exact hm
    · rw [candidates, get_mem hm]
      exact List.mem_singleton.mpr rfl
  unfold checkLength at h
  split at h
  · cases h
  · next hnone => simpa using List.find?_eq_none.mp hnone m hmem

theorem accepted_of_ok (h : validateSend newURL allowedHosts fleet body = .ok req) :
    Accepted newURL allowedHosts fleet body req := by
  unfold validateSend at h
  dsimp only at h
  split at h
  case isTrue => cases h
  case isFalse hphone =>
    obtain ⟨message, hmessage, h⟩ := Zte.bind_eq_ok h
    split at h
    case isTrue => cases h
    case isFalse hplain =>
      obtain ⟨projectName, hproject, h⟩ := Zte.bind_eq_ok h
      obtain ⟨modem, hmodem, h⟩ := Zte.bind_eq_ok h
      obtain ⟨clientRef, hclientRef, h⟩ := Zte.bind_eq_ok h
      obtain ⟨callbackUrl, hcallbackUrl, h⟩ := Zte.bind_eq_ok h
      obtain ⟨⟨⟩, hlength, h⟩ := Zte.bind_eq_ok h
      obtain rfl := Except.ok.inj h
      exact
        { recipient := ⟨rfl, by simpa using hphone⟩
          message := filled_ok hmessage
          plain := by simpa using hplain
          project := filled_ok hproject
          modem := checkModem_ok hmodem
          clientRef := checkClientRef_ok hclientRef
          callbackUrl := checkCallbackUrl_ok hcallbackUrl
          fits := checkLength_ok hlength }

theorem filled_str {refusal s : JsString} (h : trim s ≠ []) : filled refusal (.str s) = .ok s := by
  rw [filled, if_neg (by simpa using h)]

theorem checkModem_of {v : JsValue} {modem : Option JsString}
    (h : (v = .undefined ∧ modem = none) ∨
      ∃ id, v = .str id ∧ modem = some id ∧ ∃ m ∈ fleet.modems, m.id = id) :
    checkModem fleet v = .ok modem := by
  rcases h with ⟨rfl, rfl⟩ | ⟨id, rfl, rfl, m, hm, rfl⟩
  · rfl
  · rw [checkModem, get_mem hm]
    rfl

theorem checkClientRef_of {v : JsValue} {ref : Option JsString}
    (h : (v = .undefined ∧ ref = none) ∨ ∃ s, v = .str s ∧ (trim s).length ≤ clientRefMax ∧
      ref = if trim s = [] then none else some (trim s)) : checkClientRef v = .ok ref := by
  rcases h with ⟨rfl, rfl⟩ | ⟨s, rfl, hlength, rfl⟩
  · rfl
  · rw [checkClientRef, if_neg (Nat.not_lt.mpr hlength)]

theorem checkCallbackUrl_of {v : JsValue} {callbackUrl : Option JsString}
    (h : (v = .undefined ∧ callbackUrl = none) ∨ ∃ url, v = .str url ∧ callbackUrl = some url ∧
      Webhook.isAllowedUrl newURL url allowedHosts = true) :
    checkCallbackUrl newURL allowedHosts v = .ok callbackUrl := by
  rcases h with ⟨rfl, rfl⟩ | ⟨url, rfl, rfl, hallowed⟩
  · rfl
  · rw [checkCallbackUrl, if_pos hallowed]

theorem checkLength_of {modem : Option JsString} {message : JsString}
    (h : ∀ m ∈ fleet.modems, modem = none ∨ modem = some m.id →
      (m.analyzeMessage message).ok = true) : checkLength fleet modem message = .ok () := by
  have hnone : (candidates fleet modem).find? (fun m => !(m.analyzeMessage message).ok) = none := by
    refine List.find?_eq_none.mpr ?_
    intro m hm
    have hok : (m.analyzeMessage message).ok = true := by
      cases modem with
      | none => exact h m hm (Or.inl rfl)
      | some id =>
          obtain hget : fleet.get id = some m := by simpa [candidates] using hm
          have hid : m.id = id := by simpa using List.find?_some hget
          exact h m (List.mem_of_find?_eq_some hget) (Or.inr (by rw [hid]))
    simp [hok]
  rw [checkLength, hnone]

/-- `validateSend` passes a request on exactly when it is a good one, as it asks for it. -/
theorem validateSend_ok_iff :
    validateSend newURL allowedHosts fleet body = .ok req ↔
      Accepted newURL allowedHosts fleet body req := by
  refine ⟨accepted_of_ok, fun h => ?_⟩
  have hphone := h.recipient.2
  rw [h.recipient.1] at hphone
  have hbind {α : Type} (a : α) (f : α → Except JsString SendBody) : (Except.ok a >>= f) = f a := rfl
  unfold validateSend
  simp only [hphone, h.message.1, h.project.1, filled_str h.message.2, filled_str h.project.2,
    checkModem_of h.modem, checkClientRef_of h.clientRef, checkCallbackUrl_of h.callbackUrl,
    checkLength_of h.fits, h.plain, Bool.not_true, Bool.false_eq_true, if_false, hbind]
  rw [← h.recipient.1]
  rfl

/-! ## The drivers -/

/-- The driver's `sendSMS` gets past its own checks and turns to the modem. -/
def Modem.Reaches (m : Modem) (recipient message : JsString) : Prop :=
  match m.driver with
  | .serial => ∀ smsc, ∃ op k, Serial.sendSMS smsc recipient message = .call op k
  | .zteHttp => ∀ stick, ∃ op k, Zte.sendSMS stick recipient message = .call op k
  | .adb => ∀ config, ∃ op k, Adb.Send.sendSMS config recipient message = .call op k

variable {recipient message : JsString}

theorem reaches_serial (hphone : phoneRe recipient = true)
    (hok : (SmsEncoding.analyzeMessage message).ok = true) (smsc : JsString) :
    ∃ op k, Serial.sendSMS smsc recipient message = .call op k := by
  unfold Serial.sendSMS
  simp only [hphone, hok, Bool.not_true, Bool.false_eq_true, if_false]
  split
  · exact ⟨_, _, rfl⟩
  · exact ⟨_, _, rfl⟩

theorem reaches_zte (hphone : phoneRe recipient = true)
    (hok : (Zte.analyzeUcs2 message).ok = true) (stick : Zte.Stick) :
    ∃ op k, Zte.sendSMS stick recipient message = .call op k := by
  unfold Zte.sendSMS
  simp only [hphone, hok, Bool.not_true, Bool.false_eq_true, if_false]
  exact ⟨_, _, rfl⟩

theorem parts_ne_nil (message : JsString) : Adb.Send.parts message ≠ [] := by
  unfold Adb.Send.parts
  split
  case isTrue => exact List.cons_ne_nil _ _
  case isFalse hone =>
    have hmany : 1 < (SmsEncoding.analyzeMessage message).segments := by
      have hpos := Splitting.one_le_segments message
      omega
    have hcount := (MultipartRoundTrip.splitMessage_of_segments hmany).1
    intro hnil
    rw [hnil, List.length_nil] at hcount
    omega

theorem reaches_adb (hphone : phoneRe recipient = true)
    (hok : (SmsEncoding.analyzeMessage message).ok = true) (config : Adb.Send.Config) :
    ∃ op k, Adb.Send.sendSMS config recipient message = .call op k := by
  unfold Adb.Send.sendSMS
  simp only [hphone, hok, Bool.not_true, Bool.false_eq_true, if_false]
  cases hparts : Adb.Send.parts message with
  | nil => exact absurd hparts (parts_ne_nil message)
  | cons part parts => exact ⟨_, _, rfl⟩

theorem reaches_of_ok {m : Modem} (hphone : phoneRe recipient = true)
    (hok : (m.analyzeMessage message).ok = true) : m.Reaches recipient message := by
  unfold Modem.Reaches
  unfold Modem.analyzeMessage at hok
  cases hdriver : m.driver with
  | serial =>
      rw [hdriver] at hok
      exact reaches_serial hphone hok
  | zteHttp =>
      rw [hdriver] at hok
      exact reaches_zte hphone hok
  | adb =>
      rw [hdriver] at hok
      exact reaches_adb hphone hok

/-! ## The attempts of an accepted request -/

/-- A request comes from the route, and the process restarts with the same modems. -/
def FromRoute (newURL : JsString → Option Webhook.Url) (allowedHosts : List JsString) (fleet : Fleet) :
    Event → Prop
  | .post entry modem => ∃ body req, validateSend newURL allowedHosts fleet body = .ok req ∧
      entry.recipient = req.recipient ∧ entry.message = req.message ∧ modem = req.modem
  | .restart pool => pool.modems.map (·.id) = fleet.ids
  | _ => True

/-- Every modem that may send the row can take it, and a pinned modem is there. -/
structure Fit (fleet : Fleet) (pinned : Option JsString) (row : Row) : Prop where
  reaches : ∀ m ∈ fleet.modems, pinned = none ∨ pinned = some m.id →
    m.Reaches row.recipient row.message
  present : ∀ id, pinned = some id → ∃ m ∈ fleet.modems, m.id = id

/-- The modem of an attempt is one that the request was checked for. -/
def Chosen (fleet : Fleet) (x : Send) : Prop :=
  match x.stage with
  | .ready id => ∃ m ∈ fleet.modems, m.id = id ∧ (x.modem = none ∨ x.modem = some m.id)
  | .sending id => ∃ m ∈ fleet.modems, m.id = id ∧ (x.modem = none ∨ x.modem = some m.id)
  | .threw _ a => a.called = true
  | _ => True

structure AdmissionInv (fleet : Fleet) (s : State) : Prop where
  pool : s.pool.modems.map (·.id) = fleet.ids
  fit : ∀ x ∈ s.sends, ∃ row, getLog s.rows x.logId = some row ∧ Fit fleet x.modem row
  chosen : ∀ x ∈ s.sends, Chosen fleet x

theorem fit_of_accepted {entry : Row} (h : Accepted newURL allowedHosts fleet body req)
    (hrecipient : entry.recipient = req.recipient) (hmessage : entry.message = req.message) :
    Fit fleet req.modem entry := by
  refine ⟨?_, ?_⟩
  · intro m hm hmodem
    rw [hrecipient, hmessage]
    exact reaches_of_ok h.recipient.2 (h.fits m hm hmodem)
  · intro id hid
    rcases h.modem with ⟨-, hnone⟩ | ⟨id', -, hsome, hm⟩
    · rw [hnone] at hid
      cases hid
    · rw [hsome] at hid
      rwa [← Option.some.inj hid]

theorem fit_of_fixed {pinned : Option JsString} {row row' : Row} (h : Fit fleet pinned row)
    (hfixed : row'.fixed = row.fixed) : Fit fleet pinned row' := by
  simp only [Row.fixed, Prod.mk.injEq] at hfixed
  obtain ⟨-, -, hrecipient, hmessage, -⟩ := hfixed
  exact ⟨by rw [hrecipient, hmessage]; exact h.reaches, h.present⟩

/-- The worker's choice is a modem of the fleet, the pinned one if there is one. -/
theorem chooseModem_fit {pool : ModemPool} {pinned : Option JsString} {row : Row}
    (hpool : pool.modems.map (·.id) = fleet.ids) (h : Fit fleet pinned row) :
    (chooseModem pool pinned).2.modems = pool.modems ∧
      ∃ m, (chooseModem pool pinned).1 = .ok m ∧
        ∃ m' ∈ fleet.modems, m'.id = m.id ∧ (pinned = none ∨ pinned = some m'.id) := by
  have hpick : (pick pool).2.modems = pool.modems ∧ ∃ m' ∈ fleet.modems, m'.id = (pick pool).1.id := by
    refine ⟨rfl, ?_⟩
    have hid : (pick pool).1.id ∈ fleet.ids := by
      rw [← hpool]
      exact List.mem_map_of_mem (pick_mem pool)
    exact List.mem_map.mp hid
  cases pinned with
  | none =>
      obtain ⟨hmodems, m', hm', hid⟩ := hpick
      exact ⟨hmodems, (pick pool).1, rfl, m', hm', hid, Or.inl rfl⟩
  | some id =>
      obtain ⟨m', hm', rfl⟩ := h.present id rfl
      have hsome : (Pool.get pool m'.id).isSome = true := by
        have hid : m'.id ∈ pool.modems.map (·.id) := by
          rw [hpool]
          exact List.mem_map_of_mem hm'
        obtain ⟨m, hm, hmid⟩ := List.mem_map.mp hid
        exact List.find?_isSome.mpr ⟨m, hm, by simpa using hmid⟩
      obtain ⟨m, hm⟩ := Option.isSome_iff_exists.mp hsome
      have hmid : m.id = m'.id := by simpa using List.find?_some hm
      have hchoose : chooseModem pool (some m'.id) = (.ok m, pool) := by
        unfold chooseModem
        simp only [ne_eq, fleet.named m' hm', not_false_eq_true, if_true, hm]
      rw [hchoose]
      exact ⟨rfl, m, rfl, m', hm', hmid.symm, Or.inr rfl⟩

theorem chosen_idle {x : Send} (h : x.stage = .waiting ∨ x.stage = .done) : Chosen fleet x := by
  unfold Chosen
  rcases h with h | h <;> rw [h] <;> trivial

theorem chosen_restarted {x : Send} : Chosen fleet x.restarted := by
  unfold Send.restarted
  split
  case h_1 hstage => exact chosen_idle (Or.inr hstage)
  case h_2 => exact chosen_idle (Or.inl rfl)

/-- A step of a send that gets its modem from the checked ones. -/
theorem chosen_step {x x' : Send} {e : Event} {chosen : Except Thrown Pool.Modem} {patch : Option Patch}
    (h : Chosen fleet x) (hchosen : ∀ i, e = .start i → ∃ m, chosen = .ok m ∧
      ∃ m' ∈ fleet.modems, m'.id = m.id ∧ (x.modem = none ∨ x.modem = some m'.id))
    (hstep : x.step chosen e = some (x', patch)) : Chosen fleet x' := by
  cases e with
  | post entry modem => cases hstep
  | connection modemId connected => cases hstep
  | restart pool => cases hstep
  | added i =>
      cases hstage : x.stage <;> simp only [Send.step, hstage] at hstep <;> try cases hstep
      trivial
  | addThrew i err =>
      cases hstage : x.stage <;> simp only [Send.step, hstage] at hstep <;> try cases hstep
      trivial
  | start i =>
      cases hstage : x.stage <;> simp only [Send.step, hstage] at hstep <;> try cases hstep
      obtain ⟨m, rfl, m', hm', hid, hmodem⟩ := hchosen i rfl
      obtain ⟨rfl, -⟩ := Prod.mk.inj (Option.some.inj hstep)
      exact ⟨m', hm', hid, hmodem⟩
  | call i =>
      cases hstage : x.stage <;> simp only [Send.step, hstage] at hstep <;> try cases hstep
      unfold Chosen at h
      rw [hstage] at h
      exact h
  | resolved i reference now =>
      cases hstage : x.stage <;> simp only [Send.step, hstage] at hstep <;> try cases hstep
      trivial
  | rejected i err =>
      cases hstage : x.stage <;> simp only [Send.step, hstage] at hstep <;> try cases hstep
      exact rfl
  | failed i =>
      cases hstage : x.stage <;> simp only [Send.step, hstage] at hstep <;> try cases hstep
      refine chosen_idle ?_
      simp only [Send.ended_stage, Send.wrote_stage]
      split
      · exact Or.inl rfl
      · exact Or.inr rfl

theorem admission_step {s s' : State} {e : Event} (h : AdmissionInv fleet s) (hrows : RowsInv s)
    (he : FromRoute newURL allowedHosts fleet e) (hstep : step s e = some s') :
    AdmissionInv fleet s' := by
  rcases step_cases hstep with ⟨entry, modem, rfl, hfree, rfl⟩ | ⟨modemId, connected, rfl, rfl⟩ |
    ⟨pool, rfl, rfl⟩ | ⟨i, x, x', patch, hi, hx, hx', rfl⟩
  · obtain ⟨body, req, hok, hrecipient, hmessage, rfl⟩ := he
    have hfit : Fit fleet req.modem (logEntry entry req.modem) :=
      fit_of_accepted (accepted_of_ok hok) hrecipient hmessage
    refine ⟨h.pool, ?_, ?_⟩
    · intro x hx
      rcases List.mem_append.mp hx with hx | hx
      · obtain ⟨row, hrow, hrowfit⟩ := h.fit x hx
        have hne : x.logId ≠ entry.id := by
          intro heq
          rw [heq, hfree] at hrow
          cases hrow
        exact ⟨row, (@appendLog_other s.rows (logEntry entry req.modem) _ hne).trans hrow, hrowfit⟩
      · obtain rfl := List.mem_singleton.mp hx
        exact ⟨_, (@appendLog_self s.rows (logEntry entry req.modem) hfree).2, hfit⟩
    · intro x hx
      rcases List.mem_append.mp hx with hx | hx
      · exact h.chosen x hx
      · obtain rfl := List.mem_singleton.mp hx
        trivial
  · refine ⟨?_, h.fit, h.chosen⟩
    rw [← h.pool, setConnected, List.map_map]
    refine List.map_congr_left fun m _ => ?_
    rw [Function.comp_apply]
    split <;> rfl
  · refine ⟨he, ?_, ?_⟩
    · intro y hy
      obtain ⟨x, hx, rfl⟩ := List.mem_map.mp hy
      have hsame : x.restarted.logId = x.logId ∧ x.restarted.modem = x.modem := by
        unfold Send.restarted
        split <;> exact ⟨rfl, rfl⟩
      rw [hsame.1, hsame.2]
      exact h.fit x hx
    · intro y hy
      obtain ⟨x, -, rfl⟩ := List.mem_map.mp hy
      exact chosen_restarted
  · have hmem := List.mem_of_getElem? hx
    obtain ⟨row, hrow, hfit⟩ := h.fit x hmem
    obtain ⟨hid, hmodem, hwrites⟩ := Send.step_writes hx'
    refine ⟨?_, ?_, ?_⟩
    · have hpool : (choice s x e).2.modems = s.pool.modems := by
        unfold choice
        split
        · exact (chooseModem_fit h.pool hfit).1
        · rfl
      rw [hpool]
      exact h.pool
    · intro y hy
      rcases Keyed.mem_set_cases hx hrows.nodup hy with rfl | ⟨hy, hne⟩
      · rw [hid, hmodem]
        rcases hwrites with ⟨rfl, -⟩ | ⟨p, w, rfl, -, hp⟩
        · exact ⟨row, hrow, hfit⟩
        · obtain ⟨row', -, hrow', -, hfixed⟩ := updateLog_written hrow hp.status hp.bindable
          exact ⟨row', hrow', fit_of_fixed hfit hfixed⟩
      · obtain ⟨row', hrow', hfit'⟩ := h.fit y hy
        refine ⟨row', ?_, hfit'⟩
        cases patch with
        | none => exact hrow'
        | some p => exact (updateLog_other s.rows p hne).trans hrow'
    · intro y hy
      rcases List.mem_or_eq_of_mem_set hy with hy | rfl
      · exact h.chosen y hy
      · refine chosen_step (h.chosen x hmem) ?_ hx'
        rintro j rfl
        exact (chooseModem_fit h.pool hfit).2

/-- An accepted send meets no refusal of its own gateway: while its row exists and the modems
stay the configured ones, every attempt finds a modem, that modem's driver takes the recipient
and the message and turns to the modem, and only then can the attempt fail. -/
theorem accepted_reach {pool : ModemPool} {es : List Event} {s : State}
    (hpool : pool.modems.map (·.id) = fleet.ids)
    (hes : ∀ e ∈ es, FromRoute newURL allowedHosts fleet e) (h : run (start pool) es = some s) :
    ∀ x ∈ s.sends, (∃ row, getLog s.rows x.logId = some row ∧
      ∀ id, x.stage = .ready id ∨ x.stage = .sending id →
        ∃ m ∈ fleet.modems, m.id = id ∧ m.Reaches row.recipient row.message) ∧
      ∀ t a, x.stage = .threw t a → a.called = true := by
  have hinv : RowsInv s ∧ AdmissionInv fleet s :=
    Runs.run_induct (P := fun s => RowsInv s ∧ AdmissionInv fleet s)
      (A := FromRoute newURL allowedHosts fleet)
      (fun _ _ _ hs he hstep => ⟨rowsInv_step hs.1 hstep, admission_step hs.2 hs.1 he hstep⟩)
      ⟨rowsInv_start pool, hpool, by simp [start], by simp [start]⟩ hes h
  intro x hx
  obtain ⟨row, hrow, hfit⟩ := hinv.2.fit x hx
  have hchosen := hinv.2.chosen x hx
  refine ⟨⟨row, hrow, ?_⟩, ?_⟩
  · intro id hstage
    have hmodem : ∃ m ∈ fleet.modems, m.id = id ∧ (x.modem = none ∨ x.modem = some m.id) := by
      unfold Chosen at hchosen
      rcases hstage with hstage | hstage
      · rw [hstage] at hchosen
        exact hchosen
      · rw [hstage] at hchosen
        exact hchosen
    obtain ⟨m, hm, hid, hpinned⟩ := hmodem
    exact ⟨m, hm, hid, hfit.reaches m hm hpinned⟩
  · intro t a hstage
    unfold Chosen at hchosen
    rw [hstage] at hchosen
    exact hchosen

end

/-! ## A request for any of two modems -/

def twoModems : Fleet :=
  { modems := [⟨js "m1", .serial⟩, ⟨js "m2", .zteHttp⟩]
    nodup := by decide
    named := by decide }

def twoPool : ModemPool := ⟨[⟨js "m1", true⟩, ⟨js "m2", true⟩], 0, by decide⟩

def greeting : JsValue :=
  .obj [(js "to", .str (js " +99361234567 ")), (js "message", .str (js "Hi")),
    (js "projectName", .str (js "shop"))]

def greetingEntry : Row :=
  { id := js "log1", timestamp := js "t0", recipient := js "+99361234567", message := js "Hi"
    projectName := some (js "shop"), ip := none, status := js "pending", error := none, sentAt := none
    reference := none, modemId := none, clientRef := none, callbackUrl := none }

theorem greeting_accepted : validateSend (fun _ => none) [] twoModems greeting =
    .ok ⟨js "+99361234567", js "Hi", js "shop", none, none, none⟩ := by
  decide +kernel

def greetingEvents : List SendQueue.Event :=
  [.post greetingEntry none, .added 0, .start 0, .call 0]

theorem greetingEvents_stages : (SendQueue.run (start twoPool) greetingEvents).map
    (fun s => s.sends.map (·.stage)) = some [.sending (js "m1")] := by decide +kernel

theorem accepted_reach_greeting :
    ∃ s x, SendQueue.run (start twoPool) greetingEvents = some s ∧ x ∈ s.sends ∧
      ∃ row, getLog s.rows x.logId = some row ∧
        ∃ m ∈ twoModems.modems, m.id = js "m1" ∧ m.Reaches row.recipient row.message := by
  obtain ⟨s, hs, hstages⟩ := Option.map_eq_some_iff.mp greetingEvents_stages
  obtain ⟨x, hx⟩ : ∃ x, s.sends = [x] := List.length_eq_one_iff.mp (by
    rw [← List.length_map (·.stage), hstages]
    rfl)
  have hmem : x ∈ s.sends := by
    rw [hx]
    exact List.mem_singleton.mpr rfl
  have hstage : x.stage = .sending (js "m1") := by
    rw [hx] at hstages
    exact List.singleton_inj.mp hstages
  have hes : ∀ e ∈ greetingEvents, FromRoute (fun _ => none) [] twoModems e := by
    intro e he
    simp only [greetingEvents, List.mem_cons, List.not_mem_nil, or_false] at he
    rcases he with rfl | rfl | rfl | rfl
    · exact ⟨greeting, _, greeting_accepted, rfl, rfl, rfl⟩
    · trivial
    · trivial
    · trivial
  obtain ⟨⟨row, hrow, hreach⟩, -⟩ := accepted_reach  (by decide) hes hs x hmem
  exact ⟨s, x, hs, hmem, row, hrow, hreach (js "m1") (Or.inr hstage)⟩

end SmsGateway.Router
