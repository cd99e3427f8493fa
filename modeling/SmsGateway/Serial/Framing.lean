import SmsGateway.Serial.Calls
import SmsGateway.Serial.Current

/-!
# Nothing breaks out of a command

What the driver writes is one command line with its carriage return, or one body with its
Ctrl+Z. No recipient and no message text, whatever characters it holds, brings a second
line, an early end of a body or an escape into what is written.
-/

namespace SmsGateway.Serial.Framing

open SmsGateway SmsEncoding Pdu Serial Machine
open Lib Lib.Async

/-- No control character, the line breaks among them. -/
def Visible (s : JsString) : Prop := ∀ c ∈ s, 0x20 ≤ c

instance (s : JsString) : Decidable (Visible s) :=
  decidable_of_iff (s.all fun c => 0x20 ≤ c) (by simp [Visible])

/-- One command line, or one body: what ends it stands at its end only. -/
inductive Framed (w : JsString) : Prop where
  | line (s : JsString) (hw : w = s ++ [CR]) (h : Visible s)
  | body (s : JsString) (hw : w = s ++ ctrlZ) (hend : ∀ c ∈ ctrlZ, c ∉ s) (hesc : ∀ c ∈ esc, c ∉ s)

/-- The operation writes nothing but a framed text. -/
def Writes : Op → Prop
  | .transact r => Framed r.write
  | _ => True

/-- The codes come from the configuration. -/
def Configured : Job → Prop
  | .runUssd code => Visible code
  | _ => True

/-! ## What is visible -/

section

variable {s t : JsString}

theorem visible_append (hs : Visible s) (ht : Visible t) : Visible (s ++ t) := by
  intro c hc
  rcases List.mem_append.mp hc with hc | hc
  · exact hs c hc
  · exact ht c hc

theorem visible_flatMap {α : Type} {l : List α} {f : α → JsString} (h : ∀ a ∈ l, Visible (f a)) :
    Visible (l.flatMap f) := by
  intro c hc
  obtain ⟨a, ha, hca⟩ := List.mem_flatMap.mp hc
  exact h a ha c hca

theorem visible_quoted (h : Visible s) : Visible (quoted s) :=
  visible_append (visible_append (by decide) h) (by decide)

theorem visible_digitUnit {d : Nat} (h : d < 16) : 0x20 ≤ digitUnit d := by
  have hd : ∀ d < 16, 0x20 ≤ digitUnit d := by decide
  exact hd d h

theorem visible_numberText {base : Nat} (hbase : base ≤ 16) (hone : 1 < base) (n : Nat) :
    Visible (numberText base n) := by
  intro c hc
  obtain ⟨d, hd, rfl⟩ := List.mem_map.mp hc
  refine visible_digitUnit ?_
  split at hd
  · rw [List.mem_singleton.mp hd]
    exact Nat.zero_lt_succ 15
  · exact lt_of_lt_of_le (Nat.digits_lt_base hone (List.mem_reverse.mp hd)) hbase

theorem visible_decimal (n : Nat) : Visible (decimal n) :=
  visible_numberText (by decide) (by decide) n

theorem visible_hex (n : Nat) : Visible (hex n) := by
  refine visible_append ?_ (visible_numberText (Nat.le_refl 16) (by decide) n)
  intro c hc
  rw [List.eq_of_mem_replicate hc]
  decide

theorem visible_hexOctet {n : Nat} (h : n < 256) : Visible (hexOctet n) := by
  intro c hc
  rcases List.mem_cons.mp hc with rfl | hc
  · exact visible_digitUnit (by omega)
  · rw [List.mem_singleton.mp hc]
    exact visible_digitUnit (Nat.mod_lt n (by decide))

theorem visible_octets {os : List Nat} (h : ∀ o ∈ os, o < 256) : Visible (os.flatMap hexOctet) :=
  visible_flatMap fun o ho => visible_hexOctet (h o ho)

theorem visible_ucs2Hex (s : JsString) : Visible (ucs2Hex s) := visible_octets (utf16beOctets_lt s)

theorem visible_swapDigits (h : Visible s) : Visible (swapDigits s) := by
  induction s using swapDigits.induct with
  | case1 => exact h
  | case2 a => exact visible_append (by decide) h
  | case3 a b rest ih =>
      have hrest : Visible (swapDigits rest) :=
        ih fun c hc => h c (List.mem_cons_of_mem a (List.mem_cons_of_mem b hc))
      rw [swapDigits]
      intro c hc
      rcases List.mem_cons.mp hc with rfl | hc
      · exact h c (by simp)
      · rcases List.mem_cons.mp hc with rfl | hc
        · exact h c (by simp)
        · exact hrest c hc

theorem visible_address (h : Visible s) : Visible (encodeAddress s).digits := by
  unfold encodeAddress
  refine visible_swapDigits ?_
  split
  · exact fun c hc => h c (List.mem_of_mem_drop hc)
  · exact h

theorem le_of_isDigit {c : CodeUnit} (h : isDigit c = true) : 0x20 ≤ c := by
  simp only [isDigit, Bool.and_eq_true, decide_eq_true_eq] at h
  exact UInt16.le_trans (by decide) h.1

/-- A recipient that passes the driver's check. -/
theorem visible_of_phoneRe (h : phoneRe s = true) : Visible s := by
  simp only [phoneRe, Bool.and_eq_true, List.all_eq_true] at h
  have hdigits := h.2
  intro c hc
  split at hdigits
  case isTrue hplus =>
    obtain ⟨t, rfl⟩ := List.isPrefixOf_iff_prefix.mp hplus
    rcases List.mem_append.mp hc with hc | hc
    · have hvisible : Visible (js "+") := by decide
      exact hvisible c hc
    · exact le_of_isDigit (hdigits c hc)
  case isFalse => exact le_of_isDigit (hdigits c hc)

theorem visible_udh (ref total part : Nat) : Visible (udhHex ref total part) := by
  have hfix : Visible (js "05" ++ js "00" ++ js "03") := by decide
  exact visible_append (visible_append (visible_append hfix (visible_hex _)) (visible_hex _))
    (visible_hex _)

theorem visible_smscHex {smsc : Option JsString} (h : ∀ s ∈ smsc, Visible s) :
    Visible (smscHex smsc) := by
  unfold smscHex
  split
  · decide
  · next s =>
      split
      · decide
      · exact visible_append (visible_append (visible_hex _) (visible_hex _))
          (visible_address (h s rfl))

theorem visible_userData {encoding : Encoding} {text hexText : JsString} {udl : Nat}
    (h : userData encoding text = .ok (udl, hexText)) : Visible hexText := by
  unfold userData at h
  split at h
  · cases hseptets : gsm7Septets text with
    | error e =>
        rw [hseptets] at h
        cases h
    | ok septets =>
        rw [hseptets] at h
        obtain ⟨-, rfl⟩ := Prod.mk.inj (Except.ok.inj h)
        exact visible_flatMap fun n _ => visible_hex n
  · obtain ⟨-, rfl⟩ := Prod.mk.inj (Except.ok.inj h)
    exact visible_octets (utf16beOctets_lt text)

/-- A PDU is hex text, with the digits of two addresses. -/
theorem visible_buildSubmitPdu {r : SubmitRequest} {built : BuiltPdu} (hto : Visible r.recipient)
    (hsmsc : ∀ s ∈ r.smsc, Visible s) (h : buildSubmitPdu r = .ok built) : Visible built.pdu := by
  unfold buildSubmitPdu at h
  cases hdata : userData r.encoding r.text with
  | error e =>
      rw [hdata] at h
      cases h
  | ok data =>
      obtain ⟨udl, hexText⟩ := data
      rw [hdata] at h
      obtain rfl := Except.ok.inj h
      have hcoding : Visible (if r.encoding = .GSM then js "00" else js "08") := by
        split <;> decide
      refine visible_append (visible_smscHex hsmsc) ?_
      refine visible_append (visible_append (visible_append (visible_append (visible_append
        (visible_append (visible_append (visible_append (visible_append ?_ (visible_hex _))
        (visible_hex _)) (visible_address hto)) ?_) hcoding) ?_) (visible_hex _))
        (visible_udh _ _ _)) (visible_userData hdata)
      · decide
      · decide
      · decide

/-! ## Bodies -/

/-- Ctrl+Z and ESC are in neither table. -/
theorem uncosted : gsm7Cost ctrlZ = none ∧ gsm7Cost esc = none := by decide +kernel

theorem not_mem_of_isGsm {c : CodeUnit} (h : IsGsm s) (hc : gsm7Cost [c] = none) : c ∉ s := by
  intro hmem
  have hcost := cost_of_isGsm h c hmem
  rw [hc] at hcost
  cases hcost

theorem framed_body (label : JsString) (hend : ∀ c ∈ ctrlZ, c ∉ s) (hesc : ∀ c ∈ esc, c ∉ s) :
    Framed (bodyRequest label s).write := .body s rfl hend hesc

theorem framed_visible (label : JsString) (h : Visible s) : Framed (bodyRequest label s).write := by
  refine framed_body label ?_ ?_
  · intro c hc hs
    rw [List.mem_singleton.mp hc] at hs
    exact absurd (h _ hs) (by decide)
  · intro c hc hs
    rw [List.mem_singleton.mp hc] at hs
    exact absurd (h _ hs) (by decide)

/-- What `sendSingle` hands over as the body of a message. -/
theorem framed_textModeForm (label message : JsString) :
    Framed (bodyRequest label (textModeForm (analyzeMessage message).encoding message)).write := by
  unfold textModeForm
  split
  case isTrue => exact framed_visible label (visible_ucs2Hex message)
  case isFalse hencoding =>
    have hgsm : IsGsm message := by
      rw [← encoding_eq_gsm_iff]
      cases hcase : (analyzeMessage message).encoding with
      | GSM => rfl
      | UCS2 => exact absurd hcase hencoding
    refine framed_body label ?_ ?_
    · intro c hc
      rw [List.mem_singleton.mp hc]
      exact not_mem_of_isGsm hgsm uncosted.1
    · intro c hc
      rw [List.mem_singleton.mp hc]
      exact not_mem_of_isGsm hgsm uncosted.2

/-! ## The functions of the driver -/

theorem framed_line (label : JsString) (h : Visible s) : Framed (request (s ++ js "\r") label).write :=
  .line s rfl h

/-- A command that is written out in the source. -/
theorem framed_literal {w : JsString} (s : JsString) (hw : w = s ++ js "\r")
    (h : Visible s) : Framed w := .line s hw h

theorem writes_submitBody {command label body : JsString} (hcommand : Framed command)
    (hbody : Framed (bodyRequest label body).write) : AllOps Writes (submitBody command label body) :=
  allOps_submitBody hcommand hbody trivial

theorem writes_textMode : Framed (js "AT+CMGF=1\r") :=
  framed_literal (js "AT+CMGF=1") (by decide) (by decide)

theorem writes_gsm : Framed (js "AT+CSCS=\"GSM\"\r") :=
  framed_literal (js "AT+CSCS=\"GSM\"") (by decide) (by decide)

theorem writes_selectCharset (encoding : Encoding) : AllOps Writes (selectCharset encoding) := by
  unfold selectCharset
  split
  · exact allOps_bind
      (allOps_transact (framed_literal (js "AT+CSCS=\"UCS2\"") (by decide) (by decide))) fun _ =>
      allOps_bind
        (allOps_transact (framed_literal (js "AT+CSMP=17,167,0,8") (by decide) (by decide))) fun _ =>
        trivial
  · exact allOps_bind (allOps_transact writes_gsm) fun _ =>
      allOps_bind
        (allOps_transact (framed_literal (js "AT+CSMP=17,167,0,0") (by decide) (by decide))) fun _ =>
        trivial

variable {smsc recipient message : JsString}

theorem visible_textModeForm (encoding : Encoding) (h : Visible s) : Visible (textModeForm encoding s) := by
  unfold textModeForm
  split
  · exact visible_ucs2Hex s
  · exact h

theorem writes_sendSingle (hsmsc : Visible smsc) (hto : Visible recipient) (message : JsString) :
    AllOps Writes (sendSingle smsc recipient message (analyzeMessage message)) := by
  have hcommand : Framed (js "AT+CMGS=" ++
      quoted (textModeForm (analyzeMessage message).encoding recipient) ++ js "\r") :=
    framed_line [] (visible_append (by decide) (visible_quoted (visible_textModeForm _ hto)))
  have hrest : AllOps Writes (selectCharset (analyzeMessage message).encoding >>= fun _ => submitBody
      (js "AT+CMGS=" ++ quoted (textModeForm (analyzeMessage message).encoding recipient) ++ js "\r")
      (js "CMGS") (textModeForm (analyzeMessage message).encoding message)) :=
    allOps_bind (writes_selectCharset _) fun _ =>
      writes_submitBody hcommand (framed_textModeForm (js "CMGS") message)
  unfold sendSingle
  refine allOps_bind (allOps_transact writes_textMode) fun _ => ?_
  dsimp only
  split
  · refine allOps_bind (allOps_transact ?_) fun _ => hrest
    exact framed_line (js "CSCA") (visible_append (by decide) (visible_quoted hsmsc))
  · exact hrest

theorem writes_submitPdus {pdus : List BuiltPdu} (h : ∀ p ∈ pdus, Visible p.pdu) :
    AllOps Writes (submitPdus pdus) := by
  induction pdus with
  | nil => trivial
  | cons p pdus ih =>
      have hcommand : Framed (js "AT+CMGS=" ++ decimal p.length ++ js "\r") :=
        framed_line [] (visible_append (by decide) (visible_decimal p.length))
      refine allOps_bind (writes_submitBody hcommand
        (framed_visible (js "CMGS (PDU)") (h p List.mem_cons_self))) fun _ => ?_
      exact allOps_bind (ih fun q hq => h q (List.mem_cons_of_mem p hq)) fun _ => trivial

theorem exists_of_mapM {α β : Type} {f : α → Except JsError β} {l : List α} {ys : List β}
    (h : l.mapM f = .ok ys) : ∀ y ∈ ys, ∃ x, f x = .ok y := by
  induction l generalizing ys with
  | nil =>
      obtain rfl := Except.ok.inj h
      exact fun y hy => absurd hy List.not_mem_nil
  | cons x l ih =>
      rw [List.mapM_cons] at h
      cases hx : f x with
      | error e =>
          rw [hx] at h
          cases h
      | ok y =>
          cases hl : l.mapM f with
          | error e =>
              rw [hx, hl] at h
              cases h
          | ok rest =>
              rw [hx, hl] at h
              obtain rfl := Except.ok.inj h
              intro z hz
              rcases List.mem_cons.mp hz with rfl | hz
              · exact ⟨x, hx⟩
              · exact ih hl z hz

theorem visible_buildConcatPdus {parts : List JsString} {encoding : Encoding} {ref : Nat}
    {center : Option JsString} {pdus : List BuiltPdu} (hto : Visible recipient)
    (hcenter : ∀ s ∈ center, Visible s)
    (h : buildConcatPdus recipient parts encoding ref center = .ok pdus) :
    ∀ p ∈ pdus, Visible p.pdu := by
  intro p hp
  obtain ⟨part, hpart⟩ := exists_of_mapM h p hp
  exact visible_buildSubmitPdu hto hcenter hpart

theorem writes_sendMultipart (hsmsc : Visible smsc) (hto : Visible recipient) (message : JsString)
    (info : MessageInfo) : AllOps Writes (sendMultipart smsc recipient message info) := by
  have hcenter : ∀ s ∈ (if smsc = [] then none else some smsc : Option JsString), Visible s := by
    intro s hs
    split at hs
    · cases hs
    · rw [← Option.some.inj hs]
      exact hsmsc
  refine ⟨trivial, fun ref => ?_⟩
  dsimp only
  rw [Prog.bind]
  cases hpdus : buildConcatPdus recipient (splitMessage message) info.encoding ref
      (if smsc = [] then none else some smsc) with
  | error err => trivial
  | ok pdus =>
      have hvisible := visible_buildConcatPdus hto hcenter hpdus
      refine allOps_bind (allOps_transact
        (framed_literal (js "AT+CMGF=0") (by decide) (by decide))) fun _ => ?_
      refine allOps_andFinally (allOps_bind (writes_submitPdus hvisible) fun _ => trivial) ?_
      exact allOps_catchError (allOps_bind (allOps_transact writes_textMode) fun _ => trivial)
        fun _ => trivial

/-- Nothing is asked of the texts of a request: the recipient is checked here. -/
theorem writes_sendSMS (hsmsc : Visible smsc) (recipient message : JsString) :
    AllOps Writes (sendSMS smsc recipient message) := by
  unfold sendSMS
  dsimp only
  split
  case isTrue => trivial
  case isFalse hto =>
    have hvisible : Visible recipient := visible_of_phoneRe (by simpa using hto)
    split
    · trivial
    · split
      · exact writes_sendSingle hsmsc hvisible message
      · exact writes_sendMultipart hsmsc hvisible message _

theorem writes_deleteAll (messages : List Listed) : AllOps Writes (deleteAll messages) := by
  induction messages with
  | nil => trivial
  | cons m messages ih =>
      have hcommand : Framed (cmgd m.index) := by
        refine framed_literal (js "AT+CMGD=" ++ decimal m.index ++ js ",0") ?_ ?_
        · rw [cmgd, List.append_assoc (js "AT+CMGD=" ++ decimal m.index)]
          congr 1
        · exact visible_append (visible_append (by decide) (visible_decimal m.index)) (by decide)
      exact allOps_bind (allOps_transact hcommand) fun _ => ih

theorem writes_getMessages (persist : Bool) : AllOps Writes (getMessages persist) := by
  have hdelete (lines : List JsString) (result : List Message) : AllOps Writes
      (deleteAll (parseListing lines) >>= fun _ => (pure result : Serial.Prog (List Message))) :=
    allOps_bind (writes_deleteAll _) fun _ => trivial
  unfold getMessages
  refine allOps_bind (allOps_transact writes_textMode) fun _ => ?_
  refine allOps_bind (allOps_transact writes_gsm) fun _ => ?_
  refine allOps_bind (allOps_transact
    (framed_literal (js "AT+CPMS=\"SM\",\"SM\",\"SM\"") (by decide) (by decide))) fun _ => ?_
  refine allOps_bind (allOps_transact
    (framed_literal (js "AT+CMGL=\"ALL\"") (by decide) (by decide))) fun lines => ?_
  dsimp only
  split
  · exact allOps_bind ⟨trivial, fun a => allOps_ofExcept a⟩ fun _ => hdelete _ _
  · exact hdelete _ _

theorem writes_runUssd {code : JsString} (h : Visible code) : AllOps Writes (runUssd code) := by
  refine allOps_bind (allOps_transact writes_gsm) fun _ => ?_
  refine allOps_bind ⟨trivial, fun _ => trivial⟩ fun w => ?_
  refine allOps_bind (allOps_transact ?_) fun _ => ⟨trivial, fun _ => trivial⟩
  refine framed_literal (js "AT+CUSD=1," ++ quoted code ++ js ",15") ?_ ?_
  · rw [List.append_assoc (js "AT+CUSD=1," ++ quoted code)]
    congr 1
  · exact visible_append (visible_append (by decide) (visible_quoted h)) (by decide)

theorem writes_initModem : AllOps Writes initModem := by
  refine allOps_bind (allOps_transact (framed_literal (js "AT") (by decide) (by decide))) fun _ => ?_
  refine allOps_bind (allOps_transact (framed_literal (js "ATE0") (by decide) (by decide))) fun _ => ?_
  exact allOps_bind (allOps_transact writes_textMode) fun _ => trivial

theorem writes_ping : AllOps Writes ping :=
  allOps_bind (allOps_transact (framed_literal (js "AT") (by decide) (by decide))) fun _ => trivial

theorem writes_prog {job : Job} (hsmsc : Visible smsc) (hjob : Configured job) :
    AllOps Writes (job.prog smsc) := by
  cases job with
  | initModem => exact allOps_bind writes_initModem fun _ => trivial
  | ping => exact allOps_bind writes_ping fun _ => trivial
  | sendSMS recipient message =>
      exact allOps_bind (writes_sendSMS hsmsc recipient message) fun _ => trivial
  | getMessages persist => exact allOps_bind (writes_getMessages persist) fun _ => trivial
  | runUssd code => exact allOps_bind (writes_runUssd hjob) fun _ => trivial

end

/-! ## The calls of a run -/

/-- The calls that wait for the lock, and the service centre of the driver. -/
inductive Queued (s s' : State) (e : Event) : Prop where
  | same (hsmsc : s'.smsc = s.smsc) (hqueue : s'.queue ⊆ s.queue)
  | called (job : Job) (he : e = .call job) (h : s' = enqueue s job)
  | opened (he : e = .opened true)
      (h : s' = enqueue { s with opening := false, connected := true } .initModem)

section

variable {s s' : State}

theorem queued_of_eq {e : Event} (hsmsc : s'.smsc = s.smsc) (hqueue : s'.queue = s.queue) :
    Queued s s' e := by
  refine .same hsmsc ?_
  rw [hqueue]
  exact List.Subset.refl _

theorem smsc_foldl (ws : List Waiter) (s : State) :
    (ws.foldl (fun s w => resolveWaiter s w none) s).smsc = s.smsc := by
  induction ws generalizing s with
  | nil => rfl
  | cons w ws ih => exact ih (resolveWaiter s w none)

theorem queued_failCurrentCommand {e : Event} (t : State) (hsmsc : t.smsc = s.smsc)
    (hqueue : t.queue = s.queue) (err : JsError) : Queued s (failCurrentCommand t err) e := by
  refine queued_of_eq ?_ ?_
  · rw [failCurrentCommand, smsc_foldl]
    exact hsmsc
  · rw [((SameCalls.refl t).failCurrentCommand err).queue]
    exact hqueue

theorem queued_scheduleReconnect {t : State} {e : Event} (h : Queued s t e) (hother : ∀ job, e ≠ .call job)
    (hopened : e ≠ .opened true) : Queued s (scheduleReconnect t) e := by
  cases h with
  | same hsmsc hqueue =>
      unfold scheduleReconnect
      split
      · exact .same hsmsc hqueue
      · exact .same hsmsc hqueue
  | called job he _ => exact absurd he (hother job)
  | opened he _ => exact absurd he hopened

theorem queued_advance {r : Running} {p : Prog Result} {e : Event} (random : Nat) :
    Queued s (advance s r p random) e := by
  cases p with
  | ret a => exact queued_of_eq rfl rfl
  | fail e => exact queued_of_eq rfl rfl
  | call op k =>
      cases op with
      | transact req =>
          rw [advance_transact]
          split <;> exact queued_of_eq rfl rfl
      | urc w =>
          rw [advance_urc]
          split <;> exact queued_of_eq rfl rfl
      | _ => exact queued_of_eq rfl rfl

theorem queued_react {e : Event} (h : react s e = some s') : Queued s s' e := by
  cases e with
  | call job =>
      obtain rfl := Option.some.inj h
      exact .called job rfl rfl
  | data text =>
      rw [react] at h
      split at h
      · obtain rfl := Option.some.inj h
        exact queued_of_eq rfl rfl
      · cases h
  | scan => cases h
  | microtask random => cases h
  | commandTimeout =>
      rw [react] at h
      split at h
      case h_1 r _ =>
        split at h
        case h_1 c k _ =>
          split at h
          · obtain rfl := Option.some.inj h
            exact queued_of_eq rfl rfl
          · cases h
        case h_2 => cases h
      case h_2 => cases h
  | waiterTimeout waiter =>
      rw [react] at h
      split at h
      case h_1 w _ =>
        split at h
        · obtain rfl := Option.some.inj h
          exact queued_of_eq rfl rfl
        · cases h
      case h_2 => cases h
  | quietOver =>
      rw [react] at h
      split at h
      case h_1 r _ =>
        split at h
        case h_1 deadline req k _ =>
          split at h
          · obtain rfl := Option.some.inj h
            exact queued_of_eq rfl rfl
          · cases h
        case h_2 => cases h
      case h_2 => cases h
  | writeFailed message reached =>
      obtain rfl := Option.some.inj h
      exact queued_of_eq rfl rfl
  | persisted answer =>
      rw [react] at h
      split at h
      case h_1 r _ =>
        split at h
        case h_1 messages k _ =>
          obtain rfl := Option.some.inj h
          exact queued_of_eq rfl rfl
        case h_2 => cases h
      case h_2 => cases h
  | opened ok =>
      rw [react] at h
      split at h
      · cases ok with
        | true =>
            obtain rfl := Option.some.inj h
            exact .opened rfl rfl
        | false =>
            obtain rfl := Option.some.inj h
            exact queued_scheduleReconnect (queued_of_eq rfl rfl) (fun _ h => by cases h) (by intro h; cases h)
      · cases h
  | portClosed =>
      rw [react] at h
      split at h
      · obtain rfl := Option.some.inj h
        refine queued_scheduleReconnect ?_ (fun _ h => by cases h) (by intro h; cases h)
        refine queued_failCurrentCommand _ ?_ ?_ portClosedError <;> rfl
      · cases h
  | reconnect =>
      rw [react] at h
      split at h
      case h_1 t _ =>
        split at h
        · obtain rfl := Option.some.inj h
          unfold connect
          split
          · exact queued_of_eq rfl rfl
          · exact queued_of_eq rfl rfl
        · cases h
      case h_2 => cases h
  | close =>
      obtain rfl := Option.some.inj h
      refine queued_failCurrentCommand _ ?_ ?_ shuttingDown <;> rfl
  | tick ms =>
      obtain rfl := Option.some.inj h
      exact queued_of_eq rfl rfl

theorem step_queued {e : Event} (h : step s e = some s') : Queued s s' e := by
  rcases step_cases h with ⟨rfl, hscan⟩ | ⟨random, rfl, -, htask⟩ | ⟨-, -, hreact⟩
  · unfold runScan at hscan
    split at hscan
    case h_1 => cases hscan
    case h_2 line lines _ =>
      obtain rfl := Option.some.inj hscan
      unfold handleLine
      split
      · exact queued_of_eq rfl rfl
      · exact queued_of_eq rfl rfl
    case h_3 => split at hscan <;> obtain rfl := Option.some.inj hscan <;> exact queued_of_eq rfl rfl
  · unfold runMicrotask at htask
    split at htask
    case h_1 r _ =>
      split at htask
      case h_1 p _ =>
        obtain rfl := Option.some.inj htask
        exact queued_advance random
      case h_2 => cases htask
    case h_2 =>
      split at htask
      case h_1 => cases htask
      case h_2 id job queue hqueue =>
        obtain rfl := Option.some.inj htask
        refine .same rfl ?_
        rw [hqueue]
        exact List.subset_cons_self _ _
  · exact queued_react hreact

/-- What a step makes of the function of the holder. -/
inductive Holder (s s' : State) : Prop where
  | idle (h' : s'.running = none)
  | starts (r' : Running) (c : Nat × Job) (hc : c ∈ s.queue) (h' : s'.running = some r')
      (hprog : r'.phase.prog = c.2.prog s.smsc)
  | same (r r' : Running) (h : s.running = some r) (h' : s'.running = some r')
      (hprog : r'.phase.prog = r.phase.prog)
  | answered (r r' : Running) (h : s.running = some r) (h' : s'.running = some r') (op : Op)
      (k : Ans op → Prog Result) (a : Ans op) (hprog : r.phase.prog = .call op k)
      (hprog' : r'.phase.prog = k a)

theorem step_holder {e : Event} (h : step s e = some s') : Holder s s' := by
  cases hcurrent : current s with
  | some ic =>
      obtain ⟨id, c⟩ := ic
      obtain ⟨r, k, hr, -, hph⟩ := current_eq_some hcurrent
      have hprog : r.phase.prog = .call (.transact c.request) k := by rw [hph]; rfl
      cases ha : settlement s c e with
      | some a =>
          obtain ⟨r', hr', -, hph'⟩ := (step_current h hr hph).1 a ha
          exact .answered r r' hr hr' (.transact c.request) k a hprog (by rw [hph']; rfl)
      | none =>
          obtain ⟨heard, -, r', hr', -, hph'⟩ := (step_current h hr hph).2 ha
          exact .same r r' hr hr' (by rw [hprog, hph']; rfl)
  | none =>
      cases step_goes h hcurrent with
      | idle h' => exact .idle h'
      | starts id job hfree h' =>
          cases step_calls h with
          | same hsame =>
              have hids := hsame.running
              rw [hfree, h'] at hids
              cases hids
          | called job' hsame =>
              have hids := hsame.running
              rw [enqueue, hfree, h'] at hids
              cases hids
          | started id' job' queue _ hqueue heq =>
              refine .starts _ (id', job') ?_ (by rw [heq]) rfl
              rw [hqueue]
              exact List.mem_cons_self
          | finished r result hr heq =>
              rw [hfree] at hr
              cases hr
      | stays r r' hr hr' hid hprog hnone hquiet => exact .same r r' hr hr' hprog
      | answers r r' hr hr' hid op k a hop hprog hphase =>
          exact .answered r r' hr hr' op k a hprog (by rw [hphase]; rfl)
      | refused r r' hr hr' hid req k hprog hphase =>
          exact .answered r r' hr hr' (.transact req) k _ hprog (by rw [hphase]; rfl)
      | issues r hr req k hprog hconnected hscan hquiet heq =>
          refine .same r (r.issue s.connected s.now req k) hr (by rw [heq]; rfl) ?_
          rw [hconnected, Running.issue, if_pos rfl, hprog]
          rfl

/-- Every call that was made keeps to what its function may do. -/
structure Bound (A : Op → Prop) (center : JsString) (s : State) : Prop where
  smsc : s.smsc = center
  queue : ∀ c ∈ s.queue, AllOps A (c.2.prog center)
  running : ∀ r, s.running = some r → AllOps A r.phase.prog

theorem bound_step {A : Op → Prop} {center : JsString} {e : Event} (hs : Bound A center s)
    (hinit : AllOps A (Job.initModem.prog center))
    (he : ∀ job, e = .call job → AllOps A (job.prog center)) (h : step s e = some s') :
    Bound A center s' := by
  have hnew {job : Job} (hjob : AllOps A (job.prog center)) :
      ∀ c ∈ s.queue ++ [(s.nextCall, job)], AllOps A (c.2.prog center) := by
    intro c hc
    rcases List.mem_append.mp hc with hc | hc
    · exact hs.queue c hc
    · rw [List.mem_singleton.mp hc]
      exact hjob
  have hrunning : ∀ r, s'.running = some r → AllOps A r.phase.prog := by
    intro r₁ hr₁
    cases step_holder h with
    | idle h' =>
        rw [h'] at hr₁
        cases hr₁
    | starts r' c hc h' hprog =>
        obtain rfl := Option.some.inj (h'.symm.trans hr₁)
        rw [hprog, hs.smsc]
        exact hs.queue c hc
    | same r r' hr h' hprog =>
        obtain rfl := Option.some.inj (h'.symm.trans hr₁)
        rw [hprog]
        exact hs.running r hr
    | answered r r' hr h' op k a hprog hprog' =>
        obtain rfl := Option.some.inj (h'.symm.trans hr₁)
        have hops := hs.running r hr
        rw [hprog] at hops
        rw [hprog']
        exact hops.2 a
  cases step_queued h with
  | same hsmsc hqueue => exact ⟨hsmsc.trans hs.smsc, fun c hc => hs.queue c (hqueue hc), hrunning⟩
  | called job hcall heq =>
      obtain rfl := heq
      exact ⟨hs.smsc, hnew (he job hcall), hrunning⟩
  | opened _ heq =>
      obtain rfl := heq
      exact ⟨hs.smsc, hnew hinit, hrunning⟩

theorem bound_run {A : Op → Prop} {smsc : JsString} {es : List Event}
    (hinit : AllOps A (Job.initModem.prog smsc))
    (hes : ∀ job, Event.call job ∈ es → AllOps A (job.prog smsc))
    (h : run (start smsc) es = some s) : Bound A smsc s := by
  refine Runs.run_induct (P := Bound A smsc) (A := fun e => ∀ job, e = .call job → AllOps A (job.prog smsc))
    (fun _ _ _ hs he hstep => bound_step hs hinit he hstep) ?_ ?_ h
  · exact ⟨rfl, fun c hc => absurd hc List.not_mem_nil, fun r hr => by cases hr⟩
  · rintro e he job rfl
    exact hes job he

/-- Every command of every run is one line or one body, whatever the callers ask to be sent to
whom: only the configured service centre and the USSD codes are trusted to be plain texts. -/
theorem commands_framed {smsc : JsString} {es : List Event} (hsmsc : Visible smsc)
    (hes : ∀ job, Event.call job ∈ es → Configured job) (h : run (start smsc) es = some s)
    {id : Nat} {c : Command} (hcurrent : current s = some (id, c)) : Framed c.request.write := by
  obtain ⟨r, k, hr, -, hph⟩ := current_eq_some hcurrent
  have hops := (bound_run (writes_prog hsmsc trivial)
    (fun job hjob => writes_prog hsmsc (hes job hjob)) h).running r hr
  rw [hph] at hops
  exact hops.1

/-- A message that would end its own body and delete the modem's messages. -/
def hostile : JsString := ctrlZ ++ js "\rAT+CMGD=1,4\r"

def hostileSend : List Event :=
  boot ++ [.call (.sendSMS (js "+99361234567") hostile), .microtask 0, .microtask 0] ++
    answered (js "OK") ++ answered (js "OK") ++ answered (js "OK") ++
    [.data (js "> "), .scan, .microtask 0]

theorem hostileSend_current : ((run (start []) hostileSend).bind current).map (·.2.request.write) =
    some (ucs2Hex hostile ++ ctrlZ) := by decide +kernel

theorem commands_framed_hostileSend : Framed (ucs2Hex hostile ++ ctrlZ) := by
  have hcurrent := hostileSend_current
  obtain ⟨⟨id, c⟩, hc, hwrite⟩ := Option.map_eq_some_iff.mp hcurrent
  obtain ⟨s, hs, hsc⟩ := Option.bind_eq_some_iff.mp hc
  rw [← hwrite]
  refine commands_framed (by decide) ?_ hs hsc
  intro job hjob
  simp only [hostileSend, boot, answered, List.mem_append, List.mem_cons, List.not_mem_nil,
    reduceCtorEq, or_false, false_or, Event.call.injEq] at hjob
  rw [hjob]
  trivial

end

end SmsGateway.Serial.Framing
