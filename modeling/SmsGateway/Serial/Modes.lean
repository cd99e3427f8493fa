import SmsGateway.Serial.TextMode
import SmsGateway.Serial.Machine
import SmsGateway.Lib.Locked

/-!
# The modem's modes

The modem keeps the mode, the character set and the data coding that were selected last, by
whichever operation that was. A command that an error or the clock has ended may have been
carried out all the same, so an operation can find any settings when it takes the lock.
-/

namespace SmsGateway.Serial.Modes

open SmsGateway SmsEncoding Pdu
open Lib Lib.Async Lib.Locked

/-! ## The modem -/

/-- What the modem keeps of `AT+CMGF`, `AT+CSCS` and `AT+CSMP`. -/
structure Settings where
  cmgf : Nat
  cscs : JsString
  /-- the last parameter of `AT+CSMP` -/
  dcs : Nat
  deriving DecidableEq, Repr

/-- A command line that the modem carries out. -/
def Settings.execute (s : Settings) (line : JsString) : Settings :=
  match stripPrefix (js "AT+CMGF=") line with
  | some value => { s with cmgf := parseInt (value.takeWhile isDigit) }
  | none =>
      match stripPrefix (js "AT+CSCS=") line with
      | some value => { s with cscs := ((readQuoted value).map (·.1)).getD s.cscs }
      | none =>
          match stripPrefix (js "AT+CSMP=") line with
          | some value =>
              { s with dcs := ((value.splitOn comma)[3]?.map fun dcs =>
                  parseInt (dcs.takeWhile isDigit)).getD s.dcs }
          | none => s

/-- A write is a command line when it ends in CR; a body ends in Ctrl+Z. -/
def Settings.after (s : Settings) (r : Request) : Settings :=
  if r.write.getLast? = some CR then s.execute r.write else s

/-- How a value is written in the character set that is selected. -/
def Settings.written (s : Settings) (value : JsString) : JsString :=
  if s.cscs = js "UCS2" then ucs2Hex value else value

/-- A command that was answered with OK has been carried out, another one may have been. -/
def act (s : Settings) : (op : Op) → Ans op → Bool → Settings
  | .transact r, .ok _, _ => s.after r
  | .transact r, .error _, true => s.after r
  | .transact _, .error _, false => s
  | .writeEsc, _, _ => s
  | .waitForUrc _ _, _, _ => s
  | .urc _, _, _ => s
  | .persist _, _, _ => s
  | .randomInt _, _, _ => s

/-! ## The operations -/

/-- What callers ask of the driver; `checkBalance` is a `runUssd`. -/
inductive Call where
  | initModem
  | ping
  | sendSMS (recipient message : JsString)
  | getMessages (persist : Bool)
  | runUssd (code : JsString)
  deriving DecidableEq, Repr

def bodyOf (smsc : JsString) : Call → Prog Unit
  | .initModem => initModem
  | .ping => do
      let _ ← ping
      return ()
  | .sendSMS recipient message => do
      let _ ← sendSMS smsc recipient message
      return ()
  | .getMessages persist => do
      let _ ← getMessages persist
      return ()
  | .runUssd code => do
      let _ ← runUssd code
      return ()

/-- The driver of one modem, whose `smsc` is empty when none is configured. -/
def driver (smsc : JsString) : Service Settings Call Bool Op Ans JsError := ⟨bodyOf smsc, act⟩

abbrev State := Locked.State Settings Call Op Ans JsError

abbrev Event := Locked.Event Call Bool Op Ans

abbrev run (smsc : JsString) : State → List Event → Option State := Runs.run (step (driver smsc))

/-! ## What a write has to be -/

def isCommand (r : Request) (name : JsString) : Bool :=
  r.write.getLast? == some CR && startsWith r.write name

def isBody (r : Request) : Bool := r.write.getLast? == some 0x1a

/-- The data coding of a text-mode body. -/
def dataCoding : Encoding → Nat
  | .GSM => 0
  | .UCS2 => 8

/-- A part of a concatenated message. -/
def IsPart (smsc recipient message : JsString) (p : BuiltPdu) : Prop :=
  ∃ ref pdus, buildConcatPdus recipient (splitMessage message) (analyzeMessage message).encoding ref
    (if smsc = [] then none else some smsc) = .ok pdus ∧ p ∈ pdus

/-- The command and the body by which the modem, as it is set, takes what a call submits. -/
inductive Submission (smsc : JsString) (s : Settings) : Call → JsString → JsString → Prop where
  | single {recipient message : JsString} (hone : (analyzeMessage message).segments = 1)
      (hmode : s.cmgf = 1) (hcoding : s.dcs = dataCoding (analyzeMessage message).encoding) :
      Submission smsc s (.sendSMS recipient message)
        (js "AT+CMGS=" ++ quoted (s.written recipient) ++ js "\r") (s.written message ++ ctrlZ)
  | part {recipient message : JsString} {p : BuiltPdu} (hmany : (analyzeMessage message).segments ≠ 1)
      (hp : IsPart smsc recipient message p) (hmode : s.cmgf = 0) :
      Submission smsc s (.sendSMS recipient message)
        (js "AT+CMGS=" ++ decimal p.length ++ js "\r") (p.pdu ++ ctrlZ)

/-- The modem, as it is set, takes a write of a call for what the call means by it. -/
structure Denotes (smsc : JsString) (c : Call) (s : Settings) (r : Request) : Prop where
  center : isCommand r (js "AT+CSCA=") = true →
    r.write = js "AT+CSCA=" ++ quoted (s.written smsc) ++ js "\r"
  code : isCommand r (js "AT+CUSD=") = true →
    ∃ code, c = .runUssd code ∧ r.write = js "AT+CUSD=1," ++ quoted (s.written code) ++ js ",15\r"
  submission : isCommand r (js "AT+CMGS=") = true → ∃ body, Submission smsc s c r.write body
  body : isBody r = true → ∃ command, Submission smsc s c command r.write

/-- The modem takes what the running call writes for what the call means by it. -/
def Disciplined (smsc : JsString) (s : State) : Prop :=
  ∀ c r k, s.running = some (c, .call (.transact r) k) → Denotes smsc c s.world r

/-- A call that writes the SMSC does not start while the character set is UCS2. -/
def suited (smsc : JsString) : Call → Settings → Bool
  | .sendSMS recipient message, s =>
      smsc = [] || s.cscs ≠ js "UCS2" || !phoneRe recipient || (analyzeMessage message).segments ≠ 1
  | _, _ => true

/-! ## What a command leaves behind -/

section

variable (s : Settings)

theorem after_textMode (label : JsString) :
    s.after (request (js "AT+CMGF=1\r") label) = { s with cmgf := 1 } := rfl

theorem after_pduMode (label : JsString) :
    s.after (request (js "AT+CMGF=0\r") label) = { s with cmgf := 0 } := rfl

theorem after_gsm (label : JsString) :
    s.after (request (js "AT+CSCS=\"GSM\"\r") label) = { s with cscs := js "GSM" } := rfl

theorem after_ucs2 (label : JsString) :
    s.after (request (js "AT+CSCS=\"UCS2\"\r") label) = { s with cscs := js "UCS2" } := rfl

theorem after_gsmCoding (label : JsString) :
    s.after (request (js "AT+CSMP=17,167,0,0\r") label) = { s with dcs := 0 } := rfl

theorem after_ucs2Coding (label : JsString) :
    s.after (request (js "AT+CSMP=17,167,0,8\r") label) = { s with dcs := 8 } := rfl

end

/-- A name of the same length or shorter is not that of a line that begins otherwise. -/
theorem startsWith_append_false {head name : JsString} (hlen : name.length ≤ head.length)
    (hne : startsWith head name = false) (rest : JsString) : startsWith (head ++ rest) name = false := by
  rw [Bool.eq_false_iff] at hne ⊢
  intro h
  rw [startsWith, List.isPrefixOf_iff_prefix] at h
  apply hne
  rw [startsWith, List.isPrefixOf_iff_prefix]
  exact List.prefix_of_prefix_length_le h (List.prefix_append head rest) hlen

/-- A line leaves the settings as they are unless it begins with one of their three commands. -/
theorem execute_other {s : Settings} {line : JsString} (hmode : startsWith line (js "AT+CMGF=") = false)
    (hset : startsWith line (js "AT+CSCS=") = false) (hcoding : startsWith line (js "AT+CSMP=") = false) :
    s.execute line = s := by
  simp [Settings.execute, stripPrefix, hmode, hset, hcoding]

theorem after_other {s : Settings} {r : Request} {head rest : JsString} (hr : r.write = head ++ rest)
    (hlen : 8 ≤ head.length) (hmode : startsWith head (js "AT+CMGF=") = false)
    (hset : startsWith head (js "AT+CSCS=") = false) (hcoding : startsWith head (js "AT+CSMP=") = false) :
    s.after r = s := by
  have hother {name : JsString} (hname : name.length = 8) (hne : startsWith head name = false) :
      startsWith (head ++ rest) name = false := startsWith_append_false (by omega) hne rest
  have hexec : s.execute r.write = s := by
    rw [hr]
    exact execute_other (hother rfl hmode) (hother rfl hset) (hother rfl hcoding)
  unfold Settings.after
  split
  · exact hexec
  · rfl

theorem after_body (s : Settings) (label body : JsString) : s.after (bodyRequest label body) = s := by
  have hend : (bodyRequest label body).write.getLast? = some 0x1a := List.getLast?_concat
  rw [Settings.after, hend, if_neg (by decide)]

/-! ## What the commands carry -/

section

variable {smsc : JsString} {c : Call} {s : Settings}

/-- A line that carries no value. -/
def Plain (r : Request) : Prop :=
  isCommand r (js "AT+CSCA=") = false ∧ isCommand r (js "AT+CUSD=") = false ∧
    isCommand r (js "AT+CMGS=") = false ∧ isBody r = false

instance (r : Request) : Decidable (Plain r) :=
  inferInstanceAs (Decidable (isCommand r (js "AT+CSCA=") = false ∧
    isCommand r (js "AT+CUSD=") = false ∧ isCommand r (js "AT+CMGS=") = false ∧ isBody r = false))

theorem denotes_plain {r : Request} (h : Plain r) : Denotes smsc c s r := by
  obtain ⟨hcenter, hcode, hsubmission, hbody⟩ := h
  constructor
  · exact fun hc => absurd hc (by simp [hcenter])
  · exact fun hc => absurd hc (by simp [hcode])
  · exact fun hc => absurd hc (by simp [hsubmission])
  · exact fun hc => absurd hc (by simp [hbody])

theorem isCommand_false {r : Request} {head rest name : JsString} (hr : r.write = head ++ rest)
    (hlen : name.length ≤ head.length) (hne : startsWith head name = false) :
    isCommand r name = false := by
  rw [isCommand, hr, startsWith_append_false hlen hne, Bool.and_false]

theorem isBody_false {r : Request} (hr : r.write.getLast? = some CR) : isBody r = false := by
  rw [isBody, hr]
  rfl

theorem isCommand_body (label body name : JsString) :
    isCommand (bodyRequest label body) name = false := by
  have hend : (bodyRequest label body).write.getLast? = some 0x1a := List.getLast?_concat
  rw [isCommand, hend]
  rfl

/-- A line is a command by its first characters only. -/
theorem denotes_line {r : Request} {head rest : JsString} (hr : r.write = head ++ rest)
    (hlen : 8 ≤ head.length) (hline : r.write.getLast? = some CR)
    (hcenter : startsWith head (js "AT+CSCA=") = true →
      r.write = js "AT+CSCA=" ++ quoted (s.written smsc) ++ js "\r")
    (hcode : startsWith head (js "AT+CUSD=") = true → ∃ code, c = .runUssd code ∧
      r.write = js "AT+CUSD=1," ++ quoted (s.written code) ++ js ",15\r")
    (hsubmission : startsWith head (js "AT+CMGS=") = true → ∃ body, Submission smsc s c r.write body) :
    Denotes smsc c s r := by
  have hname {name : JsString} (h8 : name.length = 8) (hc : isCommand r name = true) :
      startsWith head name = true := by
    by_contra hne
    rw [isCommand_false hr (by omega) (Bool.eq_false_iff.mpr hne)] at hc
    cases hc
  constructor
  · exact fun hc => hcenter (hname rfl hc)
  · exact fun hc => hcode (hname rfl hc)
  · exact fun hc => hsubmission (hname rfl hc)
  · intro hc
    rw [isBody_false hline] at hc
    cases hc

theorem denotes_center (h : s.written smsc = smsc) :
    Denotes smsc c s (request (js "AT+CSCA=" ++ quoted smsc ++ js "\r") (js "CSCA")) := by
  have hline := (isLine_append (js "AT+CSCA=" ++ quoted smsc) (js "CSCA")).2
  apply denotes_line (List.append_assoc _ _ _) (by decide) hline
  · intro _
    rw [h]
    rfl
  · exact fun hc => absurd hc (by decide)
  · exact fun hc => absurd hc (by decide)

theorem denotes_code {code : JsString} (h : s.written code = code) :
    Denotes smsc (.runUssd code) s
      (request (js "AT+CUSD=1," ++ quoted code ++ js ",15\r") (js "CUSD")) := by
  have hend : js ",15\r" = js ",15" ++ js "\r" := by decide
  have hline : (request (js "AT+CUSD=1," ++ quoted code ++ js ",15\r") (js "CUSD")).write.getLast? =
      some CR := by
    rw [hend, ← List.append_assoc]
    exact (isLine_append _ (js "CUSD")).2
  apply denotes_line (List.append_assoc _ _ _) (by decide) hline
  · exact fun hc => absurd hc (by decide)
  · intro _
    refine ⟨code, rfl, ?_⟩
    rw [h]
    rfl
  · exact fun hc => absurd hc (by decide)

theorem denotes_prompt {command body label rest : JsString} (h : Submission smsc s c command body)
    (hname : command = js "AT+CMGS=" ++ rest) (hline : command.getLast? = some CR) :
    Denotes smsc c s (promptRequest command label) := by
  apply denotes_line hname (by decide) hline
  · exact fun hc => absurd hc (by decide)
  · exact fun hc => absurd hc (by decide)
  · exact fun _ => ⟨body, h⟩

theorem denotes_body {command body label : JsString}
    (h : Submission smsc s c command (body ++ ctrlZ)) :
    Denotes smsc c s (bodyRequest label body) := by
  have hnone {name : JsString} : isCommand (bodyRequest label body) name ≠ true := by
    rw [isCommand_body]
    exact Bool.false_ne_true
  constructor
  · exact fun hc => absurd hc hnone
  · exact fun hc => absurd hc hnone
  · exact fun hc => absurd hc hnone
  · exact fun _ => ⟨command, h⟩

end

/-! ## One operation -/

/-- The precondition of what an operation awaits. -/
def Allowed (smsc : JsString) (c : Call) (s : Settings) (op : Op) : Prop :=
  ∀ r, op = .transact r → Denotes smsc c s r

section

variable {α : Type} {smsc : JsString} {c : Call} {s : Settings} {Q : Except JsError α → Settings → Prop}

theorem wp_transact {r : Request} {f : List JsString → Prog α} (hd : Denotes smsc c s r)
    (hok : ∀ lines, Wp act (Allowed smsc c) Q (f lines) (s.after r))
    (herr : ∀ e s', s' = s ∨ s' = s.after r → Q (.error e) s') :
    Wp act (Allowed smsc c) Q (transact r >>= f) s := by
  constructor
  · rintro _ ⟨rfl⟩
    exact hd
  · intro a did
    cases a with
    | ok lines => exact hok lines
    | error e =>
        cases did with
        | false => exact herr e _ (Or.inl rfl)
        | true => exact herr e _ (Or.inr rfl)

/-- An operation that is no command. -/
theorem wp_perform {op : Op} {f : Ans op → Prog α} (hop : ∀ r, op ≠ .transact r)
    (hact : ∀ a did, act s op a did = s) (hf : ∀ a, Wp act (Allowed smsc c) Q (f a) s) :
    Wp act (Allowed smsc c) Q (.call op f) s := by
  constructor
  · intro r hr
    exact absurd hr (hop r)
  · intro a did
    rw [hact]
    exact hf a

/-- A line that carries no value, in front of what needs no more than the settings it leaves. -/
theorem wp_plain {r : Request} {f : List JsString → Prog α} (hr : Plain r)
    (hok : ∀ lines, Wp act (Allowed smsc c) (fun _ _ => True) (f lines) (s.after r)) :
    Wp act (Allowed smsc c) (fun _ _ => True) (transact r >>= f) s :=
  wp_transact (denotes_plain hr) hok fun _ _ _ => trivial

/-- What a call makes of its result is no operation. -/
theorem wp_done {p : Prog α} (h : Wp act (Allowed smsc c) (fun _ _ => True) p s) :
    Wp act (Allowed smsc c) (fun _ _ => True) (p >>= fun _ => (pure () : Prog Unit)) s := by
  refine wp_bind (wp_mono ?_ h)
  intro r w _
  cases r with
  | ok a => trivial
  | error e => trivial

/-- The prompt and the body, in settings that neither of them changes. -/
theorem wp_submitBody {Q : Except JsError (Option JsString) → Settings → Prop}
    {command label body rest : JsString} (h : Submission smsc s c command (body ++ ctrlZ))
    (hname : command = js "AT+CMGS=" ++ rest) (hline : command.getLast? = some CR)
    (hQ : ∀ r, Q r s) : Wp act (Allowed smsc c) Q (submitBody command label body) s := by
  have hsame : s.after (promptRequest command label) = s :=
    after_other hname (by decide) (by decide) (by decide) (by decide)
  refine wp_bind (wp_catchError ?_)
  constructor
  · rintro _ ⟨rfl⟩
    exact denotes_prompt h hname hline
  · intro a did
    cases a with
    | error e =>
        have hafter : act s (.transact (promptRequest command label)) (.error e) did = s := by
          cases did with
          | false => rfl
          | true => exact hsame
        rw [hafter]
        exact wp_perform (by simp) (fun _ _ => rfl) fun _ => hQ _
    | ok lines =>
        have hafter : act s (.transact (promptRequest command label)) (.ok lines) did = s := hsame
        rw [hafter]
        refine wp_catchError (wp_transact (denotes_body h) ?_ ?_)
        · intro lines'
          rw [after_body]
          exact hQ _
        · intro e s' hs'
          rw [after_body, or_self] at hs'
          rw [hs']
          exact hQ _

/-- Both commands of `selectCharset` have been carried out where the rest starts. -/
theorem wp_selectCharset {f : Unit → Prog α} {encoding : Encoding}
    (hf : Wp act (Allowed smsc c) (fun _ _ => True) (f ())
      { s with cscs := encodingName encoding, dcs := dataCoding encoding }) :
    Wp act (Allowed smsc c) (fun _ _ => True) (selectCharset encoding >>= f) s := by
  unfold selectCharset
  cases encoding with
  | GSM =>
      simp only [reduceCtorEq, if_false, bind_assoc, pure_bind]
      refine wp_plain (by decide) fun _ => wp_plain (by decide) fun _ => ?_
      rw [after_gsm, after_gsmCoding]
      exact hf
  | UCS2 =>
      simp only [if_true, bind_assoc, pure_bind]
      refine wp_plain (by decide) fun _ => wp_plain (by decide) fun _ => ?_
      rw [after_ucs2, after_ucs2Coding]
      exact hf

/-- In the character set of an encoding, a value is written as `sendSingle` writes it. -/
theorem written_encodingName (s : Settings) (encoding : Encoding) (dcs : Nat) (value : JsString) :
    Settings.written { s with cscs := encodingName encoding, dcs } value =
      textModeForm encoding value := by
  cases encoding with
  | GSM => exact if_neg (show js "GSM" ≠ js "UCS2" by decide)
  | UCS2 => exact if_pos rfl

theorem wp_sendSingle {recipient message : JsString} (hone : (analyzeMessage message).segments = 1)
    (hcenter : smsc = [] ∨ s.cscs ≠ js "UCS2") :
    Wp act (Allowed smsc (.sendSMS recipient message)) (fun _ _ => True)
      (sendSingle smsc recipient message (analyzeMessage message)) s := by
  have hsubmit (s : Settings) (hmode : s.cmgf = 1) :
      Wp act (Allowed smsc (.sendSMS recipient message)) (fun _ _ => True)
        (selectCharset (analyzeMessage message).encoding >>= fun _ => submitBody
          (js "AT+CMGS=" ++ quoted (textModeForm (analyzeMessage message).encoding recipient) ++
            js "\r") (js "CMGS") (textModeForm (analyzeMessage message).encoding message)) s := by
    apply wp_selectCharset
    have hwritten := written_encodingName s (analyzeMessage message).encoding
      (dataCoding (analyzeMessage message).encoding)
    rw [← hwritten, ← hwritten]
    refine wp_submitBody (.single hone hmode rfl) (List.append_assoc _ _ _) ?_ fun _ => trivial
    exact (isLine_append _ (js "CMGS")).2
  unfold sendSingle
  refine wp_plain (by decide) fun _ => ?_
  rw [after_textMode]
  dsimp only
  split
  · rename_i hsmsc
    have hplain : Settings.written { s with cmgf := 1 } smsc = smsc :=
      if_neg (hcenter.resolve_left hsmsc)
    have hsame : Settings.after { s with cmgf := 1 }
        (request (js "AT+CSCA=" ++ quoted smsc ++ js "\r") (js "CSCA")) = { s with cmgf := 1 } :=
      after_other (List.append_assoc _ _ _) (by decide) (by decide) (by decide) (by decide)
    refine wp_transact (denotes_center hplain) (fun _ => ?_) fun _ _ _ => trivial
    rw [hsame]
    exact hsubmit _ rfl
  · exact hsubmit _ rfl

/-- The parts go out in PDU mode, which no part leaves. -/
theorem wp_submitPdus {recipient message : JsString} (hmany : (analyzeMessage message).segments ≠ 1)
    (hmode : s.cmgf = 0) {pdus : List BuiltPdu} (hpdus : ∀ p ∈ pdus, IsPart smsc recipient message p) :
    Wp act (Allowed smsc (.sendSMS recipient message)) (fun _ _ => True) (submitPdus pdus) s := by
  induction pdus with
  | nil => trivial
  | cons p pdus ih =>
      have hrest := ih fun q hq => hpdus q (List.mem_cons_of_mem p hq)
      refine wp_bind (wp_submitBody (.part hmany (hpdus p List.mem_cons_self) hmode)
        (List.append_assoc _ _ _) (isLine_append _ (js "CMGS")).2 ?_)
      intro r
      cases r with
      | error e => trivial
      | ok ref =>
          refine wp_bind (wp_mono ?_ hrest)
          intro r w _
          cases r with
          | ok refs => trivial
          | error e => trivial

theorem wp_sendMultipart {recipient message : JsString}
    (hmany : (analyzeMessage message).segments ≠ 1) :
    Wp act (Allowed smsc (.sendSMS recipient message)) (fun _ _ => True)
      (sendMultipart smsc recipient message (analyzeMessage message)) s := by
  unfold sendMultipart
  refine wp_perform (by simp) (fun _ _ => rfl) fun ref => ?_
  cases hpdus : buildConcatPdus recipient (splitMessage message) (analyzeMessage message).encoding ref
      (if smsc = [] then none else some smsc) with
  | error err =>
      simp only [Prog.bind, hpdus]
      trivial
  | ok pdus =>
      simp only [Prog.bind, hpdus]
      refine wp_plain (by decide) fun _ => ?_
      rw [after_pduMode]
      have hparts : ∀ p ∈ pdus, IsPart smsc recipient message p := fun p hp => ⟨ref, pdus, hpdus, hp⟩
      refine wp_andFinally (R := fun _ _ => True) ?_ ?_
      · refine wp_bind (wp_mono ?_ (wp_submitPdus hmany rfl hparts))
        intro r w _
        cases r with
        | ok refs => trivial
        | error e => trivial
      · intro r w _
        refine wp_catchError (wp_transact (denotes_plain (by decide)) (fun _ => trivial) ?_)
        exact fun _ _ _ => trivial

theorem wp_sendSMS {recipient message : JsString}
    (hsuited : suited smsc (.sendSMS recipient message) s = true) :
    Wp act (Allowed smsc (.sendSMS recipient message)) (fun _ _ => True)
      (sendSMS smsc recipient message) s := by
  simp only [suited, Bool.or_eq_true, decide_eq_true_eq, Bool.not_eq_true'] at hsuited
  unfold sendSMS
  dsimp only
  split
  · trivial
  · split
    · trivial
    · split
      · rename_i hto _ hone
        refine wp_sendSingle hone ?_
        simp_all
      · rename_i _ _ hmany
        exact wp_sendMultipart hmany

theorem wp_deleteAll (messages : List Listed) :
    Wp act (Allowed smsc c) (fun _ _ => True) (deleteAll messages) s := by
  induction messages generalizing s with
  | nil => trivial
  | cons m messages ih =>
      have hr : (deleteRequest m.index).write = js "AT+CMGD=" ++ (decimal m.index ++ js ",0\r") :=
        List.append_assoc _ _ _
      have hplain : Plain (deleteRequest m.index) :=
        ⟨isCommand_false hr (by decide) (by decide), isCommand_false hr (by decide) (by decide),
          isCommand_false hr (by decide) (by decide), isBody_false (isLine_cmgd m.index).2⟩
      exact wp_plain hplain fun _ => ih

theorem wp_getMessages (persist : Bool) :
    Wp act (Allowed smsc c) (fun _ _ => True) (getMessages persist) s := by
  have hdelete (s : Settings) (messages : List Listed) (result : List Message) :
      Wp act (Allowed smsc c) (fun _ _ => True)
        (deleteAll messages >>= fun _ => (pure result : Prog (List Message))) s := by
    refine wp_bind (wp_mono ?_ (wp_deleteAll messages))
    intro r w _
    cases r with
    | ok a => trivial
    | error e => trivial
  unfold getMessages
  refine wp_plain (by decide) fun _ => wp_plain (by decide) fun _ => wp_plain (by decide) fun _ =>
    wp_plain (by decide) fun lines => ?_
  dsimp only
  split
  · refine wp_perform (by simp) (fun _ _ => rfl) fun a => ?_
    cases a with
    | ok _ => exact hdelete _ _ _
    | error e => trivial
  · exact hdelete _ _ _

theorem wp_runUssd (code : JsString) :
    Wp act (Allowed smsc (.runUssd code)) (fun _ _ => True) (runUssd code) s := by
  refine wp_plain (by decide) fun _ => ?_
  rw [after_gsm]
  refine wp_perform (by simp) (fun _ _ => rfl) fun w => ?_
  refine wp_transact (denotes_code (if_neg (show js "GSM" ≠ js "UCS2" by decide))) (fun _ => ?_)
    fun _ _ _ => trivial
  exact wp_perform (by simp) (fun _ _ => rfl) fun _ => trivial

/-- Each operation is disciplined from any settings, but for the SMSC. -/
theorem wp_bodyOf (hsuited : suited smsc c s = true) :
    Wp act (Allowed smsc c) (fun _ _ => True) (bodyOf smsc c) s := by
  cases c with
  | initModem =>
      exact wp_plain (by decide) fun _ => wp_plain (by decide) fun _ => wp_plain (by decide) fun _ =>
        trivial
  | ping => exact wp_done (wp_plain (by decide) fun _ => trivial)
  | sendSMS recipient message => exact wp_done (wp_sendSMS hsuited)
  | getMessages persist => exact wp_done (wp_getMessages persist)
  | runUssd code => exact wp_done (wp_runUssd code)

end

/-! ## Histories -/

/-- In every history, from any settings, in which a single send that writes the SMSC never starts
while UCS2 is selected, the modem takes every write for what it means. -/
theorem modes_disciplined {smsc : JsString} {settings : Settings} {es : List Event} {s : State}
    (h : run smsc (start settings) es = some s)
    (hes : Runs.allSteps (step (driver smsc)) (suits (suited smsc)) (start settings) es = true) :
    Disciplined smsc s := by
  intro c r k hr
  have hallowed : Allowed smsc c s.world (.transact r) :=
    allowed_run (fun _ _ hsuited => wp_bodyOf hsuited) h hes hr
  exact hallowed r rfl

/-- With an SMSC, a single send writes it behind its first command. -/
theorem bodyOf_single {smsc recipient message : JsString} (hto : phoneRe recipient = true)
    (hone : (analyzeMessage message).segments = 1) (hsmsc : smsc ≠ []) :
    ∃ k, bodyOf smsc (.sendSMS recipient message) =
        .call (.transact (request (js "AT+CMGF=1\r") (js "CMGF"))) k ∧
      ∀ lines, ∃ k', k (.ok lines) =
        .call (.transact (request (js "AT+CSCA=" ++ quoted smsc ++ js "\r") (js "CSCA"))) k' := by
  simp only [bodyOf]
  rw [sendSMS_single hto hone, sendSingle]
  refine ⟨_, rfl, ?_⟩
  intro lines
  simp only [hsmsc, ne_eq, not_false_eq_true, if_true]
  exact ⟨_, rfl⟩

/-- A single send that starts while UCS2 is selected writes the SMSC in the wrong character set
as soon as the modem has taken its first command. -/
theorem misread_of_unsuited {smsc : JsString} {c : Call} {rest : List Call} {s s' : State}
    {answers : (op : Op) → Ans op} {lines : List JsString} {did : Bool} (hq : s.queue = c :: rest)
    (hsuited : suited smsc c s.world = false)
    (hok : answers (.transact (request (js "AT+CMGF=1\r") (js "CMGF"))) = .ok lines)
    (h : run smsc s [.take, .answer answers did] = some s') : ¬ Disciplined smsc s' := by
  cases c with
  | initModem => cases hsuited
  | ping => cases hsuited
  | getMessages persist => cases hsuited
  | runUssd code => cases hsuited
  | sendSMS recipient message =>
      simp only [suited, Bool.or_eq_false_iff, decide_eq_false_iff_not, not_not, ne_eq,
        Bool.not_eq_false'] at hsuited
      obtain ⟨⟨⟨hsmsc, hucs2⟩, hto⟩, hone⟩ := hsuited
      obtain ⟨k, hbody, hk⟩ := bodyOf_single hto hone hsmsc
      obtain ⟨k', hk'⟩ := hk lines
      cases hr : s.running with
      | some r => simp [run, Runs.run, step, hr] at h
      | none =>
          simp only [run, Runs.run, step, hr, hq, driver, hbody, hok, hk', Option.bind_some,
            Option.some.injEq] at h
          subst h
          intro hd
          have hname : isCommand (request (js "AT+CSCA=" ++ quoted smsc ++ js "\r") (js "CSCA"))
              (js "AT+CSCA=") = true := by
            have hend := (isLine_append (js "AT+CSCA=" ++ quoted smsc) (js "CSCA")).2
            rw [isCommand, hend, request, List.append_assoc, startsWith_append]
            rfl
          have hwritten : Settings.written { s.world with cmgf := 1 } smsc = ucs2Hex smsc :=
            if_pos hucs2
          have hwrite := (hd _ _ _ rfl).center hname
          change js "AT+CSCA=" ++ quoted smsc ++ js "\r" = js "AT+CSCA=" ++
            quoted (Settings.written { s.world with cmgf := 1 } smsc) ++ js "\r" at hwrite
          -- UCS2 writes no value but the empty one as it is
          have hlength := congrArg List.length hwrite
          simp only [hwritten, quoted, List.length_append, ucs2Hex_length] at hlength
          have hpos := List.length_pos_iff.mpr hsmsc
          omega

/-! ## A modem with an SMSC -/

def newModem : Settings := ⟨0, js "IRA", 0⟩

def center : JsString := js "+99365999999"

def answered : (op : Op) → Ans op := TextMode.answering 0

def timedOut : (op : Op) → Ans op
  | .transact r => .error (Machine.timeoutError r.label)
  | op => answered op

/-- A call that takes the lock at once, and the answers to its operations. -/
def called (c : Call) (answers : List Event) : List Event := .submit c :: .take :: answers

def allAnswered (n : Nat) : List Event := List.replicate n (.answer answered false)

/-- A Cyrillic message, which leaves UCS2 selected. -/
def ucs2Send : List Event :=
  (called (.sendSMS (js "+99361234567") (js "Жду")) (allAnswered 6)).concat .finish

/-- Another message behind it. -/
def nextSend : List Event := ucs2Send.concat (.submit (.sendSMS (js "+99361234567") (js "Hi")))

/-- The same, with a USSD session in between that times out. -/
def ussdBetween : List Event :=
  [ucs2Send, called (.runUssd (js "*100#")) (allAnswered 2), [.answer timedOut true, .finish],
    called (.sendSMS (js "+99361234567") (js "Hi")) (allAnswered 1)].flatten

theorem ussdBetween_isSome : (run center (start newModem) ussdBetween).isSome = true := by
  decide +kernel

theorem modes_disciplined_ussdBetween : Disciplined center
    ((run center (start newModem) ussdBetween).get ussdBetween_isSome) :=
  modes_disciplined (Option.some_get ussdBetween_isSome).symm (by decide +kernel)

theorem nextSend_isSome : (run center (start newModem) nextSend).isSome = true := by decide +kernel

theorem secondSend_isSome : (run center (start newModem)
    (nextSend ++ [.take, .answer answered false])).isSome = true := by decide +kernel

/-- The modem reads the SMSC of the second message as UCS2. -/
theorem center_misread : ¬ Disciplined center ((run center (start newModem)
    (nextSend ++ [.take, .answer answered false])).get secondSend_isSome) := by
  have hnext := (Option.some_get nextSend_isSome).symm
  have hrun := (Option.some_get secondSend_isSome).symm
  generalize Option.get _ secondSend_isSome = s' at hrun ⊢
  unfold run at hrun hnext
  rw [Runs.run_append, hnext, Option.bind_some] at hrun
  have hqueue : ((run center (start newModem) nextSend).get nextSend_isSome).queue =
      [.sendSMS (js "+99361234567") (js "Hi")] := by decide +kernel
  have hok : answered (.transact (request (js "AT+CMGF=1\r") (js "CMGF"))) = .ok [] := rfl
  exact misread_of_unsuited hqueue (by decide +kernel) hok hrun

end SmsGateway.Serial.Modes
