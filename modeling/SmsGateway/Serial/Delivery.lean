import SmsGateway.MultipartRoundTrip
import SmsGateway.Serial.Framing
import SmsGateway.Serial.Prompt
import SmsGateway.Splitting

/-!
# What a resolved send has handed over

A call of `sendSMS` that resolves has had the prompt and the body of every part acknowledged by
the modem, in order and once each, and the parts are the message. The acknowledged commands of
a run are collected call by call; the functions of the calls tell which there must be.
-/

namespace SmsGateway.Serial.Delivery

open SmsGateway SmsEncoding Pdu SubmitDecoder Serial Machine
open Lib Lib.Async

/-! ## Acknowledged commands -/

/-- A command of a call that the modem ended with OK, or opened the prompt for. -/
structure Acked where
  call : Nat
  request : Request
  lines : List JsString

/-- What an event acknowledges. -/
def acknowledged (s : State) (e : Event) : List Acked :=
  match current s with
  | some (id, c) =>
      match settlement s c e with
      | some (.ok lines) => [⟨id, c.request, lines⟩]
      | _ => []
  | none => []

/-- The acknowledged commands of a run. -/
abbrev log (s : State) (es : List Event) : List Acked := Runs.outputs step acknowledged s es

/-- Commands that submit an SMS: the one that opens the prompt, and the body. -/
def submits (r : Request) : Bool := r.expectPrompt || Prompt.isSubmission r

/-- A command and the lines it was answered with. -/
abbrev Entry := Request × List JsString

def entry (r : Request) (lines : List JsString) : List Entry := if submits r then [(r, lines)] else []

/-- What the modem acknowledged of the submission of a call. -/
def submission (log : List Acked) (id : Nat) : List Entry :=
  log.flatMap fun a => if a.call = id then entry a.request a.lines else []

theorem entry_isLine {r : Request} (h : IsLine r) (lines : List JsString) : entry r lines = [] := by
  have hsubmits : submits r = false := by
    rw [submits, h.1, Prompt.isSubmission_of_return h.2]
    rfl
  rw [entry, hsubmits]
  rfl

theorem submission_append (log log' : List Acked) (id : Nat) :
    submission (log ++ log') id = submission log id ++ submission log' id :=
  List.flatMap_append

theorem submission_single (id : Nat) (r : Request) (lines : List JsString) :
    submission [⟨id, r, lines⟩] id = entry r lines := by
  simp [submission]

theorem submission_other {log : List Acked} {id : Nat} (h : ∀ a ∈ log, a.call ≠ id) :
    submission log id = [] := by
  rw [submission, List.flatMap_eq_nil_iff]
  exact fun a ha => if_neg (h a ha)

/-! ## The submission in the program -/

/-- How far a call has got: its random numbers have been in range, and its submission. -/
structure Stage where
  fair : Bool
  submitted : List Entry

def Stage.add (s : Stage) (es : List Entry) : Stage := { s with submitted := s.submitted ++ es }

def Stage.next (s : Stage) : (op : Op) → Ans op → Stage
  | .transact r, .ok lines => s.add (entry r lines)
  | .randomInt max, n => { s with fair := s.fair && decide (max = 0 ∨ n < max) }
  | _, _ => s

/-- Whatever a call does, it may return only what its submission accounts for. -/
def collecting {α : Type} (Q : Stage → α → Prop) (E : Stage → JsError → Prop) :
    Protocol Op Ans JsError α Stage :=
  { allowed := fun _ _ => True
    next := Stage.next
    mayReturn := Q
    mayFail := E }

abbrev returning {α : Type} (Q : Stage → α → Prop) : Protocol Op Ans JsError α Stage :=
  collecting Q fun _ _ => True

/-- Nothing is asked of a call that got a number out of range. -/
def OnceFair {α : Type} (Q : List Entry → α → Prop) (s : Stage) (a : α) : Prop :=
  s.fair = true → Q s.submitted a

section

variable {α : Type} {Q : Stage → α → Prop} {s : Stage}

theorem next_line {r : Request} (h : IsLine r) (a : Except JsError (List JsString)) :
    s.next (.transact r) a = s := by
  cases a with
  | ok lines =>
      rw [Stage.next, entry_isLine h, Stage.add, List.append_nil]
  | error e => rfl

theorem obeys_line {E : Stage → JsError → Prop} {r : Request} (h : IsLine r)
    {f : List JsString → Prog α} (hf : ∀ lines, Obeys (collecting Q E) s (f lines))
    (herr : ∀ e, E s e) : Obeys (collecting Q E) s (Serial.transact r >>= f) := by
  have hnext (a : Except JsError (List JsString)) :
      (collecting Q E).next s (.transact r) a = s := next_line h a
  refine obeys_transact trivial (fun lines => ?_) fun e => ?_
  · rw [hnext]
    exact hf lines
  · rw [hnext]
    exact herr e

/-- A function whose return value nothing is asked of. -/
theorem obeys_any (hQ : ∀ s a, Q s a) (p : Prog α) : Obeys (returning Q) s p := by
  induction p generalizing s with
  | ret a => exact hQ s a
  | fail e => trivial
  | call op k ih => exact ⟨trivial, fun a => ih a⟩

theorem obeys_weaken {Q' : Stage → α → Prop} {p : Prog α} (h : Obeys (returning Q) s p)
    (hQ : ∀ s a, Q s a → Q' s a) : Obeys (returning Q') s p := by
  induction p generalizing s with
  | ret a => exact hQ s a h
  | fail e => trivial
  | call op k ih => exact ⟨trivial, fun a => ih a (h.2 a)⟩

theorem next_unfair (h : s.fair = false) (op : Op) (a : Ans op) : (s.next op a).fair = false := by
  unfold Stage.next
  split
  · exact h
  · simp [h]
  · exact h

theorem obeys_unfair {R : List Entry → α → Prop} (h : s.fair = false) (p : Prog α) :
    Obeys (returning (OnceFair R)) s p := by
  induction p generalizing s with
  | ret a => exact fun hfair => absurd (hfair.symm.trans h) (by decide)
  | fail e => trivial
  | call op k ih => exact ⟨trivial, fun a => ih a (next_unfair h op a)⟩

end

/-- The reference the modem gave to a body. -/
def reference (lines : List JsString) : Option JsString := lines.find? fun l => startsWith l (js "+CMGS")

/-- The prompt and the body have been acknowledged. -/
def exchange (atCommand label body : JsString) (opened lines : List JsString) : List Entry :=
  [(promptRequest atCommand label, opened), (bodyRequest label body, lines)]

theorem isSubmission_body (label body : JsString) :
    Prompt.isSubmission (bodyRequest label body) = true := by
  rw [Prompt.isSubmission, bodyRequest, ctrlZ, List.getLast?_concat]
  rfl

theorem obeys_exchange {Q : Stage → Option JsString → Prop} {E : Stage → JsError → Prop} {s : Stage}
    {atCommand label body : JsString} (herr : ∀ s e, E s e)
    (h : ∀ opened lines, Q (s.add (exchange atCommand label body opened lines)) (reference lines)) :
    Obeys (collecting Q E) s (submitBody atCommand label body) := by
  refine obeys_submitBody trivial (fun e => ⟨trivial, fun _ => herr _ e⟩) ?_
  intro opened
  refine ⟨trivial, fun a => ?_⟩
  cases a with
  | error e => exact herr _ _
  | ok lines =>
      have hq := h opened lines
      have hbody : entry (bodyRequest label body) lines = [(bodyRequest label body, lines)] := by
        rw [entry, submits, isSubmission_body, Bool.or_true, if_pos rfl]
      have hprompt : entry (promptRequest atCommand label) opened =
          [(promptRequest atCommand label, opened)] := rfl
      have hstage : Stage.next (Stage.next s (.transact (promptRequest atCommand label)) (.ok opened))
          (.transact (bodyRequest label body)) (.ok lines) =
          s.add (exchange atCommand label body opened lines) := by
        simp only [Stage.next, Stage.add, hbody, hprompt, exchange, List.append_assoc, List.cons_append,
          List.nil_append]
      rw [← hstage] at hq
      exact hq

/-- Prompt and body of each PDU have been acknowledged, one after the other. -/
inductive Submitted : List BuiltPdu → List Entry → List (Option JsString) → Prop where
  | nil : Submitted [] [] []
  | cons {p : BuiltPdu} {pdus : List BuiltPdu} {es : List Entry} {refs : List (Option JsString)}
      (opened lines : List JsString) (h : Submitted pdus es refs) :
      Submitted (p :: pdus)
        (exchange (js "AT+CMGS=" ++ decimal p.length ++ js "\r") (js "CMGS (PDU)") p.pdu opened lines ++
          es)
        (reference lines :: refs)

theorem add_nil (s : Stage) : s.add [] = s := by
  rw [Stage.add, List.append_nil]

theorem add_add (s : Stage) (es es' : List Entry) : (s.add es).add es' = s.add (es ++ es') := by
  rw [Stage.add, Stage.add, Stage.add, List.append_assoc]

theorem obeys_submitPdus {Q : Stage → List (Option JsString) → Prop} {E : Stage → JsError → Prop}
    {s : Stage} {pdus : List BuiltPdu} (herr : ∀ s e, E s e)
    (h : ∀ es refs, Submitted pdus es refs → Q (s.add es) refs) :
    Obeys (collecting Q E) s (submitPdus pdus) := by
  induction pdus generalizing Q s with
  | nil =>
      have hnil := h [] [] .nil
      rw [add_nil] at hnil
      exact hnil
  | cons p pdus ih =>
      refine obeys_bind (obeys_exchange herr fun opened lines => ?_)
      refine obeys_bind (ih fun es refs hsub => ?_)
      have hcons := h _ _ (.cons opened lines hsub)
      rw [← add_add] at hcons
      exact hcons

/-! ## The parts of a message -/

/-- The PDUs are the parts of the message: the decoder of the receiver finds the recipient, one
number, the part numbers in order, and texts that are the message. -/
structure Parts (recipient : JsString) (smsc : Option JsString) (number : Nat) (message : JsString)
    (pdus : List BuiltPdu) : Prop where
  number_lt : number < 256
  length : pdus.length = (splitMessage message).length
  part : ∀ (i : Nat) (p : BuiltPdu), pdus[i]? = some p → ∃ text sub,
    (splitMessage message)[i]? = some text ∧
      MultipartRoundTrip.Recovered recipient smsc number pdus.length (i + 1) text p sub
  whole : (splitMessage message).flatten = message

theorem mapM_ok_iff {α β ε : Type} {f : α → Except ε β} {l : List α} {ys : List β}
    (h : l.mapM f = .ok ys) : l.length = ys.length ∧
      ∀ (i : Nat) (x : α) (y : β), l[i]? = some x → ys[i]? = some y → f x = .ok y := by
  induction l generalizing ys with
  | nil =>
      obtain rfl := Except.ok.inj h
      exact ⟨rfl, fun i x y hx => by cases hx⟩
  | cons a l ih =>
      rw [List.mapM_cons] at h
      cases ha : f a with
      | error e =>
          rw [ha] at h
          cases h
      | ok b =>
          rw [ha] at h
          cases hl : l.mapM f with
          | error e =>
              rw [hl] at h
              cases h
          | ok bs =>
              rw [hl] at h
              obtain rfl := Except.ok.inj h
              obtain ⟨hlength, hall⟩ := ih hl
              refine ⟨congrArg Nat.succ hlength, ?_⟩
              intro i x y hx hy
              cases i with
              | zero =>
                  obtain rfl := Option.some.inj hx
                  obtain rfl := Option.some.inj hy
                  exact ha
              | succ i => exact hall i x y hx hy

/-- What `buildConcatPdus` builds are the parts. -/
theorem parts_of_build {recipient message : JsString} {smsc : Option JsString} {number : Nat}
    {pdus : List BuiltPdu} (hok : (analyzeMessage message).ok = true)
    (hseg : (analyzeMessage message).segments ≠ 1) (hto : phoneRe recipient = true)
    (hsmsc : ∀ s ∈ smsc, phoneRe s = true) (hnumber : number < 256)
    (h : buildConcatPdus recipient (splitMessage message) (analyzeMessage message).encoding number
      smsc = .ok pdus) : Parts recipient smsc number message pdus := by
  have hcap : maxSegments = 3 := rfl
  have hmax := MultipartRoundTrip.ok_segments_le hok
  have hone := Splitting.one_le_segments message
  have htwo : 2 ≤ (analyzeMessage message).segments := by omega
  obtain ⟨hlen, hflat, hfits⟩ := MultipartRoundTrip.splitMessage_of_segments htwo
  obtain ⟨hlength, hbuilt⟩ := mapM_ok_iff h
  rw [List.length_zipIdx] at hlength
  refine ⟨hnumber, hlength.symm, ?_, hflat⟩
  intro i p hp
  obtain ⟨hlt, -⟩ := List.getElem?_eq_some_iff.mp hp
  have htext : (splitMessage message)[i]? = some (splitMessage message)[i] :=
    List.getElem?_eq_getElem (hlength ▸ hlt)
  obtain ⟨udl, os, hos⟩ := MultipartRoundTrip.partOctets_of_fits (hfits _ (List.mem_of_getElem? htext))
  obtain ⟨p', sub, hp', hrecovered⟩ := MultipartRoundTrip.part_recovered
    (r := { recipient, text := (splitMessage message)[i], encoding := (analyzeMessage message).encoding
            ref := number, part := i + 1, total := (splitMessage message).length, smsc })
    hto hsmsc hos hnumber (by dsimp only; omega) (by dsimp only; omega)
  have hsame := hbuilt i ((splitMessage message)[i], i) p (by simp [htext]) hp
  obtain rfl := Except.ok.inj (hp'.symm.trans hsame)
  exact ⟨_, sub, htext, hlength ▸ hrecovered⟩

/-- `smsc || null`. -/
def center (smsc : JsString) : Option JsString := if smsc = [] then none else some smsc

/-- The acknowledged submission is that of the whole message to the recipient. -/
inductive Delivered (smsc recipient message : JsString) (es : List Entry) (ref : Option JsString) :
    Prop where
  | single (opened lines : List JsString) (hone : (analyzeMessage message).segments = 1)
      (hes : es = exchange
        (js "AT+CMGS=" ++ quoted (textModeForm (analyzeMessage message).encoding recipient) ++ js "\r")
        (js "CMGS") (textModeForm (analyzeMessage message).encoding message) opened lines)
      (href : ref = reference lines)
  | parts (number : Nat) (pdus : List BuiltPdu) (refs : List (Option JsString))
      (hmany : (analyzeMessage message).segments ≠ 1)
      (hparts : Parts recipient (center smsc) number message pdus) (hes : Submitted pdus es refs)
      (href : ref = joinRefs refs)

section

variable {smsc recipient message : JsString}

theorem obeys_single (hone : (analyzeMessage message).segments = 1) :
    Obeys (returning (OnceFair (Delivered smsc recipient message))) ⟨true, []⟩
      (sendSingle smsc recipient message (analyzeMessage message)) := by
  refine obeys_sendSingle ?_ (fun _ => trivial) (obeys_exchange (fun _ _ => trivial) fun opened lines _ => ?_)
  · exact fun r h _ => ⟨trivial, next_line h⟩
  · exact .single opened lines hone rfl rfl

theorem obeys_multipart (hsmsc : smsc = [] ∨ phoneRe smsc = true) (hto : phoneRe recipient = true)
    (hok : (analyzeMessage message).ok = true) (hmany : (analyzeMessage message).segments ≠ 1) :
    Obeys (returning (OnceFair (Delivered smsc recipient message))) ⟨true, []⟩
      (sendMultipart smsc recipient message (analyzeMessage message)) := by
  have hcenter : ∀ s ∈ center smsc, phoneRe s = true := by
    intro s hs
    unfold center at hs
    split at hs
    case isTrue => cases hs
    case isFalse hset =>
      rw [← Option.some.inj hs]
      exact hsmsc.resolve_left hset
  -- text mode is restored before the call goes on
  have hrestore {s : Stage} (p : Prog (Option JsString))
      (hp : Obeys (returning (OnceFair (Delivered smsc recipient message))) s p) :
      Obeys (returning (OnceFair (Delivered smsc recipient message))) s
        (Prog.bind (Prog.catchError
          (Serial.transact (request (js "AT+CMGF=1\r") (js "CMGF=1")) >>= fun _ => Prog.ret ())
          fun _ => Prog.ret ()) fun _ => p) := by
    have hmode : IsLine (request (js "AT+CMGF=1\r") (js "CMGF=1")) := ⟨rfl, by decide⟩
    exact obeys_bind (obeys_catchError (obeys_line hmode (fun _ => hp) fun _ => hp))
  refine ⟨trivial, fun number => ?_⟩
  by_cases hfair : number < 256
  case neg => exact obeys_unfair (by simp [collecting, Stage.next, hfair]) _
  case pos =>
    have hstage : (returning (OnceFair (Delivered smsc recipient message))).next ⟨true, []⟩
        (.randomInt 256) number = ⟨true, []⟩ := by simp [collecting, Stage.next, hfair]
    rw [hstage]
    dsimp only [Prog.bind]
    split
    case h_1 => trivial
    case h_2 pdus hbuild =>
      have hparts := parts_of_build hok hmany hto hcenter hfair hbuild
      refine obeys_line ⟨rfl, by decide⟩ (fun _ => obeys_andFinally ?_) fun _ => trivial
      refine obeys_bind (obeys_submitPdus (fun _ _ => hrestore _ trivial) fun es refs hsub => ?_)
      exact hrestore _ fun _ => .parts number pdus refs hmany hparts hsub rfl

theorem obeys_sendSMS (hsmsc : smsc = [] ∨ phoneRe smsc = true) :
    Obeys (returning (OnceFair (Delivered smsc recipient message))) ⟨true, []⟩
      (sendSMS smsc recipient message) := by
  unfold sendSMS
  dsimp only
  split
  case isTrue => trivial
  case isFalse hto =>
    split
    case isTrue => trivial
    case isFalse hok =>
      split
      case isTrue hone => exact obeys_single hone
      case isFalse hmany => exact obeys_multipart hsmsc (by simpa using hto) (by simpa using hok) hmany

end

/-- What a call must have submitted when it returns. -/
def Accounted (smsc : JsString) (job : Job) (es : List Entry) (result : Result) : Prop :=
  match job with
  | .sendSMS recipient message =>
      ∃ ref, result = .reference ref ∧ Delivered smsc recipient message es ref
  | _ => True

/-- The protocol of a call. -/
abbrev protocol (smsc : JsString) (job : Job) : Protocol Op Ans JsError Result Stage :=
  returning (OnceFair (Accounted smsc job))

theorem obeys_prog {smsc : JsString} (hsmsc : smsc = [] ∨ phoneRe smsc = true) (job : Job) :
    Obeys (protocol smsc job) ⟨true, []⟩ (job.prog smsc) := by
  cases job with
  | sendSMS recipient message =>
      refine obeys_bind ?_
      refine obeys_weaken (obeys_sendSMS hsmsc) ?_
      exact fun s ref h hfair => ⟨ref, rfl, h hfair⟩
  | _ => exact obeys_any (fun _ _ _ => trivial) _

/-! ## The holder and the results in one step -/

/-- A step leaves the results alone and the holder with its call, or the holder returns. -/
inductive Turn (s s' : State) : Prop where
  | same (hjob : ∀ r r', s.running = some r → s'.running = some r' → r'.job = r.job)
      (hresults : s'.results = s.results)
  | returns (r : Running) (result : Except JsError Result) (hr : s.running = some r)
      (hprog : r.phase.prog = match result with | .ok a => .ret a | .error e => .fail e)
      (h' : s' = finish s r result)

section

variable {s s' : State}

theorem Turn.map {f : Running → Running} (hf : ∀ r, (f r).job = r.job)
    (hrunning : s'.running = s.running.map f) (hresults : s'.results = s.results) : Turn s s' := by
  refine .same (fun r r' hr hr' => ?_) hresults
  rw [hrunning, hr] at hr'
  rw [← Option.some.inj hr']
  exact hf r

theorem Turn.keep (hrunning : s'.running = s.running) (hresults : s'.results = s.results) :
    Turn s s' := .map (f := id) (fun _ => rfl) (by rw [hrunning, Option.map_id_fun, id]) hresults

theorem Turn.set {r r' : Running} (hr : s.running = some r) (hr' : s'.running = some r')
    (hjob : r'.job = r.job) (hresults : s'.results = s.results) : Turn s s' := by
  refine .same (fun x x' hx hx' => ?_) hresults
  rw [← Option.some.inj (hr.symm.trans hx), ← Option.some.inj (hr'.symm.trans hx')]
  exact hjob

theorem turn_foldl (ws : List Waiter) {f : Running → Running} (hf : ∀ r, (f r).job = r.job)
    (hrunning : s'.running = s.running.map f) (hresults : s'.results = s.results) :
    Turn s (ws.foldl (fun s w => resolveWaiter s w none) s') := by
  induction ws generalizing s' f with
  | nil => exact .map hf hrunning hresults
  | cons w ws ih =>
      refine ih (f := fun r => (f r).resolveUrc w.id none) (fun r => ?_) ?_ hresults
      · rw [resolveUrc_job, hf]
      · have hmap : (resolveWaiter s' w none).running =
            s'.running.map (·.resolveUrc w.id none) := rfl
        rw [hmap, hrunning, Option.map_map]
        rfl

theorem turn_failCurrentCommand (t : State) (hrunning : t.running = s.running)
    (hresults : t.results = s.results) (err : JsError) : Turn s (failCurrentCommand t err) := by
  refine turn_foldl _ (f := (·.abandon err)) (fun r => abandon_job r err) ?_ hresults
  rw [State.mapRunning, hrunning]

theorem Turn.scheduleReconnect {t : State} (h : Turn s t) (hfinish : t.results = s.results) :
    Turn s (scheduleReconnect t) := by
  unfold Machine.scheduleReconnect
  split
  · exact h
  · cases h with
    | same hjob hresults => exact .same hjob hresults
    | returns r result hr hprog h' =>
        rw [h', finish] at hfinish
        simp at hfinish

theorem turn_handleLine (t : State) (hrunning : t.running = s.running)
    (hresults : t.results = s.results) (line : JsString) : Turn s (handleLine t line) := by
  unfold handleLine
  split
  case h_1 w _ =>
    refine .map (fun r => resolveUrc_job r w.id (some line)) ?_ hresults
    rw [← hrunning]
    rfl
  case h_2 =>
    refine .map (fun r => receive_job r line) ?_ hresults
    rw [State.mapRunning, hrunning]

theorem turn_advance {r : Running} {p : Prog Result} (hr : s.running = some r)
    (hph : r.phase = .ready p) (random : Nat) : Turn s (advance s r p random) := by
  have hprog : r.phase.prog = p := by rw [hph]; rfl
  cases p with
  | ret a => exact .returns r (.ok a) hr hprog rfl
  | fail e => exact .returns r (.error e) hr hprog rfl
  | call op k =>
      cases op with
      | transact req =>
          rw [advance_transact]
          split
          · exact .set hr rfl rfl rfl
          · exact .set hr rfl (issue_job r _ _ _ _) rfl
      | urc w =>
          rw [advance_urc]
          split
          · exact .set hr rfl rfl rfl
          · exact .set hr rfl rfl rfl
      | _ => exact .set hr rfl rfl rfl

theorem turn_react {e : Event} (h : react s e = some s') : Turn s s' := by
  cases e with
  | call job =>
      obtain rfl := Option.some.inj h
      exact .keep rfl rfl
  | data text =>
      rw [react] at h
      split at h
      · obtain rfl := Option.some.inj h
        exact .keep rfl rfl
      · cases h
  | scan => cases h
  | microtask random => cases h
  | commandTimeout =>
      rw [react] at h
      split at h
      case h_1 r hr =>
        split at h
        case h_1 c k _ =>
          split at h
          · obtain rfl := Option.some.inj h
            exact .map (fun r => settle_job r _) rfl rfl
          · cases h
        case h_2 => cases h
      case h_2 => cases h
  | waiterTimeout waiter =>
      rw [react] at h
      split at h
      case h_1 w _ =>
        split at h
        · obtain rfl := Option.some.inj h
          exact .map (fun r => resolveUrc_job r w.id none) rfl rfl
        · cases h
      case h_2 => cases h
  | quietOver =>
      rw [react] at h
      split at h
      case h_1 r hr =>
        split at h
        case h_1 deadline req k _ =>
          split at h
          · obtain rfl := Option.some.inj h
            exact .set hr rfl (issue_job r _ _ _ _) rfl
          · cases h
        case h_2 => cases h
      case h_2 => cases h
  | writeFailed message reached =>
      obtain rfl := Option.some.inj h
      exact .map (fun r => failWrite_job r message reached) rfl rfl
  | persisted answer =>
      rw [react] at h
      split at h
      case h_1 r hr =>
        split at h
        case h_1 messages k _ =>
          obtain rfl := Option.some.inj h
          exact .set hr rfl rfl rfl
        case h_2 => cases h
      case h_2 => cases h
  | opened ok =>
      rw [react] at h
      split at h
      · cases ok with
        | true =>
            obtain rfl := Option.some.inj h
            exact .keep rfl rfl
        | false =>
            obtain rfl := Option.some.inj h
            exact Turn.scheduleReconnect (t := { s with opening := false }) (.keep rfl rfl) rfl
      · cases h
  | portClosed =>
      rw [react] at h
      split at h
      · obtain rfl := Option.some.inj h
        refine Turn.scheduleReconnect (turn_failCurrentCommand (s := s) { s with connected := false } rfl rfl portClosedError) ?_
        rw [((SameCalls.refl _).failCurrentCommand portClosedError).results]
      · cases h
  | reconnect =>
      rw [react] at h
      split at h
      case h_1 t _ =>
        split at h
        · obtain rfl := Option.some.inj h
          unfold connect
          split
          · exact .keep rfl rfl
          · exact .keep rfl rfl
        · cases h
      case h_2 => cases h
  | close =>
      obtain rfl := Option.some.inj h
      exact turn_failCurrentCommand (s := s) { s with closing := true, reconnectTimer := none } rfl rfl shuttingDown
  | tick ms =>
      obtain rfl := Option.some.inj h
      exact .keep rfl rfl

theorem step_turn {e : Event} (h : step s e = some s') : Turn s s' := by
  rcases step_cases h with ⟨-, hscan⟩ | ⟨random, -, -, htask⟩ | ⟨-, -, hreact⟩
  · unfold runScan at hscan
    split at hscan
    case h_1 => cases hscan
    case h_2 line rest _ =>
      obtain rfl := Option.some.inj hscan
      exact turn_handleLine (s := s) { s with scan := some rest } rfl rfl line
    case h_3 =>
      split at hscan
      · obtain rfl := Option.some.inj hscan
        exact .map (fun r => settle_job r none) rfl rfl
      · obtain rfl := Option.some.inj hscan
        exact .keep rfl rfl
  · unfold runMicrotask at htask
    split at htask
    case h_1 r hr =>
      split at htask
      case h_1 p hph =>
        obtain rfl := Option.some.inj htask
        exact turn_advance hr hph random
      case h_2 => cases htask
    case h_2 hr =>
      split at htask
      case h_1 => cases htask
      case h_2 id job queue _ =>
        obtain rfl := Option.some.inj htask
        refine .same (fun r r' hr' _ => ?_) rfl
        rw [hr] at hr'
        cases hr'
  · exact turn_react hreact

end

/-! ## The calls of a run -/

section

variable {s s' : State} {r : Running} {e : Event}

theorem receive_ready {p : Prog Result} (h : r.phase = .ready p) (line : JsString) :
    r.receive line = r := by
  unfold Running.receive
  rw [h]

theorem resolveUrc_ready {p : Prog Result} (h : r.phase = .ready p) (waiter : Nat)
    (line : Option JsString) : r.resolveUrc waiter line = r := by
  unfold Running.resolveUrc
  rw [h]

theorem settle_ready {p : Prog Result} (h : r.phase = .ready p) (err : Option JsError) :
    r.settle err = r := by
  unfold Running.settle
  rw [h]

/-- A random number is the next thing a call gets, and it is in range. -/
theorem step_random {max : Nat} {k : Nat → Prog Result} (h : step s e = some s')
    (hr : s.running = some r) (hph : r.phase = .ready (.call (.randomInt max) k)) :
    s'.running = some r ∨ ∃ n, s'.running = some { r with phase := .ready (k (n % max)) } := by
  rcases step_cases h with ⟨-, hscan⟩ | ⟨random, -, -, htask⟩ | ⟨-, hdue, -⟩
  · left
    unfold runScan at hscan
    split at hscan
    case h_1 => cases hscan
    case h_2 line rest _ =>
      obtain rfl := Option.some.inj hscan
      unfold handleLine
      split
      case h_1 w _ =>
        have hmap : (s.running.map (·.resolveUrc w.id (some line))) = some r := by
          rw [hr, Option.map_some, resolveUrc_ready hph]
        exact hmap
      case h_2 =>
        have hmap : (s.running.map (·.receive line)) = some r := by
          rw [hr, Option.map_some, receive_ready hph]
        exact hmap
    case h_3 =>
      split at hscan
      · obtain rfl := Option.some.inj hscan
        have hmap : (s.running.map (·.settle none)) = some r := by
          rw [hr, Option.map_some, settle_ready hph]
        exact hmap
      · obtain rfl := Option.some.inj hscan
        exact hr
  · right
    simp only [runMicrotask, hr, hph] at htask
    obtain rfl := Option.some.inj htask
    exact ⟨random, rfl⟩
  · simp only [due, hr, hph] at hdue
    cases hdue

/-- Only the command of the holder is acknowledged. -/
theorem acknowledged_cases (s : State) (e : Event) :
    acknowledged s e = [] ∨ ∃ r c k lines, s.running = some r ∧ r.phase = .command c k ∧
      settlement s c e = some (.ok lines) ∧ acknowledged s e = [⟨r.id, c.request, lines⟩] := by
  unfold acknowledged
  cases hcurrent : current s with
  | none => exact Or.inl rfl
  | some ic =>
      obtain ⟨id, c⟩ := ic
      obtain ⟨r, k, hr, rfl, hph⟩ := current_eq_some hcurrent
      cases hs : settlement s c e with
      | none => exact Or.inl (by simp only [hs])
      | some a =>
          cases a with
          | error err => exact Or.inl (by simp only [hs])
          | ok lines => exact Or.inr ⟨r, c, k, lines, hr, hph, hs, by simp only [hs]⟩

theorem acknowledged_idle (h : current s = none) (e : Event) : acknowledged s e = [] := by
  rw [acknowledged, h]

theorem smsc_run {smsc : JsString} {es : List Event} (h : run (start smsc) es = some s) :
    s.smsc = smsc := by
  refine Runs.run_induct (P := fun s => s.smsc = smsc) (A := fun _ => True) ?_ rfl
    (fun _ _ => trivial) h
  intro t e t' ht _ hstep
  cases Framing.step_queued hstep with
  | same hsmsc _ => exact hsmsc.trans ht
  | called job _ h' =>
      rw [h']
      exact ht
  | opened _ h' =>
      rw [h']
      exact ht

/-- The calls have submitted what their functions account for. -/
structure Tracked (smsc : JsString) (s : State) (log : List Acked) : Prop where
  running : ∀ r, s.running = some r →
    Obeys (protocol smsc r.job) ⟨true, submission log r.id⟩ r.phase.prog
  results : ∀ f ∈ s.results, ∀ a, f.result = .ok a →
    Accounted smsc f.job (submission log f.id) a
  owners : ∀ a ∈ log, a.call ∈ s.results.map (·.id) ∨ s.running.map (·.id) = some a.call

/-- The owner of an acknowledged command stays finished or under way. -/
theorem owner_step {id : Nat} (h : step s e = some s')
    (hid : id ∈ s.results.map (·.id) ∨ s.running.map (·.id) = some id) :
    id ∈ s'.results.map (·.id) ∨ s'.running.map (·.id) = some id := by
  cases step_calls h with
  | same hsame =>
      rw [hsame.results, hsame.running]
      exact hid
  | called job hsame =>
      rw [hsame.results, hsame.running]
      exact hid
  | started id' job queue hfree hqueue h' =>
      rw [hfree] at hid
      rw [h']
      exact Or.inl (hid.resolve_right (by simp))
  | finished r result hr h' =>
      left
      rw [h', finish, List.map_append, List.mem_append]
      rcases hid with hid | hid
      · exact Or.inl hid
      · right
        rw [hr] at hid
        simpa using (Option.some.inj hid).symm

/-- A call that has just got the lock has submitted nothing. -/
theorem submission_started {smsc : JsString} {es : List Event} {log : List Acked} {id : Nat} {job : Job}
    {queue : List (Nat × Job)} (hrun : run (start smsc) es = some s)
    (howners : ∀ a ∈ log, a.call ∈ s.results.map (·.id) ∨ s.running.map (·.id) = some a.call)
    (hfree : s.running = none) (hqueue : s.queue = (id, job) :: queue) : submission log id = [] := by
  have hnodup : (callIds s).Nodup := by
    rw [callIds_run hrun]
    exact List.nodup_range
  rw [callIds, hfree, hqueue] at hnodup
  simp only [Option.map_none, Option.toList_none, List.nil_append, List.map_cons,
    List.nodup_middle, List.nodup_cons, List.mem_append, not_or] at hnodup
  refine submission_other fun a ha he => ?_
  have howner := (howners a ha).resolve_right (by rw [hfree]; simp)
  rw [he] at howner
  exact hnodup.1.1 howner

theorem submission_idle (h : current s = none) (e : Event) (log : List Acked) (id : Nat) :
    submission (log ++ acknowledged s e) id = submission log id := by
  rw [acknowledged_idle h, List.append_nil]

theorem submission_finished {smsc : JsString} {es : List Event} (hrun : run (start smsc) es = some s)
    {f : Finished} (hf : f ∈ s.results) (e : Event) (log : List Acked) :
    submission (log ++ acknowledged s e) f.id = submission log f.id := by
  rw [submission_append]
  rcases acknowledged_cases s e with hnone | ⟨r, c, k, lines, hr, -, -, hack⟩
  · rw [hnone]
    exact List.append_nil _
  · have hne : r.id ≠ f.id := fun he => (unfinished_run hrun hr).results f hf he.symm
    have hother : submission [⟨r.id, c.request, lines⟩] f.id = [] :=
      submission_other (by simpa using hne)
    rw [hack, hother, List.append_nil]

/-- The holder that goes on after its command has been settled. -/
theorem obeys_settled {smsc : JsString} {log : List Acked} {c : Command}
    {k : Except JsError (List JsString) → Prog Result} {a : Except JsError (List JsString)}
    (hr : s.running = some r) (hph : r.phase = .command c k) (ha : settlement s c e = some a)
    (h : Obeys (protocol smsc r.job) ⟨true, submission log r.id⟩ r.phase.prog) :
    Obeys (protocol smsc r.job) ⟨true, submission (log ++ acknowledged s e) r.id⟩ (k a) := by
  have hcurrent := current_of_command hr hph
  rw [hph] at h
  have hnext := h.2 a
  cases a with
  | error err =>
      have hack : acknowledged s e = [] := by simp only [acknowledged, hcurrent, ha]
      rw [hack, List.append_nil]
      exact hnext
  | ok lines =>
      have hack : acknowledged s e = [⟨r.id, c.request, lines⟩] := by
        simp only [acknowledged, hcurrent, ha]
      rw [hack, submission_append, submission_single]
      exact hnext

/-- The holder that goes on without a command. -/
theorem obeys_goes {smsc : JsString} {log : List Acked} {r' : Running}
    (h : step s e = some s') (hnone : current s = none) (hr : s.running = some r)
    (hr' : s'.running = some r')
    (hobeys : Obeys (protocol smsc r.job) ⟨true, submission log r.id⟩ r.phase.prog) :
    r'.id = r.id ∧ Obeys (protocol smsc r.job) ⟨true, submission log r.id⟩ r'.phase.prog := by
  cases step_goes h hnone with
  | idle h' =>
      rw [h'] at hr'
      cases hr'
  | starts id job hfree _ =>
      rw [hfree] at hr
      cases hr
  | stays x x' hx hx' hid hprog _ _ =>
      obtain rfl := Option.some.inj (hx.symm.trans hr)
      obtain rfl := Option.some.inj (hx'.symm.trans hr')
      exact ⟨hid, hprog ▸ hobeys⟩
  | answers x x' hx hx' hid op k a hop hprog hphase =>
      obtain rfl := Option.some.inj (hx.symm.trans hr)
      obtain rfl := Option.some.inj (hx'.symm.trans hr')
      refine ⟨hid, ?_⟩
      have hgoes := hprog ▸ hobeys
      rw [hphase]
      cases op with
      | transact req => exact absurd rfl (hop req)
      | randomInt max =>
          have hready : x.phase = .ready (.call (.randomInt max) k) := by
            cases hph : x.phase with
            | ready p =>
                rw [hph] at hprog
                exact congrArg Phase.ready hprog
            | _ =>
                rw [hph] at hprog
                cases hprog
          rcases step_random h hx hready with hsame | ⟨n, hnext⟩
          · have heq : x = x' := Option.some.inj (hsame.symm.trans hx')
            rw [← heq, hready] at hphase
            rw [← Phase.ready.inj hphase]
            exact hgoes
          · have heq := Option.some.inj (hnext.symm.trans hx')
            rw [← heq] at hphase
            have hrange : decide (max = 0 ∨ n % max < max) = true := by
              rw [decide_eq_true_eq]
              rcases Nat.eq_zero_or_pos max with hzero | hpos
              · exact Or.inl hzero
              · exact Or.inr (Nat.mod_lt n hpos)
            have hfair := hgoes.2 (n % max)
            simp only [collecting, Stage.next, hrange, Bool.and_true] at hfair
            rw [← Phase.ready.inj hphase]
            exact hfair
      | writeEsc => exact hgoes.2 a
      | waitForUrc pre timeoutMs => exact hgoes.2 a
      | urc w => exact hgoes.2 a
      | persist messages => exact hgoes.2 a
  | refused x x' hx hx' hid req k hprog hphase =>
      obtain rfl := Option.some.inj (hx.symm.trans hr)
      obtain rfl := Option.some.inj (hx'.symm.trans hr')
      have hgoes := hprog ▸ hobeys
      refine ⟨hid, ?_⟩
      rw [hphase]
      exact hgoes.2 (.error notConnected)
  | issues x hx req k hprog hconnected _ _ h' =>
      obtain rfl := Option.some.inj (hx.symm.trans hr)
      have hissued : some (x.issue s.connected s.now req k) = some r' := by
        rw [← hr', h']
        rfl
      obtain rfl := Option.some.inj hissued
      refine ⟨issue_id x _ _ _ _, ?_⟩
      have hgoes := hprog ▸ hobeys
      rw [Running.issue, hconnected, if_pos rfl]
      exact hgoes

theorem tracked_step {smsc : JsString} {es : List Event} {log : List Acked}
    (hsmsc : smsc = [] ∨ phoneRe smsc = true) (hrun : run (start smsc) es = some s)
    (hs : Tracked smsc s log) (h : step s e = some s') :
    Tracked smsc s' (log ++ acknowledged s e) := by
  refine ⟨?_, ?_, ?_⟩
  · intro r' hr'
    cases hcurrent : current s with
    | some ic =>
        obtain ⟨id, c⟩ := ic
        obtain ⟨r, k, hr, -, hph⟩ := current_eq_some hcurrent
        have hjob : r'.job = r.job := by
          cases step_turn h with
          | same hjob _ => exact hjob r r' hr hr'
          | returns x result _ _ h' =>
              rw [h'] at hr'
              cases hr'
        have hobeys := hs.running r hr
        rw [hjob]
        cases ha : settlement s c e with
        | some a =>
            obtain ⟨x, hx, hid, hphase⟩ := (step_current h hr hph).1 a ha
            obtain rfl := Option.some.inj (hx.symm.trans hr')
            rw [hid, hphase]
            exact obeys_settled hr hph ha hobeys
        | none =>
            obtain ⟨heard, -, x, hx, hid, hphase⟩ := (step_current h hr hph).2 ha
            obtain rfl := Option.some.inj (hx.symm.trans hr')
            have hack : acknowledged s e = [] := by simp only [acknowledged, hcurrent, ha]
            rw [hph] at hobeys
            rw [hid, hphase, hack, List.append_nil]
            exact hobeys
    | none =>
        rw [submission_idle hcurrent]
        cases hrunning : s.running with
        | some r =>
            have hjob : r'.job = r.job := by
              cases step_turn h with
              | same hjob _ => exact hjob r r' hrunning hr'
              | returns x result _ _ h' =>
                  rw [h'] at hr'
                  cases hr'
            obtain ⟨hid, hobeys⟩ := obeys_goes h hcurrent hrunning hr' (hs.running r hrunning)
            rw [hjob, hid]
            exact hobeys
        | none =>
            cases step_calls h with
            | same hsame =>
                have hids := hsame.running
                rw [hrunning, hr'] at hids
                cases hids
            | called job hsame =>
                have hids := hsame.running
                rw [enqueue, hrunning, hr'] at hids
                cases hids
            | started id job queue _ hqueue h' =>
                have hempty := submission_started hrun hs.owners hrunning hqueue
                have hcenter : s.smsc = smsc := smsc_run hrun
                rw [h'] at hr'
                obtain rfl := Option.some.inj hr'
                rw [hempty, hcenter]
                exact obeys_prog hsmsc job
            | finished r result hr _ =>
                rw [hrunning] at hr
                cases hr
  · intro f hf a ha
    cases step_turn h with
    | same _ hresults =>
        rw [hresults] at hf
        rw [submission_finished hrun hf]
        exact hs.results f hf a ha
    | returns r result hr hprog h' =>
        rw [h', finish] at hf
        rcases List.mem_append.mp hf with hf | hf
        · rw [submission_finished hrun hf]
          exact hs.results f hf a ha
        · obtain rfl := List.mem_singleton.mp hf
          obtain rfl : result = .ok a := ha
          have hcurrent : current s = none := by
            refine current_of_phase hr fun c k hph => ?_
            rw [hph] at hprog
            cases hprog
          have hobeys := hs.running r hr
          rw [hprog] at hobeys
          rw [submission_idle hcurrent]
          exact hobeys rfl
  · intro a ha
    refine owner_step h ?_
    rcases List.mem_append.mp ha with ha | ha
    · exact hs.owners a ha
    · rcases acknowledged_cases s e with hnone | ⟨r, c, k, lines, hr, -, -, hack⟩
      · rw [hnone] at ha
        cases ha
      · rw [hack] at ha
        rw [List.mem_singleton.mp ha, hr]
        exact Or.inr rfl

theorem tracked_run {smsc : JsString} {es : List Event} (hsmsc : smsc = [] ∨ phoneRe smsc = true)
    (h : run (start smsc) es = some s) : Tracked smsc s (log (start smsc) es) := by
  have hstart : (∃ es, run (start smsc) es = some (start smsc)) ∧ Tracked smsc (start smsc) [] :=
    ⟨⟨[], rfl⟩, ⟨fun r hr => (by cases hr), fun f hf => absurd hf List.not_mem_nil,
      fun a ha => absurd ha List.not_mem_nil⟩⟩
  have hkeeps : ∀ t log e t', (∃ es, run (start smsc) es = some t) ∧ Tracked smsc t log →
      step t e = some t' →
      (∃ es, run (start smsc) es = some t') ∧ Tracked smsc t' (log ++ acknowledged t e) := by
    rintro t log e t' ⟨⟨es, hes⟩, ht⟩ hstep
    refine ⟨⟨es ++ [e], ?_⟩, tracked_step hsmsc hes ht hstep⟩
    have hprefix : Runs.run step (start smsc) es = some t := hes
    rw [run, Runs.run_append, hprefix]
    simp only [Option.bind_some, Runs.run, hstep]
  have hrun := Runs.outputs_induct hkeeps hstart h
  rw [List.nil_append] at hrun
  exact hrun.2

/-- A send that resolves has been acknowledged part by part, and the parts are the message: of
what a call of `sendSMS` that resolves submitted, in any run and with any other calls, the modem
acknowledged prompt and body of each part, in order and once, and nothing else; the parts decode
to the recipient and to the texts the message is made of, and the reference is theirs. -/
theorem sent_delivered {smsc recipient message : JsString} {es : List Event}
    (hsmsc : smsc = [] ∨ phoneRe smsc = true) (h : run (start smsc) es = some s) {f : Finished}
    (hf : f ∈ s.results) (hjob : f.job = .sendSMS recipient message) {a : Result}
    (hresult : f.result = .ok a) :
    ∃ ref, a = .reference ref ∧
      Delivered smsc recipient message (submission (log (start smsc) es) f.id) ref := by
  have haccounted := (tracked_run hsmsc h).results f hf a hresult
  rw [hjob] at haccounted
  exact haccounted

/-- 161 letters, one more than fits one SMS. -/
def long : JsString := List.replicate 161 0x61

/-- The modem opens the prompt, then takes the body. -/
def taken (number : JsString) : List Event :=
  [.data (js "> "), .scan, .microtask 0, .data (js "+CMGS: " ++ number ++ js "\r\nOK\r\n"), .scan, .scan,
    .scan, .microtask 0]

def longSend : List Event :=
  boot ++ [.call (.sendSMS (js "+99361234567") long), .microtask 0, .microtask 77, .microtask 0] ++
    answered (js "OK") ++ taken (js "5") ++ taken (js "6") ++ answered (js "OK")

theorem longSend_resolved :
    ((run (start []) longSend).bind fun s => s.results[1]?).map (fun f => (f.job, f.result)) =
      some (.sendSMS (js "+99361234567") long,
        .ok (.reference (some (js "+CMGS: 5; +CMGS: 6")))) := by decide +kernel

theorem sent_delivered_longSend : ∃ id, Delivered [] (js "+99361234567") long
    (submission (log (start []) longSend) id) (some (js "+CMGS: 5; +CMGS: 6")) := by
  obtain ⟨f, hf, hpair⟩ := Option.map_eq_some_iff.mp longSend_resolved
  obtain ⟨s, hs, hfs⟩ := Option.bind_eq_some_iff.mp hf
  obtain ⟨hjob, hresult⟩ := Prod.mk.inj hpair
  obtain ⟨ref, href, hdelivered⟩ :=
    sent_delivered (Or.inl rfl) hs (List.mem_of_getElem? hfs) hjob hresult
  rw [Result.reference.inj href]
  exact ⟨f.id, hdelivered⟩

end

end SmsGateway.Serial.Delivery
