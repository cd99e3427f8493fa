import SmsGateway.Serial.Wire

/-!
# The prompt of a message body

`submitBody` writes a body once its prompt command has resolved. The prompt command shares its
settlement with every other command, so the line OK resolves it as well.
-/

namespace SmsGateway.Serial.Prompt

open SmsGateway Serial Machine Wire
open Lib Lib.Async Lib.Runs

/-- Ctrl+Z ends what the command writes. -/
def isSubmission (r : Request) : Bool := r.write.getLast? == some 0x1a

/-- A prompt has come in since the command was written. -/
def Prompted (x : Exchange) : Prop :=
  ∃ text, text <+: chunk x.heard ∧ startsWith (trimStart (Lines.tail LF text)) (js ">") = true

/-- The body belongs to the prompt command. -/
structure Opens (p r : Request) : Prop where
  expects : p.expectPrompt = true
  write : startsWith p.write (js "AT+CMGS=") = true
  label : r.label = p.label ++ js " body"

/-- The prompt of a body, received for the same submission. -/
structure PromptOf (p x : Exchange) : Prop where
  call : p.call = x.call
  opens : Opens p.request x.request
  prompted : Prompted p

/-- Every body follows such a command. -/
def Preceded (R : Exchange → Exchange → Prop) (l : List Exchange) : Prop :=
  ∀ n x, l[n]? = some x → isSubmission x.request = true →
    ∃ p, (l.take n).getLast? = some p ∧ R p x

structure BodiesPrompted (w : Watched) : Prop where
  bodies : Preceded PromptOf w.exchanges
  /-- only the prompt resolves a prompt command -/
  settled : ∀ x ∈ w.exchanges, x.request.expectPrompt = true → ∀ lines, .ok lines ∈ x.settlements →
    Prompted x ∧ ∀ line ∈ lines, isTerminalLine line = false

/-- The loop of `handleData` hands OK to a command that expects a prompt. -/
def okAtPrompt (s : State) : Bool :=
  expectsPrompt s &&
    match s.scan with
    | some (line :: _) => line == js "OK" && (s.urcWaiters.find? (takes line)).isNone
    | _ => false

def noOkAtPrompt (w : Watched) : WireEvent → Bool
  | .driver .scan => !okAtPrompt w.driver
  | _ => true

/-! ## The prompt in the program -/

/-- The prompt command that has just resolved. -/
def opened (r : Request) : Except JsError (List JsString) → Option Request
  | .ok _ => if r.expectPrompt then some r else none
  | .error _ => none

/-- A body follows its prompt command. -/
def protocol {α : Type} (mayReturn : Option Request → α → Prop)
    (mayFail : Option Request → JsError → Prop) : Protocol Op Ans JsError α (Option Request) :=
  { allowed := fun stage op => ∀ r, op = .transact r → isSubmission r = true →
      ∃ p, stage = some p ∧ Opens p r
    next := fun _ op a =>
      match op, a with
      | .transact r, a => opened r a
      | _, _ => none
    mayReturn, mayFail }

/-- The protocol of a call. -/
abbrev callProtocol : Protocol Op Ans JsError Result (Option Request) :=
  protocol (fun _ _ => True) fun _ _ => True

theorem isSubmission_of_return {r : Request} (h : r.write.getLast? = some CR) :
    isSubmission r = false := by
  rw [isSubmission, h]
  decide

theorem opened_of_isLine {r : Request} (h : IsLine r) (a : Except JsError (List JsString)) :
    opened r a = none := by
  cases a with
  | ok lines => rw [opened, h.1]; rfl
  | error e => rfl

section

variable {α : Type} {Q : Option Request → α → Prop} {E : Option Request → JsError → Prop}

theorem allowed_line {stage : Option Request} {r : Request} (h : IsLine r) :
    (protocol Q E).allowed stage (.transact r) := by
  rintro _ ⟨rfl⟩ hsubmission
  rw [isSubmission_of_return h.2] at hsubmission
  cases hsubmission

theorem obeys_line {r : Request} {f : List JsString → Prog α} (h : IsLine r)
    (hf : ∀ lines, Obeys (protocol Q E) none (f lines)) (herr : ∀ e, E none e) :
    Obeys (protocol Q E) none (Serial.transact r >>= f) := by
  have hnext (a : Except JsError (List JsString)) :
      (protocol Q E).next none (.transact r) a = none := opened_of_isLine h a
  refine obeys_transact (allowed_line h) ?_ ?_
  · intro lines
    rw [hnext]
    exact hf lines
  · intro e
    rw [hnext]
    exact herr e

theorem obeys_lines {p : Prog α}
    (h : AllOps (fun op => ∀ r, op = .transact r → IsLine r) p) (hret : ∀ a, Q none a)
    (herr : ∀ e, E none e) : Obeys (protocol Q E) none p := by
  refine obeys_of_allOps h ?_ hret herr
  intro op hop
  cases op with
  | transact r => exact ⟨allowed_line (hop r rfl), opened_of_isLine (hop r rfl)⟩
  | _ => exact ⟨fun _ => nofun, fun _ => rfl⟩

end

section

variable {Q : Option Request → Option JsString → Prop} {E : Option Request → JsError → Prop}

theorem obeys_submission (address label body : JsString) (hret : ∀ ref, Q none ref)
    (herr : ∀ e, E none e) :
    Obeys (protocol Q E) none (submitBody (js "AT+CMGS=" ++ address ++ js "\r") label body) := by
  have hprompt : isSubmission (promptRequest (js "AT+CMGS=" ++ address ++ js "\r") label) = false :=
    isSubmission_of_return (isLine_append (js "AT+CMGS=" ++ address) label).2
  refine obeys_submitBody ?_ ?_ ?_
  · rintro _ ⟨rfl⟩ hsubmission
    rw [hprompt] at hsubmission
    cases hsubmission
  · exact fun e => ⟨fun _ => nofun, fun _ => herr e⟩
  · intro lines
    refine ⟨?_, ?_⟩
    · rintro _ ⟨rfl⟩ -
      refine ⟨_, rfl, rfl, ?_, rfl⟩
      rw [promptRequest, List.append_assoc]
      exact startsWith_append _ _
    · intro a
      cases a with
      | ok lines => exact hret _
      | error e => exact herr _

theorem obeys_single (smsc recipient message : JsString) (info : SmsEncoding.MessageInfo)
    (hret : ∀ ref, Q none ref) (herr : ∀ e, E none e) :
    Obeys (protocol Q E) none (sendSingle smsc recipient message info) := by
  refine obeys_sendSingle ?_ herr (obeys_submission _ _ _ hret herr)
  exact fun r h _ => ⟨allowed_line h, opened_of_isLine h⟩

end

theorem obeys_submitPdus {Q : Option Request → List (Option JsString) → Prop}
    {E : Option Request → JsError → Prop} (pdus : List Pdu.BuiltPdu) (hret : ∀ refs, Q none refs)
    (herr : ∀ e, E none e) : Obeys (protocol Q E) none (submitPdus pdus) := by
  induction pdus generalizing Q with
  | nil => exact hret []
  | cons p pdus ih =>
      refine obeys_bind (obeys_submission _ _ _ (fun ref => ?_) herr)
      exact obeys_bind (ih fun refs => hret (ref :: refs))

theorem obeys_sendMultipart {Q : Option Request → Option JsString → Prop}
    {E : Option Request → JsError → Prop} (smsc recipient message : JsString)
    (info : SmsEncoding.MessageInfo) (hret : ∀ ref, Q none ref) (herr : ∀ e, E none e) :
    Obeys (protocol Q E) none (sendMultipart smsc recipient message info) := by
  -- text mode is restored before the call goes on
  have hrestore (p : Prog (Option JsString)) (hp : Obeys (protocol Q E) none p) :
      Obeys (protocol Q E) none
        (Prog.bind (Prog.catchError
          (Serial.transact (request (js "AT+CMGF=1\r") (js "CMGF=1")) >>= fun _ => Prog.ret ())
          fun _ => Prog.ret ()) fun _ => p) := by
    have hmode : IsLine (request (js "AT+CMGF=1\r") (js "CMGF=1")) := ⟨rfl, by decide⟩
    refine obeys_bind (obeys_catchError (obeys_line hmode (fun _ => hp) fun _ => hp))
  refine ⟨fun _ => nofun, fun ref => ?_⟩
  dsimp only [Prog.bind]
  split
  · exact herr _
  · refine obeys_line ⟨rfl, by decide⟩ (fun lines => obeys_andFinally ?_) herr
    refine obeys_bind (obeys_submitPdus _ (fun refs => ?_) fun e => ?_)
    · exact hrestore _ (hret _)
    · exact hrestore _ (herr e)

theorem obeys_sendSMS {Q : Option Request → Option JsString → Prop}
    {E : Option Request → JsError → Prop} (smsc recipient message : JsString)
    (hret : ∀ ref, Q none ref) (herr : ∀ e, E none e) :
    Obeys (protocol Q E) none (sendSMS smsc recipient message) := by
  unfold sendSMS
  dsimp only
  split
  · exact herr _
  · split
    · exact herr _
    · split
      · exact obeys_single smsc recipient message _ hret herr
      · exact obeys_sendMultipart smsc recipient message _ hret herr

theorem obeys_prog (smsc : JsString) (job : Job) : Obeys callProtocol none (job.prog smsc) := by
  have hlines {p : Prog Result}
      (h : AllOps (fun op => ∀ r, op = .transact r → IsLine r) p) : Obeys callProtocol none p :=
    obeys_lines h (fun _ => trivial) fun _ => trivial
  have hline (r : Request) (h : IsLine r) (r' : Request) (he : Op.transact r = .transact r') :
      IsLine r' := by
    cases he
    exact h
  cases job with
  | initModem => exact hlines (allOps_bind (allOps_initModem hline) fun _ => trivial)
  | ping => exact hlines (allOps_bind (allOps_ping hline) fun _ => trivial)
  | getMessages persist =>
      exact hlines (allOps_bind (allOps_getMessages hline (fun _ _ => nofun) persist)
        fun _ => trivial)
  | runUssd code =>
      exact hlines (allOps_bind (allOps_runUssd hline (fun _ _ _ => nofun) (fun _ _ => nofun) code)
        fun _ => trivial)
  | sendSMS recipient message =>
      exact obeys_bind (obeys_sendSMS smsc recipient message (fun _ => trivial) fun _ => trivial)

/-! ## The prompt on the wire -/

/-- The prompt command of a body, resolved. -/
structure Resolved (p x : Exchange) : Prop where
  call : p.call = x.call
  opens : Opens p.request x.request
  resolved : ∃ lines, .ok lines ∈ p.settlements

section

variable {R : Exchange → Exchange → Prop} {l : List Exchange} {y : Exchange}

theorem preceded_nil : Preceded R [] := by
  intro n x hx
  simp at hx

theorem preceded_concat (h : Preceded R l)
    (hy : isSubmission y.request = true → ∃ p, l.getLast? = some p ∧ R p y) :
    Preceded R (l ++ [y]) := by
  intro n x hx hsubmission
  rcases Nat.lt_trichotomy n l.length with hn | hn | hn
  · rw [List.getElem?_append_left hn] at hx
    rw [List.take_append_of_le_length hn.le]
    exact h n x hx hsubmission
  · rw [hn, List.getElem?_concat_length] at hx
    obtain rfl := Option.some.inj hx
    rw [hn, List.take_left]
    exact hy hsubmission
  · rw [List.getElem?_eq_none (by rw [List.length_append, List.length_singleton]; omega)] at hx
    cases hx

end

/-- How the holder of the lock goes on, from what is on the ledger. -/
structure Holder (ledger : List Exchange) (r : Running) : Prop where
  awaits : ∀ c k, r.phase = .command c k → ∀ a, Obeys callProtocol (opened c.request a) (k a)
  goes : (∀ c k, r.phase ≠ .command c k) → ∃ stage, Obeys callProtocol stage r.phase.prog ∧
    ∀ p, stage = some p → ∃ x, ledger.getLast? = some x ∧ x.call = r.id ∧ x.request = p ∧
      ∃ lines, .ok lines ∈ x.settlements

structure PromptInv (w : Watched) : Prop where
  past : Preceded Resolved w.ledger
  pending : ∀ x, w.pending = some x → isSubmission x.request = true →
    ∃ p, w.ledger.getLast? = some p ∧ Resolved p x
  settled : ∀ x ∈ w.ledger, x.request.expectPrompt = true → ∀ lines, .ok lines ∈ x.settlements →
    (∀ line ∈ lines, isTerminalLine line = false) → Prompted x
  holder : ∀ r, w.driver.running = some r → Holder w.ledger r

section

variable {ledger : List Exchange} {r r' : Running}

theorem next_other {op : Op} (hop : ∀ req, op ≠ .transact req) (stage : Option Request) (a : Ans op) :
    callProtocol.next stage op a = none := by
  cases op with
  | transact req => exact absurd rfl (hop req)
  | _ => rfl

theorem Holder.ready {p : Prog Result} (hph : r.phase = .ready p) (h : Obeys callProtocol none p) :
    Holder ledger r := by
  refine ⟨?_, ?_⟩
  · intro c k hc
    rw [hph] at hc
    cases hc
  · intro _
    refine ⟨none, ?_, fun _ => nofun⟩
    rw [hph]
    exact h

/-- The holder goes on with the answer of its command. -/
theorem Holder.settles {c : Command} {k : Except JsError (List JsString) → Prog Result}
    {a : Except JsError (List JsString)} {x : Exchange} (h : Holder ledger r)
    (hph : r.phase = .command c k) (hph' : r'.phase = .ready (k a)) (hcall : x.call = r'.id)
    (hrequest : x.request = c.request) (ha : a ∈ x.settlements) : Holder (ledger ++ [x]) r' := by
  refine ⟨?_, ?_⟩
  · intro c' k' hc
    rw [hph'] at hc
    cases hc
  · intro _
    refine ⟨opened c.request a, ?_, ?_⟩
    · rw [hph']
      exact h.awaits c k hph a
    · intro p hp
      cases a with
      | error e => cases hp
      | ok lines =>
          rw [opened] at hp
          split at hp
          · refine ⟨x, List.getLast?_concat, hcall, hrequest.trans (Option.some.inj hp), lines, ha⟩
          · cases hp

/-- The holder between its commands. -/
theorem Holder.next {s s' : State} (h : ∀ r, s.running = some r → Holder ledger r)
    (hnone : current s = none) (hgoes : Goes s s') (hnone' : current s' = none)
    (hr' : s'.running = some r') : Holder ledger r' := by
  cases hgoes with
  | idle hidle =>
      rw [hidle] at hr'
      cases hr'
  | starts id job _ hstart =>
      obtain rfl := Option.some.inj (hstart.symm.trans hr')
      exact .ready rfl (obeys_prog s.smsc job)
  | stays r r'' hr hr'' hid hprog hcurrent hquiet =>
      obtain rfl := Option.some.inj (hr''.symm.trans hr')
      obtain ⟨stage, hobeys, hlast⟩ := (h r hr).goes (phase_of_current hr hnone)
      refine ⟨?_, fun _ => ⟨stage, ?_, ?_⟩⟩
      · intro c k hph
        exact absurd hph (phase_of_current hr'' hnone' c k)
      · rw [hprog]
        exact hobeys
      · rw [hid]
        exact hlast
  | answers r r'' hr hr'' hid op k a hop hprog hphase =>
      obtain rfl := Option.some.inj (hr''.symm.trans hr')
      obtain ⟨stage, hobeys, -⟩ := (h r hr).goes (phase_of_current hr hnone)
      rw [hprog] at hobeys
      have hnext := hobeys.2 a
      rw [next_other hop] at hnext
      exact .ready hphase hnext
  | refused r r'' hr hr'' hid req k hprog hphase =>
      obtain rfl := Option.some.inj (hr''.symm.trans hr')
      obtain ⟨stage, hobeys, -⟩ := (h r hr).goes (phase_of_current hr hnone)
      rw [hprog] at hobeys
      exact .ready hphase (hobeys.2 (.error notConnected))
  | issues r hr req k hprog hconnected hscan hquiet hissue =>
      rw [hissue, current_issue hconnected] at hnone'
      cases hnone'

end

section

variable {w w' : Watched}

theorem promptInv_start (smsc : JsString) : PromptInv (start smsc) :=
  ⟨preceded_nil, nofun, fun _ hx => (List.not_mem_nil hx).elim, nofun⟩

theorem promptInv_step (hw : WireInv w) (h : PromptInv w) {e : WireEvent} (hstep : w.step e = some w') :
    PromptInv w' := by
  cases step_follows hw hstep with
  | hears pieces hs h' =>
      obtain ⟨-, -, hdriver⟩ := step_data hs
      have hrunning : w'.driver.running = w.driver.running := by rw [hdriver]
      have hledger : w'.ledger = w.ledger := by rw [h', ledger_receive]
      refine ⟨hledger ▸ h.past, ?_, hledger ▸ h.settled, ?_⟩
      · intro x hx hsubmission
        rw [h'] at hx
        obtain ⟨x₀, hx₀, rfl⟩ := Option.map_eq_some_iff.mp hx
        obtain ⟨p, hp, hresolved⟩ := h.pending x₀ hx₀ hsubmission
        exact ⟨p, hledger ▸ hp, hresolved.call, hresolved.opens, hresolved.resolved⟩
      · rw [hledger, hrunning]
        exact h.holder
  | settles e hs x c a hx hc ha h' =>
      obtain ⟨r, k, hr, hid, hph⟩ := current_eq_some hc.current
      have hledger : w'.ledger = w.ledger ++ [(x.settle a).core] := by
        rw [h', Watched.ledger, ledger_drop, List.map_append, List.map_singleton, core_settledBy]
        rfl
      have hsettlements : (x.settle a).core.settlements = [a] := by
        change x.settlements ++ [a] = [a]
        rw [hc.settlements, List.nil_append]
      have hpending : w'.pending = none := by rw [h']
      refine ⟨?_, ?_, ?_, ?_⟩
      · rw [hledger]
        refine preceded_concat h.past ?_
        intro hsubmission
        obtain ⟨p, hp, hresolved⟩ := h.pending x hx hsubmission
        exact ⟨p, hp, hresolved.call, hresolved.opens, hresolved.resolved⟩
      · rw [hpending]
        simp
      · intro y hy hexpects lines hlines hterminal
        rw [hledger] at hy
        rcases List.mem_append.mp hy with hy | hy
        · exact h.settled y hy hexpects lines hlines hterminal
        · obtain rfl := List.mem_singleton.mp hy
          rw [hsettlements] at hlines
          obtain rfl := List.mem_singleton.mp hlines
          obtain ⟨-, ⟨rest, -, -, rfl⟩ | ⟨-, -, hprompt, -⟩⟩ := settlement_ok ha
          · have hok := hterminal (js "OK") (by simp)
            exact absurd hok (by decide)
          · rw [hc.buffer] at hprompt
            exact ⟨chunk x.heard, List.prefix_rfl, hprompt⟩
      · intro r' hr'
        obtain ⟨r'', hr'', hid', hph'⟩ := (step_current hs hr hph).1 a ha
        obtain rfl := Option.some.inj (hr''.symm.trans hr')
        rw [hledger]
        refine (h.holder r hr).settles hph hph' ?_ hc.request.symm ?_
        · exact hid.symm.trans hid'.symm
        · rw [hsettlements]
          exact List.mem_singleton_self a
  | awaits e hs x c hx hc ha h' =>
      obtain ⟨r, k, hr, hid, hph⟩ := current_eq_some hc.current
      obtain ⟨more, -, r', hr', -, hph'⟩ := (step_current hs hr hph).2 ha
      have hledger : w'.ledger = w.ledger := by rw [h']; rfl
      have hpending : w'.pending = w.pending := by rw [h']
      refine ⟨hledger ▸ h.past, ?_, hledger ▸ h.settled, ?_⟩
      · rw [hpending, hledger]
        exact h.pending
      · intro r'' hr''
        obtain rfl := Option.some.inj (hr'.symm.trans hr'')
        refine ⟨?_, fun hne => absurd hph' (hne _ _)⟩
        intro c' k' hc'
        rw [hph'] at hc'
        obtain ⟨rfl, rfl⟩ := Phase.command.inj hc'
        exact (h.holder r hr).awaits c k hph
  | issues e hs hx r req k hr hprog hconnected hscan hquiet hdriver h' =>
      obtain ⟨stage, hobeys, hlast⟩ := (h.holder r hr).goes (phase_of_current hr (hw.idle hx))
      rw [hprog] at hobeys
      have hledger : w'.ledger = w.ledger := by rw [h']; rfl
      have hpending : w'.pending = some (.new r.id req) := by rw [h']
      refine ⟨hledger ▸ h.past, ?_, hledger ▸ h.settled, ?_⟩
      · intro x hx' hsubmission
        rw [hpending] at hx'
        obtain rfl := Option.some.inj hx'
        obtain ⟨p, hp, hopens⟩ := hobeys.1 req rfl hsubmission
        obtain ⟨y, hy, hcall, rfl, hresolved⟩ := hlast p hp
        exact ⟨y, hledger ▸ hy, hcall, hopens, hresolved⟩
      · intro r' hr'
        rw [hdriver] at hr'
        obtain rfl := Option.some.inj hr'
        simp only [Running.issue, hconnected, if_true]
        refine ⟨?_, fun hne => absurd rfl (hne _ _)⟩
        intro c' k' hc'
        obtain ⟨rfl, rfl⟩ := Phase.command.inj hc'
        exact hobeys.2
  | goes e hs hx hgoes hcurrent h' =>
      have hledger : w'.ledger = w.ledger := by
        rw [h', Watched.ledger, ledger_drop]
        rfl
      have hpending : w'.pending = none := by rw [h']
      refine ⟨hledger ▸ h.past, ?_, hledger ▸ h.settled, ?_⟩
      · rw [hpending]
        simp
      · intro r' hr'
        rw [hledger]
        exact .next h.holder (hw.idle hx) hgoes hcurrent hr'

/-! ## Runs -/

/-- No line resolves a prompt command. -/
def PromptOnly (w : Watched) : Prop :=
  ∀ x ∈ w.ledger, x.request.expectPrompt = true → ∀ lines, .ok lines ∈ x.settlements →
    ∀ line ∈ lines, isTerminalLine line = false

/-- A prompt command and a body on the ledger. -/
theorem promptOf_resolved (h : PromptInv w) (honly : PromptOnly w) {p x : Exchange}
    (hp : p ∈ w.past) (hresolved : Resolved p.core x.core) : PromptOf p x := by
  obtain ⟨lines, hlines⟩ := hresolved.resolved
  have hmem : p.core ∈ w.ledger := List.mem_map_of_mem hp
  have hterminal := honly p.core hmem hresolved.opens.expects lines hlines
  exact ⟨hresolved.call, hresolved.opens,
    h.settled p.core hmem hresolved.opens.expects lines hlines hterminal⟩

theorem getLast?_ledger {n : Nat} {y : Exchange} (h : (w.ledger.take n).getLast? = some y) :
    ∃ p, (w.past.take n).getLast? = some p ∧ p.core = y := by
  rw [Watched.ledger, ← List.map_take, List.getLast?_map] at h
  exact Option.map_eq_some_iff.mp h

theorem preceded_exchanges (h : PromptInv w) (honly : PromptOnly w) :
    Preceded PromptOf w.exchanges := by
  have hpast : Preceded PromptOf w.past := by
    intro n x hx hsubmission
    have hcore : w.ledger[n]? = some x.core := by
      rw [Watched.ledger, List.getElem?_map, hx]
      rfl
    obtain ⟨y, hy, hresolved⟩ := h.past n x.core hcore hsubmission
    obtain ⟨p, hp, rfl⟩ := getLast?_ledger hy
    have hmem : p ∈ w.past := List.mem_of_mem_take (List.mem_of_getLast? hp)
    exact ⟨p, hp, promptOf_resolved h honly hmem hresolved⟩
  cases hx : w.pending with
  | none =>
      rw [Watched.exchanges, hx, Option.toList_none, List.append_nil]
      exact hpast
  | some x =>
      rw [Watched.exchanges, hx, Option.toList_some]
      refine preceded_concat hpast ?_
      intro hsubmission
      obtain ⟨y, hy, hresolved⟩ := h.pending x hx hsubmission
      rw [Watched.ledger, List.getLast?_map] at hy
      obtain ⟨p, hp, rfl⟩ := Option.map_eq_some_iff.mp hy
      refine ⟨p, hp, promptOf_resolved h honly (List.mem_of_getLast? hp) ?_⟩
      exact ⟨hresolved.call, hresolved.opens, hresolved.resolved⟩

theorem bodiesPrompted_of_promptOnly (hw : WireInv w) (h : PromptInv w) :
    BodiesPrompted w ↔ PromptOnly w := by
  refine ⟨?_, fun honly => ⟨preceded_exchanges h honly, ?_⟩⟩
  · intro hbodies y hy hexpects lines hlines
    obtain ⟨x, hx, rfl⟩ := List.mem_map.mp hy
    exact (hbodies.settled x (List.mem_append_left _ hx) hexpects lines hlines).2
  · intro x hx hexpects lines hlines
    rcases List.mem_append.mp hx with hx | hx
    · have hmem : x.core ∈ w.ledger := List.mem_map_of_mem hx
      have hterminal := honly x.core hmem hexpects lines hlines
      exact ⟨h.settled x.core hmem hexpects lines hlines hterminal, hterminal⟩
    · obtain ⟨c, hc⟩ := hw.awaited x (Option.mem_toList.mp hx)
      rw [hc.settlements] at hlines
      cases hlines

theorem okAtPrompt_false (hnone : current w.driver = none) : okAtPrompt w.driver = false := by
  have hexpects : expectsPrompt w.driver = false := by
    unfold expectsPrompt
    split
    case h_1 r hr =>
      split
      case h_1 c k hph => exact absurd hph (phase_of_current hr hnone c k)
      case h_2 => rfl
    case h_2 => rfl
  rw [okAtPrompt, hexpects, Bool.false_and]

theorem expectsPrompt_of_current {s : State} {id : Nat} {c : Command} (h : current s = some (id, c)) :
    expectsPrompt s = c.request.expectPrompt := by
  obtain ⟨r, k, hr, -, hph⟩ := current_eq_some h
  simp only [expectsPrompt, hr, hph]

theorem okAtPrompt_iff {s : State} {x : Exchange} {c : Command} (hc : Awaited s x c) :
    okAtPrompt s = true ↔ c.request.expectPrompt = true ∧
      settlement s c .scan = some (.ok (c.lines ++ [js "OK"])) := by
  have hexpects := expectsPrompt_of_current hc.current
  refine ⟨?_, ?_⟩
  · intro h
    rw [okAtPrompt, Bool.and_eq_true, hexpects] at h
    obtain ⟨hprompt, hline⟩ := h
    refine ⟨hprompt, ?_⟩
    split at hline
    case h_1 line rest hscan =>
      simp only [Bool.and_eq_true, beq_iff_eq, Option.isNone_iff_eq_none] at hline
      obtain ⟨rfl, hwaiter⟩ := hline
      have hterminal : isTerminalLine (js "OK") = true := by decide
      have herror : isErrorLine (js "OK") = false := by decide
      simp [settlement_line hscan, lineSettlement, hwaiter, hterminal, herror]
    case h_2 => cases hline
  · rintro ⟨hprompt, hsettlement⟩
    obtain ⟨-, ⟨rest, hscan, hwaiter, -⟩ | ⟨-, -, -, hlines⟩⟩ := settlement_ok hsettlement
    · rw [okAtPrompt, hexpects, hprompt, hscan]
      simp [hwaiter]
    · exact absurd hlines (by simp)

/-- A command settled under the condition has not taken OK for its prompt. -/
theorem noOkAtPrompt_iff {x : Exchange} {c : Command} {a : Except JsError (List JsString)} {e : Event}
    (hc : Awaited w.driver x c) (ha : settlement w.driver c e = some a) :
    noOkAtPrompt w (.driver e) = true ↔ (x.request.expectPrompt = true → ∀ lines, .ok lines = a →
      ∀ line ∈ lines, isTerminalLine line = false) := by
  rw [← hc.request]
  refine ⟨?_, ?_⟩
  · rintro hno hexpects lines rfl
    obtain ⟨rfl, ⟨rest, -, -, rfl⟩ | ⟨-, -, -, rfl⟩⟩ := settlement_ok ha
    · have hok := (okAtPrompt_iff hc).mpr ⟨hexpects, ha⟩
      rw [noOkAtPrompt, hok] at hno
      cases hno
    · exact hc.nonterminal
  · intro hlines
    unfold noOkAtPrompt
    split
    case h_1 heq =>
      obtain rfl := WireEvent.driver.inj heq
      rw [Bool.not_eq_true']
      cases hok : okAtPrompt w.driver with
      | false => rfl
      | true =>
          obtain ⟨hexpects, hsettlement⟩ := (okAtPrompt_iff hc).mp hok
          obtain rfl := Option.some.inj (hsettlement.symm.trans ha)
          have hterminal := hlines hexpects _ rfl (js "OK") (by simp)
          exact absurd hterminal (by decide)
    case h_2 => rfl

/-- The condition on a step is the condition on what it puts on the ledger. -/
theorem promptOnly_step (hw : WireInv w) {e : WireEvent} (hstep : w.step e = some w') :
    PromptOnly w' ↔ PromptOnly w ∧ noOkAtPrompt w e = true := by
  have hsame (hledger : w'.ledger = w.ledger) (hok : noOkAtPrompt w e = true) :
      PromptOnly w' ↔ PromptOnly w ∧ noOkAtPrompt w e = true := by
    rw [PromptOnly, hledger]
    exact (and_iff_left hok).symm
  cases step_follows hw hstep with
  | hears pieces hs h' =>
      refine hsame ?_ rfl
      rw [h', ledger_receive]
  | settles e hs x c a hx hc ha h' =>
      rw [noOkAtPrompt_iff hc ha]
      have hledger : w'.ledger = w.ledger ++ [(x.settle a).core] := by
        rw [h', Watched.ledger, ledger_drop, List.map_append, List.map_singleton, core_settledBy]
        rfl
      have hsettlements : (x.settle a).core.settlements = [a] := by
        change x.settlements ++ [a] = [a]
        rw [hc.settlements, List.nil_append]
      have hnew : (∀ lines, .ok lines ∈ (x.settle a).core.settlements →
          ∀ line ∈ lines, isTerminalLine line = false) ↔
          ∀ lines, .ok lines = a → ∀ line ∈ lines, isTerminalLine line = false := by
        simp only [hsettlements, List.mem_singleton]
      rw [PromptOnly, hledger, List.forall_mem_append, List.forall_mem_singleton, hnew]
      rfl
  | awaits e hs x c hx hc ha h' =>
      refine hsame (by rw [h']; rfl) ?_
      unfold noOkAtPrompt
      split
      case h_1 heq =>
        obtain rfl := WireEvent.driver.inj heq
        rw [Bool.not_eq_true']
        cases hok : okAtPrompt w.driver with
        | false => rfl
        | true =>
            rw [((okAtPrompt_iff hc).mp hok).2] at ha
            cases ha
      case h_2 => rfl
  | issues e hs hx r req k hr hprog hconnected hscan hquiet hdriver h' =>
      refine hsame (by rw [h']; rfl) ?_
      unfold noOkAtPrompt
      split
      · rw [okAtPrompt_false (hw.idle hx), Bool.not_false]
      · rfl
  | goes e hs hx hgoes hcurrent h' =>
      refine hsame ?_ ?_
      · rw [h', Watched.ledger, ledger_drop]
        rfl
      · unfold noOkAtPrompt
        split
        · rw [okAtPrompt_false (hw.idle hx), Bool.not_false]
        · rfl

/-- Bodies are written at a prompt in exactly the runs in which no prompt command is handed OK. -/
theorem bodies_prompted_iff (smsc : JsString) (es : List WireEvent)
    (hrun : Wire.run (Wire.start smsc) es = some w) :
    BodiesPrompted w ↔ allSteps Watched.step noOkAtPrompt (Wire.start smsc) es = true := by
  have hinv (w₀ : Watched) (e : WireEvent) (w₁ : Watched) (h : WireInv w₀ ∧ PromptInv w₀) (_ : True)
      (hs : w₀.step e = some w₁) : WireInv w₁ ∧ PromptInv w₁ :=
    ⟨wireInv_step h.1 hs, promptInv_step h.1 h.2 hs⟩
  have hstep (w₀ : Watched) (e : WireEvent) (w₁ : Watched) (h : WireInv w₀ ∧ PromptInv w₀) (_ : True)
      (hs : w₀.step e = some w₁) : PromptOnly w₁ ↔ PromptOnly w₀ ∧ noOkAtPrompt w₀ e = true :=
    promptOnly_step h.1 hs
  have hstart := And.intro (wireInv_start smsc) (promptInv_start smsc)
  have honly : PromptOnly (Wire.start smsc) := fun _ hx => (List.not_mem_nil hx).elim
  obtain ⟨hw, h⟩ := run_induct (A := fun _ => True) hinv hstart (fun _ _ => trivial) hrun
  rw [bodiesPrompted_of_promptOnly hw h]
  exact (allSteps_iff (A := fun _ => True) hinv hstep hstart (fun _ _ => trivial) hrun).trans
    (and_iff_right honly)

end

/-! ## Two runs -/

def send : Event := .call (.sendSMS (js "+99361234567") (js "Hi"))

/-- The modem prompts for the body. -/
def prompting : List Event :=
  boot ++ [send, .microtask 0, .microtask 0] ++ answered (js "OK") ++ answered (js "OK") ++
    answered (js "OK") ++ [.data (js "\r\n> "), .scan, .microtask 0]

theorem prompting_isSome : (Wire.run (Wire.start []) (prompting.map unsolicited)).isSome = true := by decide +kernel

theorem bodies_prompted_iff_prompting :
    let w := (Wire.run (Wire.start []) (prompting.map unsolicited)).get prompting_isSome
    BodiesPrompted w ∧ ∃ x ∈ w.exchanges, x.request.write = js "Hi" ++ ctrlZ := by
  refine ⟨?_, by decide +kernel⟩
  exact (bodies_prompted_iff [] (prompting.map unsolicited) (Option.some_get prompting_isSome).symm).mpr
    (by decide +kernel)

/-- The modem answers OK to a ping whose timer has fired, once the driver has stopped waiting for
it, and to each further command; every answer is taken for that of the next command. -/
def oneLate : List Event :=
  boot ++ [.call .ping, .microtask 0, .microtask 0, .tick 3000, .commandTimeout, .microtask 0, send,
    .microtask 0, .microtask 0, .tick 2000, .quietOver] ++ answered (js "OK") ++
    answered (js "OK") ++ answered (js "OK") ++ answered (js "OK")

theorem oneLate_isSome : (Wire.run (Wire.start []) (oneLate.map unsolicited)).isSome = true := by decide +kernel

/-- The body is written, and nothing like a prompt has come in. -/
theorem body_without_prompt :
    let w := (Wire.run (Wire.start []) (oneLate.map unsolicited)).get oneLate_isSome
    (∃ x ∈ w.exchanges, x.request.write = js "Hi" ++ ctrlZ) ∧
      (∀ x ∈ w.exchanges, 0x3e ∉ chunk x.heard) ∧ ¬ BodiesPrompted w := by
  refine ⟨by decide +kernel, by decide +kernel, ?_⟩
  intro hbodies
  have hok : ∃ x ∈ ((Wire.run (Wire.start []) (oneLate.map unsolicited)).get oneLate_isSome).exchanges,
      x.request.expectPrompt = true ∧ x.settlements = [.ok [js "OK"]] := by
    decide +kernel
  obtain ⟨x, hx, hexpects, hsettlements⟩ := hok
  obtain ⟨-, hterminal⟩ := hbodies.settled x hx hexpects [js "OK"] (by simp [hsettlements])
  exact absurd (hterminal (js "OK") (by simp)) (by decide)

end SmsGateway.Serial.Prompt
