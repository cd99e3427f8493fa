import SmsGateway.Zte.Inbox
import SmsGateway.Zte.Send
import SmsGateway.Zte.Ucs2
import SmsGateway.Lib.Ledger

/-!
# USSD replies of a ZTE stick

The stick keeps the reply of a session until that of the next one lands, and a session
may outlive the call that opened it. What `runUssd` resolves with is followed back to
the session the reply belongs to.
-/

namespace SmsGateway.Zte.Ussd

open SmsGateway Json
open Lib Lib.Async Lib.Serialized
open SmsGateway.Zte.Inbox (WriteOk)

/-! ## The stick

`ussd_write_flag`: 15 while a session is in progress, 16 once its reply is ready, and 13
when idle. Sessions are numbered in the order they were opened in. -/

inductive Session where
  | idle
  | busy (n : Nat)
  | ready (n : Nat)
  deriving DecidableEq, Repr

structure UssdStick where
  session : Session
  /-- `ussd_data`, which is not cleared between sessions -/
  data : JsValue
  /-- the codes of all sessions so far -/
  opened : List JsString
  /-- the replies of the network, each with its session -/
  replies : List (Nat × JsValue)

def UssdStick.openSession (b : UssdStick) (code : JsString) : UssdStick :=
  { b with session := .busy b.opened.length, opened := b.opened ++ [code] }

def UssdStick.reply (b : UssdStick) (n : Nat) (data : JsValue) : UssdStick :=
  { b with session := .ready n, data, replies := b.replies ++ [(n, data)] }

/-- What a request has to do with USSD. -/
inductive Purpose where
  | cancel
  | send (code : JsString)
  | flag
  | data
  | other

def purpose (r : HttpRequest) : Purpose :=
  match r with
  | .post params =>
      if goformId params = js "USSD_PROCESS" then
        match params.lookup (js "USSD_operator"), params.lookup (js "USSD_send_number") with
        | some operator, some code => if operator = js "ussd_send" then .send code else .other
        | some operator, none => if operator = js "ussd_cancel" then .cancel else .other
        | none, _ => .other
      else .other
  | r => if r = flagRequest then .flag else if r = dataRequest then .data else .other

/-- The answer shows the flag 16. -/
def ShowsReady (a : Except NetError HttpResponse) : Prop :=
  ∃ flag, readResponse a >>= flagOf = .ok flag ∧ toStr flag = js "16"

/-- The answer shows some `ussd_data`. -/
def ShowsData (a : Except NetError HttpResponse) (data : JsValue) : Prop :=
  (readResponse a >>= fun info => prop info (js "ussd_data")) = .ok data ∧ truthy data = true

/-- How the stick may answer a request, and what it leaves behind. A request whose answer
is lost may have been carried out; a request to open a session that is answered with
success has opened one. -/
inductive Answers (b : UssdStick) (r : HttpRequest) (a : Except NetError HttpResponse) :
    UssdStick → Prop where
  | cancelled (hr : purpose r = .cancel) : Answers b r a { b with session := .idle }
  | notCancelled (hr : purpose r = .cancel) : Answers b r a b
  | opened (code : JsString) (hr : purpose r = .send code) : Answers b r a (b.openSession code)
  | notOpened (code : JsString) (hr : purpose r = .send code) (ha : ¬ WriteOk a) : Answers b r a b
  | flag (hr : purpose r = .flag) (hflag : ShowsReady a → ∃ n, b.session = .ready n) :
      Answers b r a b
  | data (hr : purpose r = .data) (hdata : ∀ data, ShowsData a data → data = b.data) :
      Answers b r a b
  | other (hr : purpose r = .other) : Answers b r a b

/-- The network answers a session, or a session ends. -/
inductive Changes (b : UssdStick) : UssdStick → Prop where
  | reply (n : Nat) (data : JsValue) (h : b.session = .busy n) : Changes b (b.reply n data)
  | ended : Changes b { b with session := .idle }

def Acts (b : UssdStick) : (op : Op) → Ans op → UssdStick → Prop
  | .http r, a, b' => Answers b r a b'
  | _, _, b' => b' = b

def world : World UssdStick Op Ans :=
  { acts := Acts
    spont := Changes
    enter := id }

/-! ## The calls of the driver -/

inductive Call where
  | runUssd (code : JsString)
  | sendSMS (recipient message : JsString)
  | getMessages (persist : Bool)

inductive Outcome where
  | text (v : JsValue)
  | reference (r : JsString)
  | messages (l : List Message)

/-- What the driver runs behind its lock. -/
def run (stick : Stick) : Call → Prog Outcome
  | .runUssd code => do
      let v ← runUssd stick code
      return .text v
  | .sendSMS recipient message => do
      let r ← sendSMS stick recipient message
      return .reference r
  | .getMessages persist => do
      let l ← getMessages stick persist
      return .messages l

abbrev StickReachable (stick : Stick) (b : UssdStick) :=
  Ledger.Reachable world (run stick) b

/-! ## The order of sessions -/

/-- Sessions and replies are only added. -/
structure Extends (b b' : UssdStick) : Prop where
  opened : b.opened <+: b'.opened
  replies : b.replies <+: b'.replies

theorem Extends.refl (b : UssdStick) : Extends b b :=
  ⟨List.prefix_refl _, List.prefix_refl _⟩

theorem Extends.trans {b₁ b₂ b₃ : UssdStick} (h₁ : Extends b₁ b₂) (h₂ : Extends b₂ b₃) :
    Extends b₁ b₃ :=
  ⟨h₁.opened.trans h₂.opened, h₁.replies.trans h₂.replies⟩

theorem Answers.extends {b b' : UssdStick} {r : HttpRequest} {a : Except NetError HttpResponse}
    (h : Answers b r a b') : Extends b b' := by
  cases h with
  | opened code hr => exact ⟨List.prefix_append _ _, List.prefix_refl _⟩
  | cancelled hr => exact ⟨List.prefix_refl _, List.prefix_refl _⟩
  | _ => exact .refl b

theorem Changes.extends {b b' : UssdStick} (h : Changes b b') : Extends b b' := by
  cases h with
  | reply n data hn => exact ⟨List.prefix_refl _, List.prefix_append _ _⟩
  | ended => exact ⟨List.prefix_refl _, List.prefix_refl _⟩

section

variable {b b' : UssdStick} {r : HttpRequest} {a : Except NetError HttpResponse}

theorem Answers.of_flag (h : Answers b r a b') (hr : purpose r = .flag) :
    b' = b ∧ (ShowsReady a → ∃ n, b.session = .ready n) := by
  cases h with
  | flag _ hflag => exact ⟨rfl, hflag⟩
  | cancelled h | notCancelled h | opened _ h | notOpened _ h | data h | other h => cases hr.symm.trans h

theorem Answers.of_data (h : Answers b r a b') (hr : purpose r = .data) :
    b' = b ∧ ∀ data, ShowsData a data → data = b.data := by
  cases h with
  | data _ hdata => exact ⟨rfl, hdata⟩
  | cancelled h | notCancelled h | opened _ h | notOpened _ h | flag h | other h => cases hr.symm.trans h

theorem Answers.of_send {code : JsString} (h : Answers b r a b') (hr : purpose r = .send code)
    (ha : WriteOk a) : b' = b.openSession code := by
  cases h with
  | opened code' h =>
      obtain rfl := Purpose.send.inj (hr.symm.trans h)
      rfl
  | notOpened _ _ hno => exact absurd ha hno
  | cancelled h | notCancelled h | flag h | data h | other h => cases hr.symm.trans h

theorem Answers.of_other (h : Answers b r a b') (hr : purpose r = .other) : b' = b := by
  cases h with
  | other => rfl
  | cancelled h | notCancelled h | opened _ h | notOpened _ h | flag h | data h => cases hr.symm.trans h

end

theorem grows_extends : Ledger.Grows world Extends :=
  { refl := .refl
    trans := fun _ _ _ h₁ h₂ => h₁.trans h₂
    acts := by
      intro b op a b' h
      cases op with
      | http r => exact Answers.extends h
      | _ =>
          obtain rfl := h
          exact .refl _
    spont := fun _ _ h => h.extends
    enter := .refl }

/-! ## The session of a call -/

section

variable {before b b' : UssdStick} {code : JsString}

/-- The session the stick shows was opened with this code after `before`, and its reply,
if it is there, is the data. -/
structure Own (before : UssdStick) (code : JsString) (b : UssdStick) : Prop where
  grown : Extends before b
  opened : ∀ n, b.session = .busy n ∨ b.session = .ready n →
    before.opened.length ≤ n ∧ b.opened[n]? = some code
  replied : ∀ n, b.session = .ready n → (n, b.data) ∈ b.replies

/-- The text is the reply to a session that the call opened itself, with its own code. -/
def RepliesTo (before after : UssdStick) (code : JsString) (v : JsValue) (n : Nat) : Prop :=
  before.opened.length ≤ n ∧ after.opened[n]? = some code ∧
    ∃ data, (n, data) ∈ after.replies ∧ v = ussdText data

theorem own_openSession (h : Extends before b) : Own before code (b.openSession code) := by
  refine ⟨h.trans ⟨List.prefix_append _ _, List.prefix_refl _⟩, ?_, ?_⟩
  · intro n hn
    have hnum : b.opened.length = n := by simpa [UssdStick.openSession] using hn
    subst hnum
    exact ⟨h.opened.length_le, by simp [UssdStick.openSession]⟩
  · intro n hn
    simp [UssdStick.openSession] at hn

theorem Own.changes (h : Own before code b) (hs : Changes b b') : Own before code b' := by
  cases hs with
  | reply n data hn =>
      refine ⟨h.grown.trans ⟨List.prefix_refl _, List.prefix_append _ _⟩, ?_, ?_⟩
      · intro m hm
        have hnm : n = m := by simpa [UssdStick.reply] using hm
        subst hnm
        exact h.opened n (Or.inl hn)
      · intro m hm
        have hnm : n = m := by simpa [UssdStick.reply] using hm
        subst hnm
        simp [UssdStick.reply]
  | ended =>
      exact ⟨h.grown.trans ⟨List.prefix_refl _, List.prefix_refl _⟩, fun n hn => by simp at hn,
        fun n hn => by simp at hn⟩

theorem RepliesTo.extends {v : JsValue} {n : Nat} (h : RepliesTo before b code v n)
    (hb : Extends b b') : RepliesTo before b' code v n := by
  obtain ⟨hlen, hopened, data, hdata, rfl⟩ := h
  obtain ⟨hlt, hget⟩ := List.getElem?_eq_some_iff.mp hopened
  have hsame := List.prefix_iff_getElem?.mp hb.opened n hlt
  exact ⟨hlen, hsame.trans (congrArg some hget), data, hb.replies.subset hdata, rfl⟩

/-- What the stick shows as data is such a reply, and stays so. -/
structure Fresh (before : UssdStick) (code : JsString) (b : UssdStick) : Prop where
  own : Own before code b
  notBusy : ∀ n, b.session ≠ .busy n
  data : ∃ n, before.opened.length ≤ n ∧ b.opened[n]? = some code ∧ (n, b.data) ∈ b.replies

theorem Own.fresh (h : Own before code b) {n : Nat} (hn : b.session = .ready n) :
    Fresh before code b := by
  obtain ⟨hlen, hopened⟩ := h.opened n (Or.inr hn)
  refine ⟨h, ?_, n, hlen, hopened, h.replied n hn⟩
  intro m hm
  rw [hn] at hm
  cases hm

theorem Fresh.changes (h : Fresh before code b) (hs : Changes b b') : Fresh before code b' := by
  have hown := h.own.changes hs
  cases hs with
  | reply n data hn => exact absurd hn (h.notBusy n)
  | ended => exact ⟨hown, nofun, h.data⟩

end

/-! ## Steps of a call -/

section

variable {α : Type} {stick : Stick} {b : UssdStick} {A B : UssdStick → Prop}
  {Q : Except JsError α → UssdStick → Prop}

/-- What the rest of a call ends in, whatever the network does. -/
abbrev Ends (Q : Except JsError α → UssdStick → Prop) : Prog α → UssdStick → Prop :=
  Safe world (fun _ => True) Q

abbrev Stable (A : UssdStick → Prop) : Prop := ∀ b b', A b → Changes b b' → A b'

theorem ends_local (hA : Stable A) (hb : A b) {op : Op} {k : Ans op → Prog α}
    (hop : ∀ b a b', world.acts b op a b' → b' = b) (hk : ∀ b a, A b → Ends Q (k a) b) :
    Ends Q (.call op k) b := by
  refine safe_call A hb (fun _ _ => trivial) hA ?_
  intro b a b' hb ha
  rw [hop b a b' ha]
  exact hk b a hb

theorem ends_request (hA : Stable A) (hb : A b) {r : HttpRequest} {f : JsValue → Prog α}
    (hf : ∀ b a b', A b → Answers b r a b' →
      Then world (fun _ => True) Q f (readResponse a) b') :
    Ends Q (request r >>= f) b := by
  refine safe_call A hb (fun _ _ => trivial) hA ?_
  intro b a b' hb ha
  exact safe_ofExcept_bind (hf b a b' hb ha)

theorem purpose_login (password : JsString) :
    purpose (.post (loginParams password)) = .other := rfl

theorem ends_login (hA : Stable A) (hfail : ∀ e b, A b → Q (.error e) b) (hb : A b)
    {password : JsString} {f : Unit → Prog α} (hf : ∀ b, A b → Ends Q (f ()) b) :
    Ends Q (login stick password >>= f) b := by
  unfold login postCmd
  rw [bind_assoc]
  refine ends_request hA hb ?_
  intro b a b' hb ha
  rw [ha.of_other (purpose_login password)]
  cases readResponse a with
  | error e => exact hfail e b hb
  | ok json =>
      show Ends Q ((Prog.ofExcept (loginResult json) >>= _) >>= f) b
      rw [bind_assoc]
      refine safe_ofExcept_bind ?_
      cases loginResult json with
      | error e => exact hfail e b hb
      | ok result =>
          show Ends Q ((if result ≠ js "0" ∧ result ≠ js "4" then
            Prog.fail (loginFailed stick json) else perform (.setLoggedIn true)) >>= f) b
          split
          · exact hfail _ b hb
          · exact ends_local hA hb (fun _ _ _ h => h) fun b _ hb => hf b hb

/-- A write that leaves `A`, and `B` where it is answered with success. -/
theorem ends_write (hA : Stable A) (hfail : ∀ e b, A b → Q (.error e) b) (hb : A b)
    {params : List (JsString × JsString)} {f : JsValue → Prog α}
    (hwrite : ∀ b a b', A b → Answers b (.post params) a b' → A b' ∧ (WriteOk a → B b'))
    (hyes : ∀ json b, isSuccess json = .ok true → B b → Ends Q (f json) b)
    (hno : ∀ json b, isSuccess json ≠ .ok true → A b → Ends Q (f json) b) :
    Ends Q (postCmd params >>= f) b := by
  refine ends_request hA hb ?_
  intro b a b' hb ha
  obtain ⟨hkept, hok⟩ := hwrite b a b' hb ha
  unfold WriteOk at hok
  cases hread : readResponse a with
  | error e => exact hfail e b' hkept
  | ok json =>
      rw [hread, show (Except.ok json >>= isSuccess) = isSuccess json from rfl] at hok
      by_cases hs : isSuccess json = .ok true
      · exact hyes json b' hs (hok hs)
      · exact hno json b' hs hkept

theorem ends_lastWrite (hA : Stable A) (hfail : ∀ e b, A b → Q (.error e) b) (hb : A b)
    {params : List (JsString × JsString)} {f : JsValue → Prog α}
    (hwrite : ∀ b a b', A b → Answers b (.post params) a b' → A b' ∧ (WriteOk a → B b'))
    (hf : ∀ json b, B b → Ends Q (f json) b) :
    Ends Q (postCmd params >>= fun json => acceptOrReject params json >>= f) b := by
  refine ends_write hA hfail hb hwrite ?_ ?_
  · intro json b hs hb
    rw [Send.acceptOrReject_success hs]
    exact hf json b hb
  · intro json b hs hb
    unfold acceptOrReject
    rw [bind_assoc]
    refine safe_ofExcept_bind ?_
    cases hsuccess : isSuccess json with
    | error e => exact hfail e b hb
    | ok success =>
        cases success with
        | true => exact absurd hsuccess hs
        | false => exact hfail _ b hb

/-- `setCmd` resolves only after a write that was answered with success. -/
theorem ends_setCmd (hA : Stable A) (hfail : ∀ e b, A b → Q (.error e) b)
    {params : List (JsString × JsString)} {f : JsValue → Prog α}
    (hwrite : ∀ b a b', A b → Answers b (.post params) a b' → A b' ∧ (WriteOk a → B b'))
    (hf : ∀ json b, B b → Ends Q (f json) b) (hb : A b) :
    Ends Q (setCmd stick params >>= f) b := by
  unfold setCmd
  cases stick.password with
  | none =>
      rw [bind_assoc]
      exact ends_lastWrite hA hfail hb hwrite hf
  | some password =>
      have hauthed (b : UssdStick) (hb : A b) :
          Ends Q (writeAuthed stick password params >>= f) b := by
        unfold writeAuthed
        rw [bind_assoc]
        refine ends_write hA hfail hb hwrite ?_ ?_
        · intro json b hs hb
          rw [hs]
          exact hf json b hb
        · intro json b hs hb
          rw [bind_assoc]
          refine safe_ofExcept_bind ?_
          cases hsuccess : isSuccess json with
          | error e => exact hfail e b hb
          | ok success =>
              cases success with
              | true => exact absurd hsuccess hs
              | false =>
                  refine ends_local hA hb (fun _ _ _ h => h) ?_
                  intro b _ hb
                  show Ends Q ((login stick password >>= fun _ =>
                    postCmd params >>= acceptOrReject params) >>= f) b
                  rw [bind_assoc]
                  refine ends_login hA hfail hb ?_
                  intro b hb
                  rw [bind_assoc]
                  exact ends_lastWrite hA hfail hb hwrite hf
      refine ends_local hA hb (fun _ _ _ h => h) ?_
      intro b loggedIn hb
      cases loggedIn with
      | true => exact hauthed b hb
      | false =>
          show Ends Q ((login stick password >>= fun _ => writeAuthed stick password params) >>= f) b
          rw [bind_assoc]
          exact ends_login hA hfail hb hauthed

end

/-! ## A USSD call -/

section

variable {stick : Stick} {before b : UssdStick} {code : JsString}

theorem stable_extends : Stable (Extends before) := fun _ _ h hs => h.trans hs.extends

theorem stable_own : Stable (Own before code) := fun _ _ h hs => h.changes hs

theorem stable_fresh : Stable (Fresh before code) := fun _ _ h hs => h.changes hs

/-- How `runUssd` may end. -/
def Replies (before : UssdStick) (code : JsString) (r : Except JsError JsValue) (b : UssdStick) :
    Prop :=
  ∀ v, r = .ok v → v = .null ∨ ∃ n, RepliesTo before b code v n

theorem replies_error (e : JsError) : Replies before code (.error e) b := nofun

theorem purpose_send (code : JsString) : purpose (.post (ussdParams code)) = .send code := rfl

theorem flagOf_of_showsReady {a : Except NetError HttpResponse} {status flag : JsValue}
    (hread : readResponse a = .ok status) (hflag : flagOf status = .ok flag)
    (h16 : toStr flag = js "16") : ShowsReady a := by
  refine ⟨flag, ?_, h16⟩
  rw [hread]
  exact hflag

/-- Once the session of the call is open, what the loop reads is its own reply. -/
theorem ends_pollUssd (deadline t : Nat) (hb : Own before code b) :
    Ends (Replies before code) (pollUssd deadline t) b := by
  induction t using pollUssd.induct deadline generalizing b with
  | case1 t ht ih =>
      rw [pollUssd, if_pos ht]
      refine ends_local stable_own hb (fun _ _ _ h => h) ?_
      intro b _ hb
      refine ends_request stable_own hb ?_
      intro b a b' hb ha
      -- the flag says where the session of the call is
      obtain ⟨rfl, hready⟩ := ha.of_flag rfl
      cases hread : readResponse a with
      | error e => exact replies_error e
      | ok status =>
          refine safe_ofExcept_bind ?_
          cases hflag : flagOf status with
          | error e => exact replies_error e
          | ok flag =>
              dsimp only [Then]
              split
              · exact ends_local stable_own hb (fun _ _ _ h => h) fun b extra hb =>
                  ih extra hb
              · obtain ⟨n, hn⟩ := hready
                  (flagOf_of_showsReady hread hflag (of_not_not ‹_›))
                refine ends_request stable_fresh (hb.fresh hn) ?_
                intro b a b' hb ha
                obtain ⟨rfl, hdata⟩ := ha.of_data rfl
                cases hinfo : readResponse a with
                | error e => exact replies_error e
                | ok info =>
                    refine safe_ofExcept_bind ?_
                    cases hprop : prop info (js "ussd_data") with
                    | error e => exact replies_error e
                    | ok data =>
                        dsimp only [Then]
                        split
                        · obtain ⟨m, hlen, hopened, hmem⟩ := hb.data
                          obtain rfl := hdata data ⟨by rw [hinfo]; exact hprop, ‹_›⟩
                          intro v hv
                          obtain rfl := Except.ok.inj hv
                          exact Or.inr ⟨m, hlen, hopened, _, hmem, rfl⟩
                        · exact ends_local stable_own hb.own (fun _ _ _ h => h) fun b extra hb =>
                            ih extra hb
  | case2 t ht =>
      rw [pollUssd, if_neg ht]
      intro v hv
      obtain rfl := Except.ok.inj hv
      exact Or.inl rfl

theorem ends_runUssd (stick : Stick) (before : UssdStick) (code : JsString) :
    Ends (Replies before code) (runUssd stick code) before := by
  have hsend (b : UssdStick) (hb : Extends before b) : Ends (Replies before code)
      (setCmd stick (ussdParams code) >>= fun _ => pollUssd ussdPollTimeoutMs 0) b := by
    refine ends_setCmd (B := Own before code) stable_extends (fun e _ _ => replies_error e) ?_
      (fun _ b hb => ends_pollUssd _ _ hb) hb
    intro b a b' hb ha
    refine ⟨hb.trans ha.extends, fun hok => ?_⟩
    rw [ha.of_send (purpose_send code) hok]
    exact own_openSession hb
  show Ends (Replies before code)
    (cancelSession stick >>= fun _ => setCmd stick (ussdParams code) >>= fun _ =>
      pollUssd ussdPollTimeoutMs 0) before
  refine safe_bind ?_
  -- whether or not there was a session to cancel, the call goes on
  refine safe_catchError (ends_setCmd (A := Extends before) (B := Extends before) stable_extends
    (fun e b hb => hsend b hb) ?_ ?_ (.refl before))
  · intro b a b' hb ha
    have hb' := hb.trans ha.extends
    exact ⟨hb', fun _ => hb'⟩
  · intro json b hb
    exact ends_local stable_extends hb (fun _ _ _ h => h) fun b _ hb => hsend b hb

end

/-! ## All calls -/

/-- How a call may end. -/
def Answered (c : Call) (before : UssdStick) (r : Except JsError Outcome) (after : UssdStick) :
    Prop :=
  ∀ code v, c = .runUssd code → r = .ok (.text v) →
    v = .null ∨ ∃ n, RepliesTo before after code v n

theorem verified (stick : Stick) : Ledger.Verified world (run stick) Answered := by
  refine ⟨?_, ?_⟩
  · intro c before r b b' h hs code v hc hr
    rcases h code v hc hr with hnull | ⟨n, hn⟩
    · exact Or.inl hnull
    · exact Or.inr ⟨n, hn.extends hs.extends⟩
  · intro c before
    cases c with
    | runUssd code =>
        refine safe_bind (safe_mono ?_ (ends_runUssd stick before code))
        rintro (e | v) b h code' v' hc hr
        · cases hr
        · obtain rfl := Call.runUssd.inj hc
          obtain rfl := Outcome.text.inj (Except.ok.inj hr)
          exact h v rfl
    | sendSMS recipient message =>
        exact safe_mono (fun _ _ _ _ _ hc => nomatch hc) (Ledger.safe_true _ _)
    | getMessages persist =>
        exact safe_mono (fun _ _ _ _ _ hc => nomatch hc) (Ledger.safe_true _ _)

/-- The text a call resolved with, if any, and the session it is the reply of. -/
def Resolved (e : Ledger.Entry Call UssdStick JsError Outcome) (n : Nat) : Prop :=
  ∃ code v, e.call = .runUssd code ∧ e.result = .ok (.text v) ∧
    RepliesTo e.before e.after code v n

theorem Resolved.bounds {e : Ledger.Entry Call UssdStick JsError Outcome} {n : Nat}
    (h : Resolved e n) : e.before.opened.length ≤ n ∧ n < e.after.opened.length := by
  obtain ⟨code, v, -, -, hlen, hopened, -⟩ := h
  exact ⟨hlen, (List.getElem?_eq_some_iff.mp hopened).1⟩

/-- Whatever calls the driver gets and however the stick and the network answer, a USSD
call resolves with nothing or with the reply to a session it opened itself with its own
code, and later calls get the replies of later sessions. -/
theorem ussd_fresh {stick : Stick} {b : UssdStick}
    {s : Ledger.Sys Call UssdStick Op Ans JsError Outcome} (h : StickReachable stick b s) :
    (∀ e ∈ s.ended, ∀ code v, e.call = .runUssd code → e.result = .ok (.text v) →
      v = .null ∨ ∃ n, RepliesTo e.before e.after code v n) ∧
    s.ended.Pairwise fun e f => ∀ m n, Resolved e m → Resolved f n → m < n := by
  refine ⟨fun e he => Ledger.ended_reachable (verified stick) h e he, ?_⟩
  refine (Ledger.sorted_reachable grows_extends h).imp ?_
  intro e f hef m n hm hn
  have hlen := hef.opened.length_le
  have hbefore := hm.bounds.2
  have hafter := hn.bounds.1
  omega

/-! ## A run -/

section

variable {b b' : UssdStick} {r : HttpRequest} {a : Except NetError HttpResponse} {json : JsValue}

abbrev Completes {α : Type} : UssdStick → Prog α → Except JsError α → UssdStick → Prop :=
  Serialized.Completes world

theorem completes_request {α : Type} {f : JsValue → Prog α} {x : Except JsError α}
    {b'' : UssdStick} (ha : Answers b r a b') (hread : readResponse a = .ok json)
    (h : Completes b' (f json) x b'') : Completes b (request r >>= f) x b'' := by
  refine .act ha ?_
  show Completes b' (Prog.ofExcept (readResponse a) >>= f) x b''
  rw [hread]
  exact h

/-- A write to a stick without a login that is answered with success. -/
theorem completes_setCmd {stick : Stick} {params : List (JsString × JsString)}
    (hstick : stick.password = none) (ha : Answers b (.post params) a b')
    (hread : readResponse a = .ok json) (hs : isSuccess json = .ok true) :
    Completes b (setCmd stick params) (.ok json) b' := by
  unfold setCmd
  rw [hstick]
  refine completes_request ha hread ?_
  rw [Send.acceptOrReject_success hs]
  exact .done b' (.ok json)

end

def success : Except NetError HttpResponse := .ok ⟨200, js "\x7b\"result\":\"success\"\x7d"⟩

def flag16 : Except NetError HttpResponse := .ok ⟨200, js "\x7b\"ussd_write_flag\":\"16\"\x7d"⟩

def hi : Except NetError HttpResponse := .ok ⟨200, js "\x7b\"ussd_data\":\"00480069\"\x7d"⟩

/-- A stick that still shows the reply of an earlier session. -/
def leftover : UssdStick :=
  { session := .ready 0, data := .str (js "0042"), opened := [js "*222#"],
    replies := [(0, .str (js "0042"))] }

theorem eq_str_of_isStr {v : JsValue} {t : JsString} (h : isStr v t = true) : v = .str t := by
  cases v with
  | str u => rw [show u = t by simpa [isStr] using h]
  | _ => cases h

theorem flagOf_of_prop {v flag : JsValue} (h : prop v (js "ussd_write_flag") = .ok flag) :
    flagOf v = .ok flag := by
  cases v with
  | null => cases h
  | _ => exact h

/-- An answer whose JSON has this text under this key. -/
theorem read_str (a : Except NetError HttpResponse) (key t : JsString)
    (h : (readResponse a >>= fun v => (isStr · t) <$> prop v key) = .ok true) :
    ∃ v, readResponse a = .ok v ∧ prop v key = .ok (.str t) := by
  obtain ⟨v, hread, h⟩ := bind_eq_ok h
  cases hv : prop v key with
  | error e =>
      rw [hv] at h
      cases h
  | ok u =>
      rw [hv] at h
      rw [eq_str_of_isStr (Except.ok.inj h)] at hv
      exact ⟨v, hread, hv⟩

/-- The session of the call, with its reply on the stick. -/
def answered : UssdStick :=
  (({ leftover with session := .idle } : UssdStick).openSession (js "*0800#")).reply 1
    (.str (js "00480069"))

theorem completes_hi : Completes leftover (runUssd ⟨js "zte", none⟩ (js "*0800#"))
    (.ok (.str (js "Hi"))) answered := by
  have hsuccess : readResponse success >>= isSuccess = .ok true := by decide +kernel
  obtain ⟨json, hread, hs⟩ := bind_eq_ok hsuccess
  obtain ⟨status, hstatus, hflag⟩ := read_str flag16 (js "ussd_write_flag") (js "16")
    (by decide +kernel)
  obtain ⟨info, hinfo, hdata⟩ := read_str hi (js "ussd_data") (js "00480069")
    (by decide +kernel)
  have htext : ussdText (.str (js "00480069")) = .str (js "Hi") := by
    have hdecode : ucs2Decode (.str (js "00480069")) = js "Hi" := by decide +kernel
    rw [ussdText, hdecode]
    rfl
  show Completes leftover (cancelSession ⟨js "zte", none⟩ >>= fun _ =>
    setCmd ⟨js "zte", none⟩ (ussdParams (js "*0800#")) >>= fun _ =>
      pollUssd ussdPollTimeoutMs 0) _ _
  refine .bind (.catchError (.bind (completes_setCmd rfl (.cancelled rfl) hread hs)
    (.act (a := ()) rfl (.done _ (.ok ()))))) ?_
  refine .bind (completes_setCmd rfl (.opened (js "*0800#") rfl) hread hs) ?_
  rw [pollUssd, if_pos (by decide)]
  refine .act (a := ()) rfl (.spont (.reply 1 (.str (js "00480069")) rfl) ?_)
  refine completes_request (.flag rfl fun _ => ⟨1, rfl⟩) hstatus ?_
  rw [flagOf_of_prop hflag]
  show Completes answered (if toStr (.str (js "16")) ≠ js "16" then _ else _) _ _
  rw [if_neg (by simp [toStr])]
  have hshown (data : JsValue) (h : ShowsData hi data) : data = answered.data := by
    obtain ⟨h, -⟩ := h
    rw [hinfo] at h
    exact Except.ok.inj (h.symm.trans hdata)
  refine completes_request (.data rfl hshown) hinfo ?_
  rw [hdata]
  refine .bind (.done answered (.ok (JsValue.str (js "00480069")))) ?_
  rw [if_pos (by decide), htext]
  exact .done answered (.ok (JsValue.str (js "Hi")))

/-- After a run over a stick that shows an older reply, the text is that of session 1. -/
theorem ussd_fresh_hi :
    ∃ n, RepliesTo leftover answered (js "*0800#") (.str (js "Hi")) n := by
  have hstart : StickReachable ⟨js "zte", none⟩ leftover
      ⟨leftover, [], some ⟨.runUssd (js "*0800#"), leftover, run ⟨js "zte", none⟩
        (.runUssd (js "*0800#"))⟩, []⟩ :=
    .step (.step .start (.submit (.runUssd (js "*0800#")))) (.start rfl rfl)
  have hrun : Completes leftover (run ⟨js "zte", none⟩ (.runUssd (js "*0800#")))
      (.ok (.text (.str (js "Hi")))) answered :=
    .bind completes_hi (.done answered (.ok (Outcome.text (.str (js "Hi")))))
  have hend := hstart.completes rfl hrun
  rcases (ussd_fresh hend).1 _ (List.mem_singleton_self _) (js "*0800#") (.str (js "Hi")) rfl rfl
    with hnull | hreply
  · cases hnull
  · exact hreply

end SmsGateway.Zte.Ussd
