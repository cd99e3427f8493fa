import SmsGateway.Zte.Driver
import SmsGateway.Inbox
import SmsGateway.Lib.Lines
import SmsGateway.Lib.Serialized

/-!
# The inbox of a ZTE stick

`fetchAndStore` on a stick that numbers its SMS and lists one page of them. A read
without a session finds nothing, and a write can be rejected.
-/

namespace SmsGateway.Zte.Inbox

open SmsGateway InboxStore Json SmsGateway.Inbox
open Lib Lib.Async Lib.Serialized

def incoming (modemId : JsString) (m : Message) : Incoming :=
  { status := m.status, sender := m.sender, date := m.date, text := .str m.text, modemId }

/-- `fetchAndStore(modem)`. -/
def fetchAndStore (stick : Stick) : Prog (List Incoming) := do
  let messages ← getMessages stick true
  return messages.map (incoming stick.id)

/-! ## The stick -/

def semicolon : CodeUnit := 0x3b

/-- A received SMS in the stick's memory. -/
structure StickSms where
  id : JsValue
  number : JsValue
  date : JsString
  content : JsValue
  id_ok : semicolon ∉ toStr id

/-- A listing shows an SMS as an object, tagged as read or unread. -/
structure Shows (entry : JsValue) (c : StickSms) : Prop where
  tag : ∃ tag, prop entry (js "tag") = .ok tag ∧ (toStr tag = js "0" ∨ toStr tag = js "1")
  id : prop entry (js "id") = .ok c.id
  number : prop entry (js "number") = .ok c.number
  date : prop entry (js "date") = .ok (.str c.date)
  content : prop entry (js "content") = .ok c.content

def slashes (date : JsString) : JsString := date.map fun c => if c = 0x2c then 0x2f else c

/-- The text saved for a content: raw where it cannot be decoded. -/
def textOf (content : JsValue) : JsString :=
  if ucs2Decode content = [] then toStr (orElse content (.str [])) else ucs2Decode content

/-- Ids are never used again. -/
def format (modemId : JsString) : Format StickSms JsString :=
  { key := fun c => toStr c.id
    row := fun receivedAt c =>
      { fromNumber := orElse c.number .null, modemDate := slashes c.date
        text := .str (textOf c.content), receivedAt, modemId }
    freshKeys := true }

/-- The page that `listRequest` asks for. -/
def pageSize : Nat := 500

def named (msgId : JsString) (x : Sms StickSms) : Bool :=
  toStr x.content.id ∈ Lines.pieces semicolon msgId

def LoginOk (a : Except NetError HttpResponse) : Prop :=
  match readResponse a >>= loginResult with
  | .ok result => result = js "0" ∨ result = js "4"
  | .error _ => False

def WriteOk (a : Except NetError HttpResponse) : Prop := readResponse a >>= isSuccess = .ok true

/-- How the stick may answer a request, and what it leaves behind. A delete that is not
answered with success may have been carried out in part. -/
inductive Answers (b : Box StickSms) (r : HttpRequest) (a : Except NetError HttpResponse) :
    Box StickSms → Prop where
  /-- a page of the stick's memory, with other entries than those of the inbox; only a full page
  leaves something out -/
  | listed (hr : r = listRequest) (data : JsValue) (hdata : readResponse a = .ok data)
      (raw entries : List JsValue) (hraw : rawMessages data = .ok raw)
      (hentries : raw.filterM inInbox = .ok entries) (l : List (Sms StickSms))
      (hl : l.Subperm b.stored) (clipped : Bool) (hfull : clipped = true → raw.length = pageSize)
      (hall : clipped = false → ∀ x ∈ b.stored, x ∈ l)
      (hshown : List.Forall₂ Shows entries (l.map (·.content))) : Answers b r a (b.list l clipped)
  /-- nothing, as to an expired session -/
  | listedNothing (hr : r = listRequest) (data : JsValue) (hdata : readResponse a = .ok data)
      (hnone : readInbox data = .ok ([], [])) : Answers b r a b.fail
  | listFailed (hr : r = listRequest)
      (herr : ∀ data, readResponse a = .ok data → ∃ e, readInbox data = .error e) :
      Answers b r a b.fail
  | login (params : List (JsString × JsString)) (hr : r = .post params)
      (hform : goformId params = js "LOGIN") (ha : LoginOk a) : Answers b r a b
  | loginFailed (params : List (JsString × JsString)) (hr : r = .post params)
      (hform : goformId params = js "LOGIN") (ha : ¬ LoginOk a) : Answers b r a b.fail
  | deleted (params : List (JsString × JsString)) (hr : r = .post params)
      (hform : goformId params = js "DELETE_SMS") (msgId : JsString)
      (hid : params.lookup (js "msg_id") = some msgId) (ha : WriteOk a) :
      Answers b r a (b.delete (named msgId))
  | deleteFailed (params : List (JsString × JsString)) (hr : r = .post params)
      (hform : goformId params = js "DELETE_SMS") (msgId : JsString)
      (hid : params.lookup (js "msg_id") = some msgId) (ha : ¬ WriteOk a)
      (gone : Sms StickSms → Bool) (hgone : ∀ x, gone x = true → named msgId x = true) :
      Answers b r a (b.delete gone).fail

def Acts (modemId : JsString) (b : Box StickSms) : (op : Op) → Ans op → Box StickSms → Prop
  | .http r, a, b' => Answers b r a b'
  | .persist messages, a, b' => Persists (insertAll (messages.map (incoming modemId))) b a b'
  | _, _, b' => b' = b

def world (modemId : JsString) : World (Box StickSms) Op Ans :=
  { acts := Acts modemId
    spont := (format modemId).Arrives
    enter := Box.enter }

/-! ## What the driver reads -/

section

variable {entry : JsValue} {c : StickSms}

theorem Shows.toMessage (h : Shows entry c) : ∃ status,
    Zte.toMessage entry = .ok
      { status, sender := c.number, date := slashes c.date, text := textOf c.content } := by
  obtain ⟨tag, htag, -⟩ := h.tag
  refine ⟨if toStr tag = js "1" then js "REC UNREAD" else js "REC READ", ?_⟩
  simp only [Zte.toMessage, tagOf, htag, h.number, h.date, h.content, dateText]
  rfl

theorem Shows.idOf (h : Shows entry c) : Zte.idOf entry = .ok (toStr c.id) := by
  simp only [Zte.idOf, h.id]
  rfl

variable {entries : List JsValue} {l : List StickSms}

theorem mapM_toMessage (h : List.Forall₂ Shows entries l) (modemId : JsString) :
    ∃ messages, entries.mapM toMessage = .ok messages ∧ (messages = [] ↔ l = []) ∧
      ∀ receivedAt, insertAll (messages.map (incoming modemId)) receivedAt =
        l.map ((format modemId).row receivedAt) := by
  induction h with
  | nil => exact ⟨[], rfl, by simp, fun _ => rfl⟩
  | @cons entry c entries l hentry _ ih =>
      obtain ⟨status, hmessage⟩ := hentry.toMessage
      obtain ⟨messages, hmessages, -, hrows⟩ := ih
      refine ⟨{ status, sender := c.number, date := slashes c.date, text := textOf c.content } ::
        messages, ?_, by simp, ?_⟩
      · rw [List.mapM_cons, hmessage, hmessages]
        rfl
      · intro receivedAt
        exact congrArg _ (hrows receivedAt)

theorem mapM_idOf (h : List.Forall₂ Shows entries l) :
    entries.mapM idOf = .ok (l.map fun c => toStr c.id) := by
  induction h with
  | nil => rfl
  | cons hentry _ ih =>
      rw [List.mapM_cons, hentry.idOf, ih]
      rfl

end

theorem pieces_ids {ids : List JsString} (h : ∀ i ∈ ids, semicolon ∉ i) :
    Lines.pieces semicolon (ids.flatMap fun i => i ++ js ";") = ids := by
  induction ids with
  | nil => rfl
  | cons i ids ih =>
      have hrest := ih fun x hx => h x (List.mem_cons_of_mem i hx)
      rw [List.flatMap_cons, List.append_assoc, show js ";" = [semicolon] by rfl,
        List.singleton_append, Lines.pieces_piece (h i List.mem_cons_self)]
      exact congrArg _ hrest

/-! ## Steps of a call -/

section

variable {stick : Stick} {b : Box StickSms} {α : Type}

/-- What the rest of a call has to keep. -/
abbrev Keeps (stick : Stick) : Prog α → Box StickSms → Prop :=
  Safe (world stick.id) (Kept (format stick.id)) fun _ => Idle (format stick.id)

theorem safe_login {A : Box StickSms → Prop} (hA : A b)
    (hbase : ∀ b, A b → Base (format stick.id) b)
    (harrive : ∀ b x, A b → (format stick.id).CanArrive b x → A (b.arrive x))
    (password : JsString) {f : Unit → Prog α} (hf : ∀ b, A b → Keeps stick (f ()) b) :
    Keeps stick (login stick password >>= f) b := by
  have hform : goformId (loginParams password) = js "LOGIN" := rfl
  have hne : js "LOGIN" ≠ js "DELETE_SMS" := by decide
  have hfail (b : Box StickSms) (hb : A b) : Idle (format stick.id) b.fail := (hbase b hb).idle_fail
  refine safe_call A hA (fun b hb => (hbase b hb).toKept) (arrives_of_arrive harrive) ?_
  intro b a b' hb ha
  -- a login that the driver takes for good leaves the phase, any other one a failure
  have hcases : (LoginOk a ∧ b' = b) ∨ (¬ LoginOk a ∧ b' = b.fail) := by
    cases ha with
    | listed hr => cases hr
    | listedNothing hr => cases hr
    | listFailed hr => cases hr
    | login params hr _ hok => exact Or.inl ⟨hok, rfl⟩
    | loginFailed params hr _ hno => exact Or.inr ⟨hno, rfl⟩
    | deleted params hr hdel =>
        obtain rfl := HttpRequest.post.inj hr
        exact absurd (hform.symm.trans hdel) hne
    | deleteFailed params hr hdel =>
        obtain rfl := HttpRequest.post.inj hr
        exact absurd (hform.symm.trans hdel) hne
  show Keeps stick ((Prog.ofExcept (readResponse a) >>= fun json =>
    Prog.ofExcept (loginResult json) >>= fun result =>
      if result ≠ js "0" ∧ result ≠ js "4" then Prog.fail (loginFailed stick json)
      else perform (.setLoggedIn true)) >>= f) b'
  unfold LoginOk at hcases
  cases hread : readResponse a with
  | error e =>
      rw [hread] at hcases
      obtain ⟨hok, -⟩ | ⟨-, rfl⟩ := hcases
      · exact hok.elim
      · exact hfail b hb
  | ok json =>
      rw [hread, show (Except.ok json >>= loginResult) = loginResult json from rfl] at hcases
      cases hresult : loginResult json with
      | error e =>
          rw [hresult] at hcases
          obtain ⟨hok, -⟩ | ⟨-, rfl⟩ := hcases
          · exact hok.elim
          · simp only [bind_assoc]
            apply safe_ofExcept_bind
            dsimp only [Then]
            rw [hresult]
            exact hfail b hb
      | ok result =>
          rw [hresult] at hcases
          simp only [bind_assoc]
          apply safe_ofExcept_bind
          dsimp only [Then]
          rw [hresult]
          show Keeps stick ((if result ≠ js "0" ∧ result ≠ js "4" then
            Prog.fail (loginFailed stick json) else perform (.setLoggedIn true)) >>= f) b'
          obtain ⟨hok, rfl⟩ | ⟨hno, rfl⟩ := hcases
          · rw [if_neg (by tauto)]
            refine safe_call A hb (fun b hb => (hbase b hb).toKept) (arrives_of_arrive harrive) ?_
            rintro b a b' hb rfl
            exact hf b' hb
          · rw [if_pos (not_or.mp hno)]
            exact hfail b hb

/-- The delete of all that is saved: it is either done or a failure. -/
theorem safe_delete {l : List (Sms StickSms)} (hb : Deleting (format stick.id) l b)
    {f : JsValue → Prog α}
    (hok : ∀ json b, isSuccess json = .ok true → Idle (format stick.id) b → Keeps stick (f json) b)
    (hno : ∀ json b, isSuccess json ≠ .ok true → Deleting (format stick.id) l b →
      b.failed = true → Keeps stick (f json) b) :
    Keeps stick (postCmd (deleteParams (l.map fun x => toStr x.content.id)) >>= f) b := by
  have hform : goformId (deleteParams (l.map fun x => toStr x.content.id)) = js "DELETE_SMS" := rfl
  have hne : js "LOGIN" ≠ js "DELETE_SMS" := by decide
  have hids : ∀ i ∈ l.map (fun x => toStr x.content.id), semicolon ∉ i := by
    intro i hi
    obtain ⟨x, -, rfl⟩ := List.mem_map.mp hi
    exact x.content.id_ok
  have hlookup : (deleteParams (l.map fun x => toStr x.content.id)).lookup (js "msg_id") =
      some ((l.map fun x => toStr x.content.id).flatMap fun i => i ++ js ";") := rfl
  refine safe_call (Deleting (format stick.id) l) hb (fun b hb => hb.base.toKept)
    (arrives_of_arrive fun b x hb hx => hb.arrive hx) ?_
  intro b a b' hb ha
  have hkeys (x : Sms StickSms) (msgId : JsString)
      (hid : (deleteParams (l.map fun x => toStr x.content.id)).lookup (js "msg_id") = some msgId)
      (hx : named msgId x = true) : ∃ y ∈ l, (format stick.id).key x.content =
        (format stick.id).key y.content := by
    obtain rfl := Option.some.inj (hlookup.symm.trans hid)
    rw [named, decide_eq_true_eq, pieces_ids hids] at hx
    obtain ⟨y, hy, hxy⟩ := List.mem_map.mp hx
    exact ⟨y, hy, hxy.symm⟩
  have hall (x : Sms StickSms) (hx : x ∈ l) (msgId : JsString)
      (hid : (deleteParams (l.map fun x => toStr x.content.id)).lookup (js "msg_id") = some msgId) :
      named msgId x = true := by
    obtain rfl := Option.some.inj (hlookup.symm.trans hid)
    rw [named, decide_eq_true_eq, pieces_ids hids]
    exact List.mem_map_of_mem hx
  have hcases : (WriteOk a ∧ Idle (format stick.id) b') ∨
      (¬ WriteOk a ∧ Deleting (format stick.id) l b' ∧ b'.failed = true) := by
    cases ha with
    | listed hr => cases hr
    | listedNothing hr => cases hr
    | listFailed hr => cases hr
    | login params hr hlogin =>
        obtain rfl := HttpRequest.post.inj hr
        exact absurd (hlogin.symm.trans hform) hne
    | loginFailed params hr hlogin =>
        obtain rfl := HttpRequest.post.inj hr
        exact absurd (hlogin.symm.trans hform) hne
    | deleted params hr _ msgId hid hwrite =>
        obtain rfl := HttpRequest.post.inj hr
        have hdone : Deleting (format stick.id) [] (b.delete (named msgId)) :=
          hb.delete (fun x _ hx => hkeys x msgId hid hx) nofun nofun fun _ x hx hleft => by
            rw [hall x hx msgId hid] at hleft
            cases hleft
        exact Or.inl ⟨hwrite, hdone.idle⟩
    | deleteFailed params hr _ msgId hid hwrite gone hgone =>
        obtain rfl := HttpRequest.post.inj hr
        have hpart : Deleting (format stick.id) l (b.delete gone) :=
          hb.delete (fun x _ hx => hkeys x msgId hid (hgone x hx)) (fun _ hx => hx) hb.occupied
            fun _ _ hx _ => hx
        exact Or.inr ⟨hwrite, hpart.fail, rfl⟩
  show Keeps stick (Prog.ofExcept (readResponse a) >>= f) b'
  unfold WriteOk at hcases
  cases hread : readResponse a with
  | error e =>
      rw [hread] at hcases
      obtain ⟨hok, -⟩ | ⟨-, hdel, hf⟩ := hcases
      · cases hok
      · exact hdel.base.idle_of_failed hf
  | ok json =>
      rw [hread, show (Except.ok json >>= isSuccess) = isSuccess json from rfl] at hcases
      obtain ⟨hok', hidle⟩ | ⟨hno', hdel, hf⟩ := hcases
      · exact hok json b' hok' hidle
      · exact hno json b' hno' hdel hf

/-- A last check of a write that failed already. -/
theorem safe_acceptOrReject {json : JsValue} {params : List (JsString × JsString)}
    (hb : Idle (format stick.id) b) {f : JsValue → Prog α}
    (hf : ∀ json b, Idle (format stick.id) b → Keeps stick (f json) b) :
    Keeps stick (acceptOrReject params json >>= f) b := by
  unfold acceptOrReject
  cases isSuccess json with
  | error e => exact hb
  | ok success =>
      cases success with
      | true => exact hf json b hb
      | false => exact hb

theorem safe_writeAuthed {l : List (Sms StickSms)} (hb : Deleting (format stick.id) l b)
    (password : JsString) {f : JsValue → Prog α}
    (hf : ∀ json b, Idle (format stick.id) b → Keeps stick (f json) b) :
    Keeps stick (writeAuthed stick password (deleteParams (l.map fun x => toStr x.content.id)) >>= f)
      b := by
  unfold writeAuthed
  simp only [bind_assoc]
  refine safe_delete hb ?_ ?_
  · intro json b hok hb
    rw [hok]
    exact hf json b hb
  · intro json b hno hb hfailed
    cases hsuccess : isSuccess json with
    | error e => exact hb.base.idle_of_failed hfailed
    | ok success =>
        have hfalse : success = false := by
          cases success with
          | true => exact absurd hsuccess hno
          | false => rfl
        subst hfalse
        -- the second attempt is made in the same phase, with a failure behind it
        let A := fun b => Deleting (format stick.id) l b ∧ b.failed = true
        refine safe_call A ⟨hb, hfailed⟩ (fun b hb => hb.1.base.toKept)
          (arrives_of_arrive fun b x hb hx => ⟨hb.1.arrive hx, hb.2⟩) ?_
        rintro b a b' hb rfl
        show Keeps stick ((login stick password >>= fun _ =>
          postCmd (deleteParams (l.map fun x => toStr x.content.id)) >>= acceptOrReject _) >>= f) b'
        simp only [bind_assoc]
        refine safe_login hb (fun b hb => hb.1.base)
          (fun b x hb hx => ⟨hb.1.arrive hx, hb.2⟩) password fun b hb => ?_
        refine safe_delete hb.1 ?_ ?_
        · exact fun json b _ hb => safe_acceptOrReject hb hf
        · exact fun json b _ hb hfailed =>
            safe_acceptOrReject (hb.base.idle_of_failed hfailed) hf

theorem safe_setCmd {l : List (Sms StickSms)} (hb : Deleting (format stick.id) l b)
    {f : JsValue → Prog α} (hf : ∀ json b, Idle (format stick.id) b → Keeps stick (f json) b) :
    Keeps stick (setCmd stick (deleteParams (l.map fun x => toStr x.content.id)) >>= f) b := by
  unfold setCmd
  cases stick.password with
  | none =>
      simp only [bind_assoc]
      refine safe_delete hb ?_ ?_
      · exact fun json b _ hb => safe_acceptOrReject hb hf
      · exact fun json b _ hb hfailed => safe_acceptOrReject (hb.base.idle_of_failed hfailed) hf
  | some password =>
      simp only [bind_assoc]
      refine safe_call (Deleting (format stick.id) l) hb (fun b hb => hb.base.toKept)
        (arrives_of_arrive fun b x hb hx => hb.arrive hx) ?_
      rintro b loggedIn b' hb rfl
      cases loggedIn with
      | true => exact safe_writeAuthed hb password hf
      | false =>
          show Keeps stick ((login stick password >>= fun _ =>
            writeAuthed stick password (deleteParams (l.map fun x => toStr x.content.id))) >>= f) b'
          rw [bind_assoc]
          exact safe_login hb (fun b hb => hb.base) (fun b x hb hx => hb.arrive hx) password
            fun b hb => safe_writeAuthed hb password hf

/-! ## One call -/

theorem safe_ensureAuthedForRead (hb : Entered (format stick.id) b) {f : Unit → Prog α}
    (hf : ∀ b, Entered (format stick.id) b → Keeps stick (f ()) b) :
    Keeps stick (ensureAuthedForRead stick >>= f) b := by
  unfold ensureAuthedForRead
  cases stick.password with
  | none => exact hf b hb
  | some password =>
      exact safe_login hb (fun b hb => hb.base) (fun b x hb hx => hb.arrive hx) password hf

theorem safe_callPersist {messages : List Message} (hb : HasListed (format stick.id) b)
    (hrows : ∀ receivedAt, insertAll (messages.map (incoming stick.id)) receivedAt =
      b.log.listing.map fun x => (format stick.id).row receivedAt x.content)
    {f : Unit → Prog α}
    (hf : ∀ b', Deleting (format stick.id) b.log.listing b' → Keeps stick (f ()) b') :
    Keeps stick (callPersist messages >>= f) b := by
  refine safe_call (fun b' => HasListed (format stick.id) b' ∧ b'.log.listing = b.log.listing)
    ⟨hb, rfl⟩ (fun b h => h.1.base.toKept)
    (arrives_of_arrive fun b x h hx => ⟨h.1.arrive hx, h.2⟩) ?_
  rintro b' a b'' ⟨h, hlog⟩ ha
  apply safe_ofExcept_bind
  cases ha with
  | committed receivedAt =>
      have hcommit := h.commit receivedAt
      rw [hlog, ← hrows receivedAt] at hcommit
      exact hf _ hcommit
  | rejected e => exact h.reject

theorem safe_fetchAndStore (hb : Entered (format stick.id) b) :
    Keeps stick (fetchAndStore stick) b := by
  unfold fetchAndStore getMessages
  simp only [bind_assoc]
  refine safe_ensureAuthedForRead hb fun b hb => ?_
  refine safe_call (Entered (format stick.id)) hb (fun b h => h.base.toKept)
    (arrives_of_arrive fun b x h hx => h.arrive hx) ?_
  intro b a b' h ha
  apply safe_ofExcept_bind
  cases ha with
  | listed _ data hdata raw entries hraw hentries l hl clipped _ hall hshown =>
      have hlisted : HasListed (format stick.id) (b.list l clipped) := h.list hl hall
      obtain ⟨messages, hmessages, hempty, hrows⟩ := mapM_toMessage hshown stick.id
      have hinbox : readInbox data = .ok (entries, messages) := by
        simp only [readInbox, hraw, hentries, hmessages, bind, Except.bind, pure, Except.pure]
      rw [hdata]
      apply safe_ofExcept_bind
      rw [hinbox]
      dsimp only [Then]
      cases l with
      | nil =>
          obtain rfl := hempty.mpr rfl
          obtain rfl := List.forall₂_nil_right_iff.mp hshown
          exact hlisted.idle_nil rfl
      | cons x l =>
          have hne : messages ≠ [] := fun he => List.cons_ne_nil _ _ (hempty.mp he)
          have hentriesNe : entries ≠ [] := by
            rintro rfl
            cases hshown
          rw [if_pos ⟨hne, trivial⟩]
          simp only [bind_assoc]
          refine safe_callPersist hlisted (fun t => (hrows t).trans List.map_map) fun b hb => ?_
          rw [if_pos hentriesNe, mapM_idOf hshown, List.map_map]
          simp only [bind_assoc]
          exact safe_setCmd hb fun _ b hb => hb
  | listedNothing _ data hdata hnone =>
      rw [hdata]
      apply safe_ofExcept_bind
      rw [hnone]
      exact h.base.idle_fail
  | listFailed _ herr =>
      cases hread : readResponse a with
      | error e => exact h.base.idle_fail
      | ok data =>
          obtain ⟨e, he⟩ := herr data hread
          apply safe_ofExcept_bind
          rw [he]
          exact h.base.idle_fail
  | login params hr => cases hr
  | loginFailed params hr => cases hr
  | deleted params hr => cases hr
  | deleteFailed params hr => cases hr

end

theorem verified (stick : Stick) : Verified (world stick.id) (fun p => p = fetchAndStore stick)
    (Idle (format stick.id)) (Kept (format stick.id)) := by
  refine ⟨fun b h => h.base.toKept, arrives_of_arrive fun b x h hx => h.arrive hx, ?_⟩
  rintro p rfl b h
  exact safe_fetchAndStore h.enter

end SmsGateway.Zte.Inbox
