import SmsGateway.Serial.Listing
import SmsGateway.Inbox
import SmsGateway.Lib.Serialized

/-!
# The inbox of a serial modem

`fetchAndStore` on a modem whose SIM holds SMS in numbered slots. The modem works its
commands off in order, and a command either has the answer it was sent for or fails: no
answer is later than the quiet window allows, and nothing unsolicited comes in between.
-/

namespace SmsGateway.Serial.Inbox

open SmsGateway InboxStore SmsGateway.Inbox Listing
open Lib Lib.Async Lib.Serialized

/-- `fetchAndStore(modem)`. -/
def incoming (modemId : JsString) (m : Message) : Incoming :=
  { status := m.status, sender := .str m.sender, date := m.date, text := .str m.text, modemId }

def fetchAndStore (modemId : JsString) : Prog (List Incoming) := do
  let messages ← getMessages true
  return messages.map (incoming modemId)

/-! ## The SIM -/

/-- A line of a text that is neither a terminal line nor of the form of a header. -/
def Clean (line : JsString) : Prop := isTerminalLine line = false ∧ headerRe line = none

instance : DecidablePred Clean := fun _ => inferInstanceAs (Decidable (_ ∧ _))

/-- A received SMS in its slot. -/
structure SimSms where
  slot : Nat
  sender : JsString
  date : JsString
  text : JsString
  clean : ∀ line ∈ linesOf (text ++ crlf), Clean line

/-- A listing shows an SMS with whatever status it has at that time. -/
structure Shows (m : Stored) (c : SimSms) : Prop where
  slot : m.slot = c.slot
  sender : m.sender = c.sender
  date : m.date = c.date
  text : m.text = c.text

/-- A text as the driver puts it together from its lines. -/
def joinLines (lines : List JsString) : JsString :=
  lines.foldl (fun text line => text ++ (if text = [] then [] else [LF]) ++ line) []

def reportedText (text : JsString) : JsString := joinLines (linesOf (text ++ crlf))

/-- Slots are used again. -/
def format (modemId : JsString) : Format SimSms Nat :=
  { key := fun c => c.slot
    row := fun receivedAt c =>
      { fromNumber := .str c.sender, modemDate := c.date, text := .str (reportedText c.text)
        receivedAt, modemId }
    freshKeys := false }

def listWrite : JsString := js "AT+CMGL=\"ALL\"\r"

/-- How the modem may answer a command, and what it leaves behind. A delete that fails
may have been carried out. -/
inductive Transacts (b : Box SimSms) (r : Request) :
    Except JsError (List JsString) → Box SimSms → Prop where
  | listed (hw : r.write = listWrite) (l : List (Sms SimSms)) (hl : l.Perm b.stored)
      (shown : List Stored) (hshown : List.Forall₂ Shows shown (l.map (·.content))) :
      Transacts b r (.ok (upToTerminal (linesOf (listingText shown)))) (b.list l false)
  | deleted (slot : Nat) (hw : r.write = cmgd slot) (lines : List JsString) :
      Transacts b r (.ok lines) (b.delete fun x => x.content.slot == slot)
  | deleteFailed (slot : Nat) (hw : r.write = cmgd slot) (gone : Sms SimSms → Bool)
      (hgone : ∀ x, gone x = true → x.content.slot = slot) (e : JsError) :
      Transacts b r (.error e) (b.delete gone).fail
  | command (hlist : r.write ≠ listWrite) (hdelete : ∀ slot, r.write ≠ cmgd slot)
      (lines : List JsString) : Transacts b r (.ok lines) b
  | commandFailed (hdelete : ∀ slot, r.write ≠ cmgd slot) (e : JsError) :
      Transacts b r (.error e) b.fail

def Acts (modemId : JsString) (b : Box SimSms) : (op : Op) → Ans op → Box SimSms → Prop
  | .transact r, a, b' => Transacts b r a b'
  | .persist messages, a, b' => Persists (insertAll (messages.map (incoming modemId))) b a b'
  | _, _, b' => b' = b

def world (modemId : JsString) : World (Box SimSms) Op Ans :=
  { acts := Acts modemId
    spont := (format modemId).Arrives
    enter := Box.enter }

/-! ## What the driver reads -/

def listed (m : Stored) : Listed :=
  ⟨m.slot, { status := m.status, sender := m.sender, date := m.date, text := reportedText m.text }⟩

theorem listingStep_body {line : JsString} (h : Clean line) (messages : List Listed)
    (current : Listed) :
    listingStep (messages ++ [current]) line = messages ++ [current.addLine line] := by
  unfold listingStep
  rw [h.2]
  simp [h.1]

theorem foldl_body {lines : List JsString} (h : ∀ line ∈ lines, Clean line)
    (messages : List Listed) (current : Listed) :
    lines.foldl listingStep (messages ++ [current]) =
      messages ++ [lines.foldl Listed.addLine current] := by
  induction lines generalizing current with
  | nil => rfl
  | cons line lines ih =>
      rw [List.foldl_cons, listingStep_body (h line List.mem_cons_self),
        ih fun l hl => h l (List.mem_cons_of_mem line hl)]
      rfl

theorem foldl_addLine (lines : List JsString) (m : Listed) :
    lines.foldl Listed.addLine m = { m with message := { m.message with
      text := lines.foldl (fun text line => text ++ (if text = [] then [] else [LF]) ++ line)
        m.message.text } } := by
  induction lines generalizing m with
  | nil => rfl
  | cons line lines ih =>
      rw [List.foldl_cons, ih]
      rfl

theorem foldl_listing {shown : List Stored} (h : ∀ m ∈ shown, ∀ line ∈ bodyLines m, Clean line)
    (messages : List Listed) :
    (shown.flatMap fun m => headerLine m :: bodyLines m).foldl listingStep messages =
      messages ++ shown.map listed := by
  induction shown generalizing messages with
  | nil => simp
  | cons m shown ih =>
      have hheader : listingStep messages (headerLine m) =
          messages ++ [Listed.ofHeader (headerOf m)] := by
        unfold listingStep
        rw [headerRe_headerLine]
      rw [List.flatMap_cons, List.cons_append, List.foldl_cons, hheader, List.foldl_append,
        foldl_body (h m List.mem_cons_self), foldl_addLine,
        ih fun x hx => h x (List.mem_cons_of_mem m hx), List.append_assoc, List.map_cons]
      rfl

/-- The driver reads back what the modem lists. -/
theorem parseListing_listingText {shown : List Stored}
    (h : ∀ m ∈ shown, ∀ line ∈ bodyLines m, Clean line) :
    parseListing (upToTerminal (linesOf (listingText shown))) = shown.map listed := by
  have hterm : ∀ line ∈ shown.flatMap fun m => headerLine m :: bodyLines m,
      isTerminalLine line = false := by
    intro line hline
    obtain ⟨m, hm, hline⟩ := List.mem_flatMap.mp hline
    rcases List.mem_cons.mp hline with rfl | hline
    · exact headerLine_not_terminal m
    · exact (h m hm line hline).1
  have hok (messages : List Listed) : listingStep messages (js "OK") = messages := by
    unfold listingStep
    rw [show headerRe (js "OK") = none by decide]
    cases messages.getLast? with
    | none => rfl
    | some current => rfl
  rw [linesOf_listingText, upToTerminal_line [] hterm (by decide), parseListing, List.foldl_append,
    foldl_listing h, List.nil_append, List.foldl_cons, List.foldl_nil, hok]

theorem clean_shown {shown : List Stored} {l : List SimSms} (h : List.Forall₂ Shows shown l) :
    ∀ m ∈ shown, ∀ line ∈ bodyLines m, Clean line := by
  induction h with
  | nil => exact fun _ hm => (List.not_mem_nil hm).elim
  | cons hmc _ ih =>
      intro m hm
      rcases List.mem_cons.mp hm with rfl | hm
      · intro line hline
        rw [bodyLines, hmc.text] at hline
        exact SimSms.clean _ line hline
      · exact ih m hm

theorem rows_listed {shown : List Stored} {l : List SimSms} (h : List.Forall₂ Shows shown l)
    (modemId receivedAt : JsString) :
    insertAll (((shown.map listed).map (·.message)).map (incoming modemId)) receivedAt =
      l.map ((format modemId).row receivedAt) := by
  induction h with
  | nil => rfl
  | @cons m c _ _ hmc _ ih =>
      have hrow : insertRow receivedAt (incoming modemId (listed m).message) =
          (format modemId).row receivedAt c := by
        simp only [insertRow, incoming, listed, format, hmc.sender, hmc.date, hmc.text,
          Json.orElse]
      exact congrArg₂ List.cons hrow ih

/-! ## One call -/

theorem ne_cmgd {w : JsString} (h : startsWith w (js "AT+CMGD=") = false) (slot : Nat) :
    w ≠ cmgd slot := by
  rintro rfl
  rw [startsWith_cmgd] at h
  cases h

section

variable {modemId : JsString} {b : Box SimSms} {α : Type}

/-- A command that neither lists nor deletes. -/
theorem safe_setup {r : Request} {f : List JsString → Prog α} (hlist : r.write ≠ listWrite)
    (hdelete : startsWith r.write (js "AT+CMGD=") = false) (hb : Entered (format modemId) b)
    (hf : ∀ lines b, Entered (format modemId) b →
      Safe (world modemId) (Kept (format modemId)) (fun _ => Idle (format modemId)) (f lines) b) :
    Safe (world modemId) (Kept (format modemId)) (fun _ => Idle (format modemId))
      (transact r >>= f) b := by
  refine safe_call (Entered (format modemId)) hb (fun b h => h.base.toKept)
    (arrives_of_arrive fun b x h hx => h.arrive hx) ?_
  intro b a b' h ha
  apply safe_ofExcept_bind
  cases ha with
  | listed hw => exact absurd hw hlist
  | deleted slot hw => exact absurd hw (ne_cmgd hdelete slot)
  | deleteFailed slot hw => exact absurd hw (ne_cmgd hdelete slot)
  | command _ _ lines => exact hf lines b h
  | commandFailed _ e => exact h.base.idle_fail

/-- The deletes of what is saved, in order. -/
theorem safe_deleteAll {shown : List Stored} {l : List (Sms SimSms)} {f : Unit → Prog α}
    (hshown : List.Forall₂ Shows shown (l.map (·.content))) (huids : (l.map (·.uid)).Nodup)
    (hb : Deleting (format modemId) l b)
    (hf : ∀ b, Idle (format modemId) b →
      Safe (world modemId) (Kept (format modemId)) (fun _ => Idle (format modemId)) (f ()) b) :
    Safe (world modemId) (Kept (format modemId)) (fun _ => Idle (format modemId))
      (deleteAll (shown.map listed) >>= f) b := by
  induction l generalizing b shown with
  | nil =>
      obtain rfl := List.forall₂_nil_right_iff.mp hshown
      exact hf b hb.idle
  | cons x l ih =>
      obtain ⟨m, shown, hm, hrest, rfl⟩ := List.forall₂_cons_right_iff.mp hshown
      have hnodup := List.nodup_cons.mp huids
      have hslot : (listed m).index = x.content.slot := hm.slot
      rw [List.map_cons, deleteAll, bind_assoc]
      refine safe_call (Deleting (format modemId) (x :: l)) hb (fun b h => h.base.toKept)
        (arrives_of_arrive fun b x h hx => h.arrive hx) ?_
      intro b a b' h ha
      apply safe_ofExcept_bind
      have hown {slot : Nat} (hw : (deleteRequest (listed m).index).write = cmgd slot) :
          slot = x.content.slot := by
        rw [← hslot]
        exact (cmgd_injective hw).symm
      cases ha with
      | listed hw => exact absurd hw.symm (ne_cmgd (by decide) _)
      | deleted slot hw lines =>
          have hgone : ∀ y ∈ b.stored, (y.content.slot == slot) = true →
              ∃ z ∈ x :: l, (format modemId).key y.content = (format modemId).key z.content :=
            fun y _ hy => ⟨x, List.mem_cons_self, (beq_iff_eq.mp hy).trans (hown hw)⟩
          refine ih hrest hnodup.2 (h.delete hgone (fun y hy => List.mem_cons_of_mem x hy) ?_ ?_)
          · intro y hy
            have hyb : y ∈ b.stored := h.occupied y (List.mem_cons_of_mem x hy)
            refine List.mem_filter.mpr ⟨hyb, ?_⟩
            rw [Bool.not_eq_true', beq_eq_false_iff_ne, hown hw]
            intro he
            have hyx := h.base.keys y hyb x (h.occupied x List.mem_cons_self) he
            exact hnodup.1 (hyx ▸ List.mem_map_of_mem hy)
          · intro _ y hy hkept
            rcases List.mem_cons.mp hy with rfl | hy
            · rw [hown hw, beq_self_eq_true] at hkept
              cases hkept
            · exact hy
      | deleteFailed slot hw gone hgone e =>
          refine (h.base_delete fun y _ hy => ?_).idle_fail
          exact ⟨x, List.mem_cons_self, (hgone y hy).trans (hown hw)⟩
      | command _ hdelete => exact absurd rfl (hdelete _)
      | commandFailed hdelete e => exact h.base.idle_fail

/-- What the call does with a listing. -/
theorem safe_listed {shown : List Stored} {f : Unit → Prog α}
    (hshown : List.Forall₂ Shows shown (b.log.listing.map (·.content)))
    (hb : HasListed (format modemId) b)
    (hf : ∀ b, Idle (format modemId) b →
      Safe (world modemId) (Kept (format modemId)) (fun _ => Idle (format modemId)) (f ()) b) :
    Safe (world modemId) (Kept (format modemId)) (fun _ => Idle (format modemId))
      (callPersist ((shown.map listed).map (·.message)) >>= fun _ =>
        deleteAll (shown.map listed) >>= f) b := by
  generalize hl : b.log.listing = l at hshown
  refine safe_call (fun b => HasListed (format modemId) b ∧ b.log.listing = l) ⟨hb, hl⟩
    (fun b h => h.1.base.toKept) (arrives_of_arrive fun b x h hx => ⟨h.1.arrive hx, h.2⟩) ?_
  rintro b a b' ⟨h, rfl⟩ ha
  apply safe_ofExcept_bind
  cases ha with
  | committed receivedAt =>
      have hcommit := h.commit receivedAt
      have hrows := (rows_listed hshown modemId receivedAt).trans List.map_map
      refine safe_deleteAll hshown h.uids ?_ hf
      rw [hrows]
      exact hcommit
  | rejected e => exact h.reject

theorem safe_fetchAndStore (hb : Entered (format modemId) b) :
    Safe (world modemId) (Kept (format modemId)) (fun _ => Idle (format modemId))
      (fetchAndStore modemId) b := by
  unfold fetchAndStore getMessages
  simp only [bind_assoc]
  refine safe_setup (by decide) (by decide) hb fun _ b hb => ?_
  refine safe_setup (by decide) (by decide) hb fun _ b hb => ?_
  refine safe_setup (by decide) (by decide) hb fun _ b hb => ?_
  refine safe_call (Entered (format modemId)) hb (fun b h => h.base.toKept)
    (arrives_of_arrive fun b x h hx => h.arrive hx) ?_
  intro b a b' h ha
  apply safe_ofExcept_bind
  cases ha with
  | listed _ l hl shown hshown =>
      have hlisted : HasListed (format modemId) (b.list l false) :=
        h.list hl.subperm fun _ x hx => hl.mem_iff.mpr hx
      dsimp only [Then]
      rw [parseListing_listingText (clean_shown hshown)]
      cases shown with
      | nil =>
          have hnil : l = [] := by simpa using List.forall₂_nil_left_iff.mp hshown
          exact hlisted.idle_nil hnil
      | cons m shown =>
          rw [if_pos ⟨List.cons_ne_nil _ _, trivial⟩]
          simp only [bind_assoc]
          exact safe_listed hshown hlisted fun b hb => hb
  | deleted slot hw => exact absurd hw (ne_cmgd (by decide) slot)
  | deleteFailed slot hw => exact absurd hw (ne_cmgd (by decide) slot)
  | command hlist => exact absurd rfl hlist
  | commandFailed _ e => exact h.base.idle_fail

end

theorem verified (modemId : JsString) : Verified (world modemId)
    (fun p => p = fetchAndStore modemId) (Idle (format modemId)) (Kept (format modemId)) := by
  refine ⟨fun b h => h.base.toKept, arrives_of_arrive fun b x h hx => h.arrive hx, ?_⟩
  rintro p rfl b h
  exact safe_fetchAndStore h.enter

end SmsGateway.Serial.Inbox
