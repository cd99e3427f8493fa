import SmsGateway.Serial.Driver
import SmsGateway.Serial.Lines

/-!
# Listing the SIM and deleting what was listed

The modem answers `AT+CMGL="ALL"` with a header line and the text of each stored
message. The driver sees the lines of that text only.
-/

namespace SmsGateway.Serial.Listing

open SmsGateway Lib Lib.Async

/-! ## The modem's side -/

def fieldText (s : JsString) : Bool := s.all fun c => c != quote && c != LF

def alphaText (s : JsString) : Bool := s.all fun c => c != comma && c != LF

/-- A stored message. The modem writes the quoted fields without quotes and the
alpha field without commas; the text is the sender's own. -/
structure Stored where
  slot : Nat
  status : JsString
  sender : JsString
  alpha : JsString
  date : JsString
  text : JsString
  status_ok : fieldText status = true
  sender_ok : fieldText sender = true
  alpha_ok : alphaText alpha = true
  date_ok : fieldText date = true
  deriving DecidableEq

def headerLine (m : Stored) : JsString :=
  js "+CMGL: " ++ decimal m.slot ++ js "," ++ quoted m.status ++ js "," ++ quoted m.sender ++
    js "," ++ m.alpha ++ js "," ++ quoted m.date

def crlf : JsString := [CR, LF]

/-- What the modem writes in answer to `AT+CMGL="ALL"`. -/
def listingText (l : List Stored) : JsString :=
  (l.flatMap fun m => headerLine m ++ crlf ++ m.text ++ crlf) ++ crlf ++ js "OK" ++ crlf

/-- The lines of a message text as the driver sees them. -/
def bodyLines (m : Stored) : List JsString := linesOf (m.text ++ crlf)

/-- The lines `transact` collects: up to the first terminal one. -/
def upToTerminal : List JsString → List JsString
  | [] => []
  | line :: lines => if isTerminalLine line then [line] else line :: upToTerminal lines

/-! ## Header lines -/

theorem stripPrefix_append (pre s : JsString) : stripPrefix pre (pre ++ s) = some s := by
  simp [stripPrefix, startsWith_append]

theorem takeWhile_piece {p : CodeUnit → Bool} {a b : JsString} {c : CodeUnit}
    (ha : ∀ x ∈ a, p x = true) (hc : p c = false) : (a ++ c :: b).takeWhile p = a := by
  rw [List.takeWhile_append_of_pos ha]
  simp [hc]

theorem dropWhile_piece {p : CodeUnit → Bool} {a b : JsString} {c : CodeUnit}
    (ha : ∀ x ∈ a, p x = true) (hc : p c = false) : (a ++ c :: b).dropWhile p = c :: b := by
  rw [List.dropWhile_append_of_pos ha]
  simp [hc]

theorem fieldText_ne {s : JsString} (h : fieldText s = true) : ∀ c ∈ s, (c != quote) = true := by
  simp only [fieldText, List.all_eq_true, Bool.and_eq_true] at h
  exact fun c hc => (h c hc).1

theorem alphaText_ne {s : JsString} (h : alphaText s = true) : ∀ c ∈ s, (c != comma) = true := by
  simp only [alphaText, List.all_eq_true, Bool.and_eq_true] at h
  exact fun c hc => (h c hc).1

theorem readQuoted_quoted {field : JsString} (h : fieldText field = true) (rest : JsString) :
    readQuoted (quoted field ++ rest) = some (field, rest) := by
  have hne := fieldText_ne h
  have hq : (quote != quote) = false := by decide
  rw [readQuoted, quoted, List.append_assoc, List.append_assoc, stripPrefix_append]
  simp only [Option.bind_eq_bind, Option.bind_some]
  rw [show js "\"" ++ rest = quote :: rest by rfl, takeWhile_piece hne hq, dropWhile_piece hne hq,
    show quote :: rest = js "\"" ++ rest by rfl, stripPrefix_append]
  rfl

def headerOf (m : Stored) : Header := ⟨m.slot, m.status, m.sender, m.date⟩

/-- The header form reads back the header of a stored message. -/
theorem headerRe_headerLine (m : Stored) : headerRe (headerLine m) = some (headerOf m) := by
  have hdig := decimal_digits m.slot
  have hne := decimal_ne_nil m.slot
  obtain ⟨d, ds, hd⟩ := List.exists_cons_of_ne_nil hne
  have hspace (rest : JsString) :
      (js " " ++ (decimal m.slot ++ rest)).dropWhile isSpace = decimal m.slot ++ rest := by
    have hds := isSpace_of_isDigit (hdig d (hd ▸ List.mem_cons_self))
    rw [hd, show js " " = [0x20] by rfl, List.singleton_append, List.dropWhile_cons,
      if_pos (by decide), List.cons_append, List.dropWhile_cons, if_neg (by simp [hds])]
  have hcomma (rest : JsString) : js "," ++ rest = comma :: rest := rfl
  have hdate : (m.date ++ js "\"").takeWhile (· != quote) = m.date :=
    takeWhile_piece (fieldText_ne m.date_ok) (by decide)
  rw [headerLine, show js "+CMGL: " = js "+CMGL:" ++ js " " by decide, headerRe]
  simp only [List.append_assoc, stripPrefix_append, Option.bind_eq_bind, Option.bind_some, hspace]
  rw [hcomma, takeWhile_piece hdig (by decide), dropWhile_piece hdig (by decide), if_neg hne,
    ← hcomma]
  simp only [stripPrefix_append, readQuoted_quoted m.status_ok, readQuoted_quoted m.sender_ok,
    Option.bind_some]
  rw [hcomma (quoted m.date), dropWhile_piece (alphaText_ne m.alpha_ok) (by decide), ← hcomma,
    stripPrefix_append]
  simp only [Option.bind_some]
  rw [quoted, List.append_assoc, stripPrefix_append, Option.getD_some, hdate, parseInt_decimal]
  rfl

theorem not_mem_headerLine (m : Stored) : LF ∉ headerLine m := by
  have hfield {s : JsString} (h : fieldText s = true) : LF ∉ s := by
    simp only [fieldText, List.all_eq_true, Bool.and_eq_true] at h
    intro hm
    simpa using (h LF hm).2
  have halpha : LF ∉ m.alpha := by
    have h := m.alpha_ok
    simp only [alphaText, List.all_eq_true, Bool.and_eq_true] at h
    intro hm
    simpa using (h LF hm).2
  have hslot : LF ∉ decimal m.slot := by
    intro hm
    exact absurd (decimal_digits m.slot LF hm) (by decide)
  have hlit : LF ∉ js "+CMGL: " ∧ LF ∉ js "," ∧ LF ∉ js "\"" := by decide
  have hstatus := hfield m.status_ok
  have hsender := hfield m.sender_ok
  have hdate := hfield m.date_ok
  simp only [headerLine, quoted, List.mem_append, not_or, hlit, hslot, hstatus, hsender, halpha,
    hdate, not_false_eq_true, and_self]

theorem trim_headerLine (m : Stored) : trim (headerLine m) = headerLine m := by
  have hshape : headerLine m = 0x2b :: ((js "CMGL: " ++ decimal m.slot ++ js "," ++
      quoted m.status ++ js "," ++ quoted m.sender ++ js "," ++ m.alpha ++ js "," ++ js "\"" ++
      m.date) ++ [quote]) := by
    simp only [headerLine, quoted, List.append_assoc]
    rfl
  rw [hshape]
  exact trim_eq_self (by decide) (by decide)

theorem headerLine_not_terminal (m : Stored) : isTerminalLine (headerLine m) = false := by
  have hshape : headerLine m = js "+CMGL: " ++ (decimal m.slot ++ js "," ++ quoted m.status ++
      js "," ++ quoted m.sender ++ js "," ++ m.alpha ++ js "," ++ quoted m.date) := by
    simp only [headerLine, List.append_assoc]
  rw [hshape]
  generalize decimal m.slot ++ js "," ++ quoted m.status ++ js "," ++ quoted m.sender ++ js "," ++
    m.alpha ++ js "," ++ quoted m.date = rest
  rfl

/-! ## The lines of a listing -/

theorem linesOf_piece {p : JsString} (hp : LF ∉ p) (hne : trim p ≠ []) (rest : JsString) :
    linesOf (p ++ crlf ++ rest) = trim p :: linesOf rest := by
  have hcr : LF ∉ p ++ [CR] := by
    rw [List.mem_append, not_or]
    exact ⟨hp, by decide⟩
  have htrim : trim (p ++ [CR]) = trim p := trim_append_space (by decide) p
  rw [show p ++ crlf ++ rest = (p ++ [CR]) ++ LF :: rest by simp [crlf], linesOf,
    Lines.pieces_piece hcr, List.map_cons, htrim]
  simp [hne, linesOf]

theorem linesOf_text (text rest : JsString) :
    linesOf (text ++ crlf ++ rest) = linesOf (text ++ crlf) ++ linesOf rest := by
  rw [show text ++ crlf ++ rest = (text ++ [CR]) ++ LF :: rest by simp [crlf], linesOf_append,
    show text ++ [CR] ++ [LF] = text ++ crlf by simp [crlf]]

/-- The lines of the listing: each header, the lines of its text, and OK. -/
theorem linesOf_listingText (l : List Stored) :
    linesOf (listingText l) = (l.flatMap fun m => headerLine m :: bodyLines m) ++ [js "OK"] := by
  induction l with
  | nil => decide +kernel
  | cons m l ih =>
      have hhead : trim (headerLine m) ≠ [] := by
        rw [trim_headerLine]
        intro he
        have hre := headerRe_headerLine m
        rw [he] at hre
        cases hre
      rw [listingText] at ih
      rw [listingText, List.flatMap_cons, List.flatMap_cons]
      simp only [List.append_assoc] at ih ⊢
      rw [← List.append_assoc (headerLine m), linesOf_piece (not_mem_headerLine m) hhead,
        ← List.append_assoc m.text, linesOf_text, ih, trim_headerLine, bodyLines,
        List.cons_append]

/-- Nothing behind the first terminal line is read. -/
theorem upToTerminal_line {lines : List JsString} {line : JsString} (rest : List JsString)
    (h : ∀ l ∈ lines, isTerminalLine l = false) (hline : isTerminalLine line = true) :
    upToTerminal (lines ++ line :: rest) = lines ++ [line] := by
  induction lines with
  | nil => rw [List.nil_append, upToTerminal, if_pos hline, List.nil_append]
  | cons l lines ih =>
      have hrest := ih fun x hx => h x (List.mem_cons_of_mem l hx)
      rw [List.cons_append, upToTerminal, h l List.mem_cons_self, hrest]
      rfl

/-! ## What the parser makes of lines -/

/-- The header a parsed message was made from. -/
def headerOfListed (m : Listed) : Header :=
  ⟨m.index, m.message.status, m.message.sender, m.message.date⟩

theorem listingStep_headers (messages : List Listed) (line : JsString) :
    (listingStep messages line).map headerOfListed =
      messages.map headerOfListed ++ (headerRe line).toList := by
  unfold listingStep
  cases hre : headerRe line with
  | some h => simp [Listed.ofHeader, headerOfListed]
  | none =>
      cases hlast : messages.getLast? with
      | none => simp
      | some current =>
          have hsplit := List.dropLast_append_getLast? current hlast
          dsimp only
          split
          · simp
          · conv_rhs => rw [← hsplit]
            simp [Listed.addLine, headerOfListed]

/-- A parsed message comes from each line of header form, and only from those. -/
theorem parseListing_headers (lines : List JsString) :
    (parseListing lines).map headerOfListed = lines.filterMap headerRe := by
  induction lines using List.reverseRecOn with
  | nil => rfl
  | append_singleton lines line ih =>
      rw [parseListing] at ih
      rw [parseListing, List.foldl_append, List.foldl_cons, List.foldl_nil, listingStep_headers, ih,
        List.filterMap_append]
      cases hre : headerRe line <;> simp [hre]

/-- The listing is parsed into its stored messages and the forged ones of each text. -/
theorem parse_listingText (l : List Stored) :
    (parseListing (linesOf (listingText l))).map headerOfListed =
      l.flatMap fun m => headerOf m :: (bodyLines m).filterMap headerRe := by
  rw [parseListing_headers, linesOf_listingText, List.filterMap_append, List.filterMap_flatMap]
  have hok : [js "OK"].filterMap headerRe = [] := by decide
  rw [hok, List.append_nil]
  apply List.flatMap_congr
  intro m _
  rw [List.filterMap_cons, headerRe_headerLine]

theorem length_le_flatMap {α β : Type} (l : List α) (f : α → β) (g : α → List β) :
    l.length ≤ (l.flatMap fun a => f a :: g a).length := by
  induction l with
  | nil => simp
  | cons a l ih =>
      rw [List.flatMap_cons, List.length_append, List.length_cons, List.length_cons]
      omega

theorem flatMap_eq_map_iff {α β : Type} {l : List α} {f : α → β} {g : α → List β} :
    (l.flatMap fun a => f a :: g a) = l.map f ↔ ∀ a ∈ l, g a = [] := by
  induction l with
  | nil => simp
  | cons a l ih =>
      rw [List.flatMap_cons, List.map_cons, List.cons_append, List.cons.injEq, List.forall_mem_cons]
      constructor
      · rintro ⟨-, htail⟩
        have hlen := congrArg List.length htail
        have hle := length_le_flatMap l f g
        rw [List.length_append, List.length_map] at hlen
        have hnil : g a = [] := List.eq_nil_of_length_eq_zero (by omega)
        rw [hnil, List.nil_append] at htail
        exact ⟨hnil, ih.mp htail⟩
      · rintro ⟨hnil, hrest⟩
        exact ⟨rfl, by rw [hnil, List.nil_append, ih.mpr hrest]⟩

/-! ## One call -/

/-- The modem answers every command, `AT+CMGL="ALL"` with the listing, and `persist` resolves. -/
structure Answers (l : List Stored) (o : Oracle Op Ans) : Prop where
  listing : ∀ n r, r.write = js "AT+CMGL=\"ALL\"\r" →
    o n (.transact r) = .ok (upToTerminal (linesOf (listingText l)))
  command : ∀ n r, ∃ lines, o n (.transact r) = .ok lines
  persist : ∀ n messages, o n (.persist messages) = .ok ()

/-- The delete commands of a run. -/
def issued (t : List (Done Op Ans)) : List JsString :=
  t.filterMap fun d => match d.op with
    | .transact r => if startsWith r.write (js "AT+CMGD=") then some r.write else none
    | _ => none

theorem startsWith_cmgd (slot : Nat) : startsWith (cmgd slot) (js "AT+CMGD=") = true := by
  rw [cmgd, List.append_assoc]
  exact startsWith_append _ _

theorem cmgd_injective : Function.Injective cmgd := by
  intro a b h
  exact decimal_injective (List.append_cancel_left (List.append_cancel_right h))

section

variable {l : List Stored} {o : Oracle Op Ans}

theorem run_deleteAll {α : Type} (h : Answers l o) (messages : List Listed) (n : Nat)
    (f : Unit → Prog α) :
    ∃ t m, trace o n (deleteAll messages >>= f) = t ++ trace o m (f ()) ∧
      issued t = messages.map (fun m => cmgd m.index) ∧
      result o n (deleteAll messages >>= f) = result o m (f ()) := by
  induction messages generalizing n with
  | nil => exact ⟨[], n, rfl, rfl, rfl⟩
  | cons m messages ih =>
      obtain ⟨lines, hlines⟩ := h.command n (deleteRequest m.index)
      obtain ⟨t, k, htrace, hissued, hresult⟩ := ih (n + 1)
      rw [deleteAll, bind_assoc]
      refine ⟨⟨.transact (deleteRequest m.index), .ok lines⟩ :: t, k, ?_, ?_, ?_⟩
      · rw [trace_transact_ok hlines, htrace, List.cons_append]
      · have hstart := startsWith_cmgd m.index
        rw [List.map_cons, ← hissued, issued, List.filterMap_cons]
        simp only [deleteRequest, request, hstart, if_true]
        rfl
      · rw [result_transact_ok hlines, hresult]

theorem issued_append (t u : List (Done Op Ans)) : issued (t ++ u) = issued t ++ issued u :=
  List.filterMap_append

/-- A call issues one delete for each parsed message and reports all of them. -/
theorem run_getMessages (h : Answers l o) (persist : Bool) :
    let parsed := parseListing (upToTerminal (linesOf (listingText l)))
    issued (trace o 0 (getMessages persist)) = parsed.map (fun m => cmgd m.index) ∧
      result o 0 (getMessages persist) = .ok (parsed.map (·.message)) := by
  obtain ⟨l₀, h₀⟩ := h.command 0 (request (js "AT+CMGF=1\r") (js "CMGF"))
  obtain ⟨l₁, h₁⟩ := h.command 1 (request (js "AT+CSCS=\"GSM\"\r") (js "CSCS"))
  obtain ⟨l₂, h₂⟩ := h.command 2 (request (js "AT+CPMS=\"SM\",\"SM\",\"SM\"\r") (js "CPMS"))
  have h₃ := h.listing 3 ⟨js "AT+CMGL=\"ALL\"\r", js "CMGL", 15000, false⟩ rfl
  unfold getMessages
  rw [trace_transact_ok h₀, trace_transact_ok h₁, trace_transact_ok h₂, trace_transact_ok h₃,
    result_transact_ok h₀, result_transact_ok h₁, result_transact_ok h₂, result_transact_ok h₃]
  generalize upToTerminal (linesOf (listingText l)) = lines
  dsimp only
  have hsetup (t : List (Done Op Ans)) : issued
      (⟨.transact (request (js "AT+CMGF=1\r") (js "CMGF")), .ok l₀⟩ ::
        ⟨.transact (request (js "AT+CSCS=\"GSM\"\r") (js "CSCS")), .ok l₁⟩ ::
        ⟨.transact (request (js "AT+CPMS=\"SM\",\"SM\",\"SM\"\r") (js "CPMS")), .ok l₂⟩ ::
        ⟨.transact ⟨js "AT+CMGL=\"ALL\"\r", js "CMGL", 15000, false⟩, .ok lines⟩ :: t) =
      issued t := rfl
  rw [hsetup]
  by_cases hp : (parseListing lines).map (·.message) ≠ [] ∧ persist = true
  · obtain ⟨t, m, htrace, hissued, hresult⟩ := run_deleteAll h (parseListing lines) 5
      fun _ => pure ((parseListing lines).map (·.message))
    rw [if_pos hp, trace_callPersist_ok (h.persist 4 _), htrace,
      result_callPersist_ok (h.persist 4 _), hresult]
    refine ⟨?_, rfl⟩
    rw [← hissued]
    exact (issued_append t []).trans (List.append_nil _)
  · obtain ⟨t, m, htrace, hissued, hresult⟩ := run_deleteAll h (parseListing lines) 4
      fun _ => pure ((parseListing lines).map (·.message))
    rw [if_neg hp, htrace, hresult]
    refine ⟨?_, rfl⟩
    rw [← hissued]
    exact (issued_append t []).trans (List.append_nil _)

/-- The call deletes exactly the listed slots, each once and in order, and reports
the messages the modem listed. -/
structure FollowsListing (l : List Stored) (persist : Bool) (o : Oracle Op Ans) : Prop where
  deletes : issued (trace o 0 (getMessages persist)) = l.map fun m => cmgd m.slot
  reports : ∃ messages, result o 0 (getMessages persist) = .ok messages ∧
    messages.map (fun m => (m.status, m.sender, m.date)) =
      l.map fun m => (m.status, m.sender, m.date)

/-- With no terminal line in a text, the call follows the listing exactly when no
line of a text has the form of a header. -/
theorem followsListing_iff (persist : Bool) (h : Answers l o)
    (hterm : ∀ m ∈ l, ∀ line ∈ bodyLines m, isTerminalLine line = false) :
    FollowsListing l persist o ↔ ∀ m ∈ l, ∀ line ∈ bodyLines m, headerRe line = none := by
  obtain ⟨hissued, hresult⟩ := run_getMessages h persist
  have hall : ∀ line ∈ l.flatMap fun m => headerLine m :: bodyLines m,
      isTerminalLine line = false := by
    intro line hline
    obtain ⟨m, hm, hline⟩ := List.mem_flatMap.mp hline
    rcases List.mem_cons.mp hline with rfl | hline
    · exact headerLine_not_terminal m
    · exact hterm m hm line hline
  have hparse := parse_listingText l
  rw [linesOf_listingText] at hissued hresult hparse
  rw [upToTerminal_line [] hall (by decide)] at hissued hresult
  generalize parseListing ((l.flatMap fun m => headerLine m :: bodyLines m) ++ [js "OK"]) =
    parsed at hissued hresult hparse
  have hdel : parsed.map (fun m => cmgd m.index) =
      l.flatMap fun m => cmgd m.slot ::
        ((bodyLines m).filterMap headerRe).map fun h => cmgd h.index := by
    have hmap := congrArg (List.map fun h : Header => cmgd h.index) hparse
    rw [List.map_map, List.map_flatMap] at hmap
    exact hmap
  have hnone (m : Stored) : (bodyLines m).filterMap headerRe = [] ↔
      ∀ line ∈ bodyLines m, headerRe line = none := List.filterMap_eq_nil_iff
  constructor
  · intro hf
    have hd := hf.deletes
    rw [hissued, hdel, flatMap_eq_map_iff] at hd
    intro m hm
    exact (hnone m).mp (List.map_eq_nil_iff.mp (hd m hm))
  · intro hclean
    refine ⟨?_, _, hresult, ?_⟩
    · rw [hissued, hdel, flatMap_eq_map_iff]
      intro m hm
      rw [(hnone m).mpr (hclean m hm)]
      rfl
    · have hheaders : parsed.map headerOfListed = l.map headerOf := by
        rw [hparse, flatMap_eq_map_iff]
        exact fun m hm => (hnone m).mpr (hclean m hm)
      have hmap := congrArg (List.map fun h : Header => (h.status, h.sender, h.date)) hheaders
      rw [List.map_map, List.map_map] at hmap
      rw [List.map_map]
      exact hmap

end

/-! ## A text that names another slot -/

/-- A modem that lists `l` and answers everything else with OK. -/
def listing (l : List Stored) : Oracle Op Ans := fun _ op =>
  match op with
  | .transact r =>
      if r.write = js "AT+CMGL=\"ALL\"\r" then .ok (upToTerminal (linesOf (listingText l)))
      else .ok [js "OK"]
  | .writeEsc => ()
  | .waitForUrc _ _ => (0 : Nat)
  | .urc _ => none
  | .persist _ => .ok ()
  | .randomInt _ => (0 : Nat)

theorem answers_listing (l : List Stored) : Answers l (listing l) := by
  refine ⟨?_, ?_, fun _ _ => rfl⟩
  · intro n r hr
    simp only [listing, hr, if_true]
  · intro n r
    by_cases hr : r.write = js "AT+CMGL=\"ALL\"\r"
    · exact ⟨_, by simp only [listing, hr, if_true]; rfl⟩
    · exact ⟨_, by simp only [listing, hr, if_false]; rfl⟩

def greeting : Stored :=
  { slot := 1, status := js "REC UNREAD", sender := js "+99361234567", alpha := []
    date := js "24/05/01,10:00:00+20", text := js "Hello"
    status_ok := by decide, sender_ok := by decide, alpha_ok := by decide, date_ok := by decide }

theorem followsListing_iff_greeting :
    FollowsListing [greeting] true (listing [greeting]) ↔
      ∀ m ∈ [greeting], ∀ line ∈ bodyLines m, headerRe line = none :=
  followsListing_iff true (answers_listing _) (by decide +kernel)

def forged : Stored :=
  { greeting with text := js "Hi\n+CMGL: 7,\"REC READ\",\"+99360000000\",,\"x\"" }

/-- A text of two lines, the second in header form, deletes slot 7, which was not listed. -/
theorem forged_deletes_unlisted :
    (∀ m ∈ [forged], ∀ line ∈ bodyLines m, isTerminalLine line = false) ∧
      cmgd 7 ∈ issued (trace (listing [forged]) 0 (getMessages true)) ∧
      ¬ FollowsListing [forged] true (listing [forged]) := by
  have hterm : ∀ m ∈ [forged], ∀ line ∈ bodyLines m, isTerminalLine line = false := by
    decide +kernel
  obtain ⟨hissued, -⟩ := run_getMessages (answers_listing [forged]) true
  refine ⟨hterm, ?_, ?_⟩
  · rw [hissued]
    decide +kernel
  · intro hf
    have hd := hf.deletes
    rw [hissued] at hd
    revert hd
    decide +kernel

end SmsGateway.Serial.Listing
