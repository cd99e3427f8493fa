import SmsGateway.MultipartRoundTrip
import SmsGateway.Unicode
import SmsGateway.Zte.Driver

/-!
# Message splitting

`splitMessage` against `analyzeMessage`: the parts are valid, the counted number is the least
one, and what becomes of the second analyser, `analyzeUcs2`.
-/

namespace SmsGateway.Splitting

open SmsEncoding Lib
open MultipartRoundTrip (Fits splitUcs2_flatten splitUcs2_fits splitGsm7_flatten splitGsm7_fits
  splitMessage_of_segments)

/-! ## The parts -/

/-- A surrogate pair stands across none of the places between the parts. -/
def Whole (parts : List JsString) : Prop := parts.IsChain fun p q => splitsPair p q = false

/-- What the callers of `splitMessage` rely on. -/
structure ValidParts (message : JsString) (parts : List JsString) : Prop where
  count : parts.length = (analyzeMessage message).segments
  ne_nil : ∀ part ∈ parts, part ≠ []
  flatten : parts.flatten = message
  septets : 1 < parts.length → (analyzeMessage message).encoding = .GSM →
    ∀ part ∈ parts, ∃ n ≤ gsm7PerSegment, countSeptets (forOf part) 0 = some n
  units : 1 < parts.length → (analyzeMessage message).encoding = .UCS2 →
    ∀ part ∈ parts, part.length ≤ ucs2PerSegment
  whole : Whole parts
  single : ∀ part ∈ parts, (analyzeMessage part).segments = 1

theorem analyze_gsm {text : JsString} (h : IsGsm text) :
    analyzeMessage text =
      { encoding := .GSM
        length := Cut.total septetCost (forOf text)
        segments := if Cut.total septetCost (forOf text) ≤ gsm7Single then 1
          else (splitGsm7 text).length
        maxLength := gsm7PerSegment * maxSegments
        ok := (if Cut.total septetCost (forOf text) ≤ gsm7Single then 1
          else (splitGsm7 text).length) ≤ maxSegments } := by
  rw [analyzeMessage, countSeptets_eq h, Nat.zero_add]

theorem analyze_ucs2 {text : JsString} (h : ¬IsGsm text) :
    analyzeMessage text =
      { encoding := .UCS2
        length := text.length
        segments := if text.length ≤ ucs2Single then 1 else (splitUcs2 text).length
        maxLength := ucs2PerSegment * maxSegments
        ok := (if text.length ≤ ucs2Single then 1 else (splitUcs2 text).length) ≤ maxSegments } := by
  have hnone : countSeptets (forOf text) 0 = none := by
    rw [← Option.not_isSome_iff_eq_none, countSeptets_isSome_iff]
    exact h
  rw [analyzeMessage, hnone]

theorem septetCost_le_two (ch : JsString) : septetCost ch ≤ 2 := by
  unfold septetCost
  cases h : gsm7Cost ch with
  | none => exact Nat.zero_le _
  | some n =>
      rcases gsm7Cost_le h with rfl | rfl <;> decide

theorem total_septets_le (chs : List JsString) : Cut.total septetCost chs ≤ 2 * chs.length := by
  induction chs with
  | nil => exact Nat.zero_le _
  | cons ch chs ih =>
      have hch := septetCost_le_two ch
      rw [Cut.total_cons, List.length_cons]
      omega

/-- A text of a part's size needs one SMS, whichever charset it is analysed in: a UCS2 part that
happens to be plain GSM-7 costs two septets a character at most. -/
theorem segments_of_length {text : JsString} (h : text.length ≤ ucs2Single) :
    (analyzeMessage text).segments = 1 := by
  by_cases hgsm : IsGsm text
  · have hlen : (forOf text).length = text.length := by
      rw [forOf_of_isGsm hgsm, List.length_map]
    have hcost := total_septets_le (forOf text)
    have hfit : Cut.total septetCost (forOf text) ≤ 160 := by
      have htext : text.length ≤ 70 := h
      omega
    rw [analyze_gsm hgsm]
    exact if_pos hfit
  · rw [analyze_ucs2 hgsm]
    exact if_pos h

theorem segments_of_fits {encoding : Encoding} {text : JsString} (h : Fits encoding text) :
    (analyzeMessage text).segments = 1 := by
  cases encoding with
  | GSM =>
      obtain ⟨hgsm, hcost⟩ : IsGsm text ∧ Cut.total septetCost (forOf text) ≤ gsm7PerSegment := h
      rw [analyze_gsm hgsm]
      exact if_pos (hcost.trans (by decide))
  | UCS2 =>
      have hlen : text.length ≤ ucs2PerSegment := h
      exact segments_of_length (hlen.trans (by decide))

/-! ## Where the loop of `splitUcs2` cuts -/

theorem ucs2Take_cases (rest : JsString) :
    (ucs2Take rest = rest.length ∧ rest.length ≤ 67) ∨
    (ucs2Take rest = 67 ∧ 67 < rest.length ∧ isHighSurrogate (rest.getD 66 0) = false) ∨
    (ucs2Take rest = 66 ∧ 67 < rest.length ∧ isHighSurrogate (rest.getD 66 0) = true) := by
  have hc : ucs2PerSegment = 67 := rfl
  unfold ucs2Take
  dsimp only
  rw [hc]
  by_cases hlong : 67 < rest.length
  · have hmin : min 67 rest.length = 67 := by omega
    rw [hmin]
    by_cases hhigh : isHighSurrogate (rest.getD 66 0) = true
    · rw [if_pos ⟨hlong, hhigh⟩]
      exact Or.inr (Or.inr ⟨rfl, hlong, hhigh⟩)
    · rw [if_neg fun h => hhigh h.2]
      exact Or.inr (Or.inl ⟨rfl, hlong, by simpa using hhigh⟩)
  · have hmin : min 67 rest.length = rest.length := by omega
    rw [hmin, if_neg fun h => absurd h.1 (Nat.lt_irrefl _)]
    exact Or.inl ⟨rfl, by omega⟩

theorem splitsPair_of_last {a b : JsString} {c : CodeUnit} (hc : a.getLast? = some c)
    (h : isHighSurrogate c = false) : splitsPair a b = false := by
  simp [splitsPair, hc, h]

theorem not_low_of_high {c : CodeUnit} (h : isHighSurrogate c = true) : isLowSurrogate c = false := by
  rw [isHighSurrogate_iff] at h
  rw [← Bool.not_eq_true, isLowSurrogate_iff]
  omega

theorem splitsPair_of_head {a b : JsString} {c : CodeUnit} (hc : b.head? = some c)
    (h : isHighSurrogate c = true) : splitsPair a b = false := by
  simp [splitsPair, hc, not_low_of_high h]

/-- The loop cuts outside every surrogate pair: the unit before the cut is no high surrogate, or
the one behind it is. -/
theorem splitsPair_take (rest : JsString) :
    splitsPair (rest.take (ucs2Take rest)) (rest.drop (ucs2Take rest)) = false := by
  rcases ucs2Take_cases rest with ⟨htake, -⟩ | ⟨htake, hlong, hhigh⟩ | ⟨htake, hlong, hhigh⟩
  · rw [htake, List.drop_length]
    simp [splitsPair]
  · have hget : rest[66]? = some (rest.getD 66 0) := by
      rw [List.getD_eq_getElem _ _ (by omega), List.getElem?_eq_getElem (by omega)]
    have hlast : (rest.take 67).getLast? = some (rest.getD 66 0) := by
      rw [List.getLast?_take, if_neg (by decide), show 67 - 1 = 66 from rfl, hget]
      rfl
    rw [htake]
    exact splitsPair_of_last hlast hhigh
  · have hget : rest[66]? = some (rest.getD 66 0) := by
      rw [List.getD_eq_getElem _ _ (by omega), List.getElem?_eq_getElem (by omega)]
    rw [htake]
    exact splitsPair_of_head (by rw [List.head?_drop, hget]) hhigh

/-! ## The parts of a message -/

theorem splitUcs2_cons {rest : JsString} (h : rest ≠ []) :
    splitUcs2 rest = rest.take (ucs2Take rest) :: splitUcs2 (rest.drop (ucs2Take rest)) := by
  rw [splitUcs2, dif_neg h]

theorem splitUcs2_nil : splitUcs2 [] = [] := by
  rw [splitUcs2, dif_pos rfl]

theorem take_ne_nil {rest : JsString} (h : rest ≠ []) : rest.take (ucs2Take rest) ≠ [] := by
  have hpos := ucs2Take_pos h
  have hlen : 0 < rest.length := List.length_pos_of_ne_nil h
  rw [← List.length_pos_iff, List.length_take]
  omega

theorem splitUcs2_ne_nil (rest : JsString) : ∀ part ∈ splitUcs2 rest, part ≠ [] := by
  fun_induction splitUcs2 rest with
  | case1 => simp
  | case2 rest h ih =>
      intro part hpart
      rcases List.mem_cons.mp hpart with rfl | hpart
      · exact take_ne_nil h
      · exact ih part hpart

/-- The first part starts where the text starts. -/
theorem splitsPair_head (a rest : JsString) {part : JsString} (h : part ∈ (splitUcs2 rest).head?) :
    splitsPair a part = splitsPair a rest := by
  by_cases hrest : rest = []
  · subst hrest
    rw [splitUcs2_nil] at h
    cases h
  · rw [splitUcs2_cons hrest] at h
    obtain rfl := Option.some.inj h
    obtain ⟨c, rest, rfl⟩ := List.exists_cons_of_ne_nil hrest
    obtain ⟨n, hn⟩ := Nat.exists_eq_succ_of_ne_zero (ucs2Take_pos hrest).ne'
    rw [hn, List.take_succ_cons]
    rfl

theorem splitUcs2_whole (rest : JsString) : Whole (splitUcs2 rest) := by
  fun_induction splitUcs2 rest with
  | case1 => exact List.isChain_nil
  | case2 rest h ih =>
      apply List.isChain_cons.mpr
      constructor
      · intro part hpart
        rw [splitsPair_head _ _ hpart]
        exact splitsPair_take rest
      · exact ih

theorem splitGsm7_ne_nil (message : JsString) : ∀ part ∈ splitGsm7 message, part ≠ [] := by
  have hcut : Cut.IsCut septetCost gsm7PerSegment (forOf message) _ :=
    Cut.greedy_isCut fun x _ => septetCost_le x
  rw [splitGsm7_eq_greedy]
  intro part hpart
  obtain ⟨piece, hpiece, rfl⟩ := List.mem_map.mp hpart
  rw [ne_eq, flatten_eq_nil_iff_of_forOf]
  · exact hcut.ne_nil piece hpiece
  · intro ch hch
    apply forOf_ne_nil (s := message)
    rw [← hcut.flatten]
    exact List.mem_flatten.mpr ⟨piece, hpiece, hch⟩

theorem splitsPair_of_no_high {a : JsString} (h : ∀ c ∈ a, isHighSurrogate c = false) (b : JsString) :
    splitsPair a b = false := by
  cases hlast : a.getLast? with
  | none => simp [splitsPair, hlast]
  | some c => exact splitsPair_of_last hlast (h c (List.mem_of_getLast? hlast))

theorem whole_of_fits {parts : List JsString} (h : ∀ part ∈ parts, Fits .GSM part) : Whole parts := by
  apply List.Pairwise.isChain
  apply List.pairwise_of_forall_mem_list
  intro p hp q hq
  exact splitsPair_of_no_high (no_high_of_isGsm (h p hp).1) q

theorem one_le_segments (message : JsString) : 1 ≤ (analyzeMessage message).segments := by
  by_cases hgsm : IsGsm message
  · rw [analyze_gsm hgsm]
    dsimp only
    split
    case isTrue => exact le_rfl
    case isFalse hlong =>
      apply List.length_pos_iff.mpr
      intro hnil
      have hflat := splitGsm7_flatten message
      rw [hnil, List.flatten_nil] at hflat
      rw [← hflat] at hlong
      exact hlong (Nat.zero_le _)
  · rw [analyze_ucs2 hgsm]
    dsimp only
    split
    case isTrue => exact le_rfl
    case isFalse hlong =>
      apply List.length_pos_iff.mpr
      intro hnil
      have hflat := splitUcs2_flatten message
      rw [hnil, List.flatten_nil] at hflat
      rw [← hflat] at hlong
      exact hlong (Nat.zero_le _)

theorem split_ne_nil {message : JsString} (h : (analyzeMessage message).segments ≠ 1) :
    (∀ part ∈ splitMessage message, part ≠ []) ∧ Whole (splitMessage message) := by
  rw [splitMessage, if_neg h]
  by_cases hgsm : (analyzeMessage message).encoding = .GSM
  · rw [if_pos hgsm]
    have hfits := splitGsm7_fits ((encoding_eq_gsm_iff message).mp hgsm)
    exact ⟨splitGsm7_ne_nil message, whole_of_fits hfits⟩
  · rw [if_neg hgsm]
    exact ⟨splitUcs2_ne_nil message, splitUcs2_whole message⟩

/-- Every non-empty message is cut into the parts that were counted, none of which needs cutting
again. -/
theorem splitMessage_valid {message : JsString} (h : message ≠ []) :
    ValidParts message (splitMessage message) := by
  by_cases hone : (analyzeMessage message).segments = 1
  · have hparts : splitMessage message = [message] := by
      rw [splitMessage, if_pos hone]
    rw [hparts]
    refine ⟨hone.symm, by simpa using h, by simp, ?_, ?_, List.isChain_singleton _,
      by simpa using hone⟩
    · intro hlong
      exact absurd hlong (by simp)
    · intro hlong
      exact absurd hlong (by simp)
  · have hpos := one_le_segments message
    have hmany : 1 < (analyzeMessage message).segments := by omega
    obtain ⟨hcount, hflatten, hfits⟩ := splitMessage_of_segments hmany
    obtain ⟨hne, hwhole⟩ := split_ne_nil hone
    refine ⟨hcount, hne, hflatten, ?_, ?_, hwhole, fun part hpart => segments_of_fits (hfits part hpart)⟩
    · intro _ hgsm part hpart
      have hfit := hfits part hpart
      rw [hgsm] at hfit
      exact ⟨_, hfit.2, by rw [countSeptets_eq hfit.1, Nat.zero_add]⟩
    · intro _ hucs2 part hpart
      have hfit := hfits part hpart
      rw [hucs2] at hfit
      exact hfit

/-- 250 euro signs, two septets each. -/
def euros : JsString := List.replicate 250 0x20ac

theorem splitMessage_valid_euros : ValidParts euros (splitMessage euros) :=
  splitMessage_valid (by decide)

/-! ## No shorter cut -/

/-- The character is in the basic or in the extension table. -/
def InTables (ch : JsString) : Prop :=
  (gsm7Codes.lookup ch).isSome = true ∨ (gsm7ExtCodes.lookup ch).isSome = true

/-- What a character takes up: septets, or code units. -/
def load : Encoding → JsString → Nat
  | .GSM => septetCost
  | .UCS2 => List.length

def singleCapacity : Encoding → Nat
  | .GSM => gsm7Single
  | .UCS2 => ucs2Single

def partCapacity : Encoding → Nat
  | .GSM => gsm7PerSegment
  | .UCS2 => ucs2PerSegment

def FitsSingle (encoding : Encoding) (message : JsString) : Prop :=
  Cut.total (load encoding) (forOf message) ≤ singleCapacity encoding

/-- The characters of the message can be cut into `n` consecutive pieces that each fit a part. -/
def CutInto (encoding : Encoding) (message : JsString) (n : Nat) : Prop :=
  ∃ pieces, pieces.length = n ∧
    Cut.IsCut (load encoding) (partCapacity encoding) (forOf message) pieces

/-- The analysis asks for as many SMS as the message needs, and for no more. -/
structure NeedsSegments (message : JsString) (info : MessageInfo) : Prop where
  encoding : info.encoding = .GSM ↔ ∀ ch ∈ forOf message, InTables ch
  single : FitsSingle info.encoding message → info.segments = 1
  least : ¬FitsSingle info.encoding message →
    IsLeast {n | CutInto info.encoding message n} info.segments
  ok : info.ok = true ↔ FitsSingle info.encoding message ∨
    ∃ n ≤ maxSegments, CutInto info.encoding message n

theorem gsm7Cost_isSome_iff (ch : JsString) : (gsm7Cost ch).isSome = true ↔ InTables ch := by
  unfold gsm7Cost InTables
  by_cases hbasic : (gsm7Codes.lookup ch).isSome = true
  · simp [hbasic]
  · rw [if_neg hbasic]
    by_cases hext : (gsm7ExtCodes.lookup ch).isSome = true
    · simp [hext]
    · simp [hbasic, hext]

theorem total_length (s : JsString) : Cut.total List.length (forOf s) = s.length :=
  length_forOf_flatten s

/-- The loop of `splitUcs2` cuts the characters. -/
theorem splitUcs2_isCut (rest : JsString) :
    Cut.IsCut List.length ucs2PerSegment (forOf rest) ((splitUcs2 rest).map forOf) := by
  constructor
  · fun_induction splitUcs2 rest with
    | case1 => rfl
    | case2 rest h ih =>
        have happend := forOf_append (splitsPair_take rest)
        rw [List.take_append_drop] at happend
        rw [List.map_cons, List.flatten_cons, ih, happend]
  · intro piece hpiece
    obtain ⟨part, hpart, rfl⟩ := List.mem_map.mp hpiece
    intro hnil
    have hflat := forOf_flatten part
    rw [hnil, List.flatten_nil] at hflat
    exact splitUcs2_ne_nil rest part hpart hflat.symm
  · intro piece hpiece
    obtain ⟨part, hpart, rfl⟩ := List.mem_map.mp hpiece
    rw [total_length]
    exact splitUcs2_fits rest part hpart

/-- A high surrogate that starts a well-formed text is half of a pair. -/
theorem pair_head {c : CodeUnit} {s : JsString} (h : isWellFormed (c :: s) = true)
    (hhigh : isHighSurrogate c = true) : ∃ d rest, s = d :: rest ∧ isLowSurrogate d = true := by
  cases s with
  | nil => simp [isWellFormed, forOf, isScalar, hhigh] at h
  | cons d rest =>
      refine ⟨d, rest, rfl, ?_⟩
      by_contra hlow
      rw [Bool.not_eq_true] at hlow
      simp [isWellFormed, forOf, hlow, isScalar, hhigh] at h

theorem length_head {s : JsString} (h : isWellFormed s = true) {c : CodeUnit} (hc : s.head? = some c)
    (hhigh : isHighSurrogate c = true) : ∀ ch ∈ (forOf s).head?, ch.length = 2 := by
  obtain ⟨s, rfl⟩ := List.head?_eq_some_iff.mp hc
  obtain ⟨d, rest, rfl, hlow⟩ := pair_head h hhigh
  intro ch hch
  rw [forOf, hhigh, hlow] at hch
  obtain rfl := Option.some.inj hch
  rfl

theorem isWellFormed_drop {rest : JsString} (h : isWellFormed rest = true) :
    isWellFormed (rest.drop (ucs2Take rest)) = true := by
  have happend := isWellFormed_append (splitsPair_take rest)
  rw [List.take_append_drop, h] at happend
  exact (Bool.and_eq_true_iff.mp happend.symm).2

/-- What stands behind a part that is not the last did not fit into it. -/
theorem no_room {rest : JsString} (h : isWellFormed rest = true)
    (hmore : rest.drop (ucs2Take rest) ≠ []) :
    ∀ ch ∈ (forOf (rest.drop (ucs2Take rest))).head?,
      ucs2PerSegment < (rest.take (ucs2Take rest)).length + ch.length := by
  intro ch hch
  have hpos : 0 < ch.length :=
    List.length_pos_of_ne_nil (forOf_ne_nil ch (List.mem_of_head? hch))
  rw [List.length_take]
  rcases ucs2Take_cases rest with ⟨htake, -⟩ | ⟨htake, hlong, -⟩ | ⟨htake, hlong, hhigh⟩
  · rw [htake, List.drop_length] at hmore
    exact absurd rfl hmore
  · rw [htake]
    show 67 < _
    omega
  · have hdrop := isWellFormed_drop h
    have hhead : (rest.drop 66).head? = some (rest.getD 66 0) := by
      rw [List.head?_drop, List.getD_eq_getElem _ _ (by omega), List.getElem?_eq_getElem (by omega)]
    rw [htake] at hdrop hch ⊢
    have htwo := length_head hdrop hhead hhigh ch hch
    show 67 < _
    omega

theorem splitUcs2_tight {rest : JsString} (h : isWellFormed rest = true) :
    Cut.Tight List.length ucs2PerSegment ((splitUcs2 rest).map forOf) := by
  fun_induction splitUcs2 rest with
  | case1 => exact List.isChain_nil
  | case2 rest hne ih =>
      rw [List.map_cons]
      apply List.isChain_cons.mpr
      refine ⟨?_, ih (isWellFormed_drop h)⟩
      intro piece hpiece ch hch
      rw [total_length]
      have hflatten := (splitUcs2_isCut (rest.drop (ucs2Take rest))).flatten
      obtain ⟨pieces, hpieces⟩ := List.head?_eq_some_iff.mp hpiece
      obtain ⟨chs, rfl⟩ := List.head?_eq_some_iff.mp hch
      rw [hpieces, List.flatten_cons, List.cons_append] at hflatten
      have hhead : ch ∈ (forOf (rest.drop (ucs2Take rest))).head? := by
        rw [← hflatten]
        rfl
      apply no_room h ?_ ch hhead
      intro hnil
      rw [hnil] at hhead
      cases hhead

theorem splitUcs2_isLeast {message : JsString} (h : isWellFormed message = true) :
    IsLeast {n | CutInto .UCS2 message n} (splitUcs2 message).length := by
  have hleast := (splitUcs2_tight h).isLeast (splitUcs2_isCut message)
  rwa [List.length_map] at hleast

theorem splitGsm7_isLeast (message : JsString) :
    IsLeast {n | CutInto .GSM message n} (splitGsm7 message).length := by
  have hleast := Cut.greedy_isLeast fun x (_ : x ∈ forOf message) => septetCost_le x
  rw [splitGsm7_eq_greedy, List.length_map]
  exact hleast

/-- The number of SMS follows from the single capacity and the least cut. -/
theorem needsSegments_of {message : JsString} {info : MessageInfo} {pieces : Nat}
    (hencoding : info.encoding = .GSM ↔ IsGsm message)
    (hone : FitsSingle info.encoding message → info.segments = 1)
    (hmany : ¬FitsSingle info.encoding message → info.segments = pieces)
    (hok : info.ok = decide (info.segments ≤ maxSegments))
    (hleast : IsLeast {n | CutInto info.encoding message n} pieces) : NeedsSegments message info := by
  refine ⟨?_, hone, ?_, ?_⟩
  · rw [hencoding]
    exact forall₂_congr fun ch _ => gsm7Cost_isSome_iff ch
  · intro hlong
    rw [hmany hlong]
    exact hleast
  · rw [hok, decide_eq_true_eq]
    by_cases hsingle : FitsSingle info.encoding message
    · have hle : 1 ≤ maxSegments := by decide
      rw [hone hsingle]
      exact iff_of_true hle (Or.inl hsingle)
    · rw [hmany hsingle]
      constructor
      · intro hle
        exact Or.inr ⟨pieces, hle, hleast.1⟩
      · rintro (hfits | ⟨n, hn, hcut⟩)
        · exact absurd hfits hsingle
        · exact (hleast.2 hcut).trans hn

/-- A message is turned away only when no cut carries it. -/
theorem analyzeMessage_minimal {message : JsString} (h : isWellFormed message = true) :
    NeedsSegments message (analyzeMessage message) := by
  have hencoding := encoding_eq_gsm_iff message
  have hok := analyzeMessage_ok message
  by_cases hgsm : IsGsm message
  · rw [analyze_gsm hgsm] at hencoding hok ⊢
    exact needsSegments_of hencoding (fun hs => if_pos hs) (fun hl => if_neg hl) hok
      (splitGsm7_isLeast message)
  · have hsingle : FitsSingle .UCS2 message ↔ message.length ≤ ucs2Single := by
      rw [FitsSingle, load, total_length]
      rfl
    rw [analyze_ucs2 hgsm] at hencoding hok ⊢
    exact needsSegments_of hencoding (fun hs => if_pos (hsingle.mp hs))
      (fun hl => if_neg fun hs => hl (hsingle.mpr hs)) hok (splitUcs2_isLeast h)

theorem analyzeMessage_minimal_euros : NeedsSegments euros (analyzeMessage euros) :=
  analyzeMessage_minimal (by decide +kernel)

/-! ## The analyser of the stick's driver -/

/-- At how many of the first `n` cuts a surrogate pair stands across the 67th unit, so that the
part ends one unit early. -/
def straddles : Nat → JsString → Nat
  | 0, _ => 0
  | n + 1, rest =>
      if isHighSurrogate (rest.getD 66 0) && isLowSurrogate (rest.getD 67 0) then
        straddles n (rest.drop 66) + 1
      else straddles n (rest.drop 67)

theorem straddles_short {rest : JsString} (h : rest.length ≤ 67) (n : Nat) : straddles n rest = 0 := by
  induction n generalizing rest with
  | zero => rfl
  | succ n ih =>
      have hget : rest.getD 67 0 = 0 := List.getD_eq_default _ _ h
      have hlow : isLowSurrogate 0 = false := by decide
      rw [straddles, hget, hlow, Bool.and_false, if_neg Bool.false_ne_true]
      exact ih (by rw [List.length_drop]; omega)

/-- A part takes 67 units, or 66 where a pair stands across. -/
theorem straddles_step {rest : JsString} (h : isWellFormed rest = true) (hlong : 67 < rest.length)
    (n : Nat) : ucs2Take rest + straddles (n + 1) rest =
      67 + straddles n (rest.drop (ucs2Take rest)) := by
  rcases ucs2Take_cases rest with ⟨-, hshort⟩ | ⟨htake, -, hhigh⟩ | ⟨htake, -, hhigh⟩
  · omega
  · rw [htake, straddles, hhigh, Bool.false_and, if_neg Bool.false_ne_true]
  · have hdrop := isWellFormed_drop h
    rw [htake, List.drop_eq_getElem_cons (by omega)] at hdrop
    rw [List.getD_eq_getElem _ _ (by omega)] at hhigh
    obtain ⟨d, rest', hd, hlow⟩ := pair_head hdrop hhigh
    have hget : rest.getD 67 0 = d := by
      rw [List.getD_eq_getElem?_getD, ← List.head?_drop, hd]
      rfl
    rw [htake, straddles, List.getD_eq_getElem _ _ (by omega), hhigh, hget, hlow, Bool.and_self,
      if_pos rfl]
    omega

theorem length_splitUcs2_short {rest : JsString} (h : rest.length ≤ 67) :
    (splitUcs2 rest).length ≤ 1 := by
  by_cases hrest : rest = []
  · rw [hrest, splitUcs2_nil]
    exact Nat.zero_le _
  · have htake : ucs2Take rest = rest.length := by
      rcases ucs2Take_cases rest with ⟨htake, -⟩ | ⟨-, hlong, -⟩ | ⟨-, hlong, -⟩
      · exact htake
      · omega
      · omega
    rw [splitUcs2_cons hrest, htake, List.drop_length, splitUcs2_nil]
    exact le_rfl

/-- `n + 1` parts hold 67 units each, less the units that the pairs across the cuts cost. -/
theorem length_splitUcs2_le_iff {rest : JsString} (h : isWellFormed rest = true) (n : Nat) :
    (splitUcs2 rest).length ≤ n + 1 ↔ rest.length + straddles n rest ≤ 67 * (n + 1) := by
  induction n generalizing rest with
  | zero =>
      have hzero : straddles 0 rest = 0 := rfl
      constructor
      · intro hle
        by_contra hlong
        have hmore : rest.drop (ucs2Take rest) ≠ [] := by
          have htake : ucs2Take rest ≤ 67 := (ucs2Take_le rest).1
          rw [← List.length_pos_iff, List.length_drop]
          omega
        have hne : rest ≠ [] := by
          rintro rfl
          exact hmore List.drop_nil
        rw [splitUcs2_cons hne, splitUcs2_cons hmore] at hle
        simp at hle
      · intro hle
        exact length_splitUcs2_short (by omega)
  | succ n ih =>
      by_cases hshort : rest.length ≤ 67
      · have hle := length_splitUcs2_short hshort
        have hzero := straddles_short hshort (n + 1)
        omega
      · have hne : rest ≠ [] := by
          rintro rfl
          exact hshort (Nat.zero_le _)
        have htake := ucs2Take_le rest
        have hstep := straddles_step h (by omega) n
        have hrest := ih (isWellFormed_drop h)
        rw [List.length_drop] at hrest
        rw [splitUcs2_cons hne, List.length_cons]
        omega

/-- The message fits one SMS, or can be cut into `n` parts. -/
def Carries (message : JsString) (n : Nat) : Prop :=
  (n = 1 ∧ FitsSingle .UCS2 message) ∨ CutInto .UCS2 message n

/-- The two analysers report the same, and what the stick's driver accepts can be sent. -/
structure Agree (message : JsString) : Prop where
  length : (Zte.analyzeUcs2 message).length = (analyzeMessage message).length
  segments : (Zte.analyzeUcs2 message).segments = (analyzeMessage message).segments
  ok : (Zte.analyzeUcs2 message).ok = (analyzeMessage message).ok
  carried : (Zte.analyzeUcs2 message).ok = true → Carries message (Zte.analyzeUcs2 message).segments

/-- The parts that the length alone asks for. -/
def fullParts (message : JsString) : Nat := (message.length + 66) / 67

/-- No pair stands across a cut, or the last part has room for the units this costs. -/
def Roomy (message : JsString) : Prop :=
  message.length ≤ ucs2Single ∨
    message.length + straddles (fullParts message - 1) message ≤ 67 * fullParts message

theorem agree_of_segments {message : JsString} (h : isWellFormed message = true)
    (hgsm : ¬IsGsm message)
    (hsegments : (Zte.analyzeUcs2 message).segments = (analyzeMessage message).segments) :
    Agree message := by
  have hlength : (Zte.analyzeUcs2 message).length = (analyzeMessage message).length := by
    rw [analyze_ucs2 hgsm]
    rfl
  have hok : (Zte.analyzeUcs2 message).ok = (analyzeMessage message).ok := by
    rw [analyzeMessage_ok, ← hsegments]
    rfl
  refine ⟨hlength, hsegments, hok, ?_⟩
  intro _
  have hneeds := analyzeMessage_minimal h
  have hencoding : (analyzeMessage message).encoding = .UCS2 := by rw [analyze_ucs2 hgsm]
  rw [hsegments]
  by_cases hsingle : FitsSingle .UCS2 message
  · exact Or.inl ⟨hneeds.single (hencoding.symm ▸ hsingle), hsingle⟩
  · have hleast := hneeds.least (hencoding.symm ▸ hsingle)
    rw [hencoding] at hleast
    exact Or.inr hleast.1

/-- The analysers agree on a UCS2 message exactly when the ceiling leaves room for the pairs. -/
theorem agree_iff {message : JsString} (h : isWellFormed message = true) (hgsm : ¬IsGsm message) :
    Agree message ↔ Roomy message := by
  by_cases hsingle : message.length ≤ ucs2Single
  · have hagree : Agree message := by
      apply agree_of_segments h hgsm
      rw [analyze_ucs2 hgsm, Zte.analyzeUcs2]
      simp only [if_pos hsingle]
    exact iff_of_true hagree (Or.inl hsingle)
  · have hlong : 70 < message.length := Nat.lt_of_not_le hsingle
    have hzte : (Zte.analyzeUcs2 message).segments = fullParts message := by
      rw [Zte.analyzeUcs2]
      simp only [if_neg hsingle]
      rfl
    have hshared : (analyzeMessage message).segments = (splitUcs2 message).length := by
      rw [analyze_ucs2 hgsm]
      exact if_neg hsingle
    obtain ⟨k, hk⟩ : ∃ k, fullParts message = k + 2 := by
      refine ⟨fullParts message - 2, ?_⟩
      unfold fullParts
      omega
    have hfull : 67 * (k + 1) < message.length ∧ message.length ≤ 67 * (k + 2) := by
      unfold fullParts at hk
      omega
    -- the length alone keeps the loop from needing fewer parts
    have hmany := length_splitUcs2_le_iff h k
    have hle := length_splitUcs2_le_iff h (k + 1)
    have hroomy : Roomy message ↔ message.length + straddles (k + 1) message ≤ 67 * (k + 2) := by
      rw [Roomy, hk, or_iff_right hsingle]
      rfl
    rw [hroomy]
    constructor
    · intro hagree
      have hsame := hagree.segments
      rw [hzte, hshared, hk] at hsame
      omega
    · intro hroom
      apply agree_of_segments h hgsm
      rw [hzte, hshared, hk]
      omega

/-- Cyrillic text of exactly two parts. -/
def russian : JsString := List.replicate 134 0x0416

theorem agree_iff_russian : Agree russian ↔ Roomy russian :=
  agree_iff (by decide +kernel) (by rw [← encoding_eq_gsm_iff]; decide +kernel)

/-- 201 units with a surrogate pair across the end of the first part. -/
def straddling : JsString :=
  List.replicate 66 0x0416 ++ [0xd83d, 0xde00] ++ List.replicate 133 0x0416

/-- The ceiling counts three parts for it and accepts it, the loop needs four. -/
theorem straddling_disagree : isWellFormed straddling = true ∧ ¬IsGsm straddling ∧
    ¬Agree straddling := by
  refine ⟨by decide +kernel, ?_, ?_⟩
  · rw [← encoding_eq_gsm_iff]
    decide +kernel
  · intro hagree
    have hzte : (Zte.analyzeUcs2 straddling).segments = 3 := by decide +kernel
    have hshared : (analyzeMessage straddling).segments = 4 := by decide +kernel
    have hsame := hagree.segments
    omega

end SmsGateway.Splitting
