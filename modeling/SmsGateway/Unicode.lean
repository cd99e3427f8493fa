import SmsGateway.Js

/-!
# Well-formed strings and UTF-8

A string is well formed when every surrogate is half of a pair. UTF-8 is read the way
`Buffer.toString('utf8')` reads it: what is no character becomes U+FFFD, one for each
longest start of a character.
-/

namespace SmsGateway

/-- No unpaired surrogate. -/
def isScalar : JsString → Bool
  | [c] => !isHighSurrogate c && !isLowSurrogate c
  | [c, d] => isHighSurrogate c && isLowSurrogate d
  | _ => false

/-- `s.isWellFormed()`. -/
def isWellFormed (s : JsString) : Bool := (forOf s).all isScalar

/-- A surrogate pair stands across the place between `a` and `b`. -/
def splitsPair (a b : JsString) : Bool :=
  a.getLast?.any isHighSurrogate && b.head?.any isLowSurrogate

theorem splitsPair_cons {c d : CodeUnit} {a : JsString} (b : JsString) :
    splitsPair (c :: d :: a) b = splitsPair (d :: a) b := by
  simp [splitsPair, List.getLast?_cons_cons]

/-- Two strings are iterated one after the other unless their ends make a pair. -/
theorem forOf_append {a b : JsString} (h : splitsPair a b = false) :
    forOf (a ++ b) = forOf a ++ forOf b := by
  induction a using forOf.induct with
  | case1 => rfl
  | case2 c =>
      cases b with
      | nil => rfl
      | cons d b =>
          have hcd : (isHighSurrogate c && isLowSurrogate d) = false := by simpa [splitsPair] using h
          simp [forOf, hcd]
  | case3 c d rest hp ih =>
      have hrest : splitsPair rest b = false := by
        cases rest with
        | nil => rfl
        | cons e rest => rwa [splitsPair_cons, splitsPair_cons] at h
      simp [forOf, hp, ih hrest]
  | case4 c d rest hp ih =>
      rw [splitsPair_cons] at h
      have hrest := ih h
      simp only [List.cons_append] at hrest ⊢
      rw [forOf, if_neg hp, forOf, if_neg hp, hrest, List.cons_append]

theorem isWellFormed_append {a b : JsString} (h : splitsPair a b = false) :
    isWellFormed (a ++ b) = (isWellFormed a && isWellFormed b) := by
  rw [isWellFormed, forOf_append h, List.all_append]
  rfl

theorem length_forOf_flatten (s : JsString) : ((forOf s).map List.length).sum = s.length := by
  rw [← List.length_flatten, forOf_flatten]

/-! ## Code points -/

/-- `String.fromCodePoint(n)`. -/
def fromCodePoint (n : Nat) : JsString :=
  if n < 0x10000 then [UInt16.ofNat n]
  else [UInt16.ofNat (0xd800 + (n - 0x10000) / 0x400), UInt16.ofNat (0xdc00 + (n - 0x10000) % 0x400)]

/-- A Unicode scalar value. -/
def IsScalarValue (n : Nat) : Prop := n < 0xd800 ∨ (0xe000 ≤ n ∧ n < 0x110000)

theorem isHighSurrogate_iff (c : CodeUnit) :
    isHighSurrogate c = true ↔ 0xd800 ≤ c.toNat ∧ c.toNat ≤ 0xdbff := by
  simp only [isHighSurrogate, Bool.and_eq_true, decide_eq_true_eq, UInt16.le_iff_toNat_le]
  rfl

theorem isLowSurrogate_iff (c : CodeUnit) :
    isLowSurrogate c = true ↔ 0xdc00 ≤ c.toNat ∧ c.toNat ≤ 0xdfff := by
  simp only [isLowSurrogate, Bool.and_eq_true, decide_eq_true_eq, UInt16.le_iff_toNat_le]
  rfl

/-- A well-formed string does not end in half a pair. -/
theorem splitsPair_of_wellFormed {a : JsString} (h : isWellFormed a = true) (b : JsString) :
    splitsPair a b = false := by
  induction a using forOf.induct with
  | case1 => rfl
  | case2 c =>
      have hc : isHighSurrogate c = false := by
        simp only [isWellFormed, forOf, List.all_cons, List.all_nil, isScalar, Bool.and_true,
          Bool.and_eq_true, Bool.not_eq_true'] at h
        exact h.1
      simp [splitsPair, hc]
  | case3 c d rest hp ih =>
      simp only [isWellFormed, forOf, hp, if_true, List.all_cons, Bool.and_eq_true] at h
      cases rest with
      | nil =>
          have hd : isHighSurrogate d = false := by
            rw [Bool.and_eq_true, isLowSurrogate_iff] at hp
            rw [← Bool.not_eq_true, isHighSurrogate_iff]
            omega
          simp [splitsPair, hd]
      | cons e rest =>
          rw [splitsPair_cons, splitsPair_cons]
          exact ih h.2
  | case4 c d rest hp ih =>
      rw [isWellFormed, forOf, if_neg hp, List.all_cons, Bool.and_eq_true] at h
      rw [splitsPair_cons]
      exact ih h.2

theorem isScalar_of_lt {c : CodeUnit} (h : c.toNat < 0xd800) : isScalar [c] = true := by
  have hhigh : isHighSurrogate c = false := by
    rw [← Bool.not_eq_true, isHighSurrogate_iff]
    omega
  have hlow : isLowSurrogate c = false := by
    rw [← Bool.not_eq_true, isLowSurrogate_iff]
    omega
  simp [isScalar, hhigh, hlow]

theorem wellFormed_of_lt {s : JsString} (h : ∀ c ∈ s, c.toNat < 0xd800) : isWellFormed s = true := by
  have hhigh : ∀ c ∈ s, isHighSurrogate c = false := by
    intro c hc
    have hlt := h c hc
    rw [← Bool.not_eq_true, isHighSurrogate_iff]
    omega
  rw [isWellFormed, forOf_of_no_high hhigh, List.all_map, List.all_eq_true]
  exact fun c hc => isScalar_of_lt (h c hc)

theorem wellFormed_decimal (n : Nat) : isWellFormed (decimal n) = true := by
  apply wellFormed_of_lt
  intro c hc
  have h := decimal_digits n c hc
  simp only [isDigit, Bool.and_eq_true, decide_eq_true_eq, UInt16.le_iff_toNat_le] at h
  have hle : c.toNat ≤ 0x39 := h.2
  omega

theorem wellFormed_append {a b : JsString} (ha : isWellFormed a = true)
    (hb : isWellFormed b = true) : isWellFormed (a ++ b) = true := by
  rw [isWellFormed_append (splitsPair_of_wellFormed ha b), ha, hb]
  rfl

theorem wellFormed_flatMap {α : Type} {l : List α} {f : α → JsString}
    (h : ∀ x ∈ l, isWellFormed (f x) = true) : isWellFormed (l.flatMap f) = true := by
  induction l with
  | nil => rfl
  | cons x l ih =>
      rw [List.flatMap_cons]
      exact wellFormed_append (h x List.mem_cons_self)
        (ih fun y hy => h y (List.mem_cons_of_mem x hy))

theorem utf8Octets_join {a b : JsString} (h : splitsPair a b = false) :
    utf8Octets (a ++ b) = utf8Octets a ++ utf8Octets b := by
  rw [utf8Octets, forOf_append h, List.flatMap_append]
  rfl

theorem utf8Octets_append {a : JsString} (ha : isWellFormed a = true) (b : JsString) :
    utf8Octets (a ++ b) = utf8Octets a ++ utf8Octets b :=
  utf8Octets_join (splitsPair_of_wellFormed ha b)

theorem isScalar_single {c : CodeUnit} (h : isScalar [c] = true) :
    c.toNat < 0xd800 ∨ 0xe000 ≤ c.toNat := by
  simp only [isScalar, Bool.and_eq_true, Bool.not_eq_true', ← Bool.not_eq_true,
    isHighSurrogate_iff, isLowSurrogate_iff] at h
  omega

theorem codePoint_single (c : CodeUnit) : codePoint [c] = c.toNat := rfl

theorem codePoint_pair (c d : CodeUnit) :
    codePoint [c, d] = 0x10000 + (c.toNat - 0xd800) * 0x400 + (d.toNat - 0xdc00) := rfl

theorem utf8Octets_eq {s : JsString} (h : ∀ c ∈ s, isHighSurrogate c = false) :
    utf8Octets s = s.flatMap fun c => utf8OfCodePoint c.toNat := by
  rw [utf8Octets, forOf_of_no_high h, List.flatMap_map]
  rfl

theorem utf8OfCodePoint_ascii {n : Nat} (h : n < 128) : utf8OfCodePoint n = [n] := by
  have hs : ¬(0xd800 ≤ n ∧ n ≤ 0xdfff) := by omega
  unfold utf8OfCodePoint
  simp only [if_neg hs]
  rw [if_pos h]

/-- An ASCII octet stands for its own character. -/
theorem ascii_mem_octets {n o : Nat} (ho : o < 0x80) (h : o ∈ utf8OfCodePoint n) : n = o := by
  unfold utf8OfCodePoint at h
  dsimp only at h
  split_ifs at h <;> simp only [List.mem_cons, List.not_mem_nil, or_false] at h <;> omega

theorem codePoint_mem_forOf {s : JsString} {ch : JsString} (h : ch ∈ forOf s) :
    (∃ c ∈ s, codePoint ch = c.toNat) ∨ 0x10000 ≤ codePoint ch := by
  induction s using forOf.induct with
  | case1 => simp [forOf] at h
  | case2 c =>
      rw [forOf, List.mem_singleton] at h
      exact Or.inl ⟨c, List.mem_singleton_self c, by rw [h, codePoint_single]⟩
  | case3 c d rest hp ih =>
      rw [forOf, if_pos hp, List.mem_cons] at h
      obtain rfl | hrest := h
      · right
        rw [codePoint_pair]
        omega
      · obtain ⟨x, hx, hcode⟩ | hlarge := ih hrest
        · exact Or.inl ⟨x, List.mem_cons_of_mem c (List.mem_cons_of_mem d hx), hcode⟩
        · exact Or.inr hlarge
  | case4 c d rest hp ih =>
      rw [forOf, if_neg hp, List.mem_cons] at h
      obtain rfl | hrest := h
      · exact Or.inl ⟨c, List.mem_cons_self, codePoint_single c⟩
      · obtain ⟨x, hx, hcode⟩ | hlarge := ih hrest
        · exact Or.inl ⟨x, List.mem_cons_of_mem c hx, hcode⟩
        · exact Or.inr hlarge

/-- An ASCII octet comes from the code unit it is. -/
theorem ascii_not_mem_octets {s : JsString} {c : CodeUnit} (hc : c.toNat < 0x80) (h : c ∉ s) :
    c.toNat ∉ utf8Octets s := by
  intro hmem
  obtain ⟨ch, hch, hoctet⟩ := List.mem_flatMap.mp hmem
  have hcode := ascii_mem_octets hc hoctet
  obtain ⟨x, hx, hxcode⟩ | hlarge := codePoint_mem_forOf hch
  · have hxc : x = c := UInt16.toNat_inj.mp (by omega)
    exact h (hxc ▸ hx)
  · omega

theorem isScalarValue_single {c : CodeUnit} (h : isScalar [c] = true) : IsScalarValue c.toNat := by
  have hc := isScalar_single h
  have hlt : c.toNat < 0x10000 := c.toNat_lt
  unfold IsScalarValue
  omega

theorem fromCodePoint_single (c : CodeUnit) : fromCodePoint c.toNat = [c] := by
  have hlt : c.toNat < 0x10000 := c.toNat_lt
  rw [fromCodePoint, if_pos hlt, UInt16.ofNat_toNat]

theorem fromCodePoint_pair {c d : CodeUnit} (h : isScalar [c, d] = true) :
    IsScalarValue (codePoint [c, d]) ∧ fromCodePoint (codePoint [c, d]) = [c, d] := by
  simp only [isScalar, Bool.and_eq_true, isHighSurrogate_iff, isLowSurrogate_iff] at h
  obtain ⟨⟨hc, hc'⟩, hd, hd'⟩ := h
  rw [codePoint_pair]
  generalize hn : 0x10000 + (c.toNat - 0xd800) * 0x400 + (d.toNat - 0xdc00) = n
  constructor
  · unfold IsScalarValue
    omega
  · have hbig : ¬ n < 0x10000 := by omega
    have hhigh : 0xd800 + (n - 0x10000) / 0x400 = c.toNat := by omega
    have hlow : 0xdc00 + (n - 0x10000) % 0x400 = d.toNat := by omega
    rw [fromCodePoint, if_neg hbig, hhigh, hlow, UInt16.ofNat_toNat, UInt16.ofNat_toNat]

/-- A character of a well-formed string is a scalar value and the string its code point makes. -/
theorem scalar_codePoint {ch : JsString} (h : isScalar ch = true) :
    IsScalarValue (codePoint ch) ∧ fromCodePoint (codePoint ch) = ch := by
  match ch with
  | [] => simp [isScalar] at h
  | [c] => exact ⟨isScalarValue_single h, fromCodePoint_single c⟩
  | [c, d] => exact fromCodePoint_pair h
  | c :: d :: e :: rest => simp [isScalar] at h

/-! ## Reading UTF-8 -/

namespace Utf8

/-- The octets that may come next inside a character. -/
structure Bounds where
  low : Nat
  high : Nat
  low_ge : 0x80 ≤ low
  high_le : high ≤ 0xbf
  deriving DecidableEq

def anyTail : Bounds := ⟨0x80, 0xbf, by decide, by decide⟩

/-- Between characters, or inside one with the value so far and the octets still to come. -/
inductive State where
  | start
  | inside (point needed : Nat) (bounds : Bounds)
  deriving DecidableEq

/-- The first octet of a character. -/
def lead (b : Nat) : JsString × State :=
  if b < 0x80 then ([UInt16.ofNat b], .start)
  else if 0xc2 ≤ b ∧ b ≤ 0xdf then ([], .inside (b - 0xc0) 1 anyTail)
  else if b = 0xe0 then ([], .inside 0 2 ⟨0xa0, 0xbf, by decide, by decide⟩)
  else if b = 0xed then ([], .inside 0xd 2 ⟨0x80, 0x9f, by decide, by decide⟩)
  else if 0xe1 ≤ b ∧ b ≤ 0xef then ([], .inside (b - 0xe0) 2 anyTail)
  else if b = 0xf0 then ([], .inside 0 3 ⟨0x90, 0xbf, by decide, by decide⟩)
  else if b = 0xf4 then ([], .inside 4 3 ⟨0x80, 0x8f, by decide, by decide⟩)
  else if 0xf1 ≤ b ∧ b ≤ 0xf3 then ([], .inside (b - 0xf0) 3 anyTail)
  else ([0xfffd], .start)

/-- One octet: what is written, and where the reader stands then. -/
def step : State → Nat → JsString × State
  | .start, b => lead b
  | .inside point needed bounds, b =>
      if bounds.low ≤ b ∧ b ≤ bounds.high then
        let point := point * 0x40 + (b - 0x80)
        if needed = 1 then (fromCodePoint point, .start)
        else ([], .inside point (needed - 1) anyTail)
      -- the octet is read again as the first one of a character
      else (0xfffd :: (lead b).1, (lead b).2)

def read : State → List Nat → JsString × State
  | s, [] => ([], s)
  | s, b :: rest => ((step s b).1 ++ (read (step s b).2 rest).1, (read (step s b).2 rest).2)

/-- The end of the octets. -/
def flush : State → JsString
  | .start => []
  | .inside _ _ _ => [0xfffd]

end Utf8

/-- `Buffer.toString('utf8')`. -/
def utf8Decode (octets : List Nat) : JsString :=
  (Utf8.read .start octets).1 ++ Utf8.flush (Utf8.read .start octets).2

/-- The octets of a well-formed string. -/
def IsUtf8 (octets : List Nat) : Prop := ∃ s, isWellFormed s = true ∧ utf8Octets s = octets

namespace Utf8

theorem read_append (s : State) (a b : List Nat) :
    read s (a ++ b) = ((read s a).1 ++ (read (read s a).2 b).1, (read (read s a).2 b).2) := by
  induction a generalizing s with
  | nil => rfl
  | cons x a ih => simp only [List.cons_append, read, ih, List.append_assoc]

/-- The reader goes on without an error. -/
def fits : State → Nat → Bool
  | .start, b => b < 0x80 || (0xc2 ≤ b && b ≤ 0xf4)
  | .inside _ _ bounds, b => bounds.low ≤ b && b ≤ bounds.high

/-- The octets take the reader from `s` to the end of a character without an error. -/
def Accepts : State → List Nat → Prop
  | s, [] => s = .start
  | s, b :: rest => fits s b = true ∧ Accepts (step s b).2 rest

theorem accepts_append {s : State} {a b : List Nat} (h : Accepts s (a ++ b)) :
    Accepts (read s a).2 b := by
  induction a generalizing s with
  | nil => exact h
  | cons x a ih => exact ih h.2

/-- `a` opens a character whose next octet may be `b`. -/
structure Opens (a point needed b : Nat) : Prop where
  fits : fits .start a = true
  inside : ∃ bounds : Bounds, lead a = ([], .inside point needed bounds) ∧
    bounds.low ≤ b ∧ b ≤ bounds.high

theorem fits_lead {a : Nat} (h : 0xc2 ≤ a) (h' : a ≤ 0xf4) : fits .start a = true := by
  simp only [fits, Bool.or_eq_true, Bool.and_eq_true, decide_eq_true_eq]
  omega

theorem lead_two {n : Nat} (h : 0x80 ≤ n) (h' : n < 0x800) :
    Opens (0xc0 + n / 0x40) (n / 0x40) 1 (0x80 + n % 0x40) := by
  refine ⟨fits_lead (by omega) (by omega), anyTail, ?_, ?_⟩
  · rw [lead, if_neg (by omega), if_pos (by omega), Nat.add_sub_cancel_left]
  · constructor
    · exact Nat.le_add_right _ _
    · show _ ≤ 0xbf
      omega

theorem lead_three {n : Nat} (h : 0x800 ≤ n) (h' : n < 0x10000) (hs : n < 0xd800 ∨ 0xe000 ≤ n) :
    Opens (0xe0 + n / 0x1000) (n / 0x1000) 2 (0x80 + n / 0x40 % 0x40) := by
  refine ⟨fits_lead (by omega) (by omega), ?_⟩
  rw [lead, if_neg (by omega), if_neg (by omega)]
  by_cases h0 : n / 0x1000 = 0
  · refine ⟨⟨0xa0, 0xbf, by decide, by decide⟩, ?_, ?_⟩
    · rw [if_pos (by omega), h0]
    · constructor
      · show 0xa0 ≤ _
        omega
      · show _ ≤ 0xbf
        omega
  rw [if_neg (by omega)]
  by_cases hd : n / 0x1000 = 0xd
  · refine ⟨⟨0x80, 0x9f, by decide, by decide⟩, ?_, ?_⟩
    · rw [if_pos (by omega), hd]
    · constructor
      · exact Nat.le_add_right _ _
      · show _ ≤ 0x9f
        omega
  · refine ⟨anyTail, ?_, ?_⟩
    · rw [if_neg (by omega), if_pos (by omega), Nat.add_sub_cancel_left]
    · constructor
      · exact Nat.le_add_right _ _
      · show _ ≤ 0xbf
        omega

theorem lead_four {n : Nat} (h : 0x10000 ≤ n) (h' : n < 0x110000) :
    Opens (0xf0 + n / 0x40000) (n / 0x40000) 3 (0x80 + n / 0x1000 % 0x40) := by
  refine ⟨fits_lead (by omega) (by omega), ?_⟩
  rw [lead, if_neg (by omega), if_neg (by omega), if_neg (by omega), if_neg (by omega),
    if_neg (by omega)]
  by_cases h0 : n / 0x40000 = 0
  · refine ⟨⟨0x90, 0xbf, by decide, by decide⟩, ?_, ?_⟩
    · rw [if_pos (by omega), h0]
    · constructor
      · show 0x90 ≤ _
        omega
      · show _ ≤ 0xbf
        omega
  rw [if_neg (by omega)]
  by_cases h4 : n / 0x40000 = 4
  · refine ⟨⟨0x80, 0x8f, by decide, by decide⟩, ?_, ?_⟩
    · rw [if_pos (by omega), h4]
    · constructor
      · exact Nat.le_add_right _ _
      · show _ ≤ 0x8f
        omega
  · refine ⟨anyTail, ?_, ?_⟩
    · rw [if_neg (by omega), if_pos (by omega), Nat.add_sub_cancel_left]
    · constructor
      · exact Nat.le_add_right _ _
      · show _ ≤ 0xbf
        omega

theorem step_last {point b : Nat} {bounds : Bounds} (h : bounds.low ≤ b) (h' : b ≤ bounds.high) :
    step (.inside point 1 bounds) b = (fromCodePoint (point * 0x40 + (b - 0x80)), .start) := by
  rw [step, if_pos ⟨h, h'⟩]
  rfl

theorem step_more {point k b : Nat} {bounds : Bounds} (h : bounds.low ≤ b)
    (h' : b ≤ bounds.high) :
    step (.inside point (k + 2) bounds) b =
      ([], .inside (point * 0x40 + (b - 0x80)) (k + 1) anyTail) := by
  rw [step, if_pos ⟨h, h'⟩]
  exact if_neg (by omega)

theorem fits_inside {point needed b : Nat} {bounds : Bounds} (h : bounds.low ≤ b)
    (h' : b ≤ bounds.high) : fits (.inside point needed bounds) b = true := by
  simp [fits, h, h']

theorem tail_le (n : Nat) : anyTail.low ≤ 0x80 + n % 0x40 ∧ 0x80 + n % 0x40 ≤ anyTail.high := by
  constructor
  · exact Nat.le_add_right _ _
  · show _ ≤ 0xbf
    omega

theorem end_of_accepts {s : State} {octets : List Nat} (h : Accepts s octets) :
    (read s octets).2 = .start := by
  induction octets generalizing s with
  | nil => exact h
  | cons x octets ih => exact ih h.2

theorem accepts_prefix {s : State} {a b : List Nat} (h : Accepts s (a ++ b))
    (hend : (read s a).2 = .start) : Accepts s a := by
  induction a generalizing s with
  | nil => exact hend
  | cons x a ih => exact ⟨h.1, ih h.2 hend⟩

/-- The octets of a scalar value write it and nothing else. -/
theorem scalar_octets {n : Nat} (h : IsScalarValue n) :
    Accepts .start (utf8OfCodePoint n) ∧
      read .start (utf8OfCodePoint n) = (fromCodePoint n, .start) := by
  unfold IsScalarValue at h
  have hn : ¬(0xd800 ≤ n ∧ n ≤ 0xdfff) := by omega
  simp only [utf8OfCodePoint, if_neg hn]
  by_cases h1 : n < 0x80
  · rw [if_pos h1, read, read, step, lead, if_pos h1, fromCodePoint, if_pos (by omega)]
    simp [Accepts, fits, step, lead, h1]
  rw [if_neg h1]
  by_cases h2 : n < 0x800
  · obtain ⟨hfits, bounds, hlead, hlow, hhigh⟩ := lead_two (n := n) (by omega) h2
    have hpoint : n / 0x40 * 0x40 + (0x80 + n % 0x40 - 0x80) = n := by omega
    rw [if_pos h2]
    simp only [Accepts, read, step.eq_1, hfits, hlead, fits_inside hlow hhigh, step_last hlow hhigh,
      hpoint, List.nil_append, List.append_nil, true_and]
  rw [if_neg h2]
  by_cases h3 : n < 0x10000
  · obtain ⟨hfits, bounds, hlead, hlow, hhigh⟩ := lead_three (n := n) (by omega) h3 (by omega)
    obtain ⟨hlow', hhigh'⟩ := tail_le n
    have hpoint : (n / 0x1000 * 0x40 + (0x80 + n / 0x40 % 0x40 - 0x80)) * 0x40 +
        (0x80 + n % 0x40 - 0x80) = n := by omega
    rw [if_pos h3]
    simp only [Accepts, read, step.eq_1, hfits, hlead, fits_inside hlow hhigh,
      fits_inside hlow' hhigh', step_more (k := 0) hlow hhigh, step_last hlow' hhigh', hpoint,
      List.nil_append, List.append_nil, true_and]
  · obtain ⟨hfits, bounds, hlead, hlow, hhigh⟩ := lead_four (n := n) (by omega) (by omega)
    obtain ⟨hlow', hhigh'⟩ := tail_le (n / 0x40)
    obtain ⟨hlow'', hhigh''⟩ := tail_le n
    have hpoint : ((n / 0x40000 * 0x40 + (0x80 + n / 0x1000 % 0x40 - 0x80)) * 0x40 +
        (0x80 + n / 0x40 % 0x40 - 0x80)) * 0x40 + (0x80 + n % 0x40 - 0x80) = n := by omega
    rw [if_neg h3]
    simp only [Accepts, read, step.eq_1, hfits, hlead, fits_inside hlow hhigh,
      fits_inside hlow' hhigh', fits_inside hlow'' hhigh'', step_more (k := 1) hlow hhigh,
      step_more (k := 0) hlow' hhigh', step_last hlow'' hhigh'', hpoint, List.nil_append,
      List.append_nil, true_and]

/-! ### Octets read without an error are those of a string -/

theorem accepts_last {point : Nat} {bounds : Bounds} {octets : List Nat}
    (h : Accepts (.inside point 1 bounds) octets) :
    ∃ b rest, octets = b :: rest ∧ (bounds.low ≤ b ∧ b ≤ bounds.high) ∧ Accepts .start rest := by
  cases octets with
  | nil => cases h
  | cons b rest =>
      have hb : bounds.low ≤ b ∧ b ≤ bounds.high := by simpa [fits] using h.1
      have hrest := h.2
      rw [step_last hb.1 hb.2] at hrest
      exact ⟨b, rest, rfl, hb, hrest⟩

theorem accepts_more {point k : Nat} {bounds : Bounds} {octets : List Nat}
    (h : Accepts (.inside point (k + 2) bounds) octets) :
    ∃ b rest, octets = b :: rest ∧ (bounds.low ≤ b ∧ b ≤ bounds.high) ∧
      ∃ point, Accepts (.inside point (k + 1) anyTail) rest := by
  cases octets with
  | nil => cases h
  | cons b rest =>
      have hb : bounds.low ≤ b ∧ b ≤ bounds.high := by simpa [fits] using h.1
      have hrest := h.2
      rw [step_more hb.1 hb.2] at hrest
      exact ⟨b, rest, rfl, hb, _, hrest⟩

theorem octets_two {a b : Nat} (ha : 0xc2 ≤ a ∧ a ≤ 0xdf) (hb : 0x80 ≤ b ∧ b ≤ 0xbf) :
    ∃ n, IsScalarValue n ∧ utf8OfCodePoint n = [a, b] := by
  obtain ⟨n, hn⟩ : ∃ n, n = (a - 0xc0) * 0x40 + (b - 0x80) := ⟨_, rfl⟩
  have hs : ¬(0xd800 ≤ n ∧ n ≤ 0xdfff) := by omega
  refine ⟨n, by unfold IsScalarValue; omega, ?_⟩
  simp only [utf8OfCodePoint, if_neg hs]
  rw [if_neg (by omega), if_pos (by omega)]
  simp only [List.cons.injEq, and_true]
  omega

theorem octets_three {a b c : Nat} (ha : 0xe0 ≤ a ∧ a ≤ 0xef) (hb : 0x80 ≤ b ∧ b ≤ 0xbf)
    (hc : 0x80 ≤ c ∧ c ≤ 0xbf) (h0 : a = 0xe0 → 0xa0 ≤ b) (hd : a = 0xed → b ≤ 0x9f) :
    ∃ n, IsScalarValue n ∧ utf8OfCodePoint n = [a, b, c] := by
  obtain ⟨n, hn⟩ : ∃ n, n = ((a - 0xe0) * 0x40 + (b - 0x80)) * 0x40 + (c - 0x80) := ⟨_, rfl⟩
  have hs : ¬(0xd800 ≤ n ∧ n ≤ 0xdfff) := by omega
  refine ⟨n, by unfold IsScalarValue; omega, ?_⟩
  simp only [utf8OfCodePoint, if_neg hs]
  rw [if_neg (by omega), if_neg (by omega), if_pos (by omega)]
  simp only [List.cons.injEq, and_true]
  omega

theorem octets_four {a b c d : Nat} (ha : 0xf0 ≤ a ∧ a ≤ 0xf4) (hb : 0x80 ≤ b ∧ b ≤ 0xbf)
    (hc : 0x80 ≤ c ∧ c ≤ 0xbf) (hd : 0x80 ≤ d ∧ d ≤ 0xbf) (h0 : a = 0xf0 → 0x90 ≤ b)
    (h4 : a = 0xf4 → b ≤ 0x8f) : ∃ n, IsScalarValue n ∧ utf8OfCodePoint n = [a, b, c, d] := by
  obtain ⟨n, hn⟩ : ∃ n,
      n = (((a - 0xf0) * 0x40 + (b - 0x80)) * 0x40 + (c - 0x80)) * 0x40 + (d - 0x80) := ⟨_, rfl⟩
  have hs : ¬(0xd800 ≤ n ∧ n ≤ 0xdfff) := by omega
  refine ⟨n, by unfold IsScalarValue; omega, ?_⟩
  simp only [utf8OfCodePoint, if_neg hs]
  rw [if_neg (by omega), if_neg (by omega), if_neg (by omega)]
  simp only [List.cons.injEq, and_true]
  omega

/-- The first character of octets that are read without an error. -/
theorem accepts_cons {b : Nat} {octets : List Nat} (h : Accepts .start (b :: octets)) :
    ∃ n rest, IsScalarValue n ∧ b :: octets = utf8OfCodePoint n ++ rest ∧ Accepts .start rest := by
  obtain ⟨hfits, hrest⟩ := h
  simp only [fits, Bool.or_eq_true, Bool.and_eq_true, decide_eq_true_eq] at hfits
  simp only [step, lead] at hrest
  by_cases h1 : b < 0x80
  · rw [if_pos h1] at hrest
    refine ⟨b, octets, by unfold IsScalarValue; omega, ?_, hrest⟩
    have hs : ¬(0xd800 ≤ b ∧ b ≤ 0xdfff) := by omega
    simp only [utf8OfCodePoint, if_neg hs, if_pos h1, List.singleton_append]
  rw [if_neg h1] at hrest
  by_cases h2 : 0xc2 ≤ b ∧ b ≤ 0xdf
  · rw [if_pos h2] at hrest
    obtain ⟨c, rest, rfl, hc, hrest⟩ := accepts_last hrest
    obtain ⟨n, hn, hoctets⟩ := octets_two h2 hc
    exact ⟨n, rest, hn, by rw [hoctets]; rfl, hrest⟩
  rw [if_neg h2] at hrest
  by_cases h3 : b ≤ 0xef
  · obtain ⟨point, bounds, hlow, hhigh, hopen⟩ : ∃ point, ∃ bounds : Bounds,
        (b = 0xe0 → 0xa0 ≤ bounds.low) ∧ (b = 0xed → bounds.high ≤ 0x9f) ∧
          Accepts (.inside point 2 bounds) octets := by
      by_cases h0 : b = 0xe0
      · rw [if_pos h0] at hrest
        exact ⟨_, _, fun _ => le_rfl, by omega, hrest⟩
      rw [if_neg h0] at hrest
      by_cases hd : b = 0xed
      · rw [if_pos hd] at hrest
        exact ⟨_, _, by omega, fun _ => le_rfl, hrest⟩
      · rw [if_neg hd, if_pos (by omega)] at hrest
        exact ⟨_, _, by omega, by omega, hrest⟩
    obtain ⟨c, rest, rfl, hc, point', hopen⟩ := accepts_more hopen
    obtain ⟨d, rest, rfl, hd, hrest⟩ := accepts_last hopen
    have hbounds := bounds.low_ge
    have hbounds' := bounds.high_le
    obtain ⟨n, hn, hoctets⟩ := octets_three (a := b) (b := c) (by omega) (by omega) hd
      (by omega) (by omega)
    exact ⟨n, rest, hn, by rw [hoctets]; rfl, hrest⟩
  · rw [if_neg (by omega), if_neg (by omega), if_neg (by omega)] at hrest
    obtain ⟨point, bounds, hlow, hhigh, hopen⟩ : ∃ point, ∃ bounds : Bounds,
        (b = 0xf0 → 0x90 ≤ bounds.low) ∧ (b = 0xf4 → bounds.high ≤ 0x8f) ∧
          Accepts (.inside point 3 bounds) octets := by
      by_cases h0 : b = 0xf0
      · rw [if_pos h0] at hrest
        exact ⟨_, _, fun _ => le_rfl, by omega, hrest⟩
      rw [if_neg h0] at hrest
      by_cases h4 : b = 0xf4
      · rw [if_pos h4] at hrest
        exact ⟨_, _, by omega, fun _ => le_rfl, hrest⟩
      · rw [if_neg h4, if_pos (by omega)] at hrest
        exact ⟨_, _, by omega, by omega, hrest⟩
    obtain ⟨c, rest, rfl, hc, point', hopen⟩ := accepts_more hopen
    obtain ⟨d, rest, rfl, hd, point'', hopen⟩ := accepts_more hopen
    obtain ⟨e, rest, rfl, he, hrest⟩ := accepts_last hopen
    have hbounds := bounds.low_ge
    have hbounds' := bounds.high_le
    obtain ⟨n, hn, hoctets⟩ := octets_four (a := b) (b := c) (by omega) (by omega) hd he
      (by omega) (by omega)
    exact ⟨n, rest, hn, by rw [hoctets]; rfl, hrest⟩

end Utf8

/-- A string starts with the character of a scalar value. -/
theorem fromCodePoint_append {n : Nat} (h : IsScalarValue n) (s : JsString) :
    forOf (fromCodePoint n ++ s) = fromCodePoint n :: forOf s ∧
      isScalar (fromCodePoint n) = true ∧ codePoint (fromCodePoint n) = n := by
  unfold IsScalarValue at h
  unfold fromCodePoint
  by_cases hn : n < 0x10000
  · have hto : (UInt16.ofNat n).toNat = n := by
      rw [UInt16.toNat_ofNat', Nat.mod_eq_of_lt hn]
    have hhigh : isHighSurrogate (UInt16.ofNat n) = false := by
      rw [← Bool.not_eq_true, isHighSurrogate_iff, hto]
      omega
    have hlow : isLowSurrogate (UInt16.ofNat n) = false := by
      rw [← Bool.not_eq_true, isLowSurrogate_iff, hto]
      omega
    rw [if_pos hn]
    refine ⟨?_, by simp [isScalar, hhigh, hlow], hto⟩
    exact forOf_append (by simp [splitsPair, hhigh])
  · have hto : (UInt16.ofNat (0xd800 + (n - 0x10000) / 0x400)).toNat =
        0xd800 + (n - 0x10000) / 0x400 := by
      rw [UInt16.toNat_ofNat', Nat.mod_eq_of_lt (by omega)]
    have hto' : (UInt16.ofNat (0xdc00 + (n - 0x10000) % 0x400)).toNat =
        0xdc00 + (n - 0x10000) % 0x400 := by
      rw [UInt16.toNat_ofNat', Nat.mod_eq_of_lt (by omega)]
    have hhigh : isHighSurrogate (UInt16.ofNat (0xd800 + (n - 0x10000) / 0x400)) = true := by
      rw [isHighSurrogate_iff, hto]
      omega
    have hlow : isLowSurrogate (UInt16.ofNat (0xdc00 + (n - 0x10000) % 0x400)) = true := by
      rw [isLowSurrogate_iff, hto']
      omega
    rw [if_neg hn]
    generalize UInt16.ofNat (0xd800 + (n - 0x10000) / 0x400) = c at hto hhigh ⊢
    generalize UInt16.ofNat (0xdc00 + (n - 0x10000) % 0x400) = d at hto' hlow ⊢
    refine ⟨?_, by simp [isScalar, hhigh, hlow], ?_⟩
    · simp [forOf, hhigh, hlow]
    · rw [codePoint_pair, hto, hto']
      omega

theorem IsUtf8.scalar_append {n : Nat} (hn : IsScalarValue n) {octets : List Nat} (h : IsUtf8 octets) :
    IsUtf8 (utf8OfCodePoint n ++ octets) := by
  obtain ⟨s, hs, rfl⟩ := h
  obtain ⟨hforOf, hscalar, hcode⟩ := fromCodePoint_append hn s
  refine ⟨fromCodePoint n ++ s, ?_, ?_⟩
  · rw [isWellFormed, hforOf, List.all_cons, hscalar]
    exact hs
  · rw [utf8Octets, hforOf, List.flatMap_cons, hcode]
    rfl

namespace Utf8

theorem accepts_trans {s : State} {a b : List Nat} (ha : Accepts s a) (hb : Accepts .start b) :
    Accepts s (a ++ b) := by
  induction a generalizing s with
  | nil =>
      cases ha
      exact hb
  | cons x a ih => exact ⟨ha.1, ih ha.2⟩

/-- The octets of a well-formed string are read back without an error. -/
theorem read_flatMap {chs : List JsString} (h : ∀ ch ∈ chs, isScalar ch = true) :
    Accepts .start (chs.flatMap fun ch => utf8OfCodePoint (codePoint ch)) ∧
      read .start (chs.flatMap fun ch => utf8OfCodePoint (codePoint ch)) = (chs.flatten, .start) := by
  induction chs with
  | nil => exact ⟨rfl, rfl⟩
  | cons ch chs ih =>
      obtain ⟨hvalue, hch⟩ := scalar_codePoint (h ch (by simp))
      obtain ⟨haccepts, hread⟩ := scalar_octets hvalue
      obtain ⟨haccepts', hread'⟩ := ih fun x hx => h x (List.mem_cons_of_mem ch hx)
      rw [List.flatMap_cons, List.flatten_cons]
      refine ⟨accepts_trans haccepts haccepts', ?_⟩
      rw [read_append, hread, hread', hch]

end Utf8

open Utf8 in
/-- Well-formed strings survive the way through UTF-8. -/
theorem utf8Decode_utf8Octets {s : JsString} (h : isWellFormed s = true) :
    utf8Decode (utf8Octets s) = s := by
  have hread := (read_flatMap (List.all_eq_true.mp h)).2
  rw [utf8Decode, utf8Octets, hread]
  simp only [flush, forOf_flatten, List.append_nil]

open Utf8 in
theorem isUtf8_iff (octets : List Nat) : IsUtf8 octets ↔ Accepts .start octets := by
  constructor
  · rintro ⟨s, hs, rfl⟩
    exact (read_flatMap (List.all_eq_true.mp hs)).1
  · induction hn : octets.length using Nat.strong_induction_on generalizing octets with
    | _ n ih =>
        intro h
        cases octets with
        | nil => exact ⟨[], rfl, rfl⟩
        | cons b octets =>
            obtain ⟨m, rest, hm, heq, hrest⟩ := accepts_cons h
            have hpos : 0 < (utf8OfCodePoint m).length := by
              unfold utf8OfCodePoint
              dsimp only
              split_ifs <;> simp
            have hlt : rest.length < n := by
              rw [← hn, heq, List.length_append]
              omega
            rw [heq]
            exact (ih rest.length hlt rest rfl hrest).scalar_append hm

/-! ## Octets read in chunks -/

/-- U+FFFD, which the reader writes for octets that are no character. -/
def replacement : CodeUnit := 0xfffd

/-- How much of a string the reader could not decode. -/
def damage (s : JsString) : Nat := s.count replacement

theorem damage_append (a b : JsString) : damage (a ++ b) = damage a + damage b := List.count_append

/-- A character is at most one U+FFFD. -/
theorem damage_fromCodePoint_le (n : Nat) : damage (fromCodePoint n) ≤ 1 := by
  unfold fromCodePoint damage
  split
  case isTrue => exact List.count_le_length
  case isFalse hn =>
    have hlow : UInt16.ofNat (0xdc00 + (n - 0x10000) % 0x400) ≠ replacement := by
      intro he
      have hto := congrArg UInt16.toNat he
      rw [UInt16.toNat_ofNat', Nat.mod_eq_of_lt (by omega)] at hto
      have hrep : replacement.toNat = 0xfffd := rfl
      omega
    rw [List.count_cons, List.count_cons_of_ne hlow, List.count_nil]
    split <;> omega

namespace Utf8

/-- A continuation octet on its own is damage. -/
theorem lead_tail {b : Nat} (h : 0x80 ≤ b) (h' : b ≤ 0xbf) : lead b = ([replacement], .start) := by
  rw [lead, if_neg (by omega), if_neg (by omega), if_neg (by omega), if_neg (by omega),
    if_neg (by omega), if_neg (by omega), if_neg (by omega), if_neg (by omega)]
  rfl

/-- An octet inside a character writes one character at most. -/
theorem step_inside {point needed b : Nat} {bounds : Bounds}
    (h : fits (.inside point needed bounds) b = true) :
    damage (step (.inside point needed bounds) b).1 ≤ 1 := by
  have hb : bounds.low ≤ b ∧ b ≤ bounds.high := by simpa [fits] using h
  have hstep : (step (.inside point needed bounds) b).1 =
      if needed = 1 then fromCodePoint (point * 0x40 + (b - 0x80)) else [] := by
    simp only [step, if_pos hb]
    by_cases hlast : needed = 1
    · simp only [if_pos hlast]
    · simp only [if_neg hlast]
  rw [hstep]
  split
  · exact damage_fromCodePoint_le _
  · exact Nat.zero_le _

/-- A reader that starts inside a character does at least the damage of one that knows its start,
and stands with it or between characters. -/
theorem read_restarted {s : State} {chunk rest : List Nat} (h : Accepts s (chunk ++ rest)) :
    damage (read s chunk).1 ≤ damage (read .start chunk).1 ∧
      ((read .start chunk).2 = (read s chunk).2 ∨ (read .start chunk).2 = .start) := by
  induction chunk generalizing s with
  | nil => exact ⟨le_rfl, Or.inr rfl⟩
  | cons b chunk ih =>
      cases s with
      | start => exact ⟨le_rfl, Or.inl rfl⟩
      | inside point needed bounds =>
          have hfits := h.1
          have hb : bounds.low ≤ b ∧ b ≤ bounds.high := by simpa [fits] using hfits
          have hlow := bounds.low_ge
          have hhigh := bounds.high_le
          have hlead := lead_tail (b := b) (by omega) (by omega)
          have hone := step_inside hfits
          obtain ⟨hdamage, hstate⟩ := ih h.2
          have hrep : damage [replacement] = 1 := rfl
          simp only [read, step.eq_1, hlead, damage_append, hrep]
          exact ⟨by omega, hstate⟩

/-- Read chunk by chunk, octets do at least the damage of the whole; they do no more only when
every chunk ends between characters. -/
theorem damage_chunks {s : State} {chunks : List (List Nat)} (h : Accepts s chunks.flatten) :
    damage (read s chunks.flatten).1 ≤ damage (chunks.flatMap utf8Decode) ∧
      (s = .start → damage (chunks.flatMap utf8Decode) ≤ damage (read s chunks.flatten).1 →
        ∀ c ∈ chunks, Accepts .start c) := by
  induction chunks generalizing s with
  | nil => exact ⟨Nat.zero_le _, fun _ _ c hc => absurd hc List.not_mem_nil⟩
  | cons chunk chunks ih =>
      rw [List.flatten_cons] at h
      obtain ⟨hdamage, hstate⟩ := read_restarted h
      obtain ⟨hrest, hall⟩ := ih (accepts_append h)
      rw [List.flatten_cons, List.flatMap_cons, read_append]
      simp only [damage_append, utf8Decode]
      constructor
      · omega
      · intro hs hle
        subst hs
        have hflush : damage (flush (read .start chunk).2) = 0 := by omega
        have hend : (read .start chunk).2 = .start := by
          cases hr : (read .start chunk).2 with
          | start => rfl
          | inside point needed bounds =>
              rw [hr] at hflush
              cases hflush
        intro c hc
        rcases List.mem_cons.mp hc with rfl | hc
        · exact accepts_prefix h hend
        · exact hall hend (by omega) c hc

/-! ### What the reader writes is well formed -/

/-- Every way to go on inside a character ends in a scalar value. -/
def Sound : State → Prop
  | .start => True
  | .inside point needed bounds =>
      0 < needed ∧
        ((point * 0x40 + (bounds.high - 0x80) + 1) * 0x40 ^ (needed - 1) ≤ 0xd800 ∨
          (0xe000 ≤ (point * 0x40 + (bounds.low - 0x80)) * 0x40 ^ (needed - 1) ∧
            (point * 0x40 + (bounds.high - 0x80) + 1) * 0x40 ^ (needed - 1) ≤ 0x110000))

theorem sound_start : Sound .start := trivial

theorem wellFormed_fromCodePoint {n : Nat} (h : IsScalarValue n) :
    isWellFormed (fromCodePoint n) = true := by
  obtain ⟨hforOf, hscalar, -⟩ := fromCodePoint_append h []
  rw [List.append_nil] at hforOf
  rw [isWellFormed, hforOf, List.all_cons, hscalar]
  rfl

theorem lead_sound (b : Nat) : isWellFormed (lead b).1 = true ∧ Sound (lead b).2 := by
  unfold lead
  split_ifs with h1
  · refine ⟨wellFormed_of_lt fun c hc => ?_, sound_start⟩
    rw [List.mem_singleton.mp hc, UInt16.toNat_ofNat', Nat.mod_eq_of_lt (by omega)]
    omega
  case neg => exact ⟨by decide, sound_start⟩
  all_goals
    refine ⟨rfl, by decide, ?_⟩
    simp only [anyTail]
    omega

theorem step_sound {s : State} (h : Sound s) (b : Nat) :
    isWellFormed (step s b).1 = true ∧ Sound (step s b).2 := by
  cases s with
  | start => exact lead_sound b
  | inside point needed bounds =>
      by_cases hb : bounds.low ≤ b ∧ b ≤ bounds.high
      · obtain ⟨hneeded, hrange⟩ := h
        obtain ⟨k, rfl⟩ := Nat.exists_eq_add_of_lt hneeded
        rw [Nat.zero_add, Nat.add_sub_cancel] at hrange
        have hge := bounds.low_ge
        cases k with
        | zero =>
            rw [Nat.pow_zero, Nat.mul_one, Nat.mul_one] at hrange
            have hpoint : IsScalarValue (point * 0x40 + (b - 0x80)) := by
              unfold IsScalarValue
              omega
            simp only [Nat.zero_add, step_last hb.1 hb.2]
            exact ⟨wellFormed_fromCodePoint hpoint, sound_start⟩
        | succ k =>
            rw [Nat.zero_add, step_more hb.1 hb.2]
            refine ⟨rfl, Nat.succ_pos k, ?_⟩
            -- the ways to go on after this octet are some of those before it
            have hlow : (point * 0x40 + (bounds.low - 0x80)) * 0x40 ^ (k + 1) ≤
                ((point * 0x40 + (b - 0x80)) * 0x40 + (anyTail.low - 0x80)) * 0x40 ^ k := by
              rw [Nat.pow_succ', ← Nat.mul_assoc]
              apply Nat.mul_le_mul_right
              omega
            have hhigh : ((point * 0x40 + (b - 0x80)) * 0x40 + (anyTail.high - 0x80) + 1) *
                0x40 ^ k ≤ (point * 0x40 + (bounds.high - 0x80) + 1) * 0x40 ^ (k + 1) := by
              rw [Nat.pow_succ', ← Nat.mul_assoc]
              apply Nat.mul_le_mul_right
              simp only [anyTail]
              omega
            rw [Nat.add_sub_cancel]
            omega
      · have hlead := lead_sound b
        rw [step, if_neg hb]
        exact ⟨wellFormed_append (a := [0xfffd]) (by decide) hlead.1, hlead.2⟩

theorem read_sound {s : State} (h : Sound s) (octets : List Nat) :
    isWellFormed (read s octets).1 = true := by
  induction octets generalizing s with
  | nil => rfl
  | cons b octets ih =>
      have hstep := step_sound h b
      exact wellFormed_append hstep.1 (ih hstep.2)

end Utf8

open Utf8 in
theorem wellFormed_utf8Decode (octets : List Nat) : isWellFormed (utf8Decode octets) = true := by
  have hflush : isWellFormed (flush (read .start octets).2) = true := by
    cases (read .start octets).2 with
    | start => rfl
    | inside point needed bounds => exact rfl
  exact wellFormed_append (read_sound sound_start octets) hflush

/-- Well-formed strings with the same octets are the same. -/
theorem utf8Octets_inj {a b : JsString} (ha : isWellFormed a = true) (hb : isWellFormed b = true)
    (h : utf8Octets a = utf8Octets b) : a = b := by
  rw [← utf8Decode_utf8Octets ha, h, utf8Decode_utf8Octets hb]

end SmsGateway
