import Mathlib

/-!
# JavaScript strings and errors

A string of the source is the list of its UTF-16 code units, so unpaired
surrogates are ordinary values. The operations below are the library calls the
gateway makes on strings; each follows its documented behaviour.
-/

namespace SmsGateway

abbrev CodeUnit := UInt16

abbrev JsString := List CodeUnit

def utf16Encode (c : Char) : JsString :=
  if c.toNat < 0x10000 then [UInt16.ofNat c.toNat]
  else [UInt16.ofNat (0xd800 + (c.toNat - 0x10000) / 0x400),
    UInt16.ofNat (0xdc00 + (c.toNat - 0x10000) % 0x400)]

/-- A string literal of the source. -/
def js (s : String) : JsString := s.toList.flatMap utf16Encode

/-! ## Code points -/

def isHighSurrogate (c : CodeUnit) : Bool := 0xd800 ≤ c && c ≤ 0xdbff

def isLowSurrogate (c : CodeUnit) : Bool := 0xdc00 ≤ c && c ≤ 0xdfff

/-- The strings `for (const ch of s)` visits: a surrogate pair is one of them,
an unpaired surrogate another. -/
def forOf : JsString → List JsString
  | [] => []
  | [c] => [[c]]
  | c :: d :: rest =>
      if isHighSurrogate c && isLowSurrogate d then [c, d] :: forOf rest
      else [c] :: forOf (d :: rest)

theorem forOf_flatten (s : JsString) : (forOf s).flatten = s := by
  induction s using forOf.induct with
  | case1 => rfl
  | case2 c => rfl
  | case3 c d rest h ih => simp [forOf, h, ih]
  | case4 c d rest h ih => simp [forOf, h, ih]

theorem forOf_ne_nil {s : JsString} : ∀ ch ∈ forOf s, ch ≠ [] := by
  induction s using forOf.induct with
  | case1 => simp [forOf]
  | case2 c => simp [forOf]
  | case3 c d rest h ih => simpa [forOf, h] using ih
  | case4 c d rest h ih => simpa [forOf, h] using ih

/-- Without a high surrogate the iteration visits the code units themselves. -/
theorem forOf_of_no_high {s : JsString} (h : ∀ c ∈ s, isHighSurrogate c = false) :
    forOf s = s.map fun c => [c] := by
  induction s using forOf.induct with
  | case1 => rfl
  | case2 c => rfl
  | case3 c d rest hp ih =>
      have hc := h c (by simp)
      simp [hc] at hp
  | case4 c d rest hp ih =>
      have hc := h c (by simp)
      have hrest := ih fun x hx => h x (List.mem_cons_of_mem c hx)
      simpa [forOf, hc] using hrest

/-- The code point a string of `forOf` stands for. -/
def codePoint : JsString → Nat
  | [c] => c.toNat
  | [c, d] => 0x10000 + (c.toNat - 0xd800) * 0x400 + (d.toNat - 0xdc00)
  | _ => 0

/-- The UTF-8 octets of one code point. An unpaired surrogate has none of its
own and is written as U+FFFD. -/
def utf8OfCodePoint (n : Nat) : List Nat :=
  let n := if 0xd800 ≤ n ∧ n ≤ 0xdfff then 0xfffd else n
  if n < 0x80 then [n]
  else if n < 0x800 then [0xc0 + n / 0x40, 0x80 + n % 0x40]
  else if n < 0x10000 then [0xe0 + n / 0x1000, 0x80 + n / 0x40 % 0x40, 0x80 + n % 0x40]
  else [0xf0 + n / 0x40000, 0x80 + n / 0x1000 % 0x40, 0x80 + n / 0x40 % 0x40, 0x80 + n % 0x40]

/-- `Buffer.from(s, 'utf8')`. -/
def utf8Octets (s : JsString) : List Nat := (forOf s).flatMap fun ch => utf8OfCodePoint (codePoint ch)

/-! ## Blanks, prefixes and numbers -/

def LF : CodeUnit := 0x0a
def CR : CodeUnit := 0x0d

/-- White space and line terminators, as `trim` and `\s` understand them. -/
def isSpace (c : CodeUnit) : Bool :=
  (0x09 ≤ c && c ≤ 0x0d) || c == 0x20 || c == 0xa0 || c == 0x1680 ||
    (0x2000 ≤ c && c ≤ 0x200a) || c == 0x2028 || c == 0x2029 || c == 0x202f ||
    c == 0x205f || c == 0x3000 || c == 0xfeff

def trimStart (s : JsString) : JsString := s.dropWhile isSpace

def trimEnd (s : JsString) : JsString := (s.reverse.dropWhile isSpace).reverse

def trim (s : JsString) : JsString := trimEnd (trimStart s)

theorem trim_eq_self {a z : CodeUnit} {s : JsString} (ha : isSpace a = false)
    (hz : isSpace z = false) : trim (a :: (s ++ [z])) = a :: (s ++ [z]) := by
  have hstart : trimStart (a :: (s ++ [z])) = a :: (s ++ [z]) := by
    rw [trimStart, List.dropWhile_cons, if_neg (by simp [ha])]
  rw [trim, hstart, trimEnd, ← List.cons_append, List.reverse_append, List.reverse_singleton,
    List.singleton_append, List.dropWhile_cons, if_neg (by simp [hz])]
  simp

theorem trim_append_space {c : CodeUnit} (hc : isSpace c = true) (s : JsString) :
    trim (s ++ [c]) = trim s := by
  unfold trim trimStart
  rw [List.dropWhile_append]
  split
  case isTrue he =>
    have hnil : s.dropWhile isSpace = [] := by simpa using he
    simp [hnil, hc]
  case isFalse =>
    unfold trimEnd
    rw [List.reverse_append, List.reverse_singleton, List.singleton_append, List.dropWhile_cons,
      if_pos hc]

theorem trimEnd_isPrefixOf (s : JsString) : trimEnd s <+: s := by
  rw [trimEnd, ← List.reverse_suffix, List.reverse_reverse]
  exact List.dropWhile_suffix isSpace

theorem trimEnd_trimEnd (s : JsString) : trimEnd (trimEnd s) = trimEnd s := by
  rw [trimEnd, trimEnd, List.reverse_reverse, List.dropWhile_idempotent]

theorem trim_trim (s : JsString) : trim (trim s) = trim s := by
  have hstart : trimStart (trim s) = trim s := by
    cases ht : trim s with
    | nil => rfl
    | cons c rest =>
        obtain ⟨tail, htail⟩ := trimEnd_isPrefixOf (trimStart s)
        rw [← trim, ht, List.cons_append] at htail
        have hc : isSpace c = false := by
          have hhead := List.head?_dropWhile_not isSpace s
          rw [← trimStart, ← htail] at hhead
          simpa using hhead
        rw [trimStart, List.dropWhile_cons, if_neg (by simp [hc])]
  rw [trim, hstart, trim, trimEnd_trimEnd]

theorem mem_of_mem_trim {c : CodeUnit} {s : JsString} (h : c ∈ trim s) : c ∈ s :=
  (List.dropWhile_suffix isSpace).subset ((trimEnd_isPrefixOf _).subset h)

def startsWith (s pre : JsString) : Bool := pre.isPrefixOf s

theorem startsWith_append (pre s : JsString) : startsWith (pre ++ s) pre = true := by
  rw [startsWith, List.isPrefixOf_iff_prefix]
  exact List.prefix_append pre s

def isDigit (c : CodeUnit) : Bool := 0x30 ≤ c && c ≤ 0x39

/-- One digit of `toString(base).toUpperCase()`. -/
def digitUnit (d : Nat) : CodeUnit := UInt16.ofNat (if d < 10 then 0x30 + d else 0x37 + d)

/-- `n.toString(base).toUpperCase()`. -/
def numberText (base n : Nat) : JsString :=
  (if n = 0 then [0] else (Nat.digits base n).reverse).map digitUnit

/-- A number in a template literal. -/
def decimal (n : Nat) : JsString := numberText 10 n

/-- `parseInt(s, 10)` of a string of digits. -/
def parseInt (s : JsString) : Nat := s.foldl (fun n c => 10 * n + (c.toNat - 0x30)) 0

theorem digitUnit_toNat {d : Nat} (h : d < 10) : (digitUnit d).toNat = 0x30 + d := by
  rw [digitUnit, if_pos h, UInt16.toNat_ofNat', Nat.mod_eq_of_lt (by omega)]

theorem isDigit_digitUnit {d : Nat} (h : d < 10) : isDigit (digitUnit d) = true := by
  have hd := digitUnit_toNat h
  simp only [isDigit, Bool.and_eq_true, decide_eq_true_eq, UInt16.le_iff_toNat_le, hd]
  constructor
  · show 48 ≤ _; omega
  · show _ ≤ 57; omega

theorem isSpace_of_isDigit {c : CodeUnit} (h : isDigit c = true) : isSpace c = false := by
  simp only [isDigit, Bool.and_eq_true, decide_eq_true_eq, UInt16.le_iff_toNat_le] at h
  have hlo : 0x30 ≤ c.toNat := h.1
  have hhi : c.toNat ≤ 0x39 := h.2
  simp only [isSpace, Bool.or_eq_false_iff, Bool.and_eq_false_iff, decide_eq_false_iff_not,
    beq_eq_false_iff_ne, ne_eq, UInt16.le_iff_toNat_le, ← UInt16.toNat_inj]
  simp only [UInt16.reduceToNat]
  omega

theorem decimal_digits (n : Nat) : ∀ c ∈ decimal n, isDigit c = true := by
  intro c hc
  simp only [decimal, numberText, List.mem_map] at hc
  obtain ⟨d, hd, rfl⟩ := hc
  refine isDigit_digitUnit ?_
  split at hd
  · simp at hd; omega
  · exact Nat.digits_lt_base (by decide) (List.mem_reverse.mp hd)

theorem decimal_ne_nil (n : Nat) : decimal n ≠ [] := by
  simp only [decimal, numberText, ne_eq, List.map_eq_nil_iff]
  split
  · simp
  · rename_i h
    simpa using Nat.digits_ne_nil_iff_ne_zero.mpr h

theorem parseInt_map_digitUnit {ds : List Nat} (h : ∀ d ∈ ds, d < 10) :
    parseInt (ds.map digitUnit) = Nat.ofDigits 10 ds.reverse := by
  induction ds using List.reverseRecOn with
  | nil => rfl
  | append_singleton ds d ih =>
      have hd := digitUnit_toNat (h d (by simp))
      have hds := ih fun x hx => h x (by simp [hx])
      simp only [parseInt] at hds
      rw [parseInt, List.map_append, List.foldl_append, hds]
      simp only [List.map_cons, List.map_nil, List.foldl_cons, List.foldl_nil, hd,
        List.reverse_append, List.reverse_cons, List.reverse_nil, List.nil_append,
        List.cons_append, Nat.ofDigits_cons]
      omega

/-- `parseInt` reads back what a template literal writes. -/
theorem parseInt_decimal (n : Nat) : parseInt (decimal n) = n := by
  rw [decimal, numberText]
  split
  · rename_i h
    subst h
    rfl
  · rw [parseInt_map_digitUnit, List.reverse_reverse, Nat.ofDigits_digits]
    intro d hd
    exact Nat.digits_lt_base (by decide) (List.mem_reverse.mp hd)

theorem decimal_injective : Function.Injective decimal :=
  Function.LeftInverse.injective parseInt_decimal

/-! ## Objects -/

/-- A property found by name is one of the object's own. -/
theorem mem_of_lookup {β : Type} {l : List (JsString × β)} {k : JsString} {v : β}
    (h : l.lookup k = some v) : (k, v) ∈ l := by
  obtain ⟨l₁, l₂, rfl, -⟩ := List.lookup_eq_some_iff.mp h
  simp

/-! ## Errors -/

/-- The properties of an `Error` the gateway reads or sets. -/
structure JsError where
  message : JsString
  code : Option JsString
  confirmTimeout : Bool
  modemId : Option JsString
  deriving DecidableEq, Repr

/-- `new Error(message)`. -/
def newError (message : JsString) : JsError := ⟨message, none, false, none⟩

end SmsGateway
