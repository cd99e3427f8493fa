import SmsGateway.Js

/-!
# JSON values and `JSON.parse`

The values the gateway takes out of JSON texts, with the property access, the
truth test and the conversion to a string that JavaScript applies to them. A
number is represented by its `String(n)` form.
-/

namespace SmsGateway.Json

open SmsGateway

inductive JsValue where
  | undefined
  | null
  | bool (b : Bool)
  | num (text : JsString)
  | str (s : JsString)
  | arr (items : List JsValue)
  | obj (fields : List (JsString × JsValue))

/-- `v.key`: null and undefined have no properties; a repeated key keeps its last value. -/
def prop (v : JsValue) (key : JsString) : Except JsError JsValue :=
  match v with
  | .undefined => .error (newError
      (js "Cannot read properties of undefined (reading '" ++ key ++ js "')"))
  | .null => .error (newError (js "Cannot read properties of null (reading '" ++ key ++ js "')"))
  | .obj fields => .ok ((fields.reverse.lookup key).getD .undefined)
  | _ => .ok .undefined

def truthy : JsValue → Bool
  | .undefined => false
  | .null => false
  | .bool b => b
  | .num text => text != js "0"
  | .str s => s != []
  | .arr _ => true
  | .obj _ => true

/-- `v ?? w`. -/
def orElse (v w : JsValue) : JsValue :=
  match v with
  | .undefined => w
  | .null => w
  | v => v

/-- `String(v)`; the elements of an array are joined by commas, null ones as nothing. -/
def toStr : JsValue → JsString
  | .undefined => js "undefined"
  | .null => js "null"
  | .bool true => js "true"
  | .bool false => js "false"
  | .num text => text
  | .str s => s
  | .arr items => join items
  | .obj _ => js "[object Object]"
where
  item : JsValue → JsString
    | .undefined => []
    | .null => []
    | v => toStr v
  join : List JsValue → JsString
    | [] => []
    | [v] => item v
    | v :: w :: items => item v ++ js "," ++ join (w :: items)

def isStr (v : JsValue) (s : JsString) : Bool :=
  match v with
  | .str t => t == s
  | _ => false

theorem isStr_ne {v : JsValue} {s t : JsString} (h : isStr v s = true) (hst : s ≠ t) :
    isStr v t = false := by
  cases v with
  | str u =>
      have hu : u = s := by simpa [isStr] using h
      simpa [isStr, hu] using hst
  | _ => rfl

/-! ## Parsing -/

def isJsonSpace (c : CodeUnit) : Bool := c == 0x20 || c == 0x09 || c == 0x0a || c == 0x0d

def skipSpace (s : JsString) : JsString := s.dropWhile isJsonSpace

def hexDigit (c : CodeUnit) : Option Nat :=
  let n := c.toNat
  if 0x30 ≤ n ∧ n ≤ 0x39 then some (n - 0x30)
  else if 0x41 ≤ n ∧ n ≤ 0x46 then some (n - 0x37)
  else if 0x61 ≤ n ∧ n ≤ 0x66 then some (n - 0x57)
  else none

def hexUnit (a b c d : CodeUnit) : Option CodeUnit := do
  let a ← hexDigit a
  let b ← hexDigit b
  let c ← hexDigit c
  let d ← hexDigit d
  some (UInt16.ofNat (0x1000 * a + 0x100 * b + 0x10 * c + d))

/-- The character a backslash and one letter stand for. -/
def simpleEscape (c : CodeUnit) : Option CodeUnit :=
  if c = 0x22 ∨ c = 0x5c ∨ c = 0x2f then some c
  else if c = 0x62 then some 0x08
  else if c = 0x66 then some 0x0c
  else if c = 0x6e then some 0x0a
  else if c = 0x72 then some 0x0d
  else if c = 0x74 then some 0x09
  else none

/-- A string from behind its opening quote, with the text behind the closing one. -/
def stringBody : JsString → Option (JsString × JsString)
  | [] => none
  | 0x22 :: rest => some ([], rest)
  | 0x5c :: 0x75 :: a :: b :: c :: d :: rest => do
      let u ← hexUnit a b c d
      let (s, rest) ← stringBody rest
      some (u :: s, rest)
  | 0x5c :: e :: rest => do
      let u ← simpleEscape e
      let (s, rest) ← stringBody rest
      some (u :: s, rest)
  | c :: rest =>
      if c < 0x20 ∨ c = 0x5c then none
      else do
        let (s, rest) ← stringBody rest
        some (c :: s, rest)

def spanDigits (s : JsString) : JsString × JsString := (s.takeWhile isDigit, s.dropWhile isDigit)

/-- The fraction and exponent of a number, as far as they are well formed. -/
def numberTail (s : JsString) : Option (JsString × JsString) :=
  let frac : Option (JsString × JsString) :=
    match s with
    | 0x2e :: rest =>
        let (ds, rest) := spanDigits rest
        if ds = [] then none else some (js "." ++ ds, rest)
    | _ => some ([], s)
  match frac with
  | none => none
  | some (frac, s) =>
      match s with
      | e :: rest =>
          if e = 0x65 ∨ e = 0x45 then
            let (sign, rest) : JsString × JsString := match rest with
              | c :: r => if c = 0x2b ∨ c = 0x2d then ([c], r) else ([], rest)
              | [] => ([], rest)
            let (ds, rest) := spanDigits rest
            if ds = [] then none else some (frac ++ js "e" ++ sign ++ ds, rest)
          else some (frac, s)
      | [] => some (frac, s)

/-- A number. An integer below 2^53 is its own `String(n)` form but for a negative
zero; other numbers keep the form they are written in. -/
def number (s : JsString) : Option (JsValue × JsString) := do
  let (sign, s) : JsString × JsString := match s with
    | 0x2d :: rest => ([0x2d], rest)
    | _ => ([], s)
  let (ds, s) : JsString × JsString := match s with
    | 0x30 :: rest => ([0x30], rest)
    | _ => spanDigits s
  if ds = [] then none
  let (tail, s) ← numberTail s
  let text := if ds = [0x30] ∧ tail = [] then ds else sign ++ ds ++ tail
  some (.num text, s)

/-- `keyword` and what it stands for. -/
def keyword (word : JsString) (v : JsValue) (s : JsString) : Option (JsValue × JsString) :=
  if startsWith s word then some (v, s.drop word.length) else none

mutual

/-- One value; every nested value takes at least one character, so the length of the
text bounds the depth. -/
def value : Nat → JsString → Option (JsValue × JsString)
  | 0, _ => none
  | fuel + 1, s =>
      match skipSpace s with
      | [] => none
      | c :: rest =>
          if c = 0x7b then
            match skipSpace rest with
            | 0x7d :: rest => some (.obj [], rest)
            | rest => do
                let (fields, rest) ← members fuel rest
                some (.obj fields, rest)
          else if c = 0x5b then
            match skipSpace rest with
            | 0x5d :: rest => some (.arr [], rest)
            | rest => do
                let (items, rest) ← elements fuel rest
                some (.arr items, rest)
          else if c = 0x22 then do
            let (s, rest) ← stringBody rest
            some (.str s, rest)
          else if c = 0x6e then keyword (js "null") .null (c :: rest)
          else if c = 0x74 then keyword (js "true") (.bool true) (c :: rest)
          else if c = 0x66 then keyword (js "false") (.bool false) (c :: rest)
          else number (c :: rest)

def elements : Nat → JsString → Option (List JsValue × JsString)
  | 0, _ => none
  | fuel + 1, s => do
      let (v, rest) ← value fuel s
      match skipSpace rest with
      | c :: rest =>
          if c = 0x2c then do
            let (vs, rest) ← elements fuel rest
            some (v :: vs, rest)
          else if c = 0x5d then some ([v], rest)
          else none
      | [] => none

def members : Nat → JsString → Option (List (JsString × JsValue) × JsString)
  | 0, _ => none
  | fuel + 1, s =>
      match skipSpace s with
      | 0x22 :: rest => do
          let (key, rest) ← stringBody rest
          match skipSpace rest with
          | 0x3a :: rest => do
              let (v, rest) ← value fuel rest
              match skipSpace rest with
              | c :: rest =>
                  if c = 0x2c then do
                    let (fields, rest) ← members fuel rest
                    some ((key, v) :: fields, rest)
                  else if c = 0x7d then some ([(key, v)], rest)
                  else none
              | [] => none
          | _ => none
      | _ => none

end

/-- `JSON.parse(s)`, or `none` where it throws. -/
def parse (s : JsString) : Option JsValue :=
  match value (2 * s.length + 2) s with
  | some (v, rest) => if skipSpace rest = [] then some v else none
  | none => none

/-- Every number of the value has a text. -/
def Spelled : JsValue → Prop
  | .num text => text ≠ []
  | .arr items => all items
  | .obj fields => allFields fields
  | _ => True
where
  all : List JsValue → Prop
    | [] => True
    | v :: items => Spelled v ∧ all items
  allFields : List (JsString × JsValue) → Prop
    | [] => True
    | (_, v) :: fields => Spelled v ∧ allFields fields

theorem spelled_keyword {word s rest : JsString} {v w : JsValue} (hv : Spelled v)
    (h : keyword word v s = some (w, rest)) : Spelled w := by
  unfold keyword at h
  split at h
  · obtain ⟨rfl, -⟩ := Prod.mk.inj (Option.some.inj h)
    exact hv
  · cases h

theorem spelled_number {s rest : JsString} {v : JsValue} (h : number s = some (v, rest)) :
    Spelled v := by
  unfold number at h
  split at h
  simp only [Option.bind_eq_bind] at h
  split at h
  all_goals
    split at h
    case isTrue => cases h
    case isFalse hds =>
      obtain ⟨tail, -, he⟩ := Option.bind_eq_some_iff.mp h
      obtain ⟨rfl, -⟩ := Prod.mk.inj (Option.some.inj he)
      rw [Spelled]
      split
      · exact hds
      · simp [hds]

/-- What is parsed has a text for every number. -/
theorem spelled_parsed (fuel : Nat) :
    (∀ s v rest, value fuel s = some (v, rest) → Spelled v) ∧
      (∀ s vs rest, elements fuel s = some (vs, rest) → Spelled.all vs) ∧
      ∀ s fields rest, members fuel s = some (fields, rest) → Spelled.allFields fields := by
  induction fuel with
  | zero =>
      refine ⟨?_, ?_, ?_⟩
      · intro s v rest h
        rw [value] at h
        cases h
      · intro s vs rest h
        rw [elements] at h
        cases h
      · intro s fields rest h
        rw [members] at h
        cases h
  | succ fuel ih =>
      obtain ⟨hvalue, helements, hmembers⟩ := ih
      refine ⟨?_, ?_, ?_⟩
      · intro s v rest h
        rw [value] at h
        split at h
        case h_1 => cases h
        case h_2 c tail _ =>
          by_cases hobj : c = 0x7b
          · rw [if_pos hobj] at h
            split at h
            · obtain ⟨rfl, -⟩ := Prod.mk.inj (Option.some.inj h)
              exact trivial
            · obtain ⟨r, hr, he⟩ := Option.bind_eq_some_iff.mp h
              obtain ⟨rfl, -⟩ := Prod.mk.inj (Option.some.inj he)
              exact hmembers _ _ _ hr
          rw [if_neg hobj] at h
          by_cases harr : c = 0x5b
          · rw [if_pos harr] at h
            split at h
            · obtain ⟨rfl, -⟩ := Prod.mk.inj (Option.some.inj h)
              exact trivial
            · obtain ⟨r, hr, he⟩ := Option.bind_eq_some_iff.mp h
              obtain ⟨rfl, -⟩ := Prod.mk.inj (Option.some.inj he)
              exact helements _ _ _ hr
          rw [if_neg harr] at h
          by_cases hstr : c = 0x22
          · rw [if_pos hstr] at h
            obtain ⟨r, -, he⟩ := Option.bind_eq_some_iff.mp h
            obtain ⟨rfl, -⟩ := Prod.mk.inj (Option.some.inj he)
            exact trivial
          rw [if_neg hstr] at h
          by_cases hnull : c = 0x6e
          · rw [if_pos hnull] at h
            exact spelled_keyword (v := .null) trivial h
          rw [if_neg hnull] at h
          by_cases htrue : c = 0x74
          · rw [if_pos htrue] at h
            exact spelled_keyword (v := .bool true) trivial h
          rw [if_neg htrue] at h
          by_cases hfalse : c = 0x66
          · rw [if_pos hfalse] at h
            exact spelled_keyword (v := .bool false) trivial h
          · rw [if_neg hfalse] at h
            exact spelled_number h
      · intro s vs rest h
        rw [elements] at h
        obtain ⟨⟨w, behind⟩, hr, h⟩ := Option.bind_eq_some_iff.mp h
        have hv := hvalue _ _ _ hr
        dsimp only at h
        split at h
        case h_2 => cases h
        case h_1 c tail _ =>
          by_cases hcomma : c = 0x2c
          · rw [if_pos hcomma] at h
            obtain ⟨t, ht, he⟩ := Option.bind_eq_some_iff.mp h
            obtain ⟨rfl, -⟩ := Prod.mk.inj (Option.some.inj he)
            exact ⟨hv, helements _ _ _ ht⟩
          rw [if_neg hcomma] at h
          by_cases hclose : c = 0x5d
          · rw [if_pos hclose] at h
            obtain ⟨rfl, -⟩ := Prod.mk.inj (Option.some.inj h)
            exact ⟨hv, trivial⟩
          · rw [if_neg hclose] at h
            cases h
      · intro s fields rest h
        rw [members] at h
        split at h
        case h_2 => cases h
        case h_1 tail _ =>
          obtain ⟨⟨key, behind⟩, -, h⟩ := Option.bind_eq_some_iff.mp h
          dsimp only at h
          split at h
          case h_2 => cases h
          case h_1 tail _ =>
            obtain ⟨⟨w, behind⟩, hr, h⟩ := Option.bind_eq_some_iff.mp h
            have hv := hvalue _ _ _ hr
            dsimp only at h
            split at h
            case h_2 => cases h
            case h_1 c tail _ =>
              by_cases hcomma : c = 0x2c
              · rw [if_pos hcomma] at h
                obtain ⟨t, ht, he⟩ := Option.bind_eq_some_iff.mp h
                obtain ⟨rfl, -⟩ := Prod.mk.inj (Option.some.inj he)
                exact ⟨hv, hmembers _ _ _ ht⟩
              rw [if_neg hcomma] at h
              by_cases hclose : c = 0x7d
              · rw [if_pos hclose] at h
                obtain ⟨rfl, -⟩ := Prod.mk.inj (Option.some.inj h)
                exact ⟨hv, trivial⟩
              · rw [if_neg hclose] at h
                cases h

theorem spelled_parse {s : JsString} {v : JsValue} (h : parse s = some v) : Spelled v := by
  unfold parse at h
  split at h
  case h_1 w rest hw =>
    split at h
    · obtain rfl := Option.some.inj h
      exact (spelled_parsed _).1 _ _ _ hw
    · cases h
  case h_2 => cases h

theorem spelled_of_mem {items : List JsValue} (h : Spelled.all items) : ∀ v ∈ items, Spelled v := by
  induction items with
  | nil => exact fun v hv => absurd hv List.not_mem_nil
  | cons w items ih =>
      intro v hv
      rcases List.mem_cons.mp hv with rfl | hv
      · exact h.1
      · exact ih h.2 v hv

theorem spelled_of_field {fields : List (JsString × JsValue)} (h : Spelled.allFields fields) :
    ∀ f ∈ fields, Spelled f.2 := by
  induction fields with
  | nil => exact fun f hf => absurd hf List.not_mem_nil
  | cons g fields ih =>
      intro f hf
      rcases List.mem_cons.mp hf with rfl | hf
      · exact h.1
      · exact ih h.2 f hf

theorem spelled_prop {v w : JsValue} {key : JsString} (hv : Spelled v) (h : prop v key = .ok w) :
    Spelled w := by
  cases v with
  | undefined => cases h
  | null => cases h
  | obj fields =>
      obtain rfl := Except.ok.inj h
      cases hlookup : fields.reverse.lookup key with
      | none => exact trivial
      | some w =>
          have hmem := List.mem_reverse.mp (mem_of_lookup hlookup)
          exact spelled_of_field hv _ hmem
  | bool b => obtain rfl := Except.ok.inj h; exact trivial
  | num text => obtain rfl := Except.ok.inj h; exact trivial
  | str s => obtain rfl := Except.ok.inj h; exact trivial
  | arr items => obtain rfl := Except.ok.inj h; exact trivial

/-! ## `JSON.stringify` -/

def hexLower (d : Nat) : CodeUnit := UInt16.ofNat (if d < 10 then 0x30 + d else 0x57 + d)

def quoteUnit (c : CodeUnit) : JsString :=
  if c = 0x22 ∨ c = 0x5c then [0x5c, c]
  else if c = 0x08 then js "\\b"
  else if c = 0x0c then js "\\f"
  else if c = 0x0a then js "\\n"
  else if c = 0x0d then js "\\r"
  else if c = 0x09 then js "\\t"
  else if c < 0x20 then js "\\u00" ++ [hexLower (c.toNat / 16), hexLower (c.toNat % 16)]
  else [c]

/-- One character of a string; a surrogate on its own is escaped. -/
def quoteChar (ch : JsString) : JsString :=
  match ch with
  | [c] =>
      if isHighSurrogate c || isLowSurrogate c then
        js "\\u" ++ [hexLower (c.toNat / 0x1000), hexLower (c.toNat / 0x100 % 16),
          hexLower (c.toNat / 16 % 16), hexLower (c.toNat % 16)]
      else quoteUnit c
  | pair => pair

def quoteString (s : JsString) : JsString := js "\"" ++ (forOf s).flatMap quoteChar ++ js "\""

/-- `JSON.stringify(v)` of a parsed value. -/
def stringify : JsValue → JsString
  | .undefined => js "null"
  | .null => js "null"
  | .bool true => js "true"
  | .bool false => js "false"
  | .num text => text
  | .str s => quoteString s
  | .arr items => js "[" ++ list items ++ js "]"
  | .obj fields => js "\x7b" ++ pairs fields ++ js "\x7d"
where
  list : List JsValue → JsString
    | [] => []
    | [v] => stringify v
    | v :: w :: items => stringify v ++ js "," ++ list (w :: items)
  pairs : List (JsString × JsValue) → JsString
    | [] => []
    | [(k, v)] => quoteString k ++ js ":" ++ stringify v
    | (k, v) :: f :: fields => quoteString k ++ js ":" ++ stringify v ++ js "," ++ pairs (f :: fields)

end SmsGateway.Json
