import SmsGateway.Json

/-!
# The modem fleet's configuration

`utils/modem-config.js`: `parseModemConfigs` over any environment.
-/

namespace SmsGateway.ModemConfig

open Json

/-! ## Strings -/

def lowerUnit (c : CodeUnit) : JsString :=
  if 0x41 ≤ c ∧ c ≤ 0x5a then [c + 0x20]
  else if c = 0x212a then [0x6b]
  else if c = 0x130 then [0x69, 0x307]
  else [c]

/-- `toLowerCase`, as far as a comparison with a name in ASCII can tell: besides the capital
letters of ASCII only the Kelvin sign and the dotted I have any ASCII in their lower case.
Every other character stays outside ASCII and is kept here. -/
def toLowerCase (s : JsString) : JsString := s.flatMap lowerUnit

example : toLowerCase (js "ZTE-HTTP") = js "zte-http" := by decide

def toPrimitiveError : JsError := newError (js "Cannot convert object to primitive value")

/-- `String(v)` of a parsed value. An object with a `toString` of its own, which JSON cannot make a
function, has no string form. -/
def stringOf : JsValue → Except JsError JsString
  | .undefined => .ok (js "undefined")
  | .null => .ok (js "null")
  | .bool true => .ok (js "true")
  | .bool false => .ok (js "false")
  | .num text => .ok text
  | .str s => .ok s
  | .arr items => joined items
  | .obj fields =>
      if (fields.lookup (js "toString")).isSome then .error toPrimitiveError
      else .ok (js "[object Object]")
where
  item : JsValue → Except JsError JsString
    | .undefined => .ok []
    | .null => .ok []
    | v => stringOf v
  joined : List JsValue → Except JsError JsString
    | [] => .ok []
    | [v] => item v
    | v :: w :: items =>
        match item v with
        | .error e => .error e
        | .ok first =>
            match joined (w :: items) with
            | .error e => .error e
            | .ok rest => .ok (first ++ js "," ++ rest)

/-! ## The environment -/

structure Env where
  modems : Option JsString := none
  modemDriver : Option JsString := none
  usbPort : Option JsString := none
  baudRate : Option JsString := none
  zteHost : Option JsString := none
  smsc : Option JsString := none
  ussdBalanceCode : Option JsString := none
  ussdTariffCode : Option JsString := none
  ussdNumberCode : Option JsString := none
  deriving DecidableEq, Repr

/-- A variable of the environment as a value. -/
def ofEnv : Option JsString → JsValue
  | some s => .str s
  | none => .undefined

/-- `DRIVERS`. -/
def drivers : List JsString := [js "serial", js "zte-http", js "adb"]

/-- `fields.key`; of a repeated key the last value counts. -/
def get (fields : List (JsString × JsValue)) (key : JsString) : JsValue :=
  (fields.reverse.lookup key).getD .undefined

/-- `env.MODEM_DRIVER || 'serial'`. -/
def legacyDriver (env : Env) : JsString :=
  match env.modemDriver with
  | some s => if s = [] then js "serial" else s
  | none => js "serial"

def legacyFields (env : Env) : List (JsString × JsValue) :=
  [(js "id", .str (js "default")), (js "driver", .str (toLowerCase (legacyDriver env))),
    (js "port", ofEnv env.usbPort), (js "baudRate", ofEnv env.baudRate),
    (js "host", ofEnv env.zteHost)]

/-- The entry that stands for the variables of a single modem. -/
def legacyEntry (env : Env) : JsValue := .obj (legacyFields env)

/-! ## The entries -/

/-- `entry[key] !== undefined ? entry[key] : env[…]`. -/
def ownOr (fields : List (JsString × JsValue)) (key : JsString) (global : Option JsString) :
    JsValue :=
  match get fields key with
  | .undefined => ofEnv global
  | v => v

/-- `typeof entry.id === 'string' ? entry.id.trim() : ''`. -/
def trimmedId (fields : List (JsString × JsValue)) : JsString :=
  match get fields (js "id") with
  | .str s => trim s
  | _ => []

/-- `entry.driver || ''`. -/
def driverValue (fields : List (JsString × JsValue)) : JsValue :=
  if truthy (get fields (js "driver")) then get fields (js "driver") else .str []

/-- The properties that are set behind those of the entry. -/
def settled (env : Env) (fields : List (JsString × JsValue)) (id driver : JsString) :
    List (JsString × JsValue) :=
  [(js "id", .str id), (js "driver", .str driver),
    (js "smsc", ownOr fields (js "smsc") env.smsc),
    (js "ussdBalanceCode", ownOr fields (js "ussdBalanceCode") env.ussdBalanceCode),
    (js "ussdTariffCode", ownOr fields (js "ussdTariffCode") env.ussdTariffCode),
    (js "ussdNumberCode", ownOr fields (js "ussdNumberCode") env.ussdNumberCode)]

/-- `{ ...entry, id, driver, … }`. -/
def config (env : Env) (fields : List (JsString × JsValue)) (id driver : JsString) : JsValue :=
  .obj (fields ++ settled env fields id driver)

def unknownDriver (id driver : JsString) : JsError :=
  newError (js "Modem \"" ++ id ++ js "\": unknown driver \"" ++ driver ++
    js "\" — use \"serial\" or \"zte-http\" or \"adb\"")

/-- The callback of `list.map`, with the ids seen so far. -/
def parseEntry (env : Env) (seen : List JsString) (entry : JsValue) :
    Except JsError (JsString × JsValue) :=
  match entry with
  | .obj fields =>
      let id := trimmedId fields
      if id = [] then .error (newError (js "Each MODEMS entry needs a non-empty string \"id\""))
      else if seen.contains id then .error (newError (js "Duplicate modem id \"" ++ id ++ js "\" in MODEMS"))
      else
        match stringOf (driverValue fields) with
        | .error e => .error e
        | .ok text =>
            let driver := toLowerCase text
            if drivers.contains driver then .ok (id, config env fields id driver)
            else
              match stringOf (get fields (js "driver")) with
              | .error e => .error e
              | .ok shown => .error (unknownDriver id shown)
  | _ => .error (newError (js "Each MODEMS entry must be a JSON object"))

def parseEntries (env : Env) : List JsString → List JsValue → Except JsError (List JsValue)
  | _, [] => .ok []
  | seen, entry :: entries =>
      match parseEntry env seen entry with
      | .error e => .error e
      | .ok (id, cfg) =>
          match parseEntries env (seen ++ [id]) entries with
          | .error e => .error e
          | .ok cfgs => .ok (cfg :: cfgs)

/-- `parseModemConfigs`; `complaint` is what `JSON.parse` says of a text that it refuses. -/
def parseModemConfigs (complaint : JsString → JsString) (env : Env) :
    Except JsError (List JsValue) :=
  let raw := trim (env.modems.getD [])
  if raw = [] then parseEntries env [] [legacyEntry env]
  else
    match parse raw with
    | none => .error (newError (js "MODEMS is not valid JSON: " ++ complaint raw))
    | some (.arr (entry :: entries)) => parseEntries env [] (entry :: entries)
    | some _ => .error (newError (js "MODEMS must be a non-empty JSON array"))

/-! ## What a fleet has to be -/

/-- The string form is the name of a driver, whatever its case. -/
def KnownDriver (v : JsValue) : Prop := ∃ s, stringOf v = .ok s ∧ toLowerCase s ∈ drivers

/-- What is wrong with an entry behind the `earlier` ones. -/
inductive BadEntry (earlier : List JsValue) : JsValue → Prop where
  | notObject {v : JsValue} : (∀ fields, v ≠ .obj fields) → BadEntry earlier v
  | noId {fields : List (JsString × JsValue)} :
      (∀ s, get fields (js "id") = .str s → trim s = []) → BadEntry earlier (.obj fields)
  | repeated {fields other : List (JsString × JsValue)} {s t : JsString} :
      get fields (js "id") = .str s → .obj other ∈ earlier → get other (js "id") = .str t →
      trim t = trim s → BadEntry earlier (.obj fields)
  | driver {fields : List (JsString × JsValue)} : ¬KnownDriver (get fields (js "driver")) →
      BadEntry earlier (.obj fields)

/-- What is wrong with an environment. -/
inductive Rejected (env : Env) : Prop where
  | notJson : trim (env.modems.getD []) ≠ [] → parse (trim (env.modems.getD [])) = none →
      Rejected env
  | notArray (v : JsValue) : trim (env.modems.getD []) ≠ [] →
      parse (trim (env.modems.getD [])) = some v → (∀ entries, v ≠ .arr entries) → Rejected env
  | empty : trim (env.modems.getD []) ≠ [] → parse (trim (env.modems.getD [])) = some (.arr []) →
      Rejected env
  | entry (entries : List JsValue) (i : Nat) (entry : JsValue) :
      trim (env.modems.getD []) ≠ [] → parse (trim (env.modems.getD [])) = some (.arr entries) →
      entries[i]? = some entry → BadEntry (entries.take i) entry → Rejected env
  | legacyDriver (s : JsString) : trim (env.modems.getD []) = [] → env.modemDriver = some s →
      s ≠ [] → toLowerCase s ∉ drivers → Rejected env

/-- The entries that the environment asks for. -/
inductive Asks (env : Env) : List JsValue → Prop where
  | modems {entries : List JsValue} : trim (env.modems.getD []) ≠ [] →
      parse (trim (env.modems.getD [])) = some (.arr entries) → Asks env entries
  | legacy : trim (env.modems.getD []) = [] → Asks env [legacyEntry env]

/-- The keys with a global default. -/
def globals (env : Env) : List (JsString × Option JsString) :=
  [(js "smsc", env.smsc), (js "ussdBalanceCode", env.ussdBalanceCode),
    (js "ussdTariffCode", env.ussdTariffCode), (js "ussdNumberCode", env.ussdNumberCode)]

/-- The properties of a config for the properties of its entry. -/
structure Configured (env : Env) (own cfg : List (JsString × JsValue)) : Prop where
  id : ∃ s, get own (js "id") = .str s ∧ trim s ≠ [] ∧ get cfg (js "id") = .str (trim s)
  driver : ∃ s, stringOf (get own (js "driver")) = .ok s ∧ toLowerCase s ∈ drivers ∧
    get cfg (js "driver") = .str (toLowerCase s)
  kept : ∀ p ∈ globals env, get own p.1 ≠ .undefined → get cfg p.1 = get own p.1
  defaulted : ∀ p ∈ globals env, get own p.1 = .undefined → get cfg p.1 = ofEnv p.2
  others : ∀ key, key ≠ js "id" → key ≠ js "driver" → (∀ p ∈ globals env, key ≠ p.1) →
    get cfg key = get own key

def Configures (env : Env) (entry cfg : JsValue) : Prop :=
  ∃ own props, entry = .obj own ∧ cfg = .obj props ∧ Configured env own props

/-- `cfg.id`. -/
def configId (cfg : JsValue) : JsString :=
  match cfg with
  | .obj fields =>
      match get fields (js "id") with
      | .str s => s
      | _ => []
  | _ => []

/-! ## One entry -/

/-- The ids that an entry adds to those seen. -/
def entryId : JsValue → JsString
  | .obj fields => trimmedId fields
  | _ => []

/-- An entry that is accepted behind the ids seen. -/
def GoodEntry (seen : List JsString) (entry : JsValue) : Prop :=
  ∃ fields, entry = .obj fields ∧ trimmedId fields ≠ [] ∧ trimmedId fields ∉ seen ∧
    KnownDriver (get fields (js "driver"))

theorem not_knownDriver {v : JsValue} {s : JsString} (hs : stringOf v = .ok s)
    (h : toLowerCase s ∉ drivers) : ¬KnownDriver v := by
  rintro ⟨t, ht, hmem⟩
  obtain rfl := Except.ok.inj (ht.symm.trans hs)
  exact h hmem

theorem not_knownDriver_of_falsy {v : JsValue} (h : truthy v = false) : ¬KnownDriver v := by
  cases v with
  | undefined => exact not_knownDriver (by rw [stringOf]) (by decide)
  | null => exact not_knownDriver (by rw [stringOf]) (by decide)
  | bool b =>
      obtain rfl : b = false := by simpa [truthy] using h
      exact not_knownDriver (by rw [stringOf]) (by decide)
  | num text =>
      obtain rfl : text = js "0" := by simpa [truthy] using h
      exact not_knownDriver (by rw [stringOf]) (by decide)
  | str t =>
      obtain rfl : t = [] := by simpa [truthy] using h
      exact not_knownDriver (by rw [stringOf]) (by decide)
  | arr items => simp [truthy] at h
  | obj fields => simp [truthy] at h

/-- `|| ''` makes no driver of a value that is none. -/
theorem knownDriver_driverValue (fields : List (JsString × JsValue)) :
    KnownDriver (driverValue fields) ↔ KnownDriver (get fields (js "driver")) := by
  unfold driverValue
  cases h : truthy (get fields (js "driver")) with
  | true => rw [if_pos rfl]
  | false =>
      rw [if_neg (by decide)]
      constructor
      · intro hknown
        exact absurd hknown (not_knownDriver_of_falsy rfl)
      · intro hknown
        exact absurd hknown (not_knownDriver_of_falsy h)

theorem parseEntry_ok {env : Env} {seen : List JsString} {entry cfg : JsValue} {id : JsString}
    (h : parseEntry env seen entry = .ok (id, cfg)) :
    ∃ fields text, entry = .obj fields ∧ id = trimmedId fields ∧ id ≠ [] ∧ id ∉ seen ∧
      stringOf (driverValue fields) = .ok text ∧ toLowerCase text ∈ drivers ∧
      cfg = config env fields id (toLowerCase text) := by
  unfold parseEntry at h
  split at h
  case h_2 => cases h
  case h_1 fields =>
    dsimp only at h
    split at h
    · cases h
    rename_i hid
    split at h
    · cases h
    rename_i hseen
    split at h
    · cases h
    rename_i text htext
    split at h
    · rename_i hdriver
      rw [List.contains_iff_mem] at hseen hdriver
      obtain ⟨rfl, rfl⟩ := Prod.mk.inj (Except.ok.inj h)
      exact ⟨fields, text, rfl, rfl, hid, hseen, htext, hdriver, rfl⟩
    · split at h <;> cases h

theorem parseEntry_good {env : Env} {seen : List JsString} {entry : JsValue}
    (h : GoodEntry seen entry) : ∃ cfg, parseEntry env seen entry = .ok (entryId entry, cfg) := by
  obtain ⟨fields, rfl, hid, hseen, hknown⟩ := h
  obtain ⟨text, htext, hdriver⟩ := (knownDriver_driverValue fields).mpr hknown
  refine ⟨config env fields (trimmedId fields) (toLowerCase text), ?_⟩
  simp only [parseEntry, List.contains_iff_mem, if_neg hid, if_neg hseen, htext, if_pos hdriver]
  rfl

theorem good_of_parseEntry {env : Env} {seen : List JsString} {entry : JsValue}
    {r : JsString × JsValue} (h : parseEntry env seen entry = .ok r) :
    GoodEntry seen entry ∧ r.1 = entryId entry := by
  obtain ⟨fields, text, rfl, hid, hne, hseen, htext, hdriver, -⟩ := parseEntry_ok h
  refine ⟨⟨fields, rfl, hid ▸ hne, hid ▸ hseen, ?_⟩, hid⟩
  exact (knownDriver_driverValue fields).mp ⟨text, htext, hdriver⟩

end SmsGateway.ModemConfig
