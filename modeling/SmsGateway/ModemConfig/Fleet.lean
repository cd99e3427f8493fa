import SmsGateway.ModemConfig
import SmsGateway.RoundRobin

/-!
# The fleets that are accepted

`parseModemConfigs` accepts exactly the valid fleets, and `utils/pool.js` makes one modem of
every entry.
-/

namespace SmsGateway.ModemConfig

open Json

/-! ## The entries one after the other -/

theorem parseEntries_ok_iff {env : Env} {seen : List JsString} {entries : List JsValue} :
    (∃ cfgs, parseEntries env seen entries = .ok cfgs) ↔
      ∀ i entry, entries[i]? = some entry →
        GoodEntry (seen ++ (entries.take i).map entryId) entry := by
  induction entries generalizing seen with
  | nil => simp [parseEntries]
  | cons e entries ih =>
      constructor
      · rintro ⟨cfgs, h⟩ i entry hi
        rw [parseEntries] at h
        cases he : parseEntry env seen e with
        | error x => simp [he] at h
        | ok r =>
            obtain ⟨id, cfg⟩ := r
            obtain ⟨hgood, hid⟩ := good_of_parseEntry he
            simp only [he] at h
            cases i with
            | zero =>
                obtain rfl : e = entry := by simpa using hi
                simpa using hgood
            | succ i =>
                have hrest : ∃ cfgs, parseEntries env (seen ++ [id]) entries = .ok cfgs := by
                  cases hp : parseEntries env (seen ++ [id]) entries with
                  | error x => simp [hp] at h
                  | ok cfgs => exact ⟨cfgs, rfl⟩
                have hall := ih.mp hrest i entry (by simpa using hi)
                dsimp only at hid
                simpa [hid] using hall
      · intro h
        have hgood : GoodEntry seen e := by simpa using h 0 e rfl
        obtain ⟨cfg, he⟩ : ∃ cfg, parseEntry env seen e = .ok (entryId e, cfg) :=
          parseEntry_good hgood
        have hrest : ∃ cfgs, parseEntries env (seen ++ [entryId e]) entries = .ok cfgs := by
          apply ih.mpr
          intro i entry hi
          have hall := h (i + 1) entry (by simpa using hi)
          simpa using hall
        obtain ⟨cfgs, hcfgs⟩ := hrest
        exact ⟨cfg :: cfgs, by simp only [parseEntries, he, hcfgs]⟩

theorem trimmedId_str {fields : List (JsString × JsValue)} (h : trimmedId fields ≠ []) :
    ∃ s, get fields (js "id") = .str s ∧ trimmedId fields = trim s := by
  unfold trimmedId at h ⊢
  split at h
  · rename_i s hs
    exact ⟨s, hs, rfl⟩
  · exact absurd rfl h

theorem entryId_str {entry : JsValue} (h : entryId entry ≠ []) :
    ∃ fields s, entry = .obj fields ∧ get fields (js "id") = .str s ∧ entryId entry = trim s := by
  unfold entryId at h ⊢
  split at h
  · rename_i fields
    obtain ⟨s, hs, htrim⟩ := trimmedId_str h
    exact ⟨fields, s, rfl, hs, htrim⟩
  · exact absurd rfl h

theorem bad_iff_not_good {earlier : List JsValue} {entry : JsValue} :
    BadEntry earlier entry ↔ ¬GoodEntry (earlier.map entryId) entry := by
  constructor
  · rintro hbad ⟨fields, rfl, hid, hseen, hknown⟩
    cases hbad with
    | notObject h => exact h fields rfl
    | noId h =>
        apply hid
        unfold trimmedId
        split
        · exact h _ ‹_›
        · rfl
    | repeated hs hother ht heq =>
        apply hseen
        apply List.mem_map.mpr
        refine ⟨_, hother, ?_⟩
        simp only [entryId, trimmedId, hs, ht, heq]
    | driver h => exact h hknown
  · intro hgood
    cases entry with
    | obj fields =>
        by_cases hid : trimmedId fields = []
        · apply BadEntry.noId
          intro s hs
          simpa [trimmedId, hs] using hid
        by_cases hseen : trimmedId fields ∈ earlier.map entryId
        · obtain ⟨other, hother, heq⟩ := List.mem_map.mp hseen
          obtain ⟨s, hs, htrim⟩ := trimmedId_str hid
          obtain ⟨props, t, rfl, ht, htrim'⟩ := entryId_str (heq ▸ hid)
          exact .repeated hs hother ht (htrim'.symm.trans (heq.trans htrim))
        · exact .driver fun hknown => hgood ⟨fields, rfl, hid, hseen, hknown⟩
    | _ => exact .notObject fun fields h => by cases h

theorem parseEntries_error_iff {env : Env} {entries : List JsValue} :
    (∃ e, parseEntries env [] entries = .error e) ↔
      ∃ i entry, entries[i]? = some entry ∧ BadEntry (entries.take i) entry := by
  have hok : (∃ cfgs, parseEntries env [] entries = .ok cfgs) ↔
      ∀ i entry, entries[i]? = some entry →
        GoodEntry ((entries.take i).map entryId) entry := parseEntries_ok_iff
  constructor
  · rintro ⟨e, h⟩
    by_contra hnone
    have hgood : ∃ cfgs, parseEntries env [] entries = .ok cfgs := by
      apply hok.mpr
      intro i entry hi
      by_contra hbad
      exact hnone ⟨i, entry, hi, bad_iff_not_good.mpr hbad⟩
    obtain ⟨cfgs, hcfgs⟩ := hgood
    rw [h] at hcfgs
    cases hcfgs
  · rintro ⟨i, entry, hi, hbad⟩
    cases h : parseEntries env [] entries with
    | error e => exact ⟨e, rfl⟩
    | ok cfgs => exact absurd (hok.mp ⟨cfgs, h⟩ i entry hi) (bad_iff_not_good.mp hbad)

/-! ## The configs -/

theorem get_append (fields more : List (JsString × JsValue)) (key : JsString) :
    get (fields ++ more) key =
      match more.reverse.lookup key with
      | some v => v
      | none => get fields key := by
  unfold get
  rw [List.reverse_append, List.lookup_append]
  cases more.reverse.lookup key <;> rfl

theorem ownOr_own {fields : List (JsString × JsValue)} {key : JsString} {global : Option JsString}
    (h : get fields key ≠ .undefined) : ownOr fields key global = get fields key := by
  unfold ownOr
  split
  · exact absurd ‹_› h
  · rfl

theorem ownOr_global {fields : List (JsString × JsValue)} {key : JsString}
    {global : Option JsString} (h : get fields key = .undefined) :
    ownOr fields key global = ofEnv global := by
  simp only [ownOr, h]

theorem stringOf_driver {fields : List (JsString × JsValue)} {text : JsString}
    (htext : stringOf (driverValue fields) = .ok text) (hdriver : toLowerCase text ∈ drivers) :
    stringOf (get fields (js "driver")) = .ok text := by
  unfold driverValue at htext
  split at htext
  · exact htext
  · obtain rfl := Except.ok.inj (htext.symm.trans (by rw [stringOf]))
    exact absurd hdriver (by decide)

/-- Every key with a global default is settled by its own value or the default. -/
theorem settled_globals {env : Env} {fields : List (JsString × JsValue)} (id driver : JsString)
    {p : JsString × Option JsString} (hp : p ∈ globals env) :
    (settled env fields id driver).reverse.lookup p.1 = some (ownOr fields p.1 p.2) := by
  simp only [globals, List.mem_cons, List.not_mem_nil, or_false] at hp
  rcases hp with rfl | rfl | rfl | rfl
  · rfl
  · rfl
  · rfl
  · rfl

theorem config_configured {env : Env} {fields : List (JsString × JsValue)} {text : JsString}
    (hid : trimmedId fields ≠ []) (htext : stringOf (driverValue fields) = .ok text)
    (hdriver : toLowerCase text ∈ drivers) :
    Configures env (.obj fields) (config env fields (trimmedId fields) (toLowerCase text)) := by
  obtain ⟨s, hs, htrim⟩ := trimmedId_str hid
  refine ⟨fields, _, rfl, rfl, ?_⟩
  constructor
  · refine ⟨s, hs, htrim ▸ hid, ?_⟩
    rw [get_append, ← htrim]
    rfl
  · refine ⟨text, stringOf_driver htext hdriver, hdriver, ?_⟩
    rw [get_append]
    rfl
  · intro p hp hown
    rw [get_append, settled_globals _ _ hp]
    exact ownOr_own hown
  · intro p hp hown
    rw [get_append, settled_globals _ _ hp]
    exact ownOr_global hown
  · intro key hkid hkdriver hkglobals
    have hnone : (settled env fields (trimmedId fields) (toLowerCase text)).reverse.lookup key =
        none := by
      rw [List.lookup_eq_none_iff]
      simp only [globals, List.forall_mem_cons] at hkglobals
      simp [settled, hkid, hkdriver, hkglobals]
    rw [get_append, hnone]

theorem configId_config (env : Env) (fields : List (JsString × JsValue)) (id driver : JsString) :
    configId (config env fields id driver) = id := by
  have hget : get (fields ++ settled env fields id driver) (js "id") = .str id := by
    rw [get_append]
    rfl
  rw [config, configId, hget]

/-- The configs of the entries, in order, with ids that are new and distinct. -/
theorem parseEntries_ok {env : Env} {seen : List JsString} {entries cfgs : List JsValue}
    (h : parseEntries env seen entries = .ok cfgs) :
    List.Forall₂ (Configures env) entries cfgs ∧ (cfgs.map configId).Nodup ∧
      ∀ id ∈ cfgs.map configId, id ∉ seen := by
  induction entries generalizing seen cfgs with
  | nil =>
      obtain rfl := Except.ok.inj h
      exact ⟨.nil, List.nodup_nil, by simp⟩
  | cons e entries ih =>
      rw [parseEntries] at h
      cases he : parseEntry env seen e with
      | error x => simp [he] at h
      | ok r =>
          obtain ⟨id, cfg⟩ := r
          simp only [he] at h
          cases hp : parseEntries env (seen ++ [id]) entries with
          | error x => simp [hp] at h
          | ok rest =>
              simp only [hp] at h
              obtain rfl := Except.ok.inj h
              obtain ⟨fields, text, rfl, rfl, hne, hseen, htext, hdriver, rfl⟩ := parseEntry_ok he
              obtain ⟨hrest, hnd, hnew⟩ := ih hp
              have hid := configId_config env fields (trimmedId fields) (toLowerCase text)
              refine ⟨.cons (config_configured hne htext hdriver) hrest, ?_, ?_⟩
              · rw [List.map_cons, List.nodup_cons, hid]
                refine ⟨?_, hnd⟩
                intro hmem
                exact hnew _ hmem (by simp)
              · rw [List.map_cons, List.forall_mem_cons, hid]
                refine ⟨hseen, ?_⟩
                intro i hi hmem
                exact hnew i hi (List.mem_append_left _ hmem)

/-! ## The variables of a single modem -/

theorem lowerUnit_lowerUnit (c : CodeUnit) : (lowerUnit c).flatMap lowerUnit = lowerUnit c := by
  have hkeep : ∀ d : CodeUnit, ¬(0x41 ≤ d ∧ d ≤ 0x5a) → d ≠ 0x212a → d ≠ 0x130 →
      lowerUnit d = [d] := by
    intro d hcapital hkelvin hdotted
    rw [lowerUnit, if_neg hcapital, if_neg hkelvin, if_neg hdotted]
  by_cases hcapital : 0x41 ≤ c ∧ c ≤ 0x5a
  · have hlo : 0x41 ≤ c.toNat := UInt16.le_iff_toNat_le.mp hcapital.1
    have hhi : c.toNat ≤ 0x5a := UInt16.le_iff_toNat_le.mp hcapital.2
    have hlower : (c + 0x20).toNat = c.toNat + 0x20 := by
      rw [UInt16.toNat_add]
      exact Nat.mod_eq_of_lt (by simp only [UInt16.reduceToNat]; omega)
    rw [lowerUnit, if_pos hcapital, List.flatMap_singleton]
    apply hkeep
    · intro h
      have hle := UInt16.le_iff_toNat_le.mp h.2
      rw [hlower] at hle
      simp only [UInt16.reduceToNat] at hle
      omega
    · intro h
      rw [h] at hlower
      simp only [UInt16.reduceToNat] at hlower
      omega
    · intro h
      rw [h] at hlower
      simp only [UInt16.reduceToNat] at hlower
      omega
  · by_cases hkelvin : c = 0x212a
    · subst hkelvin
      decide
    by_cases hdotted : c = 0x130
    · subst hdotted
      decide
    rw [hkeep c hcapital hkelvin hdotted, List.flatMap_singleton,
      hkeep c hcapital hkelvin hdotted]

theorem toLowerCase_toLowerCase (s : JsString) : toLowerCase (toLowerCase s) = toLowerCase s := by
  unfold toLowerCase
  rw [List.flatMap_assoc]
  apply List.flatMap_congr
  intro c _
  exact lowerUnit_lowerUnit c

theorem knownDriver_lower (s : JsString) :
    KnownDriver (.str (toLowerCase s)) ↔ toLowerCase s ∈ drivers := by
  constructor
  · rintro ⟨t, ht, hmem⟩
    obtain rfl := Except.ok.inj (ht.symm.trans (by rw [stringOf]))
    rwa [toLowerCase_toLowerCase] at hmem
  · intro hmem
    exact ⟨toLowerCase s, by rw [stringOf], by rwa [toLowerCase_toLowerCase]⟩

theorem legacyDriver_known {env : Env} :
    toLowerCase (legacyDriver env) ∈ drivers ↔
      ∀ s, env.modemDriver = some s → s ≠ [] → toLowerCase s ∈ drivers := by
  have hserial : toLowerCase (js "serial") ∈ drivers := by decide
  cases hm : env.modemDriver with
  | none => simpa [legacyDriver, hm] using hserial
  | some s =>
      by_cases hs : s = []
      · simpa [legacyDriver, hm, hs] using hserial
      · simp [legacyDriver, hm, hs]

/-- The one entry is good unless `MODEM_DRIVER` is set to no driver. -/
theorem legacy_good_iff (env : Env) :
    GoodEntry [] (legacyEntry env) ↔
      ∀ s, env.modemDriver = some s → s ≠ [] → toLowerCase s ∈ drivers := by
  rw [← legacyDriver_known, ← knownDriver_lower]
  constructor
  · rintro ⟨fields, heq, -, -, hdriver⟩
    obtain rfl := JsValue.obj.inj heq
    exact hdriver
  · intro hdriver
    have hid : trimmedId (legacyFields env) = trim (js "default") := rfl
    refine ⟨legacyFields env, rfl, ?_, List.not_mem_nil, hdriver⟩
    rw [hid]
    decide

/-! ## The pool -/

section

variable {M : Type}

/-- `FACTORIES`. -/
structure Factories (M : Type) where
  createSerialModem : JsValue → Except JsError M
  createZteModem : JsValue → Except JsError M
  createAdbModem : JsValue → Except JsError M

/-- `(FACTORIES[cfg.driver] || createSerialModem)(cfg)`. -/
def Factories.create (f : Factories M) (cfg : JsValue) : Except JsError M :=
  match cfg with
  | .obj fields =>
      if isStr (get fields (js "driver")) (js "zte-http") then f.createZteModem cfg
      else if isStr (get fields (js "driver")) (js "adb") then f.createAdbModem cfg
      else f.createSerialModem cfg
  | _ => f.createSerialModem cfg

/-- `map.set(key, value)`: an old key keeps its place. -/
def mapSet (m : List (JsString × M)) (p : JsString × M) : List (JsString × M) :=
  if m.any fun q => q.1 == p.1 then m.map fun q => if q.1 = p.1 then p else q else m ++ [p]

/-- `new Map(pairs)`. -/
def newMap (pairs : List (JsString × M)) : List (JsString × M) := pairs.foldl mapSet []

/-- `modems` of `utils/pool.js`; a factory that throws ends the process. -/
def buildPool (complaint : JsString → JsString) (f : Factories M) (env : Env) :
    Except JsError (List (JsString × M)) :=
  match parseModemConfigs complaint env with
  | .error e => .error e
  | .ok cfgs =>
      match cfgs.mapM fun cfg => (f.create cfg).map fun m => (configId cfg, m) with
      | .error e => .error e
      | .ok pairs => .ok (newMap pairs)

theorem foldl_mapSet {m pairs : List (JsString × M)} (h : ((m ++ pairs).map (·.1)).Nodup) :
    pairs.foldl mapSet m = m ++ pairs := by
  induction pairs generalizing m with
  | nil => simp
  | cons p pairs ih =>
      have hnew : ¬(m.any fun q => q.1 == p.1) = true := by
        rw [List.map_append, List.nodup_append] at h
        intro hany
        obtain ⟨q, hq, hkey⟩ := List.any_eq_true.mp hany
        have hmem : p.1 ∈ m.map (·.1) := beq_iff_eq.mp hkey ▸ List.mem_map_of_mem hq
        exact h.2.2 _ hmem _ (by simp) rfl
      rw [List.foldl_cons, mapSet, if_neg hnew, ih (by simpa using h)]
      simp

theorem newMap_of_nodup {pairs : List (JsString × M)} (h : (pairs.map (·.1)).Nodup) :
    newMap pairs = pairs := foldl_mapSet h

/-- When the factories succeed, there is a modem for every config, under its id. -/
theorem mapM_create {f : Factories M} {cfgs : List JsValue}
    (h : ∀ cfg ∈ cfgs, ∃ m, f.create cfg = .ok m) :
    ∃ pairs, (cfgs.mapM fun cfg => (f.create cfg).map fun m => (configId cfg, m)) = .ok pairs ∧
      List.Forall₂ (fun cfg p => p.1 = configId cfg ∧ f.create cfg = .ok p.2) cfgs pairs ∧
      pairs.map (·.1) = cfgs.map configId := by
  induction cfgs with
  | nil => exact ⟨[], rfl, .nil, rfl⟩
  | cons cfg cfgs ih =>
      obtain ⟨m, hm⟩ := h cfg List.mem_cons_self
      obtain ⟨pairs, hpairs, hall, hids⟩ := ih fun c hc => h c (List.mem_cons_of_mem _ hc)
      refine ⟨(configId cfg, m) :: pairs, ?_, .cons ⟨rfl, hm⟩ hall, by simp [hids]⟩
      rw [List.mapM_cons, hm, hpairs]
      rfl

end

/-! ## What is accepted -/

theorem parseModemConfigs_legacy {complaint : JsString → JsString} {env : Env}
    (h : trim (env.modems.getD []) = []) :
    parseModemConfigs complaint env = parseEntries env [] [legacyEntry env] := by
  simp only [parseModemConfigs, if_pos h]

theorem parseModemConfigs_entries {complaint : JsString → JsString} {env : Env}
    {entry : JsValue} {entries : List JsValue} (h : trim (env.modems.getD []) ≠ [])
    (hparse : parse (trim (env.modems.getD [])) = some (.arr (entry :: entries))) :
    parseModemConfigs complaint env = parseEntries env [] (entry :: entries) := by
  simp only [parseModemConfigs, if_neg h, hparse]

theorem legacy_error_iff {env : Env} :
    (∃ e, parseEntries env [] [legacyEntry env] = .error e) ↔
      ∃ s, env.modemDriver = some s ∧ s ≠ [] ∧ toLowerCase s ∉ drivers := by
  rw [parseEntries_error_iff]
  have hgood := legacy_good_iff env
  constructor
  · rintro ⟨i, entry, hi, hbad⟩
    have hone := List.getElem?_eq_some_iff.mp hi
    obtain ⟨hlt, hentry⟩ := hone
    obtain rfl : i = 0 := by simpa using hlt
    obtain rfl : legacyEntry env = entry := by simpa using hentry
    have hnot := bad_iff_not_good.mp hbad
    simp only [List.take_zero, List.map_nil, hgood] at hnot
    simpa using hnot
  · rintro ⟨s, hs, hne, hdriver⟩
    refine ⟨0, legacyEntry env, rfl, bad_iff_not_good.mpr ?_⟩
    simp only [List.take_zero, List.map_nil, hgood]
    exact fun h => hdriver (h s hs hne)

theorem parseModemConfigs_error_iff {complaint : JsString → JsString} {env : Env} :
    (∃ e, parseModemConfigs complaint env = .error e) ↔ Rejected env := by
  by_cases hraw : trim (env.modems.getD []) = []
  · rw [parseModemConfigs_legacy hraw, legacy_error_iff]
    constructor
    · rintro ⟨s, hs, hne, hdriver⟩
      exact .legacyDriver s hraw hs hne hdriver
    · intro h
      cases h with
      | notJson h _ => exact absurd hraw h
      | notArray v h _ _ => exact absurd hraw h
      | empty h _ => exact absurd hraw h
      | entry entries i entry h _ _ _ => exact absurd hraw h
      | legacyDriver s _ hs hne hdriver => exact ⟨s, hs, hne, hdriver⟩
  cases hparse : parse (trim (env.modems.getD [])) with
  | none =>
      have herror : ∃ e, parseModemConfigs complaint env = .error e := by
        simp only [parseModemConfigs, if_neg hraw, hparse]
        exact ⟨_, rfl⟩
      exact ⟨fun _ => .notJson hraw hparse, fun _ => herror⟩
  | some v =>
      by_cases harr : ∃ entries, v = .arr entries
      · obtain ⟨entries, rfl⟩ := harr
        cases entries with
        | nil =>
            have herror : ∃ e, parseModemConfigs complaint env = .error e := by
              simp only [parseModemConfigs, if_neg hraw, hparse]
              exact ⟨_, rfl⟩
            exact ⟨fun _ => .empty hraw hparse, fun _ => herror⟩
        | cons entry entries =>
            rw [parseModemConfigs_entries hraw hparse, parseEntries_error_iff]
            constructor
            · rintro ⟨i, e, hi, hbad⟩
              exact .entry _ i e hraw hparse hi hbad
            · intro h
              cases h with
              | notJson _ hnone =>
                  rw [hparse] at hnone
                  cases hnone
              | notArray v _ hv hnot =>
                  rw [hparse] at hv
                  exact absurd (Option.some.inj hv).symm (hnot _)
              | empty _ hv =>
                  rw [hparse] at hv
                  cases hv
              | entry list i e _ hv hi hbad =>
                  rw [hparse] at hv
                  obtain rfl := JsValue.arr.inj (Option.some.inj hv)
                  exact ⟨i, e, hi, hbad⟩
              | legacyDriver s h _ _ _ => exact absurd h hraw
      · have hnot : ∀ entries, v ≠ .arr entries := fun entries he => harr ⟨entries, he⟩
        have herror : ∃ e, parseModemConfigs complaint env = .error e := by
          simp only [parseModemConfigs, if_neg hraw, hparse]
          cases v with
          | arr entries => exact absurd rfl (hnot entries)
          | _ => exact ⟨_, rfl⟩
        exact ⟨fun _ => .notArray v hraw hparse hnot, fun _ => herror⟩

/-- What is accepted comes from the entries asked for, of which there is at least one. -/
theorem asks_of_ok {complaint : JsString → JsString} {env : Env} {cfgs : List JsValue}
    (h : parseModemConfigs complaint env = .ok cfgs) :
    ∃ entries, entries ≠ [] ∧ Asks env entries ∧ parseEntries env [] entries = .ok cfgs := by
  by_cases hraw : trim (env.modems.getD []) = []
  · rw [parseModemConfigs_legacy hraw] at h
    exact ⟨_, List.cons_ne_nil _ _, .legacy hraw, h⟩
  · simp only [parseModemConfigs, if_neg hraw] at h
    split at h
    · cases h
    · rename_i entry entries hparse
      exact ⟨_, List.cons_ne_nil _ _, .modems hraw hparse, h⟩
    · cases h

/-- `parseModemConfigs` throws exactly for a rejected environment. Otherwise it gives one config
for every entry, in order, with distinct ids, and with factories that succeed the pool has
exactly one modem for each. -/
theorem parseModemConfigs_exact (complaint : JsString → JsString) (env : Env) :
    ((∃ e, parseModemConfigs complaint env = .error e) ↔ Rejected env) ∧
      ∀ cfgs, parseModemConfigs complaint env = .ok cfgs →
        (∃ entries, Asks env entries ∧ List.Forall₂ (Configures env) entries cfgs) ∧
        (cfgs.map configId).Nodup ∧
        ∀ (M : Type) (f : Factories M), (∀ cfg ∈ cfgs, ∃ m, f.create cfg = .ok m) →
          ∃ modems, buildPool complaint f env = .ok modems ∧ (modems.map (·.1)).Nodup ∧
            List.Forall₂ (fun cfg p => p.1 = configId cfg ∧ f.create cfg = .ok p.2) cfgs modems := by
  refine ⟨parseModemConfigs_error_iff, ?_⟩
  intro cfgs h
  obtain ⟨entries, -, hasks, hparse⟩ := asks_of_ok h
  obtain ⟨hconfigures, hnd, -⟩ := parseEntries_ok hparse
  refine ⟨⟨entries, hasks, hconfigures⟩, hnd, ?_⟩
  intro M f hf
  obtain ⟨pairs, hpairs, hall, hids⟩ := mapM_create hf
  rw [← hids] at hnd
  refine ⟨pairs, ?_, hnd, hall⟩
  simp only [buildPool, h, hpairs, newMap_of_nodup hnd]

theorem ids_of_mapM {M : Type} {f : Factories M} {cfgs : List JsValue}
    {pairs : List (JsString × M)}
    (h : (cfgs.mapM fun cfg => (f.create cfg).map fun m => (configId cfg, m)) = .ok pairs) :
    pairs.map (·.1) = cfgs.map configId := by
  induction cfgs generalizing pairs with
  | nil =>
      obtain rfl := Except.ok.inj h
      rfl
  | cons cfg cfgs ih =>
      rw [List.mapM_cons] at h
      cases hm : f.create cfg with
      | error e =>
          rw [hm] at h
          cases h
      | ok m =>
          cases hrest : cfgs.mapM fun cfg => (f.create cfg).map fun m => (configId cfg, m) with
          | error e =>
              rw [hm, hrest] at h
              cases h
          | ok rest =>
              rw [hm, hrest] at h
              obtain rfl := Except.ok.inj h
              rw [List.map_cons, List.map_cons, ih hrest]

/-- The pool that a process starts with is a fleet. -/
theorem buildPool_fleet {M : Type} {complaint : JsString → JsString} {f : Factories M} {env : Env}
    {modems : List (JsString × M)} (h : buildPool complaint f env = .ok modems) :
    ∃ fleet : RoundRobin.Fleet, fleet.ids = modems.map (·.1) := by
  unfold buildPool at h
  split at h
  · cases h
  rename_i cfgs hcfgs
  split at h
  · cases h
  rename_i pairs hpairs
  obtain rfl := Except.ok.inj h
  obtain ⟨entries, hne, -, hparse⟩ := asks_of_ok hcfgs
  obtain ⟨hconfigures, hnd, -⟩ := parseEntries_ok hparse
  have hids := ids_of_mapM hpairs
  rw [← hids] at hnd
  rw [newMap_of_nodup hnd]
  refine ⟨⟨pairs.map (·.1), ?_, hnd⟩, rfl⟩
  rw [hids]
  intro hnil
  have hcfgsNil : cfgs = [] := List.map_eq_nil_iff.mp hnil
  subst hcfgsNil
  cases hconfigures
  exact hne rfl

end SmsGateway.ModemConfig
