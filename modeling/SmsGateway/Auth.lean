import SmsGateway.Lib.Base64
import SmsGateway.Unicode
import SmsGateway.Webhook
import SmsGateway.Zte.Driver

/-!
# Who is let in

`checkApiKey` stands before the API and `checkBasicAuth` before the queue board. The first
lets in who presents the key, the second who presents the configured credentials, in the
header a browser writes for them.
-/

namespace SmsGateway.Auth

open SmsGateway Lib.Base64

/-! ## The checks -/

/-- The environment of a running process; `[]` is a variable that is not set. -/
structure Env where
  apiKey : JsString
  dashboardUser : JsString
  dashboardPassword : JsString
  apiKey_set : apiKey ≠ []
  together : dashboardUser = [] ↔ dashboardPassword = []
  apiKey_wellFormed : isWellFormed apiKey = true
  user_wellFormed : isWellFormed dashboardUser = true
  password_wellFormed : isWellFormed dashboardPassword = true

/-- A variable of `process.env`, which the platform reads as UTF-8. -/
abbrev Variable := { s : JsString // isWellFormed s = true }

/-- The checks of `index.js` at its start; `none` where the process exits. -/
def startUp (apiKey dashboardUser dashboardPassword : Variable) : Option Env :=
  if hkey : apiKey.val = [] then none
  else if htogether : dashboardUser.val = [] ↔ dashboardPassword.val = [] then
    some {
      apiKey := apiKey.val
      dashboardUser := dashboardUser.val
      dashboardPassword := dashboardPassword.val
      apiKey_set := hkey
      together := htogether
      apiKey_wellFormed := apiKey.property
      user_wellFormed := dashboardUser.property
      password_wellFormed := dashboardPassword.property }
  else none

/-- A process runs in every such environment, and in no other. -/
theorem startUp_eq_some {apiKey dashboardUser dashboardPassword : Variable} {env : Env} :
    startUp apiKey dashboardUser dashboardPassword = some env ↔
      apiKey.val = env.apiKey ∧ dashboardUser.val = env.dashboardUser ∧
        dashboardPassword.val = env.dashboardPassword := by
  unfold startUp
  constructor
  · intro h
    split at h
    case isTrue => cases h
    case isFalse =>
      split at h
      case isTrue =>
        obtain rfl := Option.some.inj h
        exact ⟨rfl, rfl, rfl⟩
      case isFalse => cases h
  · rintro ⟨hkey, huser, hpassword⟩
    have hset : apiKey.val ≠ [] := hkey ▸ env.apiKey_set
    have htogether : dashboardUser.val = [] ↔ dashboardPassword.val = [] :=
      huser ▸ hpassword ▸ env.together
    rw [dif_neg hset, dif_pos htogether]
    cases env
    cases hkey
    cases huser
    cases hpassword
    rfl

/-- The value of a header: the platform reads each octet as a character. -/
structure Header where
  text : JsString
  octets : ∀ c ∈ text, c.toNat < 0x100

structure Request where
  xApiKey : Option Header
  authorization : Option Header

/-- `req.get(name) || ''`. -/
def textOf (header : Option Header) : JsString := (header.map Header.text).getD []

/-- `crypto.timingSafeEqual` of the octets, once there are as many of both. -/
def timingSafeEqual (a b : JsString) : Bool :=
  let bufA := utf8Octets a
  let bufB := utf8Octets b
  bufA.length == bufB.length && bufA == bufB

def presentedKey (req : Request) : JsString :=
  let apiKey := textOf req.xApiKey
  if apiKey = [] then
    let auth := textOf req.authorization
    -- no other character of a header has a lower case in ASCII
    if startsWith (Webhook.toLowerCase auth) (js "bearer ") then trim (auth.drop 7) else []
  else apiKey

def checkApiKey (env : Env) (req : Request) : Bool :=
  let apiKey := presentedKey req
  apiKey ≠ [] && timingSafeEqual apiKey env.apiKey

/-- The value of a digit, in the alphabet of files and URLs too. -/
def base64Digit (c : CodeUnit) : Option Nat :=
  if 0x41 ≤ c && c ≤ 0x5a then some (c.toNat - 0x41)
  else if 0x61 ≤ c && c ≤ 0x7a then some (c.toNat - 0x61 + 26)
  else if isDigit c then some (c.toNat - 0x30 + 52)
  else if c = 0x2b ∨ c = 0x2d then some 62
  else if c = 0x2f ∨ c = 0x5f then some 63
  else none

/-- The padding character. -/
def pad : CodeUnit := 0x3d

/-- `Buffer.from(s, 'base64')`: it ends at the padding and skips what is no digit. -/
def fromBase64 (s : JsString) : List Nat := octets ((s.takeWhile (· != pad)).filterMap base64Digit)

def colon : CodeUnit := 0x3a

def checkBasicAuth (env : Env) (req : Request) : Bool :=
  let auth := textOf req.authorization
  if startsWith auth (js "Basic ") then
    let decoded := utf8Decode (fromBase64 (auth.drop 6))
    let username := decoded.takeWhile (· != colon)
    let password := (decoded.dropWhile (· != colon)).drop 1
    if env.dashboardPassword ≠ [] then
      timingSafeEqual username env.dashboardUser && timingSafeEqual password env.dashboardPassword
    else password ≠ [] && timingSafeEqual password env.apiKey
  else false

/-! ## What is compared -/

/-- The comparison of the octets is one of the strings. -/
theorem timingSafeEqual_iff {a b : JsString} (ha : isWellFormed a = true)
    (hb : isWellFormed b = true) : timingSafeEqual a b = true ↔ a = b := by
  simp only [timingSafeEqual, Bool.and_eq_true, beq_iff_eq]
  constructor
  · intro h
    exact utf8Octets_inj ha hb h.2
  · rintro rfl
    exact ⟨rfl, rfl⟩

theorem wellFormed_of_octets {s : JsString} (h : ∀ c ∈ s, c.toNat < 0x100) :
    isWellFormed s = true :=
  wellFormed_of_lt fun c hc => (h c hc).trans (by decide)

theorem octets_textOf (header : Option Header) : ∀ c ∈ textOf header, c.toNat < 0x100 := by
  cases header with
  | none => exact fun _ hc => absurd hc List.not_mem_nil
  | some header => exact header.octets

theorem octets_presentedKey (req : Request) : ∀ c ∈ presentedKey req, c.toNat < 0x100 := by
  intro c hc
  simp only [presentedKey] at hc
  split_ifs at hc
  · exact octets_textOf req.authorization c (List.mem_of_mem_drop (mem_of_mem_trim hc))
  · cases hc
  · exact octets_textOf req.xApiKey c hc

/-- The key a request presents: in its own header, or behind the scheme in any case. -/
def Presents (req : Request) (key : JsString) : Prop :=
  (textOf req.xApiKey = key ∧ key ≠ []) ∨
    (textOf req.xApiKey = [] ∧ ∃ scheme text, textOf req.authorization = scheme ++ text ∧
      Webhook.toLowerCase scheme = js "bearer " ∧ trim text = key)

theorem presentedKey_iff {req : Request} {key : JsString} (hkey : key ≠ []) :
    presentedKey req = key ↔ Presents req key := by
  unfold presentedKey Presents
  by_cases hx : textOf req.xApiKey = []
  · simp only [hx, if_true]
    constructor
    · intro h
      split at h
      case isTrue hbearer =>
        right
        refine ⟨trivial, (textOf req.authorization).take 7, (textOf req.authorization).drop 7,
          (List.take_append_drop 7 _).symm, ?_, h⟩
        rw [startsWith, List.isPrefixOf_iff_prefix, List.prefix_iff_eq_take] at hbearer
        rw [Webhook.toLowerCase, List.map_take, ← Webhook.toLowerCase, hbearer]
        simp [js, utf16Encode]
      case isFalse => exact absurd h.symm hkey
    · rintro (⟨hnil, -⟩ | ⟨-, scheme, text, hauth, hscheme, htrim⟩)
      · exact absurd hnil.symm hkey
      · have hlength : scheme.length = 7 := by
          have h := congrArg List.length hscheme
          rwa [Webhook.toLowerCase, List.length_map] at h
        rw [hauth, Webhook.toLowerCase, List.map_append, ← Webhook.toLowerCase, hscheme, startsWith_append, if_pos rfl,
          ← hlength, List.drop_left, htrim]
  · simp only [hx, if_false, false_and, or_false]
    constructor
    · rintro rfl
      exact ⟨rfl, hx⟩
    · exact And.left

theorem checkApiKey_iff (env : Env) (req : Request) :
    checkApiKey env req = true ↔ Presents req env.apiKey := by
  rw [← presentedKey_iff env.apiKey_set, checkApiKey, Bool.and_eq_true, decide_eq_true_eq,
    timingSafeEqual_iff (wellFormed_of_octets (octets_presentedKey req)) env.apiKey_wellFormed]
  constructor
  · exact And.right
  · intro h
    exact ⟨h ▸ env.apiKey_set, h⟩

/-! ## The header of a browser -/

/-- A user and a password as a browser sends them: only the password has colons. -/
structure Credentials where
  user : JsString
  password : JsString
  user_wellFormed : isWellFormed user = true
  password_wellFormed : isWellFormed password = true
  user_plain : colon ∉ user

def Credentials.text (c : Credentials) : JsString := c.user ++ colon :: c.password

def basicHeader (c : Credentials) : JsString := js "Basic " ++ Zte.base64 (utf8Octets c.text)

theorem base64Digit_base64Unit {n : Nat} (h : n < 64) :
    base64Digit (Zte.base64Unit n) = some n ∧ Zte.base64Unit n ≠ pad := by
  have hall : ∀ m ∈ List.range 64, base64Digit (Zte.base64Unit m) = some m ∧
      Zte.base64Unit m ≠ pad := by decide +kernel
  exact hall n (List.mem_range.mpr h)

theorem base64_eq (l : List Nat) :
    ∃ k, Zte.base64 l = (sextets l).map Zte.base64Unit ++ List.replicate k pad := by
  induction l using sextets.induct with
  | case1 => exact ⟨0, rfl⟩
  | case2 a => exact ⟨2, rfl⟩
  | case3 a b => exact ⟨1, rfl⟩
  | case4 a b c rest ih =>
      obtain ⟨k, hk⟩ := ih
      exact ⟨k, by simp only [Zte.base64, sextets, hk, List.map_cons, List.cons_append, List.nil_append]⟩

/-- What is written as base64 is read back. -/
theorem fromBase64_base64 {l : List Nat} (h : ∀ o ∈ l, o < 256) : fromBase64 (Zte.base64 l) = l := by
  obtain ⟨k, hk⟩ := base64_eq l
  have hdigits := sextets_lt h
  have hplain : ∀ c ∈ (sextets l).map Zte.base64Unit, (c != pad) = true := by
    intro c hc
    obtain ⟨d, hd, rfl⟩ := List.mem_map.mp hc
    exact bne_iff_ne.mpr (base64Digit_base64Unit (hdigits d hd)).2
  have htake : (Zte.base64 l).takeWhile (· != pad) = (sextets l).map Zte.base64Unit := by
    rw [hk, List.takeWhile_append_of_pos hplain, List.takeWhile_replicate]
    simp
  have hread : ((sextets l).map Zte.base64Unit).filterMap base64Digit = sextets l := by
    rw [List.filterMap_map]
    calc (sextets l).filterMap (base64Digit ∘ Zte.base64Unit)
        = (sextets l).filterMap some :=
          List.filterMap_congr fun d hd => (base64Digit_base64Unit (hdigits d hd)).1
      _ = sextets l := List.filterMap_some
  rw [fromBase64, htake, hread, octets_sextets h]

theorem base64Unit_lt (n : Nat) : (Zte.base64Unit n).toNat < 0x100 := by
  by_cases hn : n < 64
  · have hall : ∀ m ∈ List.range 64, (Zte.base64Unit m).toNat < 0x100 := by decide +kernel
    exact hall n (List.mem_range.mpr hn)
  · rw [Zte.base64Unit, List.getD_eq_default _ _ (not_lt.mp hn)]
    decide

theorem octets_basicHeader (c : Credentials) : ∀ x ∈ basicHeader c, x.toNat < 0x100 := by
  intro x hx
  obtain ⟨k, hk⟩ := base64_eq (utf8Octets c.text)
  rw [basicHeader, hk, List.mem_append, List.mem_append] at hx
  obtain hscheme | hdigit | hpad := hx
  · have hall : ((js "Basic ").all fun x => x.toNat < 0x100) = true := by decide +kernel
    simpa using List.all_eq_true.mp hall x hscheme
  · obtain ⟨n, -, rfl⟩ := List.mem_map.mp hdigit
    exact base64Unit_lt n
  · rw [List.eq_of_mem_replicate hpad]
    decide

/-- What a browser sends after its user typed the credentials. -/
def browserHeader (c : Credentials) : Header := ⟨basicHeader c, octets_basicHeader c⟩

theorem utf8OfCodePoint_lt {n : Nat} (h : IsScalarValue n) : ∀ o ∈ utf8OfCodePoint n, o < 256 := by
  intro o ho
  unfold IsScalarValue at h
  unfold utf8OfCodePoint at ho
  dsimp only at ho
  split_ifs at ho <;> simp only [List.mem_cons, List.not_mem_nil, or_false] at ho <;> omega

theorem utf8Octets_lt {s : JsString} (h : isWellFormed s = true) : ∀ o ∈ utf8Octets s, o < 256 := by
  intro o ho
  obtain ⟨ch, hch, hoctet⟩ := List.mem_flatMap.mp ho
  exact utf8OfCodePoint_lt (scalar_codePoint (List.all_eq_true.mp h ch hch)).1 o hoctet

theorem Credentials.wellFormed_text (c : Credentials) : isWellFormed c.text = true :=
  wellFormed_append c.user_wellFormed (wellFormed_append (a := [colon]) (by decide) c.password_wellFormed)

/-- The header of a browser is read as what it was written for. -/
theorem utf8Decode_basicHeader (c : Credentials) :
    utf8Decode (fromBase64 ((basicHeader c).drop 6)) = c.text := by
  have hdrop : (basicHeader c).drop 6 = Zte.base64 (utf8Octets c.text) := rfl
  rw [hdrop, fromBase64_base64 (utf8Octets_lt c.wellFormed_text), utf8Decode_utf8Octets c.wellFormed_text]

/-! ## Who gets to the board -/

/-- What the board asks for: the configured credentials, or any user with the key. -/
def Grants (env : Env) (c : Credentials) : Prop :=
  if env.dashboardPassword ≠ [] then
    c.user = env.dashboardUser ∧ c.password = env.dashboardPassword
  else c.password = env.apiKey

theorem mem_takeWhile_colon {s : JsString} : colon ∉ s.takeWhile (· != colon) := by
  intro h
  have hne := List.mem_takeWhile_imp h
  simp at hne

/-- A text up to its first colon and after it. -/
theorem text_split (s : JsString) :
    colon ∉ s ∨ s = s.takeWhile (· != colon) ++ colon :: (s.dropWhile (· != colon)).drop 1 := by
  cases hd : s.dropWhile (· != colon) with
  | nil =>
      left
      intro h
      have hne := List.dropWhile_eq_nil_iff.mp hd colon h
      simp at hne
  | cons x rest =>
      right
      have hx := List.head?_dropWhile_not (· != colon) s
      rw [hd] at hx
      have hcolon : x = colon := by simpa using hx
      rw [List.drop_succ_cons, List.drop_zero, ← hcolon, ← hd, hcolon, List.takeWhile_append_dropWhile]

theorem takeWhile_text (c : Credentials) : c.text.takeWhile (· != colon) = c.user := by
  have hplain : ∀ x ∈ c.user, (x != colon) = true := by
    intro x hx
    exact bne_iff_ne.mpr fun he => c.user_plain (he ▸ hx)
  rw [Credentials.text, List.takeWhile_append_of_pos hplain, List.takeWhile_cons]
  simp

theorem dropWhile_text (c : Credentials) : (c.text.dropWhile (· != colon)).drop 1 = c.password := by
  have hplain : ∀ x ∈ c.user, (x != colon) = true := by
    intro x hx
    exact bne_iff_ne.mpr fun he => c.user_plain (he ▸ hx)
  rw [Credentials.text, List.dropWhile_append_of_pos hplain, List.dropWhile_cons]
  simp

theorem wellFormed_split {a b : JsString} (h : isWellFormed (a ++ colon :: b) = true) :
    isWellFormed a = true ∧ isWellFormed b = true := by
  have hleft : splitsPair a (colon :: b) = false := by
    simp [splitsPair, isLowSurrogate, colon]
  have hright : splitsPair [colon] b = false := by
    simp [splitsPair, isHighSurrogate, colon]
  rw [isWellFormed_append hleft, ← List.singleton_append, isWellFormed_append hright] at h
  simp only [Bool.and_eq_true] at h
  exact ⟨h.1, h.2.2⟩

/-- A text with a colon is that of some credentials. -/
theorem exists_credentials {s : JsString} (h : isWellFormed s = true) (hcolon : colon ∈ s) :
    ∃ c : Credentials, s = c.text := by
  obtain hnone | hsplit := text_split s
  · exact absurd hcolon hnone
  · rw [hsplit] at h
    obtain ⟨huser, hpassword⟩ := wellFormed_split h
    exact ⟨⟨_, _, huser, hpassword, mem_takeWhile_colon⟩, hsplit⟩

/-- What the check makes of the decoded text. -/
def admits (env : Env) (decoded : JsString) : Bool :=
  let username := decoded.takeWhile (· != colon)
  let password := (decoded.dropWhile (· != colon)).drop 1
  if env.dashboardPassword ≠ [] then
    timingSafeEqual username env.dashboardUser && timingSafeEqual password env.dashboardPassword
  else password ≠ [] && timingSafeEqual password env.apiKey

theorem checkBasicAuth_eq (env : Env) (req : Request) :
    checkBasicAuth env req = (startsWith (textOf req.authorization) (js "Basic ") &&
      admits env (utf8Decode (fromBase64 ((textOf req.authorization).drop 6)))) := by
  simp only [checkBasicAuth, admits]
  cases startsWith (textOf req.authorization) (js "Basic ")
  · rfl
  · rfl

theorem admits_text (env : Env) (c : Credentials) : admits env c.text = true ↔ Grants env c := by
  simp only [admits, takeWhile_text, dropWhile_text, Grants]
  split
  · rw [Bool.and_eq_true, timingSafeEqual_iff c.user_wellFormed env.user_wellFormed,
      timingSafeEqual_iff c.password_wellFormed env.password_wellFormed]
  · rw [Bool.and_eq_true, decide_eq_true_eq,
      timingSafeEqual_iff c.password_wellFormed env.apiKey_wellFormed]
    constructor
    · exact And.right
    · intro h
      exact ⟨h ▸ env.apiKey_set, h⟩

/-- Without a colon there is no password, and nobody is let in without one. -/
theorem admits_plain (env : Env) {s : JsString} (h : colon ∉ s) : admits env s = false := by
  have hdrop : s.dropWhile (· != colon) = [] := by
    rw [List.dropWhile_eq_nil_iff]
    intro x hx
    exact bne_iff_ne.mpr fun he => h (he ▸ hx)
  simp only [admits, hdrop, List.drop_nil]
  split
  case isTrue hset =>
    rw [Bool.and_eq_false_iff]
    right
    rw [← Bool.not_eq_true, timingSafeEqual_iff rfl env.password_wellFormed]
    exact fun he => hset he.symm
  case isFalse => rfl

/-- The decoded text is let in exactly when it is that of granted credentials. -/
theorem admits_iff (env : Env) {s : JsString} (h : isWellFormed s = true) :
    admits env s = true ↔ ∃ c : Credentials, s = c.text ∧ Grants env c := by
  constructor
  · intro ha
    by_cases hcolon : colon ∈ s
    · obtain ⟨c, rfl⟩ := exists_credentials h hcolon
      exact ⟨c, rfl, (admits_text env c).mp ha⟩
    · rw [admits_plain env hcolon] at ha
      cases ha
  · rintro ⟨c, rfl, hgrants⟩
    exact (admits_text env c).mpr hgrants

theorem checkBasicAuth_iff (env : Env) (req : Request) :
    checkBasicAuth env req = true ↔
      ∃ text, textOf req.authorization = js "Basic " ++ text ∧
        ∃ c : Credentials, utf8Decode (fromBase64 text) = c.text ∧ Grants env c := by
  rw [checkBasicAuth_eq, Bool.and_eq_true, admits_iff env (wellFormed_utf8Decode _), startsWith,
    List.isPrefixOf_iff_prefix]
  constructor
  · rintro ⟨⟨text, htext⟩, hgranted⟩
    rw [← htext] at hgranted
    exact ⟨text, htext.symm, hgranted⟩
  · rintro ⟨text, htext, hgranted⟩
    rw [htext]
    exact ⟨List.prefix_append _ _, hgranted⟩

theorem checkBasicAuth_browserHeader (env : Env) (req : Request) (c : Credentials) :
    checkBasicAuth env { req with authorization := some (browserHeader c) } = true ↔
      Grants env c := by
  have htext : textOf (some (browserHeader c)) = basicHeader c := rfl
  rw [checkBasicAuth_eq, htext, utf8Decode_basicHeader, basicHeader, startsWith_append,
    Bool.true_and, admits_text]

/-- A configured user with a colon locks everybody out of the board. -/
theorem checkBasicAuth_colon {env : Env} (h : colon ∈ env.dashboardUser) (req : Request) :
    checkBasicAuth env req = false := by
  rw [← Bool.not_eq_true, checkBasicAuth_iff]
  rintro ⟨text, -, c, -, hgrants⟩
  have hset : env.dashboardPassword ≠ [] := by
    intro hnil
    rw [env.together.mpr hnil] at h
    cases h
  rw [Grants, if_pos hset] at hgrants
  exact c.user_plain (hgrants.1 ▸ h)

/-- Who is let in: to the API who presents its key, to the board whose header decodes to granted
credentials. The header a browser writes for credentials is one exactly when they are granted. -/
theorem access_exact (env : Env) (req : Request) :
    (checkApiKey env req = true ↔ Presents req env.apiKey) ∧
      (checkBasicAuth env req = true ↔
        ∃ text, textOf req.authorization = js "Basic " ++ text ∧
          ∃ c : Credentials, utf8Decode (fromBase64 text) = c.text ∧ Grants env c) ∧
      ∀ c : Credentials,
        checkBasicAuth env { req with authorization := some (browserHeader c) } = true ↔
          Grants env c :=
  ⟨checkApiKey_iff env req, checkBasicAuth_iff env req, checkBasicAuth_browserHeader env req⟩

/-- The login of the board. -/
def admin : Credentials where
  user := js "admin"
  password := js "pass:word"
  user_wellFormed := by decide
  password_wellFormed := by decide
  user_plain := by decide

/-- A process with the login of the board. -/
def closed : Env where
  apiKey := js "k3y"
  dashboardUser := admin.user
  dashboardPassword := admin.password
  apiKey_set := by decide
  together := by decide
  apiKey_wellFormed := by decide
  user_wellFormed := admin.user_wellFormed
  password_wellFormed := admin.password_wellFormed

theorem octets_bearer : ∀ c ∈ js "Bearer k3y", c.toNat < 0x100 := by
  have hall : ((js "Bearer k3y").all fun c => c.toNat < 0x100) = true := by decide +kernel
  intro c hc
  simpa using List.all_eq_true.mp hall c hc

/-- A client with the key. -/
def client : Request where
  xApiKey := none
  authorization := some ⟨js "Bearer k3y", octets_bearer⟩

theorem presents_client : Presents client closed.apiKey := by
  right
  exact ⟨rfl, js "Bearer ", js "k3y", by decide +kernel, by decide +kernel, by decide +kernel⟩

/-- The process starts; the client gets to the API and the login to the board, but not the client
to the board. -/
theorem access_exact_closed :
    startUp ⟨js "k3y", by decide⟩ ⟨admin.user, admin.user_wellFormed⟩
        ⟨admin.password, admin.password_wellFormed⟩ = some closed ∧
      checkApiKey closed client = true ∧
      checkBasicAuth closed { client with authorization := some (browserHeader admin) } = true ∧
      checkBasicAuth closed client = false := by
  obtain ⟨hkey, hboard, hbrowser⟩ := access_exact closed client
  refine ⟨startUp_eq_some.mpr ⟨rfl, rfl, rfl⟩, hkey.mpr presents_client,
    (hbrowser admin).mpr ?_, ?_⟩
  · rw [Grants, if_pos (by decide)]
    exact ⟨rfl, rfl⟩
  · rw [← Bool.not_eq_true, hboard]
    rintro ⟨text, htext, -⟩
    have hbearer : startsWith (textOf client.authorization) (js "Basic ") = false := by decide +kernel
    rw [htext, startsWith_append] at hbearer
    cases hbearer

end SmsGateway.Auth
