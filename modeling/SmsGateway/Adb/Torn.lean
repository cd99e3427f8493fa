import SmsGateway.Adb.Bridge

/-!
# Lines that were torn

A copy of a file may end inside a line, and what is appended later continues that line.
The driver reads nothing from such a line, unless it is the whole text of one SMS.
-/

namespace SmsGateway.Adb

open SmsGateway Json

/-! ## Beginnings of lines -/

/-- Beginnings of lines, one behind the other. -/
inductive Joined : JsString → Prop where
  | nil : Joined []
  | cr {s : JsString} (h : Joined s) : Joined (CR :: s)
  | part {c : Captured} {p s : JsString} (hp : p <+: line c) (hne : p ≠ []) (h : Joined s) :
      Joined (p ++ s)

/-- No comma, colon or bracket comes next. -/
def Astray (s : JsString) : Prop := ∀ c t, skipSpace s = c :: t → c = 0x7b ∨ c = 0x66

/-- A beginning of a text with a separator ends before it, or has it. -/
theorem prefix_piece {α : Type} {p a b : List α} {c : α} (h : p <+: a ++ c :: b) :
    p <+: a ∨ ∃ q, p = a ++ c :: q ∧ q <+: b := by
  induction a generalizing p with
  | nil =>
      rcases List.prefix_cons_iff.mp h with rfl | ⟨q, rfl, hq⟩
      · exact Or.inl List.nil_prefix
      · exact Or.inr ⟨q, rfl, hq⟩
  | cons d a ih =>
      rcases List.prefix_cons_iff.mp h with rfl | ⟨q, rfl, hq⟩
      · exact Or.inl List.nil_prefix
      · rcases ih hq with hq | ⟨r, rfl, hr⟩
        · exact Or.inl (List.prefix_cons_iff.mpr (Or.inr ⟨q, rfl, hq⟩))
        · exact Or.inr ⟨r, rfl, hr⟩

/-- How a line starts. -/
theorem line_head (c : Captured) : ∃ t, line c = 0x7b :: 0x22 :: 0x66 :: t := ⟨_, line_eq c⟩

theorem part_head {c : Captured} {p : JsString} (hp : p <+: line c) (hne : p ≠ []) :
    ∃ q, p = 0x7b :: q := by
  obtain ⟨t, ht⟩ := line_head c
  rw [ht] at hp
  rcases List.prefix_cons_iff.mp hp with rfl | ⟨q, rfl, -⟩
  · exact absurd rfl hne
  · exact ⟨q, rfl⟩

theorem Joined.append {s t : JsString} (hs : Joined s) (ht : Joined t) : Joined (s ++ t) := by
  induction hs with
  | nil => exact ht
  | cr _ ih => exact .cr ih
  | part hp hne _ ih =>
      rw [List.append_assoc]
      exact .part hp hne ih

theorem Joined.skipSpace {s : JsString} (h : Joined s) :
    skipSpace s = [] ∨ ∃ t, skipSpace s = 0x7b :: t := by
  induction h with
  | nil => exact Or.inl rfl
  | cr _ ih => exact ih
  | part hp hne _ _ =>
      obtain ⟨q, rfl⟩ := part_head hp hne
      exact Or.inr ⟨_, rfl⟩

theorem Joined.astray {s : JsString} (h : Joined s) : Astray s := by
  intro c t hs
  rcases h.skipSpace with hnil | ⟨u, hu⟩
  · rw [hs] at hnil
    cases hnil
  · rw [hs] at hu
    exact Or.inl (List.cons.inj hu).1

theorem astray_skipSpace {s : JsString} (h : Astray s) : Astray (Json.skipSpace s) := by
  intro c t hs
  refine h c t ?_
  rwa [Json.skipSpace, Json.skipSpace, List.dropWhile_idempotent] at hs

theorem Joined.cases {s : JsString} (h : Joined s) :
    s = [] ∨ (∃ t, s = CR :: t) ∨ ∃ t, s = 0x7b :: t := by
  cases h with
  | nil => exact Or.inl rfl
  | cr h => exact Or.inr (Or.inl ⟨_, rfl⟩)
  | part hp hne h =>
      obtain ⟨q, rfl⟩ := part_head hp hne
      exact Or.inr (Or.inr ⟨_, rfl⟩)

/-! ## Strings that are cut off -/

/-- A backslash at the end is followed by no escape. -/
theorem stringBody_backslash {y : JsString} (hy : Joined y) : stringBody (0x5c :: y) = none := by
  rcases hy.cases with rfl | ⟨t, rfl⟩ | ⟨t, rfl⟩
  · rfl
  · rw [stringBody.eq_4 _ _ fun _ _ _ _ _ hu => absurd hu (by decide)]
    rfl
  · rw [stringBody.eq_4 _ _ fun _ _ _ _ _ hu => absurd hu (by decide)]
    rfl

theorem hexUnit_none {a b c d : CodeUnit} (h : hexDigit a = none ∨ hexDigit b = none ∨
    hexDigit c = none ∨ hexDigit d = none) : hexUnit a b c d = none := by
  unfold hexUnit
  cases ha : hexDigit a with
  | none => rfl
  | some _ =>
  cases hb : hexDigit b with
  | none => rfl
  | some _ =>
  cases hc : hexDigit c with
  | none => rfl
  | some _ =>
  cases hd : hexDigit d with
  | none => rfl
  | some _ => simp [ha, hb, hc, hd] at h

theorem Joined.hexDigit {c : CodeUnit} {s : JsString} (h : Joined (c :: s)) :
    hexDigit c = none := by
  rcases h.cases with he | ⟨t, he⟩ | ⟨t, he⟩
  · cases he
  · rw [(List.cons.inj he).1]
    rfl
  · rw [(List.cons.inj he).1]
    rfl

/-- Less than four digits are followed by no escape. -/
theorem stringBody_digits {x y : JsString} (hx : x.length < 4) (hy : Joined y) :
    stringBody (0x5c :: 0x75 :: (x ++ y)) = none := by
  by_cases hfour : ∃ a b c d t, x ++ y = a :: b :: c :: d :: t
  · obtain ⟨a, b, c, d, t, he⟩ := hfour
    have hdigit : hexDigit a = none ∨ hexDigit b = none ∨ hexDigit c = none ∨
        hexDigit d = none := by
      rcases x with _ | ⟨_, _ | ⟨_, _ | ⟨_, _ | ⟨_, x⟩⟩⟩⟩
      · obtain rfl := he
        exact Or.inl hy.hexDigit
      · obtain rfl := (List.cons.inj he).2
        exact Or.inr (Or.inl hy.hexDigit)
      · obtain rfl := (List.cons.inj (List.cons.inj he).2).2
        exact Or.inr (Or.inr (Or.inl hy.hexDigit))
      · obtain rfl := (List.cons.inj (List.cons.inj (List.cons.inj he).2).2).2
        exact Or.inr (Or.inr (Or.inr hy.hexDigit))
      · simp only [List.length_cons] at hx
        omega
    rw [he, stringBody.eq_3, hexUnit_none hdigit]
    rfl
  · rw [stringBody.eq_4 _ _ fun a b c d t _ he => hfour ⟨a, b, c, d, t, he⟩]
    rfl

theorem Joined.stringBody {y s t : JsString} (hy : Joined y)
    (h : stringBody y = some (s, t)) : Astray t := by
  induction hy generalizing s with
  | nil => cases h
  | cr _ _ =>
      rw [Json.stringBody.eq_5 _ _ (by decide) (fun _ _ _ _ _ he => absurd he (by decide))
        (fun _ _ he => absurd he (by decide)), if_pos (by decide)] at h
      cases h
  | @part c p y hp hne hy ih =>
      obtain ⟨tail, htail⟩ := line_head c
      rw [htail] at hp
      rcases List.prefix_cons_iff.mp hp with rfl | ⟨q, rfl, hq⟩
      · exact absurd rfl hne
      rw [List.cons_append, stringBody_plain (by decide) (by decide) (by decide)] at h
      rcases List.prefix_cons_iff.mp hq with rfl | ⟨r, rfl, hr⟩
      · obtain ⟨⟨u, t'⟩, hu, he⟩ := Option.map_eq_some_iff.mp h
        obtain rfl := (Prod.mk.inj he).2
        exact ih hu
      · have ht : r ++ y = t := by
          have hbody : Json.stringBody (0x22 :: (r ++ y)) = some ([], r ++ y) := rfl
          rw [List.cons_append, hbody] at h
          exact (Prod.mk.inj (Option.some.inj h)).2
        rw [← ht]
        rcases List.prefix_cons_iff.mp hr with rfl | ⟨q, rfl, -⟩
        · exact hy.astray
        · intro c t hs
          exact Or.inr (List.cons.inj hs).1.symm

/-- The three forms of a character in a string. -/
theorem escUnit_shape (c : CodeUnit) : escUnit c = [c] ∨ (∃ e, escUnit c = [0x5c, e]) ∨
    ∃ a b, escUnit c = [0x5c, 0x75, 0x30, 0x30, a, b] := by
  unfold escUnit
  split
  · exact Or.inr (Or.inl ⟨_, rfl⟩)
  split
  · exact Or.inr (Or.inl ⟨_, rfl⟩)
  split
  · exact Or.inr (Or.inl ⟨_, rfl⟩)
  split
  · exact Or.inr (Or.inl ⟨_, rfl⟩)
  split
  · exact Or.inr (Or.inl ⟨_, rfl⟩)
  split
  · exact Or.inr (Or.inr ⟨_, _, rfl⟩)
  · exact Or.inl rfl

/-- A part of a character's text is followed by the end of no string that goes on well. -/
theorem stringBody_unitPart {c : CodeUnit} {p y s t : JsString} (hp : p <+: escUnit c)
    (hlt : p ≠ escUnit c) (hy : Joined y) (h : stringBody (p ++ y) = some (s, t)) : Astray t := by
  by_cases hnil : p = []
  · subst hnil
    exact hy.stringBody h
  obtain ⟨d, q, rfl⟩ := List.exists_cons_of_ne_nil hnil
  exfalso
  have hnone : stringBody (d :: (q ++ y)) = none := by
    rcases escUnit_shape c with hc | ⟨e, hc⟩ | ⟨a, b, hc⟩
    all_goals
      rw [hc] at hp hlt
      obtain ⟨rfl, hq⟩ := List.cons_prefix_cons.mp hp
    · exact absurd (by rw [List.prefix_nil.mp hq]) hlt
    · rcases List.prefix_cons_iff.mp hq with rfl | ⟨r, rfl, hr⟩
      · exact stringBody_backslash hy
      · exact absurd (by rw [List.prefix_nil.mp hr]) hlt
    · rcases List.prefix_cons_iff.mp hq with rfl | ⟨r, rfl, hr⟩
      · exact stringBody_backslash hy
      · refine stringBody_digits ?_ hy
        have hle := hr.length_le
        have hne : r.length ≠ 4 := fun he => hlt (by rw [hr.eq_of_length he])
        simp only [List.length_cons, List.length_nil] at hle
        omega
  rw [List.cons_append, hnone] at h
  cases h

/-- A string that is cut off before its closing quote does not go on well. -/
theorem stringBody_part {u p y s t : JsString} (hp : p <+: esc u) (hy : Joined y)
    (h : stringBody (p ++ y) = some (s, t)) : Astray t := by
  induction u generalizing p s with
  | nil =>
      obtain rfl := List.prefix_nil.mp hp
      exact hy.stringBody h
  | cons c u ih =>
      rw [esc, List.flatMap_cons, ← esc] at hp
      rcases List.prefix_or_prefix_of_prefix hp (List.prefix_append (escUnit c) (esc u)) with
        hle | hge
      · by_cases he : p = escUnit c
        · rw [he, stringBody_escUnit] at h
          obtain ⟨⟨v, t'⟩, hv, he⟩ := Option.map_eq_some_iff.mp h
          obtain rfl := (Prod.mk.inj he).2
          exact hy.stringBody hv
        · exact stringBody_unitPart hle he hy h
      · obtain ⟨q, rfl⟩ := hge
        rw [List.append_assoc, stringBody_escUnit] at h
        obtain ⟨⟨v, t'⟩, hv, he⟩ := Option.map_eq_some_iff.mp h
        obtain rfl := (Prod.mk.inj he).2
        exact ih ((List.prefix_append_right_inj _).mp hp) hv

/-! ## Numbers that are cut off -/

theorem Joined.numberTail {y : JsString} (hy : Joined y) : numberTail y = some ([], y) := by
  rcases hy.cases with rfl | ⟨t, rfl⟩ | ⟨t, rfl⟩ <;> rfl

theorem Joined.spanDigits {q y : JsString} (hq : ∀ c ∈ q, isDigit c = true) (hy : Joined y) :
    spanDigits (q ++ y) = (q, y) := by
  rw [Json.spanDigits, List.takeWhile_append_of_pos hq, List.dropWhile_append_of_pos hq]
  rcases hy.cases with rfl | ⟨t, rfl⟩ | ⟨t, rfl⟩
  · rw [List.takeWhile_nil, List.dropWhile_nil, List.append_nil]
  · rw [List.takeWhile_cons_of_neg (by decide), List.dropWhile_cons_of_neg (by decide),
      List.append_nil]
  · rw [List.takeWhile_cons_of_neg (by decide), List.dropWhile_cons_of_neg (by decide),
      List.append_nil]

/-- The digits of a number, as far as they go. -/
theorem number_digits {n : Nat} {sign q y t : JsString} (hsign : sign = [] ∨ sign = [0x2d])
    {v : JsValue} (hq : q <+: decimal n) (hne : sign ++ q ≠ []) (hy : Joined y)
    (h : number (sign ++ q ++ y) = some (v, t)) : t = y := by
  have hdigits : ∀ c ∈ q, isDigit c = true := fun c hc => decimal_digits n c (hq.subset hc)
  have hspan := hy.spanDigits hdigits
  have htail := hy.numberTail
  cases q with
  | nil =>
      rcases hsign with rfl | rfl
      · exact absurd rfl hne
      · rcases hy.cases with rfl | ⟨u, rfl⟩ | ⟨u, rfl⟩
        all_goals cases h
  | cons d q =>
      have hminus : d ≠ 0x2d := by
        rintro rfl
        exact absurd (hdigits _ List.mem_cons_self) (by decide)
      by_cases hzero : d = 0x30
      · subst hzero
        have hq : q = [] := by
          by_cases hn : n = 0
          · subst hn
            exact List.prefix_nil.mp (List.cons_prefix_cons.mp hq).2
          · obtain ⟨e, es, he, hne⟩ := decimal_head hn
            rw [he] at hq
            exact absurd (List.cons_prefix_cons.mp hq).1.symm hne
        subst hq
        have hrest := congrArg (Option.map Prod.snd) h
        rcases hsign with rfl | rfl
        · simp [number, htail] at hrest
          exact hrest.symm
        · simp [number, htail] at hrest
          exact hrest.symm
      · have hrest := congrArg (Option.map Prod.snd) h
        rw [List.cons_append] at hspan
        rcases hsign with rfl | rfl
        · simp [number, hminus, hzero, hspan, htail] at hrest
          exact hrest.symm
        · simp [number, hzero, hspan, htail] at hrest
          exact hrest.symm

/-! ## Objects that are cut off -/

/-- What the members of an object are made of. -/
theorem members_eq_some {fuel : Nat} {s t : JsString} {fields : List (JsString × JsValue)}
    (h : members (fuel + 1) (0x22 :: s) = some (fields, t)) :
    ∃ key behind u v w c x, stringBody s = some (key, behind) ∧ skipSpace behind = 0x3a :: u ∧
      value fuel u = some (v, w) ∧ skipSpace w = c :: x ∧
      ((c = 0x2c ∧ ∃ fields, members fuel x = some (fields, t)) ∨ (c = 0x7d ∧ t = x)) := by
  rw [members, show skipSpace (0x22 :: s) = 0x22 :: s by rfl] at h
  dsimp only at h
  obtain ⟨⟨key, behind⟩, hkey, h⟩ := Option.bind_eq_some_iff.mp h
  dsimp only at h
  split at h
  case h_2 => cases h
  case h_1 u hcolon =>
    obtain ⟨⟨v, w⟩, hv, h⟩ := Option.bind_eq_some_iff.mp h
    dsimp only at h
    split at h
    case h_2 => cases h
    case h_1 c x hnext =>
      refine ⟨key, behind, u, v, w, c, x, hkey, hcolon, hv, hnext, ?_⟩
      by_cases hcomma : c = 0x2c
      · rw [if_pos hcomma] at h
        obtain ⟨⟨fields, z⟩, hz, he⟩ := Option.bind_eq_some_iff.mp h
        obtain rfl := (Prod.mk.inj (Option.some.inj he)).2
        exact Or.inl ⟨hcomma, fields, hz⟩
      rw [if_neg hcomma] at h
      by_cases hclose : c = 0x7d
      · rw [if_pos hclose] at h
        exact Or.inr ⟨hclose, (Prod.mk.inj (Option.some.inj h)).2.symm⟩
      · rw [if_neg hclose] at h
        cases h

theorem members_astray {y t : JsString} (hy : Astray y) {fuel : Nat}
    {fields : List (JsString × JsValue)} (h : members fuel y = some (fields, t)) : False := by
  cases fuel with
  | zero =>
      rw [members] at h
      cases h
  | succ fuel =>
      rw [members] at h
      split at h
      case h_2 => cases h
      case h_1 rest hs =>
        rcases hy _ _ hs with he | he
        all_goals exact absurd he (by decide)

section

variable {y : JsString}

/-- The value of a member: cut off it does not go on well, and whole it ends where it should. -/
structure Bounded (y V : JsString) (sep : CodeUnit) : Prop where
  part : ∀ q, q <+: V → ∀ fuel v t, value fuel (q ++ y) = some (v, t) → Astray t
  whole : ∀ z fuel v t, value fuel (V ++ sep :: z) = some (v, t) → t = sep :: z

/-- A beginning of a member reaches beyond its value, or nothing is read. -/
theorem members_part {k V R p : JsString} {sep : CodeUnit} (hk : esc k = k)
    (hsep : sep = 0x2c ∨ sep = 0x7d) (hy : Joined y) (hV : Bounded y V sep)
    (hp : p <+: 0x22 :: (k ++ 0x22 :: 0x3a :: (V ++ sep :: R))) {fuel : Nat} {t : JsString}
    {fields : List (JsString × JsValue)} (h : members fuel (p ++ y) = some (fields, t)) :
    ∃ q, p = 0x22 :: (k ++ 0x22 :: 0x3a :: (V ++ sep :: q)) ∧ q <+: R ∧
      ((sep = 0x2c ∧ ∃ fuel fields, members fuel (q ++ y) = some (fields, t)) ∨
        (sep = 0x7d ∧ t = q ++ y)) := by
  rcases List.prefix_cons_iff.mp hp with rfl | ⟨p, rfl, hkeyed⟩
  · exact (members_astray hy.astray h).elim
  cases fuel with
  | zero =>
      rw [members] at h
      cases h
  | succ fuel =>
  rw [List.cons_append] at h
  obtain ⟨key, behind, u, v, w, c, x, hkey, hcolon, hv, hnext, hend⟩ := members_eq_some h
  have hneither {s : JsString} {c : CodeUnit} {x : JsString} (hs : Astray s)
      (he : skipSpace s = c :: x) (hc : c = 0x3a ∨ c = 0x2c ∨ c = 0x7d) : False := by
    rcases hs c x he with h | h
    all_goals
      rw [h] at hc
      revert hc
      decide
  rcases prefix_piece hkeyed with hpart | ⟨q, rfl, hq⟩
  · rw [← hk] at hpart
    exact (hneither (stringBody_part hpart hy hkey) hcolon (Or.inl rfl)).elim
  have hread := stringBody_esc k (q ++ y)
  rw [hk] at hread
  rw [List.append_assoc, List.cons_append, hread] at hkey
  obtain ⟨-, rfl⟩ := Prod.mk.inj (Option.some.inj hkey)
  rcases List.prefix_cons_iff.mp hq with rfl | ⟨q, rfl, hvalue⟩
  · exact (hneither hy.astray hcolon (Or.inl rfl)).elim
  obtain rfl : q ++ y = u := (List.cons.inj hcolon).2
  rcases prefix_piece hvalue with hpart | ⟨q, rfl, hrest⟩
  · have hc : c = 0x2c ∨ c = 0x7d := hend.imp And.left And.left
    exact (hneither (hV.part q hpart fuel v w hv) hnext (Or.inr hc)).elim
  rw [List.append_assoc, List.cons_append] at hv
  obtain rfl := hV.whole _ fuel v w hv
  have hskip : skipSpace (sep :: (q ++ y)) = sep :: (q ++ y) := by
    rcases hsep with rfl | rfl <;> rfl
  rw [hskip] at hnext
  obtain ⟨rfl, rfl⟩ := List.cons.inj hnext
  rcases hend with ⟨hcomma, fields, hmembers⟩ | hclose
  · exact ⟨q, rfl, hrest, Or.inl ⟨hcomma, fuel, fields, hmembers⟩⟩
  · exact ⟨q, rfl, hrest, Or.inr hclose⟩

variable (hy : Joined y) (hvalue : ∀ fuel v t, value fuel y = some (v, t) → Astray t)

include hy hvalue

theorem bounded_str (u : JsString) (sep : CodeUnit) :
    Bounded y (0x22 :: (esc u ++ [0x22])) sep := by
  refine ⟨?_, ?_⟩
  · intro p hp fuel v t h
    rcases List.prefix_cons_iff.mp hp with rfl | ⟨q, rfl, hq⟩
    · exact hvalue fuel v t h
    cases fuel with
    | zero =>
        rw [value] at h
        cases h
    | succ fuel =>
    obtain ⟨⟨s, w⟩, hs, he⟩ : ∃ r, stringBody (q ++ y) = some r ∧ some (JsValue.str r.1, r.2) =
        some (v, t) := by
      rw [value] at h
      exact Option.bind_eq_some_iff.mp h
    obtain rfl := (Prod.mk.inj (Option.some.inj he)).2
    rcases prefix_piece hq with hq | ⟨r, rfl, hr⟩
    · exact stringBody_part hq hy hs
    · obtain rfl := List.prefix_nil.mp hr
      rw [List.append_assoc, List.singleton_append, stringBody_esc] at hs
      rw [← (Prod.mk.inj (Option.some.inj hs)).2]
      exact hy.astray
  · intro z fuel v t h
    cases fuel with
    | zero =>
        rw [value] at h
        cases h
    | succ fuel =>
        rw [List.cons_append, List.append_assoc, List.singleton_append, value_str] at h
        exact (Prod.mk.inj (Option.some.inj h)).2.symm

theorem bounded_integer (n : Int) : Bounded y (integerText n) 0x7d := by
  refine ⟨?_, ?_⟩
  · intro p hp fuel v t h
    by_cases hne : p = []
    · rw [hne] at h
      exact hvalue fuel v t h
    cases fuel with
    | zero =>
        rw [value] at h
        cases h
    | succ fuel =>
    obtain ⟨d, q, rfl⟩ := List.exists_cons_of_ne_nil hne
    obtain ⟨c, cs, hn, hc⟩ := integerText_head n
    have hhead : d = 0x2d ∨ isDigit d = true := by
      rw [hn] at hp
      rw [(List.cons_prefix_cons.mp hp).1]
      exact hc
    rw [List.cons_append, value_number hhead, ← List.cons_append] at h
    have hend : t = y := by
      unfold integerText at hp
      split at hp
      · obtain ⟨rfl, hq⟩ := List.cons_prefix_cons.mp hp
        exact number_digits (Or.inr rfl) hq hne hy h
      · exact number_digits (Or.inl rfl) hp hne hy h
    rw [hend]
    exact hy.astray
  · intro z fuel v t h
    cases fuel with
    | zero =>
        rw [value] at h
        cases h
    | succ fuel =>
        rw [value_integer] at h
        exact (Prod.mk.inj (Option.some.inj h)).2.symm

/-- Of a line that is cut off, and goes on with the beginnings of others, nothing is read. -/
theorem value_part {c : Captured} {p : JsString} (hp : p <+: line c) (hne : p ≠ []) {fuel : Nat}
    {v : JsValue} {t : JsString} (h : value fuel (p ++ y) = some (v, t)) : p = line c ∧ t = y := by
  cases fuel with
  | zero =>
      rw [value] at h
      cases h
  | succ fuel =>
  have hline : line c = 0x7b :: 0x22 :: (js "from" ++ 0x22 :: 0x3a ::
      ((0x22 :: (esc c.sender ++ [0x22])) ++ 0x2c :: (0x22 :: (js "text" ++ 0x22 :: 0x3a ::
        ((0x22 :: (esc c.text ++ [0x22])) ++ 0x2c :: (0x22 :: (js "date" ++ 0x22 :: 0x3a ::
          (integerText c.date ++ [0x7d])))))))) := by
    rw [line_eq]
    simp only [List.append_assoc, List.cons_append, List.nil_append]
  rw [hline] at hp ⊢
  rcases List.prefix_cons_iff.mp hp with rfl | ⟨q, rfl, hfrom⟩
  · exact absurd rfl hne
  obtain ⟨fields, hmembers⟩ : ∃ fields, members fuel (q ++ y) = some (fields, t) := by
    rw [List.cons_append, value, show skipSpace (0x7b :: (q ++ y)) = 0x7b :: (q ++ y) by rfl] at h
    dsimp only at h
    rw [if_pos rfl] at h
    rcases List.prefix_cons_iff.mp hfrom with rfl | ⟨r, rfl, -⟩
    · rw [List.nil_append] at h
      rcases hy.skipSpace with hs | ⟨u, hs⟩
      all_goals
        rw [hs] at h
        obtain ⟨r, hr, -⟩ := Option.bind_eq_some_iff.mp h
        refine (members_astray ?_ hr).elim
        rw [← hs]
        exact astray_skipSpace hy.astray
    · obtain ⟨⟨fields, w⟩, hw, he⟩ := Option.bind_eq_some_iff.mp h
      obtain rfl := (Prod.mk.inj (Option.some.inj he)).2
      exact ⟨fields, hw⟩
  obtain ⟨q, rfl, htext, hq⟩ := members_part (by decide) (Or.inl rfl) hy
    (bounded_str hy hvalue c.sender 0x2c) hfrom hmembers
  obtain ⟨-, fuel, fields, hmembers⟩ := hq.resolve_right fun h => absurd h.1 (by decide)
  obtain ⟨q, rfl, hdate, hq⟩ := members_part (by decide) (Or.inl rfl) hy
    (bounded_str hy hvalue c.text 0x2c) htext hmembers
  obtain ⟨-, fuel, fields, hmembers⟩ := hq.resolve_right fun h => absurd h.1 (by decide)
  obtain ⟨q, rfl, hend, hq⟩ := members_part (by decide) (Or.inr rfl) hy
    (bounded_integer hy hvalue c.date) hdate hmembers
  obtain ⟨-, ht⟩ := hq.resolve_left fun h => absurd h.1 (by decide)
  obtain rfl := List.prefix_nil.mp hend
  exact ⟨rfl, ht⟩

end

/-- After a value comes nothing, or the next beginning. -/
theorem Joined.value {s : JsString} (h : Joined s) :
    ∀ fuel v t, value fuel s = some (v, t) → Astray t := by
  induction h with
  | nil =>
      intro fuel v t h
      cases fuel with
      | zero =>
          rw [Json.value] at h
          cases h
      | succ fuel =>
          rw [Json.value] at h
          cases h
  | @cr s _ ih =>
      intro fuel v t h
      refine ih fuel v t ?_
      cases fuel with
      | zero =>
          rw [Json.value] at h
          cases h
      | succ fuel =>
          rw [Json.value] at h ⊢
          exact h
  | part hp hne hy ih =>
      intro fuel v t h
      rw [(value_part hy ih hp hne h).2]
      exact hy.astray

/-! ## Reading a broken line -/

/-- The line holds no SMS: its first beginning ends too early, or more follows it. -/
inductive Broken : JsString → Prop where
  | short {c : Captured} {p y : JsString} (hp : p <+: line c) (hne : p ≠ []) (hlt : p ≠ line c)
      (hy : Joined y) : Broken (p ++ y)
  | long (c : Captured) {eol y : JsString} (heol : IsEol eol) (hy : Joined (0x7b :: y)) :
      Broken (line c ++ eol ++ 0x7b :: y)

theorem Broken.append {s t : JsString} (hs : Broken s) (ht : Joined t) : Broken (s ++ t) := by
  cases hs with
  | short hp hne hlt hy =>
      rw [List.append_assoc]
      exact .short hp hne hlt (hy.append ht)
  | long c heol hy =>
      rw [List.append_assoc, List.cons_append]
      exact .long c heol (hy.append ht)

theorem joined_eol {eol : JsString} (heol : IsEol eol) {s : JsString} (hs : Joined s) :
    Joined (eol ++ s) := by
  rcases heol with rfl | rfl
  · exact hs
  · exact .cr hs

theorem line_ne_nil (c : Captured) : line c ≠ [] := by
  obtain ⟨t, ht⟩ := line_head c
  rw [ht]
  exact List.cons_ne_nil _ _

theorem Broken.parse {s : JsString} (h : Broken s) : Json.parse s = none := by
  rw [Json.parse]
  split
  case h_2 => rfl
  case h_1 v t hv =>
    cases h with
    | short hp hne hlt hy => exact absurd (value_part hy hy.value hp hne hv).1 hlt
    | @long c eol y heol hy =>
        have hrest := joined_eol heol hy
        rw [List.append_assoc] at hv
        rw [(value_part hrest hrest.value List.prefix_rfl (line_ne_nil c) hv).2]
        rcases heol with rfl | rfl <;> rfl

theorem prefix_append_cases {α : Type} {p a b : List α} (h : p <+: a ++ b) :
    p <+: a ∨ ∃ q, p = a ++ q ∧ q <+: b := by
  rcases List.prefix_or_prefix_of_prefix h (List.prefix_append a b) with hle | ⟨q, rfl⟩
  · exact Or.inl hle
  · exact Or.inr ⟨q, rfl, (List.prefix_append_right_inj a).mp h⟩

theorem Joined.of_prefix {s p : JsString} (h : Joined s) (hp : p <+: s) : Joined p := by
  induction h generalizing p with
  | nil =>
      rw [List.prefix_nil.mp hp]
      exact .nil
  | cr _ ih =>
      rcases List.prefix_cons_iff.mp hp with rfl | ⟨q, rfl, hq⟩
      · exact .nil
      · exact .cr (ih hq)
  | @part c q s hq hne _ ih =>
      rcases prefix_append_cases hp with hp | ⟨r, rfl, hr⟩
      · by_cases hnil : p = []
        · rw [hnil]
          exact .nil
        · rw [← List.append_nil p]
          exact .part (hp.trans hq) hnil .nil
      · exact .part hq hne (ih hr)

theorem trimEnd_append_cons {c : CodeUnit} (hc : isSpace c = false) (a s : JsString) :
    trimEnd (a ++ c :: s) = a ++ c :: trimEnd s := by
  have hrev : (a ++ c :: s).reverse = s.reverse ++ c :: a.reverse := by simp
  rw [trimEnd, trimEnd, hrev, List.dropWhile_append]
  split
  case isTrue he =>
    have hnil : s.reverse.dropWhile isSpace = [] := by simpa using he
    rw [hnil, List.dropWhile_cons_of_neg (by simp [hc])]
    simp
  case isFalse => simp

theorem trim_brace (s : JsString) : trim (0x7b :: s) = 0x7b :: trimEnd s := by
  have hstart : trimStart (0x7b :: s) = 0x7b :: s := rfl
  rw [trim, hstart]
  exact trimEnd_append_cons (by decide) [] s

theorem Broken.trim {s : JsString} (h : Broken s) : Broken (trim s) := by
  cases h with
  | @short c p y hp hne hlt hy =>
      obtain ⟨q, rfl⟩ := part_head hp hne
      rw [List.cons_append, trim_brace]
      rcases prefix_append_cases (trimEnd_isPrefixOf (q ++ y)) with hq | ⟨r, hr, hry⟩
      · have hpart : 0x7b :: trimEnd (q ++ y) <+: 0x7b :: q := List.cons_prefix_cons.mpr ⟨rfl, hq⟩
        rw [← List.append_nil (0x7b :: trimEnd (q ++ y))]
        refine .short (hpart.trans hp) (List.cons_ne_nil _ _) ?_ .nil
        intro he
        rw [he] at hpart
        exact hlt (hp.eq_of_length_le hpart.length_le)
      · rw [hr, ← List.cons_append]
        exact .short hp hne hlt (hy.of_prefix hry)
  | @long c eol y heol hy =>
      obtain ⟨t, ht⟩ := line_head c
      have hend := trimEnd_append_cons (c := 0x7b) (by decide) (line c ++ eol) y
      have htrim : SmsGateway.trim (line c ++ eol ++ 0x7b :: y) =
          line c ++ eol ++ 0x7b :: trimEnd y := by
        rw [← hend, ht]
        rfl
      rw [htrim]
      refine .long c heol (hy.of_prefix ?_)
      exact List.cons_prefix_cons.mpr ⟨rfl, trimEnd_isPrefixOf y⟩

/-- The driver skips a broken line. -/
theorem readLine_broken (otherDate : JsValue → Except JsError JsString) {s : JsString}
    (h : Broken s) : readLine otherDate s = none := by
  unfold readLine
  dsimp only
  rw [h.trim.parse]
  split <;> rfl

end SmsGateway.Adb
