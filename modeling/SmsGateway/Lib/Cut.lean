import Mathlib

/-!
# Cutting a list into bounded pieces

Items of any type carry a cost. A cut of a list is a sequence of nonempty
consecutive pieces, none of which costs more than the capacity. The greedy cut
closes a piece only when the next item does not fit any more.
-/

namespace SmsGateway.Lib.Cut

variable {α : Type}

def total (cost : α → Nat) (xs : List α) : Nat := (xs.map cost).sum

@[simp] theorem total_nil (cost : α → Nat) : total cost [] = 0 := rfl

@[simp] theorem total_cons (cost : α → Nat) (x : α) (xs : List α) :
    total cost (x :: xs) = cost x + total cost xs := by simp [total]

@[simp] theorem total_append (cost : α → Nat) (xs ys : List α) :
    total cost (xs ++ ys) = total cost xs + total cost ys := by simp [total]

structure IsCut (cost : α → Nat) (cap : Nat) (xs : List α) (pieces : List (List α)) : Prop where
  flatten : pieces.flatten = xs
  ne_nil : ∀ p ∈ pieces, p ≠ []
  fits : ∀ p ∈ pieces, total cost p ≤ cap

/-- The loop state: the closed pieces, the open one and what it costs. -/
structure State (α : Type) where
  closed : List (List α)
  current : List α
  used : Nat

def start : State α := ⟨[], [], 0⟩

def step (cost : α → Nat) (cap : Nat) (s : State α) (x : α) : State α :=
  if s.used + cost x > cap then ⟨s.closed ++ [s.current], [x], cost x⟩
  else ⟨s.closed, s.current ++ [x], s.used + cost x⟩

def finish (s : State α) : List (List α) :=
  if s.current = [] then s.closed else s.closed ++ [s.current]

def greedy (cost : α → Nat) (cap : Nat) (xs : List α) : List (List α) :=
  finish (xs.foldl (step cost cap) start)

/-- What the loop maintains after the items `done`. -/
structure Inv (cost : α → Nat) (cap : Nat) (done : List α) (s : State α) : Prop where
  flatten : s.closed.flatten ++ s.current = done
  used_eq : s.used = total cost s.current
  used_le : s.used ≤ cap
  ne_nil : ∀ p ∈ s.closed, p ≠ []
  fits : ∀ p ∈ s.closed, total cost p ≤ cap

theorem inv_start (cost : α → Nat) (cap : Nat) : Inv cost cap [] (start : State α) :=
  ⟨rfl, rfl, Nat.zero_le _, by simp [start], by simp [start]⟩

theorem inv_step {cost : α → Nat} {cap : Nat} {done : List α} {s : State α}
    (h : Inv cost cap done s) {x : α} (hx : cost x ≤ cap) :
    Inv cost cap (done ++ [x]) (step cost cap s x) := by
  unfold step
  split
  case isTrue hfull =>
    -- an empty open piece has room for every item, so the piece closed here is not empty
    have hne : s.current ≠ [] := by
      intro he
      have hu := h.used_eq
      rw [he, total_nil] at hu
      omega
    refine ⟨?_, ?_, hx, ?_, ?_⟩
    · simp [← h.flatten]
    · simp
    · intro p hp
      rcases List.mem_append.mp hp with hp | hp
      · exact h.ne_nil p hp
      · rwa [List.mem_singleton.mp hp]
    · intro p hp
      rcases List.mem_append.mp hp with hp | hp
      · exact h.fits p hp
      · rw [List.mem_singleton.mp hp, ← h.used_eq]
        exact h.used_le
  case isFalse hroom =>
    refine ⟨?_, ?_, Nat.le_of_not_lt hroom, h.ne_nil, h.fits⟩
    · simp [← h.flatten]
    · simp [h.used_eq]

theorem inv_run {cost : α → Nat} {cap : Nat} {done : List α} {s : State α}
    (h : Inv cost cap done s) {xs : List α} (hx : ∀ x ∈ xs, cost x ≤ cap) :
    Inv cost cap (done ++ xs) (xs.foldl (step cost cap) s) := by
  induction xs generalizing done s with
  | nil => simpa using h
  | cons x xs ih =>
      have hs := inv_step h (hx x (by simp))
      have hr := ih hs fun y hy => hx y (List.mem_cons_of_mem x hy)
      simpa using hr

theorem inv_finish {cost : α → Nat} {cap : Nat} {done : List α} {s : State α}
    (h : Inv cost cap done s) : IsCut cost cap done (finish s) := by
  unfold finish
  split
  case isTrue he =>
    have hf := h.flatten
    rw [he, List.append_nil] at hf
    exact ⟨hf, h.ne_nil, h.fits⟩
  case isFalse hne =>
    refine ⟨by simp [← h.flatten], ?_, ?_⟩
    · intro p hp
      rcases List.mem_append.mp hp with hp | hp
      · exact h.ne_nil p hp
      · rwa [List.mem_singleton.mp hp]
    · intro p hp
      rcases List.mem_append.mp hp with hp | hp
      · exact h.fits p hp
      · rw [List.mem_singleton.mp hp, ← h.used_eq]
        exact h.used_le

/-- Items that each fit the capacity are cut into valid pieces. -/
theorem greedy_isCut {cost : α → Nat} {cap : Nat} {xs : List α}
    (hx : ∀ x ∈ xs, cost x ≤ cap) : IsCut cost cap xs (greedy cost cap xs) :=
  inv_finish (inv_run (inv_start cost cap) hx)

/-! ## The greedy cut is a shortest one -/

/-- No piece has room for the first item of the piece behind it. -/
def Tight (cost : α → Nat) (cap : Nat) (pieces : List (List α)) : Prop :=
  pieces.IsChain fun p q => ∀ x ∈ q.head?, cap < total cost p + cost x

theorem IsCut.tail {cost : α → Nat} {cap : Nat} {xs p : List α} {pieces : List (List α)}
    (h : IsCut cost cap xs (p :: pieces)) : IsCut cost cap pieces.flatten pieces :=
  ⟨rfl, fun q hq => h.ne_nil q (List.mem_cons_of_mem p hq),
    fun q hq => h.fits q (List.mem_cons_of_mem p hq)⟩

/-- A piece `o` of another cut that starts no earlier than a tight piece `p` ends no later. -/
theorem Tight.covers {cost : α → Nat} {cap : Nat} {p o rest : List α} {pieces : List (List α)}
    (ht : Tight cost cap (p :: pieces)) (hne : ∀ q ∈ pieces, q ≠ [])
    (hs : p ++ pieces.flatten <:+ o ++ rest) (ho : total cost o ≤ cap) :
    pieces.flatten <:+ rest := by
  have hleft : pieces.flatten <:+ o ++ rest := (List.suffix_append p _).trans hs
  rcases List.suffix_or_suffix_of_suffix hleft (List.suffix_append o rest) with h | ⟨z, hz⟩
  · exact h
  · cases z with
    | nil => exact hz ▸ List.suffix_rfl
    | cons x z =>
        -- otherwise `o` holds all of `p` and the first item behind it
        obtain ⟨q, qs, rfl⟩ : ∃ q qs, pieces = q :: qs := by
          cases pieces with
          | nil => simp at hz
          | cons q qs => exact ⟨q, qs, rfl⟩
        have hhead : x ∈ q.head? := by
          cases q with
          | nil => exact absurd rfl (hne [] (by simp))
          | cons y q =>
              rw [List.flatten_cons, List.cons_append, List.cons_append] at hz
              rw [(List.cons.inj hz).1]
              rfl
        have hcap := (List.isChain_cons_cons.mp ht).1 x hhead
        obtain ⟨w, hw⟩ := hs
        rw [← hz, ← List.append_assoc, ← List.append_assoc] at hw
        have ho' := congrArg (total cost) (List.append_cancel_right hw)
        simp only [total_append, total_cons] at ho'
        omega

theorem Tight.length_le {cost : α → Nat} {cap : Nat} {other : List (List α)} :
    ∀ {pieces : List (List α)} {xs ys : List α}, Tight cost cap pieces → IsCut cost cap xs pieces →
      IsCut cost cap ys other → xs <:+ ys → pieces.length ≤ other.length := by
  induction other with
  | nil =>
      intro pieces xs ys ht hp ho hs
      have hys : ys = [] := ho.flatten.symm
      rw [hys, List.suffix_nil, ← hp.flatten, List.flatten_eq_nil_iff] at hs
      have hnil : pieces = [] :=
        List.eq_nil_iff_forall_not_mem.mpr fun p hp' => hp.ne_nil p hp' (hs p hp')
      rw [hnil]
  | cons o other ih =>
      intro pieces xs ys ht hp ho hs
      cases pieces with
      | nil => exact Nat.zero_le _
      | cons p pieces =>
          rw [← hp.flatten, ← ho.flatten, List.flatten_cons, List.flatten_cons] at hs
          have hcovers := ht.covers (fun q hq => hp.ne_nil q (List.mem_cons_of_mem p hq)) hs
            (ho.fits o (by simp))
          have htail : Tight cost cap pieces := List.IsChain.tail ht
          have hrest := ih htail hp.tail ho.tail hcovers
          rw [List.length_cons, List.length_cons]
          omega

/-- A tight cut has the least number of pieces. -/
theorem Tight.isLeast {cost : α → Nat} {cap : Nat} {xs : List α} {pieces : List (List α)}
    (ht : Tight cost cap pieces) (hp : IsCut cost cap xs pieces) :
    IsLeast {n | ∃ other, other.length = n ∧ IsCut cost cap xs other} pieces.length := by
  constructor
  · exact ⟨pieces, rfl, hp⟩
  · intro n hn
    obtain ⟨other, rfl, ho⟩ := hn
    exact ht.length_le hp ho List.suffix_rfl

/-- What makes the greedy cut tight: an open piece follows a closed one only when it has an
item, which did not fit there. -/
structure TightRun (cost : α → Nat) (cap : Nat) (s : State α) : Prop where
  tight : Tight cost cap (s.closed ++ [s.current])
  used_eq : s.used = total cost s.current
  first : s.current = [] → s.closed = []

theorem tightRun_start (cost : α → Nat) (cap : Nat) : TightRun cost cap (start : State α) :=
  ⟨List.isChain_singleton _, rfl, fun _ => rfl⟩

theorem tightRun_step {cost : α → Nat} {cap : Nat} {s : State α} (h : TightRun cost cap s) (x : α) :
    TightRun cost cap (step cost cap s x) := by
  unfold step
  split
  case isTrue hfull =>
    refine ⟨?_, by simp, by simp⟩
    apply List.isChain_append.mpr
    refine ⟨h.tight, List.isChain_singleton _, ?_⟩
    intro p hp q hq y hy
    simp only [List.getLast?_concat, Option.mem_def, Option.some.injEq] at hp
    simp only [List.head?_cons, Option.mem_def, Option.some.injEq] at hq
    subst hp hq
    obtain rfl := Option.some.inj hy
    rw [← h.used_eq]
    exact hfull
  case isFalse hroom =>
    refine ⟨?_, by simp [h.used_eq], by simp⟩
    by_cases he : s.current = []
    · rw [h.first he]
      exact List.isChain_singleton _
    · obtain ⟨hclosed, -, hlast⟩ := List.isChain_append.mp h.tight
      apply List.isChain_append.mpr
      refine ⟨hclosed, List.isChain_singleton _, ?_⟩
      intro p hp q hq y hy
      simp only [List.head?_cons, Option.mem_def, Option.some.injEq] at hq
      subst hq
      apply hlast p hp s.current rfl
      rwa [List.head?_append_of_ne_nil _ he] at hy

theorem greedy_tight (cost : α → Nat) (cap : Nat) (xs : List α) :
    Tight cost cap (greedy cost cap xs) := by
  have hrun : TightRun cost cap (xs.foldl (step cost cap) start) := by
    induction xs using List.reverseRecOn with
    | nil => exact tightRun_start cost cap
    | append_singleton xs x ih =>
        rw [List.foldl_append]
        exact tightRun_step ih x
  unfold greedy finish
  split
  case isTrue he =>
    rw [hrun.first he]
    exact List.isChain_nil
  case isFalse => exact hrun.tight

/-- The greedy cut has the least number of pieces. -/
theorem greedy_isLeast {cost : α → Nat} {cap : Nat} {xs : List α} (hx : ∀ x ∈ xs, cost x ≤ cap) :
    IsLeast {n | ∃ pieces, pieces.length = n ∧ IsCut cost cap xs pieces}
      (greedy cost cap xs).length :=
  (greedy_tight cost cap xs).isLeast (greedy_isCut hx)

end SmsGateway.Lib.Cut
