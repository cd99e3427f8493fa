import Mathlib

/-!
# Pages of sorted rows

Every page comes from a query of its own, which sorts the rows by a key, the largest first,
and leaves rows with equal keys in any order. The pages together are the sorted rows exactly
when no border between two pages stands inside a group of rows with equal keys.
-/

namespace SmsGateway.Lib.Paging

section

variable {α κ : Type} [LinearOrder κ]

/-- What `ORDER BY key DESC` may give of `rows`. -/
structure Sorts (key : α → κ) (rows sorted : List α) : Prop where
  perm : sorted.Perm rows
  desc : sorted.Pairwise fun a b => key b ≤ key a

/-- `LIMIT limit OFFSET offset`. -/
def page (sorted : List α) (limit offset : Nat) : List α := (sorted.drop offset).take limit

/-- The first `n` pages, the `k`-th one in the order of the `k`-th query. -/
def pages (order : Nat → List α → List α) (rows : List α) (limit n : Nat) : List α :=
  (List.range n).flatMap fun k => page (order k rows) limit (k * limit)

/-- As many pages as it takes are the rows, each of them once, in the order of the keys,
whatever order the queries give to rows with equal keys. -/
def Partition (key : α → κ) (rows : List α) (limit : Nat) : Prop :=
  ∀ order : Nat → List α → List α, (∀ k l, Sorts key l (order k l)) →
    ∀ n, rows.length ≤ n * limit → Sorts key rows (pages order rows limit n)

/-- No border between two pages stands inside a group of rows with equal keys. -/
def ClearBorders (key : α → κ) (rows : List α) (limit : Nat) : Prop :=
  ∀ r ∈ rows, ∀ k, rows.countP (fun x => key r < key x) < k * limit →
    rows.countP (fun x => key r ≤ key x) ≤ k * limit

variable {key : α → κ} {rows sorted : List α} {limit : Nat}

/-! ## Sorted lists -/

/-- A property that larger keys keep holds of a front part of a sorted list. -/
theorem take_countP {p : α → Bool} (hp : ∀ a b, key a ≤ key b → p a = true → p b = true)
    (hs : sorted.Pairwise fun a b => key b ≤ key a) :
    sorted.take (sorted.countP p) = sorted.filter p := by
  induction sorted with
  | nil => rfl
  | cons a l ih =>
      rw [List.pairwise_cons] at hs
      by_cases ha : p a = true
      · rw [List.countP_cons_of_pos ha, List.filter_cons_of_pos ha, List.take_succ_cons, ih hs.2]
      · have hnone : ∀ b ∈ l, ¬p b = true := fun b hb h => ha (hp b a (hs.1 b hb) h)
        rw [List.countP_cons_of_neg ha, List.filter_cons_of_neg ha, List.countP_eq_zero.mpr hnone,
          List.filter_eq_nil_iff.mpr hnone, List.take_zero]

theorem of_lt_countP {p : α → Bool} (hp : ∀ a b, key a ≤ key b → p a = true → p b = true)
    (hs : sorted.Pairwise fun a b => key b ≤ key a) {i : Nat} (hi : i < sorted.length) :
    i < sorted.countP p ↔ p sorted[i] = true := by
  induction sorted generalizing i with
  | nil => simp at hi
  | cons a l ih =>
      rw [List.pairwise_cons] at hs
      by_cases ha : p a = true
      · rw [List.countP_cons_of_pos ha]
        cases i with
        | zero => simp [ha]
        | succ i =>
            have hrest := ih hs.2 (by simpa using hi)
            simpa using hrest
      · have hnone : ∀ b ∈ l, ¬p b = true := fun b hb h => ha (hp b a (hs.1 b hb) h)
        rw [List.countP_cons_of_neg ha, List.countP_eq_zero.mpr hnone]
        cases i with
        | zero => simp [ha]
        | succ i => simp [hnone _ (List.getElem_mem (by simpa using hi))]

theorem atLeast_mono (r : α) : ∀ a b, key a ≤ key b → decide (key r ≤ key a) = true →
    decide (key r ≤ key b) = true := by
  intro a b hab h
  simpa using (of_decide_eq_true h).trans hab

theorem above_mono (r : α) : ∀ a b, key a ≤ key b → decide (key r < key a) = true →
    decide (key r < key b) = true := by
  intro a b hab h
  simpa using (of_decide_eq_true h).trans_le hab

theorem exists_sorts (key : α → κ) (rows : List α) : ∃ sorted, Sorts key rows sorted := by
  refine ⟨rows.mergeSort fun a b => decide (key b ≤ key a), List.mergeSort_perm _ _, ?_⟩
  have hsorted : (rows.mergeSort fun a b => decide (key b ≤ key a)).Pairwise
      fun a b => decide (key b ≤ key a) = true := by
    apply List.pairwise_mergeSort
    · intro a b c hab hbc
      simpa using (of_decide_eq_true hbc).trans (of_decide_eq_true hab)
    · intro a b
      simpa using le_total (key b) (key a)
  exact hsorted.imp fun h => of_decide_eq_true h

/-! ## Clear borders are enough -/

/-- In front of a clear border stand the same rows in every order. -/
theorem take_perm_of_clear {m : Nat} {sorted' : List α}
    (hclear : ∀ r ∈ rows, rows.countP (fun x => key r < key x) < m →
      rows.countP (fun x => key r ≤ key x) ≤ m)
    (h : Sorts key rows sorted) (h' : Sorts key rows sorted') :
    (sorted.take m).Perm (sorted'.take m) := by
  have hlen := h.perm.length_eq
  have hlen' := h'.perm.length_eq
  by_cases hend : rows.length ≤ m
  · rw [List.take_of_length_le (by omega), List.take_of_length_le (by omega)]
    exact h.perm.trans h'.perm.symm
  cases m with
  | zero => simp
  | succ m =>
      have hm : m < sorted.length := by omega
      have hr : sorted[m] ∈ rows := h.perm.mem_iff.mp (List.getElem_mem hm)
      -- the rows with at least the key of the row in front of the border
      have habove : rows.countP (fun x => key sorted[m] < key x) < m + 1 := by
        rw [← h.perm.countP_eq]
        by_contra hge
        have hself := (of_lt_countP (above_mono sorted[m]) h.desc hm).mp (by omega)
        simp at hself
      have hmost := hclear _ hr habove
      have hleast : m < rows.countP (fun x => key sorted[m] ≤ key x) := by
        rw [← h.perm.countP_eq]
        apply (of_lt_countP (atLeast_mono sorted[m]) h.desc hm).mpr
        simp
      have hcount : rows.countP (fun x => key sorted[m] ≤ key x) = m + 1 := by omega
      have hfront : ∀ {s : List α}, Sorts key rows s →
          s.take (m + 1) = s.filter fun x => key sorted[m] ≤ key x := by
        intro s hs
        rw [← hcount, ← hs.perm.countP_eq]
        exact take_countP (atLeast_mono sorted[m]) hs.desc
      rw [hfront h, hfront h']
      exact (h.perm.trans h'.perm.symm).filter _

theorem pages_succ (order : Nat → List α → List α) (rows : List α) (limit n : Nat) :
    pages order rows limit (n + 1) =
      pages order rows limit n ++ page (order n rows) limit (n * limit) := by
  simp [pages, List.range_succ]

/-- With clear borders the pages so far are what every query has in front. -/
theorem pages_front (hclear : ClearBorders key rows limit) {order : Nat → List α → List α}
    (horder : ∀ k l, Sorts key l (order k l)) (n : Nat) :
    (∀ sorted, Sorts key rows sorted →
        (pages order rows limit n).Perm (sorted.take (n * limit))) ∧
      (pages order rows limit n).Pairwise fun a b => key b ≤ key a := by
  induction n with
  | zero => simp [pages]
  | succ n ih =>
      have hn := horder n rows
      have hfront := ih.1 _ hn
      have hsplit : (order n rows).take ((n + 1) * limit) =
          (order n rows).take (n * limit) ++ page (order n rows) limit (n * limit) := by
        rw [Nat.succ_mul, List.take_add]
        rfl
      rw [pages_succ]
      constructor
      · intro sorted hsorted
        have hborder := take_perm_of_clear (fun r hr => hclear r hr (n + 1)) hn hsorted
        rw [hsplit] at hborder
        exact (hfront.append_right _).trans hborder
      · rw [List.pairwise_append]
        refine ⟨ih.2, (hn.desc.drop).take, ?_⟩
        intro a ha b hb
        exact hn.desc.rel_of_mem_take_of_mem_drop (hfront.mem_iff.mp ha) (List.mem_of_mem_take hb)

theorem partition_of_clear (hclear : ClearBorders key rows limit) : Partition key rows limit := by
  intro order horder n hn
  obtain ⟨hfront, hdesc⟩ := pages_front hclear horder n
  have hall := hfront _ (horder 0 rows)
  rw [List.take_of_length_le (by rw [(horder 0 rows).perm.length_eq]; exact hn)] at hall
  exact ⟨hall.trans (horder 0 rows).perm, hdesc⟩

/-- Without equal keys every border is clear. -/
theorem clear_of_nodup (h : (rows.map key).Nodup) : ClearBorders key rows limit := by
  intro r hr k hk
  have hsplit : rows.countP (fun x => key r ≤ key x) ≤
      rows.countP (fun x => key r < key x) + (rows.map key).count (key r) := by
    clear h hr hk
    induction rows with
    | nil => simp
    | cons a l ih =>
        simp only [List.countP_cons, List.map_cons, List.count_cons, decide_eq_true_eq, beq_iff_eq]
        rcases lt_trichotomy (key r) (key a) with hlt | heq | hgt
        · rw [if_pos hlt.le, if_pos hlt, if_neg hlt.ne']
          omega
        · rw [if_pos heq.le, if_neg heq.not_lt, if_pos heq.symm]
          omega
        · rw [if_neg (not_le.mpr hgt), if_neg (not_lt.mpr hgt.le), if_neg hgt.ne]
          omega
  have hone := List.nodup_iff_count_le_one.mp h (key r)
  omega

/-! ## Clear borders are needed -/

theorem mem_page {x : α} {i offset : Nat} (hi : sorted[i]? = some x) (hlo : offset ≤ i)
    (hhi : i < offset + limit) : x ∈ page sorted limit offset := by
  have hplace : offset + (i - offset) = i := by omega
  apply List.mem_of_getElem? (i := i - offset)
  rw [page, List.getElem?_take_of_lt (by omega), List.getElem?_drop, hplace, hi]

/-- Two neighbours with equal keys may change places. -/
theorem sorts_swap {u v : List α} {x y : α} (h : Sorts key rows (u ++ x :: y :: v))
    (hkey : key x = key y) : Sorts key rows (u ++ y :: x :: v) := by
  constructor
  · exact ((List.Perm.swap x y v).append_left u).trans h.perm
  · have hdesc := h.desc
    rw [← List.pairwise_map (R := fun a b => b ≤ a)] at hdesc ⊢
    simpa [hkey] using hdesc

/-- A row in front of a border is behind it in the next query, if its neighbour has its key. -/
theorem not_partition_of_swap {u v : List α} {x y : α} {k : Nat} (hnd : rows.Nodup)
    (hlimit : 0 < limit) (h : Sorts key rows (u ++ x :: y :: v)) (hkey : key x = key y)
    (hu : u.length + 1 = (k + 1) * limit) : ¬Partition key rows limit := by
  classical
  intro hpart
  have hswap := sorts_swap h hkey
  choose other hother using exists_sorts key
  let order : Nat → List α → List α := fun j l =>
    if l = rows then (if j ≤ k then u ++ x :: y :: v else u ++ y :: x :: v) else other l
  have horder : ∀ j l, Sorts key l (order j l) := by
    intro j l
    dsimp only [order]
    split
    · rename_i hl
      subst hl
      split
      · exact h
      · exact hswap
    · exact hother l
  have hn : rows.length ≤ (k + 2 + rows.length) * limit := by
    calc rows.length ≤ k + 2 + rows.length := by omega
      _ ≤ (k + 2 + rows.length) * limit := Nat.le_mul_of_pos_right _ hlimit
  have hpages := (hpart order horder _ hn).perm.nodup_iff.mpr hnd
  obtain ⟨-, hdisjoint⟩ := List.nodup_flatMap.mp hpages
  have hblock : (k + 1) * limit = k * limit + limit := Nat.succ_mul k limit
  have hfront : x ∈ page (order k rows) limit (k * limit) := by
    have hx : (u ++ x :: y :: v)[u.length]? = some x := by simp
    have hmem : x ∈ page (u ++ x :: y :: v) limit (k * limit) :=
      mem_page hx (by omega) (by omega)
    simpa [order] using hmem
  have hbehind : x ∈ page (order (k + 1) rows) limit ((k + 1) * limit) := by
    have hx : (u ++ y :: x :: v)[u.length + 1]? = some x := by simp
    have hmem : x ∈ page (u ++ y :: x :: v) limit ((k + 1) * limit) :=
      mem_page hx (by omega) (by omega)
    simpa [order] using hmem
  have hpair : List.Disjoint (page (order k rows) limit (k * limit))
      (page (order (k + 1) rows) limit ((k + 1) * limit)) := by
    have hrange := List.pairwise_iff_getElem.mp hdisjoint k (k + 1) (by simp; omega)
      (by simp; omega) (by omega)
    simpa [Function.onFun] using hrange
  exact hpair hfront hbehind

theorem clear_of_partition (hnd : rows.Nodup) (h : Partition key rows limit) :
    ClearBorders key rows limit := by
  intro r hr k hbefore
  by_contra hafter
  obtain ⟨sorted, hsorted⟩ := exists_sorts key rows
  obtain ⟨i, hi⟩ : ∃ i, k * limit = i + 1 := ⟨k * limit - 1, by omega⟩
  have hpos : 0 < k * limit := by omega
  obtain ⟨j, rfl⟩ := Nat.exists_eq_add_one.mpr (Nat.pos_of_mul_pos_right hpos)
  rw [hi] at hbefore hafter
  have hall := List.countP_le_length (p := fun x => decide (key r ≤ key x)) (l := sorted)
  rw [← hsorted.perm.countP_eq] at hbefore hafter
  have hlt : i + 1 < sorted.length := by omega
  -- the rows on both sides of the border have the key of `r`
  have hx : key sorted[i] ≤ key r := by
    by_contra hgt
    have hfront := (of_lt_countP (above_mono r) hsorted.desc (by omega : i < sorted.length)).mpr
      (by simpa using hgt)
    omega
  have hy : key r ≤ key sorted[i + 1] := by
    have hbehind := (of_lt_countP (atLeast_mono r) hsorted.desc hlt).mp (by omega)
    simpa using hbehind
  have hxy : key sorted[i + 1] ≤ key sorted[i] :=
    List.pairwise_iff_getElem.mp hsorted.desc i (i + 1) (by omega) hlt (by omega)
  have hkey : key sorted[i] = key sorted[i + 1] := le_antisymm (hx.trans hy) hxy
  have hsplit : sorted = sorted.take i ++ sorted[i] :: sorted[i + 1] :: sorted.drop (i + 2) := by
    rw [← List.drop_eq_getElem_cons hlt, ← List.drop_eq_getElem_cons (by omega),
      List.take_append_drop]
  have hlen : (sorted.take i).length + 1 = (j + 1) * limit := by
    rw [List.length_take, hi]
    omega
  rw [hsplit] at hsorted
  exact not_partition_of_swap hnd (Nat.pos_of_mul_pos_left hpos) hsorted hkey hlen h

theorem partition_iff (hnd : rows.Nodup) :
    Partition key rows limit ↔ ClearBorders key rows limit :=
  ⟨clear_of_partition hnd, partition_of_clear⟩

end

end SmsGateway.Lib.Paging
