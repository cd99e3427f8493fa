import Mathlib

/-!
# Lists whose entries have keys

One entry of a list is replaced by another with the same key.
-/

namespace SmsGateway.Lib.Keyed

variable {α κ : Type} {key : α → κ} {l : List α} {i : Nat} {x x' y : α}

theorem map_key_set (hx : l[i]? = some x) (hkey : key x' = key x) :
    (l.set i x').map key = l.map key := by
  rw [List.map_set, hkey]
  obtain ⟨hi, rfl⟩ := List.getElem?_eq_some_iff.mp hx
  apply List.ext_getElem?
  intro j
  by_cases hj : i = j
  · subst hj
    simp [hi]
  · simp [List.getElem?_set_ne hj]

/-- With distinct keys, the other entries are those with another key. -/
theorem mem_set_cases (hx : l[i]? = some x) (hnd : (l.map key).Nodup) (hy : y ∈ l.set i x') :
    y = x' ∨ (y ∈ l ∧ key y ≠ key x) := by
  obtain ⟨j, hj⟩ := List.mem_iff_getElem?.mp hy
  by_cases hij : i = j
  · subst hij
    have hi := (List.getElem?_eq_some_iff.mp hx).1
    rw [List.getElem?_set_self hi] at hj
    exact Or.inl (Option.some.inj hj).symm
  · rw [List.getElem?_set_ne hij] at hj
    refine Or.inr ⟨List.mem_of_getElem? hj, ?_⟩
    intro he
    obtain ⟨hi, hxi⟩ := List.getElem?_eq_some_iff.mp hx
    obtain ⟨hjl, hyj⟩ := List.getElem?_eq_some_iff.mp hj
    have hinj : ∀ (hi : i < (l.map key).length) (hj : j < (l.map key).length),
        (l.map key)[i] = (l.map key)[j] → i = j := fun _ _ => hnd.getElem_inj_iff.mp
    have hget := hinj (by simpa using hi) (by simpa using hjl)
    simp only [List.getElem_map, hxi, hyj] at hget
    exact hij (hget he.symm)

/-- The entries with other keys stay. -/
theorem mem_set_of_key_ne (hx : l[i]? = some x) (hy : y ∈ l) (hne : key y ≠ key x) :
    y ∈ l.set i x' := by
  obtain ⟨j, hj⟩ := List.mem_iff_getElem?.mp hy
  have hij : i ≠ j := by
    rintro rfl
    exact hne (by rw [Option.some.inj (hj.symm.trans hx)])
  exact List.mem_of_getElem? (by rw [List.getElem?_set_ne hij]; exact hj)

/-- A new key keeps the keys distinct. -/
theorem nodup_append (hnd : (l.map key).Nodup) (hnew : ∀ y ∈ l, key y ≠ key x) :
    ((l ++ [x]).map key).Nodup := by
  rw [List.map_append, List.nodup_append]
  refine ⟨hnd, by simp, ?_⟩
  intro a ha b hb hab
  obtain ⟨y, hy, rfl⟩ := List.mem_map.mp ha
  exact hnew y hy (hab.trans (by simpa using hb))

/-- With distinct keys an entry is the only one with its key. -/
theorem filter_key [BEq κ] [LawfulBEq κ] (hnd : (l.map key).Nodup) (hx : x ∈ l) :
    l.filter (fun y => key y == key x) = [x] := by
  induction l with
  | nil => cases hx
  | cons a l ih =>
      rw [List.map_cons, List.nodup_cons] at hnd
      rcases List.mem_cons.mp hx with rfl | hx
      · have hnone : ∀ y ∈ l, ¬(key y == key x) = true := by
          intro y hy heq
          apply hnd.1
          rw [← eq_of_beq heq]
          exact List.mem_map_of_mem hy
        rw [List.filter_cons_of_pos (by simp), List.filter_eq_nil_iff.mpr hnone]
      · have hne : ¬(key a == key x) = true := by
          intro heq
          apply hnd.1
          rw [eq_of_beq heq]
          exact List.mem_map_of_mem hx
        rw [List.filter_cons, if_neg hne, ih hnd.2 hx]

end SmsGateway.Lib.Keyed
