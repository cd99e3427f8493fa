import Mathlib

/-!
# Tasks that are tried again

A task is attempted until a result is good or `n` attempts are used up, tasks in any
order. The record keeps each task with the results of its attempts; the queue holds what
is left to do, with the number of attempts so far, and is a view of the record.
-/

namespace SmsGateway.Lib.Retry

variable {J R : Type}

structure Task (J R : Type) where
  job : J
  results : List R

def fresh (job : J) : Task J R := ⟨job, []⟩

def Task.record (t : Task J R) (r : R) : Task J R := { t with results := t.results ++ [r] }

section

variable (good : R → Bool) (n : Nat)

/-- Another attempt follows. -/
def Task.isOpen (t : Task J R) : Bool := t.results.length < n && !t.results.any good

/-- Nothing is attempted after a good result, and nothing more than `n` times. -/
structure Task.Lawful (t : Task J R) : Prop where
  length : t.results.length ≤ n
  stops : ∀ r ∈ t.results.dropLast, good r = false

/-- The last attempt was good, or all `n` were not. -/
def Task.Ended (t : Task J R) : Prop :=
  (∃ r, t.results.getLast? = some r ∧ good r = true) ∨
    (t.results.length = n ∧ ∀ r ∈ t.results, good r = false)

/-- The job and the attempts so far of each task that is open. -/
def waiting (ts : List (Task J R)) : List (J × Nat) :=
  (ts.filter (·.isOpen good n)).map fun t => (t.job, t.results.length)

/-- The `k`-th open task is attempted. -/
def recordAt : List (Task J R) → Nat → R → List (Task J R)
  | [], _, _ => []
  | t :: ts, k, r =>
      if t.isOpen good n then
        match k with
        | 0 => t.record r :: ts
        | k + 1 => t :: recordAt ts k r
      else t :: recordAt ts k r

end

section

variable {good : R → Bool} {n : Nat}

theorem lawful_fresh (job : J) : (fresh job : Task J R).Lawful good n :=
  ⟨Nat.zero_le n, nofun⟩

theorem isOpen_fresh (hn : 0 < n) (job : J) : (fresh job : Task J R).isOpen good n = true := by
  simp [Task.isOpen, fresh, hn]

theorem Task.isOpen_iff {t : Task J R} :
    t.isOpen good n = true ↔ t.results.length < n ∧ ∀ r ∈ t.results, good r = false := by
  simp [Task.isOpen]

theorem Task.Lawful.record {t : Task J R} (hopen : t.isOpen good n = true) (r : R) :
    (t.record r).Lawful good n := by
  obtain ⟨hlt, hnone⟩ := Task.isOpen_iff.mp hopen
  refine ⟨?_, ?_⟩
  · simp only [Task.record, List.length_append, List.length_singleton]
    omega
  · simpa [Task.record] using hnone

/-- A task that keeps the law is open or ended. -/
theorem Task.Lawful.ended {t : Task J R} (h : t.Lawful good n) (hclosed : t.isOpen good n = false) :
    t.Ended good n := by
  rcases List.eq_nil_or_concat t.results with hnil | ⟨rs, r, hrs⟩
  · have hn : n = 0 := by
      by_contra hn
      rw [Task.isOpen_iff.mpr ⟨by rw [hnil]; exact Nat.pos_of_ne_zero hn, by simp [hnil]⟩] at hclosed
      cases hclosed
    exact Or.inr ⟨by simp [hnil, hn], by simp [hnil]⟩
  · have hfirst : ∀ x ∈ rs, good x = false := by
      intro x hx
      exact h.stops x (by simpa [hrs] using hx)
    cases hr : good r with
    | true => exact Or.inl ⟨r, by simp [hrs], hr⟩
    | false =>
        have hnone : ∀ x ∈ t.results, good x = false := by
          intro x hx
          rw [hrs, List.concat_eq_append] at hx
          rcases List.mem_append.mp hx with hx | hx
          · exact hfirst x hx
          · rw [List.mem_singleton.mp hx]
            exact hr
        refine Or.inr ⟨?_, hnone⟩
        have hlen : ¬ t.results.length < n := by
          intro hlt
          rw [Task.isOpen_iff.mpr ⟨hlt, hnone⟩] at hclosed
          cases hclosed
        have hle := h.length
        omega

theorem waiting_cons_open {t : Task J R} (hopen : t.isOpen good n = true) (ts : List (Task J R)) :
    waiting good n (t :: ts) = (t.job, t.results.length) :: waiting good n ts := by
  simp [waiting, hopen]

theorem waiting_cons_closed {t : Task J R} (hclosed : t.isOpen good n = false)
    (ts : List (Task J R)) : waiting good n (t :: ts) = waiting good n ts := by
  simp [waiting, hclosed]

theorem Task.isOpen_record {t : Task J R} (hopen : t.isOpen good n = true) (r : R) :
    (t.record r).isOpen good n = !(good r || decide (t.results.length + 1 ≥ n)) := by
  obtain ⟨-, hnone⟩ := Task.isOpen_iff.mp hopen
  have hany : t.results.any good = false := by simpa using hnone
  unfold Task.isOpen Task.record
  simp only [List.length_append, List.length_singleton, List.any_append, hany, List.any_cons,
    List.any_nil, Bool.or_false, Bool.false_or]
  by_cases hlt : t.results.length + 1 < n
  · have hge : ¬ t.results.length + 1 ≥ n := by omega
    simp [hlt, hge]
  · have hge : t.results.length + 1 ≥ n := by omega
    simp [hlt, hge]

/-- The queue after an attempt: the job leaves it, or waits with one attempt more. -/
theorem waiting_recordAt {ts : List (Task J R)} {k : Nat} {j : J} {m : Nat}
    (h : (waiting good n ts)[k]? = some (j, m)) (r : R) :
    waiting good n (recordAt good n ts k r) =
      if good r || decide (m + 1 ≥ n) then (waiting good n ts).eraseIdx k
      else (waiting good n ts).set k (j, m + 1) := by
  induction ts generalizing k with
  | nil => simp [waiting] at h
  | cons t ts ih =>
      unfold recordAt
      cases hopen : t.isOpen good n with
      | true =>
          rw [waiting_cons_open hopen] at h ⊢
          cases k with
          | zero =>
              obtain ⟨rfl, rfl⟩ := Prod.mk.inj (Option.some.inj h)
              have hrec := Task.isOpen_record hopen r
              have hlen : (t.record r).results.length = t.results.length + 1 := by
                simp [Task.record]
              simp only [if_true]
              cases hend : good r || decide (t.results.length + 1 ≥ n) with
              | true =>
                  rw [hend] at hrec
                  exact waiting_cons_closed hrec ts
              | false =>
                  rw [hend] at hrec
                  rw [waiting_cons_open hrec, hlen]
                  rfl
          | succ k =>
              have hk : (waiting good n ts)[k]? = some (j, m) := by simpa using h
              simp only [if_true]
              rw [waiting_cons_open hopen, ih hk]
              split <;> rfl
      | false =>
          rw [waiting_cons_closed hopen] at h ⊢
          simp only [Bool.false_eq_true, if_false]
          rw [waiting_cons_closed hopen]
          exact ih h

theorem recordAt_jobs (ts : List (Task J R)) (k : Nat) (r : R) :
    (recordAt good n ts k r).map (·.job) = ts.map (·.job) := by
  induction ts generalizing k with
  | nil => rfl
  | cons t ts ih =>
      unfold recordAt
      split
      · cases k with
        | zero => rfl
        | succ k => exact congrArg (t.job :: ·) (ih k)
      · exact congrArg (t.job :: ·) (ih k)

theorem recordAt_lawful {ts : List (Task J R)} (h : ∀ t ∈ ts, t.Lawful good n) (k : Nat) (r : R) :
    ∀ t ∈ recordAt good n ts k r, t.Lawful good n := by
  induction ts generalizing k with
  | nil => exact nofun
  | cons t ts ih =>
      have hts : ∀ t ∈ ts, t.Lawful good n := fun t ht => h t (List.mem_cons_of_mem _ ht)
      unfold recordAt
      split
      case isTrue hopen =>
        cases k with
        | zero => exact List.forall_mem_cons.mpr ⟨.record hopen r, hts⟩
        | succ k => exact List.forall_mem_cons.mpr ⟨h t List.mem_cons_self, ih hts k⟩
      case isFalse => exact List.forall_mem_cons.mpr ⟨h t List.mem_cons_self, ih hts k⟩

/-- New tasks wait behind the others. -/
theorem waiting_append_fresh (hn : 0 < n) (ts : List (Task J R)) (jobs : List J) :
    waiting good n (ts ++ jobs.map fresh) = waiting good n ts ++ jobs.map fun j => (j, 0) := by
  have hopen : (jobs.map fresh : List (Task J R)).filter (·.isOpen good n) = jobs.map fresh := by
    rw [List.filter_eq_self]
    intro t ht
    obtain ⟨j, -, rfl⟩ := List.mem_map.mp ht
    exact isOpen_fresh hn j
  rw [waiting, List.filter_append, List.map_append, hopen, List.map_map]
  rfl

/-- Where nothing waits every task has ended. -/
theorem ended_of_waiting_nil {ts : List (Task J R)} (hlaw : ∀ t ∈ ts, t.Lawful good n)
    (h : waiting good n ts = []) : ∀ t ∈ ts, t.Ended good n := by
  intro t ht
  refine (hlaw t ht).ended ?_
  rw [waiting, List.map_eq_nil_iff, List.filter_eq_nil_iff] at h
  simpa using h t ht

end

end SmsGateway.Lib.Retry
