import SmsGateway.Lib.Runs

/-!
# The lock

`createSerializer` of `utils/serialize.js`: each call hangs its function on the tail of a
chain of promises and puts `run.catch(() => {})` in the tail's place. Promise reactions
are microtasks; functions run, return and settle as they like.
-/

namespace SmsGateway.Serializer

open Lib

variable {V E : Type}

/-! ## Promises -/

/-- What has become of the function of a call. -/
inductive Fn (V E : Type) where
  | notStarted
  | executing
  /-- it has returned a promise that is pending -/
  | awaiting
  | settled (r : Except E V)

/-- A call of `withLock`. -/
structure Call (V E : Type) where
  fn : Fn V E
  /-- `run` listens to the promise that the function has returned -/
  adopted : Bool
  /-- the promise `run`, once it is settled -/
  run : Option (Except E V)
  /-- `run.catch(() => {})` is fulfilled -/
  chained : Bool

inductive Job (V E : Type) where
  /-- the chain in front of a call is fulfilled: `then(fn)` runs the function -/
  | start (i : Nat)
  /-- `run` starts to listen to the promise that the function has returned -/
  | adopt (i : Nat)
  /-- that promise has settled -/
  | settle (i : Nat) (r : Except E V)
  /-- `run` has settled: the reaction of `catch` -/
  | caught (i : Nat)

structure State (V E : Type) where
  calls : List (Call V E)
  microtasks : List (Job V E)
  /-- the function on the stack -/
  executing : Option Nat

def start : State V E := ⟨[], [], none⟩

/-- How a function ends: with a value, with a promise that may have settled, or with a throw. -/
inductive Return (V E : Type) where
  | value (v : V)
  | promise (settled : Option (Except E V))
  | throw (e : E)

inductive Event (V E : Type) where
  | call
  | microtask
  | returned (result : Return V E)
  /-- the promise that a function has returned settles -/
  | settles (i : Nat) (r : Except E V)

def fresh : Call V E := ⟨.notStarted, false, none, false⟩

/-- `withLock(fn)`. -/
def withLock (s : State V E) : State V E :=
  { s with
    calls := s.calls ++ [fresh]
    microtasks := s.microtasks ++
      if s.calls.getLast?.all (·.chained) then [.start s.calls.length] else [] }

def State.update (s : State V E) (i : Nat) (f : Call V E → Call V E) : State V E :=
  { s with calls := s.calls.modify i f }

def State.push (s : State V E) (js : List (Job V E)) : State V E :=
  { s with microtasks := s.microtasks ++ js }

def runJob (s : State V E) : Job V E → State V E
  | .start i => { s.update i fun c => { c with fn := .executing } with executing := some i }
  | .adopt i =>
      (s.update i fun c => { c with adopted := true }).push <|
        match s.calls[i]? with
        | some ⟨.settled r, _, _, _⟩ => [.settle i r]
        | _ => []
  | .settle i r => (s.update i fun c => { c with run := some r }).push [.caught i]
  | .caught i =>
      (s.update i fun c => { c with chained := true }).push
        (if i + 1 < s.calls.length then [.start (i + 1)] else [])

/-- The function on the stack ends; a promise is adopted in a microtask of its own. -/
def giveBack (s : State V E) (i : Nat) : Return V E → State V E
  | .value v =>
      (s.update i fun c => { c with fn := .settled (.ok v), run := some (.ok v) }).push [.caught i]
  | .throw e =>
      (s.update i fun c => { c with fn := .settled (.error e), run := some (.error e) }).push
        [.caught i]
  | .promise none => (s.update i fun c => { c with fn := .awaiting }).push [.adopt i]
  | .promise (some r) => (s.update i fun c => { c with fn := .settled r }).push [.adopt i]

def step (s : State V E) : Event V E → Option (State V E)
  | .call => some (withLock s)
  | .microtask =>
      match s.executing, s.microtasks with
      | none, j :: js => some (runJob { s with microtasks := js } j)
      | _, _ => none
  | .returned result => s.executing.map fun i => giveBack { s with executing := none } i result
  | .settles i r =>
      match s.calls[i]? with
      | some ⟨.awaiting, adopted, _, _⟩ =>
          some ((s.update i fun c => { c with fn := .settled r }).push
            (if adopted then [.settle i r] else []))
      | _ => none

abbrev run : State V E → List (Event V E) → Option (State V E) := Runs.run step

/-! ## What a lock is for -/

def Call.Started (c : Call V E) : Prop := c.fn ≠ .notStarted

def Call.Settled (c : Call V E) : Prop := ∃ r, c.fn = .settled r

/-- No function is on the stack and no reaction is due. -/
def Quiet (s : State V E) : Prop := s.executing = none ∧ s.microtasks = []

/-- A mutex that serves calls in their order and keeps their outcomes apart. -/
structure FifoMutex (s : State V E) : Prop where
  exclusive : ∀ (i j : Nat) (c d : Call V E), s.calls[i]? = some c → s.calls[j]? = some d → c.Started → ¬ c.Settled →
    d.Started → ¬ d.Settled → i = j
  fifo : ∀ (i j : Nat) (c d : Call V E), i < j → s.calls[i]? = some c → s.calls[j]? = some d → d.Started → c.Settled
  own : ∀ c ∈ s.calls, ∀ r, c.run = some r → c.fn = .settled r
  settles : Quiet s → ∀ c ∈ s.calls, ∀ r, c.fn = .settled r → c.run = some r
  goesOn : Quiet s → ∀ (j : Nat) (d : Call V E), s.calls[j]? = some d →
    (∀ (i : Nat) (c : Call V E), i < j → s.calls[i]? = some c → c.Settled) → d.Started

/-! ## The shape of the chain -/

/-- The call is through: the chain behind it is fulfilled. -/
structure Call.Through (c : Call V E) : Prop where
  fn : ∃ r, c.fn = .settled r ∧ c.run = some r
  chained : c.chained = true

/-- What the call at the front of the chain has reached, and the reaction that is due for it. -/
inductive Turn (i : Nat) : Call V E → List (Job V E) → Option Nat → Prop where
  | queued : Turn i fresh [.start i] none
  | executing : Turn i ⟨.executing, false, none, false⟩ [] (some i)
  | returned : Turn i ⟨.awaiting, false, none, false⟩ [.adopt i] none
  | returnedSettled (r : Except E V) : Turn i ⟨.settled r, false, none, false⟩ [.adopt i] none
  | awaiting : Turn i ⟨.awaiting, true, none, false⟩ [] none
  | settled (r : Except E V) : Turn i ⟨.settled r, true, none, false⟩ [.settle i r] none
  | resolved (r : Except E V) (adopted : Bool) :
      Turn i ⟨.settled r, adopted, some r, false⟩ [.caught i] none

/-- Calls that are through, the one whose turn it is, and calls that wait. -/
inductive Chain : State V E → Prop where
  | idle (done : List (Call V E)) (hdone : ∀ c ∈ done, c.Through) : Chain ⟨done, [], none⟩
  | busy (done waiting : List (Call V E)) (c : Call V E) (js : List (Job V E))
      (executing : Option Nat) (hdone : ∀ c ∈ done, c.Through) (hturn : Turn done.length c js executing)
      (hwaiting : ∀ c ∈ waiting, c = fresh) : Chain ⟨done ++ c :: waiting, js, executing⟩

section

variable {done waiting : List (Call V E)} {c : Call V E}

theorem modify_front (f : Call V E → Call V E) :
    (done ++ c :: waiting).modify done.length f = done ++ f c :: waiting := by
  induction done with
  | nil => rfl
  | cons d done ih => rw [List.cons_append, List.length_cons, List.modify_succ_cons, ih]; rfl

theorem getElem?_front : (done ++ c :: waiting)[done.length]? = some c := by
  simp

/-- A call in front of the chain, in turn, or behind. -/
theorem getElem?_cases {i : Nat} {d : Call V E} (h : (done ++ c :: waiting)[i]? = some d) :
    (i < done.length ∧ d ∈ done) ∨ (i = done.length ∧ d = c) ∨ (done.length < i ∧ d ∈ waiting) := by
  rcases Nat.lt_trichotomy i done.length with hi | hi | hi
  · rw [List.getElem?_append_left hi] at h
    exact Or.inl ⟨hi, List.mem_of_getElem? h⟩
  · subst hi
    rw [getElem?_front] at h
    exact Or.inr (Or.inl ⟨rfl, (Option.some.inj h).symm⟩)
  · rw [List.getElem?_append_right (by omega)] at h
    obtain ⟨n, hn⟩ : ∃ n, i - done.length = n + 1 := ⟨i - done.length - 1, by omega⟩
    rw [hn, List.getElem?_cons_succ] at h
    exact Or.inr (Or.inr ⟨hi, List.mem_of_getElem? h⟩)

theorem Call.Through.settled (h : c.Through) : c.Settled := h.fn.imp fun _ hr => hr.1

theorem Call.Through.started (h : c.Through) : c.Started := by
  obtain ⟨r, hr, -⟩ := h.fn
  rw [Call.Started, hr]
  exact nofun

theorem fresh_not_started : ¬ (fresh : Call V E).Started := fun h => h rfl

end

/-! ## The shape is kept -/

section

variable {s s' : State V E}

theorem chain_start : Chain (start : State V E) := .idle [] nofun

theorem chain_withLock (h : Chain s) : Chain (withLock s) := by
  cases h with
  | idle done hdone =>
      have hlast : (done.getLast?.all fun c => c.chained) = true := by
        cases hl : done.getLast? with
        | none => rfl
        | some c => exact (hdone c (List.mem_of_getLast? hl)).chained
      have hjobs : (withLock ⟨done, [], none⟩).microtasks = [.start done.length] := by
        simp [withLock, hlast]
      have hs : withLock ⟨done, [], none⟩ = (⟨done ++ [fresh], [.start done.length], none⟩ : State V E) := by
        rw [← hjobs]
        rfl
      rw [hs]
      exact .busy done [] fresh _ none hdone .queued nofun
  | busy done waiting c js executing hdone hturn hwaiting =>
      have hlast : ((done ++ c :: waiting).getLast?.all fun c => c.chained) = false := by
        rw [List.getLast?_append_cons]
        cases hl : waiting.getLast? with
        | none =>
            rw [List.getLast?_eq_none_iff] at hl
            subst hl
            cases hturn <;> rfl
        | some d =>
            have hd := hwaiting d (List.mem_of_getLast? hl)
            rw [List.getLast?_cons, hl, hd]
            rfl
      have hs : withLock ⟨done ++ c :: waiting, js, executing⟩ =
          (⟨done ++ c :: (waiting ++ [fresh]), js, executing⟩ : State V E) := by
        simp only [withLock]
        rw [hlast]
        simp
      rw [hs]
      refine .busy done _ c js executing hdone hturn fun d hd => ?_
      rcases List.mem_append.mp hd with hd | hd
      · exact hwaiting d hd
      · exact List.mem_singleton.mp hd

/-- The microtasks that are due all serve the call in turn. -/
theorem chain_runJob {done waiting : List (Call V E)} {c : Call V E} {j : Job V E}
    {js : List (Job V E)} (hdone : ∀ c ∈ done, c.Through)
    (hturn : Turn done.length c (j :: js) none) (hwaiting : ∀ c ∈ waiting, c = fresh) :
    Chain (runJob ⟨done ++ c :: waiting, js, none⟩ j) := by
  have hbusy {c' : Call V E} {js' : List (Job V E)} {executing : Option Nat}
      (f : Call V E → Call V E) (hf : f c = c') (hturn' : Turn done.length c' js' executing) :
      Chain (⟨(done ++ c :: waiting).modify done.length f, js', executing⟩ : State V E) := by
    rw [modify_front, hf]
    exact .busy done waiting c' js' executing hdone hturn' hwaiting
  cases hturn with
  | queued => exact hbusy _ rfl .executing
  | returned =>
      have hfront : (done ++ (⟨.awaiting, false, none, false⟩ : Call V E) :: waiting)[done.length]? =
        some _ := getElem?_front
      simp only [runJob, hfront]
      exact hbusy _ rfl .awaiting
  | returnedSettled r =>
      have hfront : (done ++ (⟨.settled r, false, none, false⟩ : Call V E) :: waiting)[done.length]? =
        some _ := getElem?_front
      simp only [runJob, hfront]
      exact hbusy _ rfl (.settled r)
  | settled r => exact hbusy _ rfl (.resolved r true)
  | resolved r adopted =>
      have hthrough : ∀ d ∈ done ++ [⟨.settled r, adopted, some r, true⟩], d.Through := by
        intro d hd
        rcases List.mem_append.mp hd with hd | hd
        · exact hdone d hd
        · rw [List.mem_singleton.mp hd]
          exact ⟨⟨r, rfl, rfl⟩, rfl⟩
      have hcalls : (done ++ (⟨.settled r, adopted, some r, false⟩ : Call V E) :: waiting).modify
          done.length (fun c => { c with chained := true }) =
          (done ++ [⟨.settled r, adopted, some r, true⟩]) ++ waiting := by
        rw [modify_front]
        simp
      simp only [runJob, State.update, State.push, hcalls]
      cases waiting with
      | nil =>
          have hlast : ¬ done.length + 1 < (done ++ [(⟨.settled r, adopted, some r, false⟩ : Call V E)]).length := by
            simp
          rw [if_neg hlast, List.append_nil, List.append_nil]
          exact .idle _ hthrough
      | cons d waiting =>
          have hnext : done.length + 1 <
              (done ++ (⟨.settled r, adopted, some r, false⟩ : Call V E) :: d :: waiting).length := by
            simp
          obtain rfl := hwaiting d List.mem_cons_self
          rw [if_pos hnext]
          refine .busy _ waiting fresh _ none hthrough ?_ fun c hc => hwaiting c (List.mem_cons_of_mem _ hc)
          rw [List.length_append]
          exact .queued

theorem chain_step {e : Event V E} (h : Chain s) (hs : step s e = some s') : Chain s' := by
  cases e with
  | call =>
      obtain rfl := Option.some.inj hs
      exact chain_withLock h
  | microtask =>
      rw [step] at hs
      split at hs
      case h_1 j js hexec hjobs =>
        obtain rfl := Option.some.inj hs
        cases h with
        | idle done hdone => cases hjobs
        | busy done waiting c js' executing hdone hturn hwaiting =>
            obtain rfl : executing = none := hexec
            obtain rfl : js' = j :: js := hjobs
            exact chain_runJob hdone hturn hwaiting
      case h_2 => cases hs
  | returned result =>
      obtain ⟨i, hi, rfl⟩ := Option.map_eq_some_iff.mp hs
      cases h with
      | idle done hdone => cases hi
      | busy done waiting c js executing hdone hturn hwaiting =>
          obtain rfl : executing = some i := hi
          cases hturn
          have hbusy {c' : Call V E} {js' : List (Job V E)} (f : Call V E → Call V E)
              (hf : f ⟨.executing, false, none, false⟩ = c') (hturn' : Turn done.length c' js' none) :
              Chain (⟨(done ++ ⟨.executing, false, none, false⟩ :: waiting).modify done.length f, js',
                none⟩ : State V E) := by
            rw [modify_front, hf]
            exact .busy done waiting c' js' none hdone hturn' hwaiting
          cases result with
          | value v => exact hbusy _ rfl (.resolved (.ok v) false)
          | throw e => exact hbusy _ rfl (.resolved (.error e) false)
          | promise settled =>
              cases settled with
              | none => exact hbusy _ rfl .returned
              | some r => exact hbusy _ rfl (.returnedSettled r)
  | settles i r =>
      rw [step] at hs
      split at hs
      case h_1 adopted _ _ hcall =>
        obtain rfl := Option.some.inj hs
        cases h with
        | idle done hdone =>
            obtain ⟨r', hr', -⟩ := (hdone _ (List.mem_of_getElem? hcall)).fn
            cases hr'
        | busy done waiting c js executing hdone hturn hwaiting =>
            rcases getElem?_cases hcall with ⟨-, hc⟩ | ⟨rfl, rfl⟩ | ⟨-, hc⟩
            · obtain ⟨r', hr', -⟩ := (hdone _ hc).fn
              cases hr'
            · simp only [State.update, State.push, modify_front]
              cases hturn with
              | returned => exact .busy done waiting _ _ _ hdone (.returnedSettled r) hwaiting
              | awaiting => exact .busy done waiting _ _ _ hdone (.settled r) hwaiting
            · cases hwaiting _ hc
      case h_2 => cases hs

end

/-! ## The mutex -/

theorem Chain.fifoMutex {s : State V E} (h : Chain s) : FifoMutex s := by
  cases h with
  | idle done hdone =>
      refine ⟨?_, ?_, ?_, ?_, ?_⟩
      · intro i j c d hc hd hstarted hpending
        exact absurd (hdone c (List.mem_of_getElem? hc)).settled hpending
      · intro i j c d _ hc _ _
        exact (hdone c (List.mem_of_getElem? hc)).settled
      · intro c hc r hr
        obtain ⟨r', hfn, hrun⟩ := (hdone c hc).fn
        obtain rfl := Option.some.inj (hrun.symm.trans hr)
        exact hfn
      · intro _ c hc r hr
        obtain ⟨r', hfn, hrun⟩ := (hdone c hc).fn
        obtain rfl : r' = r := by simpa [hfn] using hr
        exact hrun
      · intro _ j d hd _
        exact (hdone d (List.mem_of_getElem? hd)).started
  | busy done waiting c js executing hdone hturn hwaiting =>
      have hfront {i : Nat} {d : Call V E} (hd : (done ++ c :: waiting)[i]? = some d)
          (hstarted : d.Started) (hpending : ¬ d.Settled) : i = done.length := by
        rcases getElem?_cases hd with ⟨-, hd⟩ | ⟨hi, -⟩ | ⟨-, hd⟩
        · exact absurd (hdone d hd).settled hpending
        · exact hi
        · exact absurd hstarted (hwaiting d hd ▸ fresh_not_started)
      refine ⟨?_, ?_, ?_, ?_, ?_⟩
      · intro i j d d' hd hd' hstarted hpending hstarted' hpending'
        rw [hfront hd hstarted hpending, hfront hd' hstarted' hpending']
      · intro i j d d' hij hd hd' hstarted
        rcases getElem?_cases hd' with ⟨hj, -⟩ | ⟨hj, -⟩ | ⟨-, hd'⟩
        · rw [List.getElem?_append_left (by omega)] at hd
          exact (hdone d (List.mem_of_getElem? hd)).settled
        · rw [List.getElem?_append_left (by omega)] at hd
          exact (hdone d (List.mem_of_getElem? hd)).settled
        · exact absurd hstarted (hwaiting d' hd' ▸ fresh_not_started)
      · intro d hd r hr
        rcases List.mem_append.mp hd with hd | hd
        · obtain ⟨r', hfn, hrun⟩ := (hdone d hd).fn
          obtain rfl := Option.some.inj (hrun.symm.trans hr)
          exact hfn
        · rcases List.mem_cons.mp hd with rfl | hd
          · cases hturn with
            | resolved r' adopted =>
                obtain rfl := Option.some.inj hr
                rfl
            | _ => cases hr
          · rw [hwaiting d hd] at hr
            cases hr
      · rintro ⟨hexec, hjobs⟩ d hd r hr
        obtain rfl : executing = none := hexec
        obtain rfl : js = [] := hjobs
        rcases List.mem_append.mp hd with hd | hd
        · obtain ⟨r', hfn, hrun⟩ := (hdone d hd).fn
          obtain rfl : r' = r := by simpa [hfn] using hr
          exact hrun
        · rcases List.mem_cons.mp hd with rfl | hd
          · cases hturn
            cases hr
          · rw [hwaiting d hd] at hr
            cases hr
      · rintro ⟨hexec, hjobs⟩ j d hd hearlier
        obtain rfl : executing = none := hexec
        obtain rfl : js = [] := hjobs
        rcases getElem?_cases hd with ⟨-, hd⟩ | ⟨-, rfl⟩ | ⟨hj, -⟩
        · exact (hdone d hd).started
        · cases hturn
          exact nofun
        · have hc := hearlier done.length c hj getElem?_front
          cases hturn
          obtain ⟨r, hr⟩ := hc
          cases hr

/-! ## Outcomes and progress -/

/-- A promise that has settled stays as it is. -/
def KeepsOutcomes (s s' : State V E) : Prop :=
  ∀ (i : Nat) (c : Call V E) (r : Except E V), s.calls[i]? = some c → c.run = some r →
    ∃ c', s'.calls[i]? = some c' ∧ c'.run = some r

/-- The microtasks run out, or come to a function. -/
def RunsOut (s : State V E) : Prop :=
  ∃ n s', run s (List.replicate n .microtask) = some s' ∧ (s'.microtasks = [] ∨ s'.executing ≠ none)

section

variable {s s' : State V E}

theorem keepsOutcomes_update {s s' : State V E} {k : Nat} {f : Call V E → Call V E}
    (hs : s'.calls = s.calls.modify k f)
    (hf : ∀ (c : Call V E) r, s.calls[k]? = some c → c.run = some r → (f c).run = some r) :
    KeepsOutcomes s s' := by
  intro i c r hc hr
  rw [hs, List.getElem?_modify]
  by_cases hi : k = i
  · subst hi
    exact ⟨f c, by simp [hc], hf c r hc hr⟩
  · exact ⟨c, by simp [hc, hi], hr⟩

theorem keepsOutcomes_step {e : Event V E} (h : Chain s) (hs : step s e = some s') :
    KeepsOutcomes s s' := by
  cases e with
  | call =>
      obtain rfl := Option.some.inj hs
      intro i c r hc hr
      obtain ⟨hi, -⟩ := List.getElem?_eq_some_iff.mp hc
      exact ⟨c, by rw [withLock, List.getElem?_append_left hi]; exact hc, hr⟩
  | microtask =>
      rw [step] at hs
      split at hs
      case h_1 j js hexec hjobs =>
        obtain rfl := Option.some.inj hs
        cases j with
        | start i => exact keepsOutcomes_update rfl fun _ _ _ hr => hr
        | adopt i => exact keepsOutcomes_update rfl fun _ _ _ hr => hr
        | caught i => exact keepsOutcomes_update rfl fun _ _ _ hr => hr
        | settle i r' =>
            refine keepsOutcomes_update rfl fun d r hd hr => ?_
            cases h with
            | idle done hdone => cases hjobs
            | busy done waiting c js' executing hdone hturn hwaiting =>
                obtain rfl : js' = .settle i r' :: js := hjobs
                cases hturn
                rw [getElem?_front] at hd
                obtain rfl := Option.some.inj hd
                cases hr
      case h_2 => cases hs
  | returned result =>
      obtain ⟨i, hi, rfl⟩ := Option.map_eq_some_iff.mp hs
      have hnone : ∀ d : Call V E, s.calls[i]? = some d → d.run = none := by
        intro d hd
        cases h with
        | idle done hdone => cases hi
        | busy done waiting c js executing hdone hturn hwaiting =>
            obtain rfl : executing = some i := hi
            cases hturn
            rw [getElem?_front] at hd
            obtain rfl := Option.some.inj hd
            rfl
      have hf (f : Call V E → Call V E) : ∀ (c : Call V E) r, s.calls[i]? = some c → c.run = some r →
          (f c).run = some r := by
        intro d r hd hr
        rw [hnone d hd] at hr
        cases hr
      cases result with
      | value v => exact keepsOutcomes_update rfl (hf _)
      | throw e => exact keepsOutcomes_update rfl (hf _)
      | promise settled =>
          cases settled with
          | none => exact keepsOutcomes_update rfl (hf _)
          | some r => exact keepsOutcomes_update rfl (hf _)
  | settles i r =>
      rw [step] at hs
      split at hs
      case h_1 adopted _ _ hcall =>
        obtain rfl := Option.some.inj hs
        exact keepsOutcomes_update rfl fun _ _ _ hr => hr
      case h_2 => cases hs

/-- How many microtasks may follow the one that is due. -/
def rank : List (Job V E) → Nat
  | .start _ :: _ => 1
  | .caught _ :: _ => 2
  | .settle _ _ :: _ => 3
  | .adopt _ :: _ => 4
  | [] => 0

theorem rank_runJob {done waiting : List (Call V E)} {c : Call V E} {j : Job V E}
    {js : List (Job V E)} (hturn : Turn done.length c (j :: js) none) :
    (runJob ⟨done ++ c :: waiting, js, none⟩ j).executing ≠ none ∨
      rank (runJob ⟨done ++ c :: waiting, js, none⟩ j).microtasks < rank (j :: js) := by
  cases hturn with
  | queued => exact Or.inl nofun
  | returned =>
      have hfront : (done ++ (⟨.awaiting, false, none, false⟩ : Call V E) :: waiting)[done.length]? =
        some _ := getElem?_front
      right
      simp only [runJob, hfront]
      exact Nat.zero_lt_succ 3
  | returnedSettled r =>
      have hfront : (done ++ (⟨.settled r, false, none, false⟩ : Call V E) :: waiting)[done.length]? =
        some _ := getElem?_front
      right
      simp only [runJob, hfront]
      exact Nat.lt_succ_self 3
  | settled r => exact Or.inr (Nat.lt_succ_self 2)
  | resolved r adopted =>
      right
      simp only [runJob, State.push]
      split
      · exact Nat.lt_succ_self 1
      · exact Nat.zero_lt_succ 1

theorem Chain.runsOut (h : Chain s) : RunsOut s := by
  induction hn : rank s.microtasks using Nat.strong_induction_on generalizing s with
  | _ n ih =>
      by_cases hexec : s.executing = none
      · cases hjobs : s.microtasks with
        | nil => exact ⟨0, s, rfl, Or.inl hjobs⟩
        | cons j js =>
            have hstep : step s .microtask = some (runJob { s with microtasks := js } j) := by
              rw [step, hexec, hjobs]
            have hchain := chain_step h hstep
            have hrank : (runJob { s with microtasks := js } j).executing ≠ none ∨
                rank (runJob { s with microtasks := js } j).microtasks < rank (j :: js) := by
              cases h with
              | idle done hdone => cases hjobs
              | busy done waiting c js' executing hdone hturn hwaiting =>
                  obtain rfl : executing = none := hexec
                  obtain rfl : js' = j :: js := hjobs
                  exact rank_runJob hturn
            rcases hrank with hrun | hrank
            · exact ⟨1, _, by simp [Runs.run, hstep], Or.inr hrun⟩
            · obtain ⟨m, s', hrun, hs'⟩ := ih _ (by rw [← hn, hjobs]; exact hrank) hchain rfl
              refine ⟨m + 1, s', ?_, hs'⟩
              show (step s .microtask).bind (fun s => run s (List.replicate m .microtask)) = some s'
              rw [hstep]
              exact hrun
      · exact ⟨0, s, rfl, Or.inr hexec⟩

end

/-- In every run, calls are served one at a time and in their order, each promise gets the
outcome of its own function for good, and no outcome keeps a later call from its turn. -/
theorem withLock_fifoMutex {es : List (Event V E)} {s : State V E} (h : run start es = some s) :
    FifoMutex s ∧ (∀ e s', step s e = some s' → KeepsOutcomes s s') ∧ RunsOut s := by
  have hchain : Chain s := Runs.run_induct (P := Chain) (A := fun _ => True)
    (fun _ _ _ hs _ hstep => chain_step hs hstep) chain_start (fun _ _ => trivial) h
  exact ⟨hchain.fifoMutex, fun e s' hs => keepsOutcomes_step hchain hs, hchain.runsOut⟩

/-- The first function throws while a second call waits, whose promise settles later. -/
def throwsFirst : List (Event Nat Nat) :=
  [.call, .microtask, .call, .returned (.throw 1), .microtask, .microtask,
    .returned (.promise none), .microtask, .settles 1 (.ok 2), .microtask]

theorem throwsFirst_isSome : (run start throwsFirst).isSome = true := by decide

theorem withLock_fifoMutex_throwsFirst :
    FifoMutex ((run start throwsFirst).get throwsFirst_isSome) ∧
      ((run start throwsFirst).get throwsFirst_isSome).calls.map (·.run) =
        [some (.error 1), some (.ok 2)] :=
  ⟨(withLock_fifoMutex (Option.some_get throwsFirst_isSome).symm).1, rfl⟩

end SmsGateway.Serializer
