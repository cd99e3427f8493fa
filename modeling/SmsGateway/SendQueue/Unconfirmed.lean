import SmsGateway.SendQueue.Lifecycle

/-!
# What `unconfirmed` says about a send

The `failed` handler knows the class of the error only. An `UnrecoverableError`
comes from a send whose confirmation timed out, and from a pinned modem that the
pool does not have.
-/

namespace SmsGateway.SendQueue

open SmsGateway LogStore Pool Worker
open Lib

/-- The attempt called a driver's `sendSMS`, and that rejected with `confirmTimeout`. -/
def Attempt.HandedOver (a : Attempt) : Prop :=
  a.called = true ∧ ∃ err, a.rejection = some err ∧ err.confirmTimeout = true

/-- Each write of `unconfirmed` comes from an attempt that handed the message over. -/
def UnconfirmedMeans (x : Send) : Prop :=
  ∀ w ∈ x.writes, w.status = .unconfirmed → ∃ a, w.attempt = some a ∧ a.HandedOver

/-- An attempt does not start with a pinned modem that the pool lacks. -/
def modemFound (s : State) : Event → Bool
  | .start i =>
      match s.sends[i]? with
      | some x =>
          match x.modem with
          | some id => id = [] || (Pool.get s.pool id).isSome
          | none => true
      | none => true
  | _ => true

/-- An unrecoverable error in flight is one of a send that was handed over. -/
structure Honest (x : Send) : Prop where
  writes : UnconfirmedMeans x
  threw : ∀ t a, x.stage = .threw t a → t.unrecoverable = true → a.HandedOver

theorem honest_new (logId : JsString) (modem : Option JsString) : Honest (newSend logId modem) := by
  refine ⟨?_, ?_⟩
  · intro w hw hst
    obtain rfl := List.mem_singleton.mp hw
    cases hst
  · rintro t a ⟨⟩

theorem Honest.restarted {x : Send} (h : Honest x) : Honest x.restarted := by
  unfold Send.restarted
  split
  · exact h
  · refine ⟨h.writes, ?_⟩
    rintro t a ⟨⟩

theorem UnconfirmedMeans.wrote {x : Send} {st : Status} {a : Option Attempt}
    (h : UnconfirmedMeans x) (hw : st = .unconfirmed → ∃ b, a = some b ∧ b.HandedOver) :
    UnconfirmedMeans (x.wrote st a) := by
  intro w hmem hst
  rcases List.mem_append.mp hmem with hmem | hmem
  · exact h w hmem hst
  · obtain rfl := List.mem_singleton.mp hmem
    exact hw hst

theorem Honest.step {x x' : Send} {e : Event} {chosen : Except Thrown Modem} {patch : Option Patch}
    (h : Honest x) (hchosen : ∀ i t, e = .start i → chosen ≠ .error t)
    (hs : x.step chosen e = some (x', patch)) : Honest x' := by
  cases e with
  | post entry modem => cases hs
  | connection modemId connected => cases hs
  | restart pool => cases hs
  | added i =>
      cases hstage : x.stage <;> simp only [Send.step, hstage] at hs <;> try cases hs
      exact ⟨h.writes, by rintro t a ⟨⟩⟩
  | addThrew i err =>
      cases hstage : x.stage <;> simp only [Send.step, hstage] at hs <;> try cases hs
      exact ⟨UnconfirmedMeans.wrote h.writes (by rintro ⟨⟩), by rintro t a ⟨⟩⟩
  | start i =>
      cases hstage : x.stage <;> simp only [Send.step, hstage] at hs <;> try cases hs
      cases chosen with
      | ok m =>
          obtain ⟨rfl, -⟩ := Prod.mk.inj (Option.some.inj hs)
          exact ⟨h.writes, by rintro t a ⟨⟩⟩
      | error t => exact absurd rfl (hchosen i t rfl)
  | call i =>
      cases hstage : x.stage <;> simp only [Send.step, hstage] at hs <;> try cases hs
      exact ⟨h.writes, by rintro t a ⟨⟩⟩
  | resolved i reference now =>
      cases hstage : x.stage <;> simp only [Send.step, hstage] at hs <;> try cases hs
      exact ⟨UnconfirmedMeans.wrote h.writes (by rintro ⟨⟩), by rintro t a ⟨⟩⟩
  | rejected i err =>
      cases hstage : x.stage <;> simp only [Send.step, hstage] at hs <;> try cases hs
      refine ⟨h.writes, ?_⟩
      rintro t a ⟨rfl, rfl⟩ hun
      exact ⟨rfl, err, rfl, by rwa [sendFailed_unrecoverable] at hun⟩
  | failed i =>
      cases hstage : x.stage <;> simp only [Send.step, hstage] at hs <;> try cases hs
      rename_i t a
      refine ⟨UnconfirmedMeans.wrote h.writes ?_, ?_⟩
      · intro hst
        have hun : t.unrecoverable = true := by
          cases ht : t.unrecoverable with
          | true => rfl
          | false =>
              simp only [failedStatus, ht, Bool.false_eq_true, if_false] at hst
              split at hst <;> cases hst
        exact ⟨a, rfl, h.threw t a hstage hun⟩
      · intro t' a' hst'
        simp only [Send.ended_stage, Send.wrote_stage] at hst'
        split at hst' <;> cases hst'

theorem chooseModem_ok {pool : ModemPool} {pinned : Option JsString}
    (h : ∀ id, pinned = some id → id ≠ [] → (Pool.get pool id).isSome) (t : Thrown) :
    (chooseModem pool pinned).1 ≠ .error t := by
  unfold chooseModem
  cases pinned with
  | none => simp
  | some id =>
      by_cases hid : id = []
      · simp [hid]
      · obtain ⟨m, hm⟩ := Option.isSome_iff_exists.mp (h id rfl hid)
        simp [hid, hm]

theorem honest_step {s s' : State} {e : Event} (h : ∀ x ∈ s.sends, Honest x)
    (hfound : modemFound s e = true) (hstep : step s e = some s') : ∀ x ∈ s'.sends, Honest x := by
  rcases step_cases hstep with ⟨entry, modem, -, -, rfl⟩ | ⟨modemId, connected, -, rfl⟩ |
    ⟨pool, -, rfl⟩ | ⟨i, x, x', patch, hi, hx, hx', rfl⟩
  · intro x hx
    rcases List.mem_append.mp hx with hx | hx
    · exact h x hx
    · obtain rfl := List.mem_singleton.mp hx
      exact honest_new _ _
  · exact h
  · intro y hy
    obtain ⟨x, hx, rfl⟩ := List.mem_map.mp hy
    exact (h x hx).restarted
  · intro y hy
    rcases List.mem_or_eq_of_mem_set hy with hy | rfl
    · exact h y hy
    · refine (h x (List.mem_of_getElem? hx)).step ?_ hx'
      rintro j t rfl
      obtain rfl : j = i := Option.some.inj hi
      refine chooseModem_ok ?_ t
      intro id hid hne
      simpa [modemFound, hx, hid, hne] using hfound

/-- In every run in which no attempt starts with a pinned modem that the pool
lacks, restarts with another pool included, `unconfirmed` means that a driver's
`sendSMS` was called and rejected with `confirmTimeout`. -/
theorem unconfirmed_means {pool : ModemPool} {es : List Event} {s : State}
    (h : run (start pool) es = some s) (hes : Runs.allSteps step modemFound (start pool) es = true) :
    ∀ x ∈ s.sends, UnconfirmedMeans x ∧
      ∀ row, getLog s.rows x.logId = some row → row.status = Status.unconfirmed.text →
        ∃ w ∈ x.writes, w.status = .unconfirmed ∧ ∃ a, w.attempt = some a ∧ a.HandedOver := by
  have hall : ∀ x ∈ s.sends, Honest x :=
    Runs.allSteps_induct (P := fun s => ∀ x ∈ s.sends, Honest x)
      (fun _ _ _ hs he hstep => honest_step hs he hstep) (by simp [start]) hes h
  have hrows := rowsInv_run h
  intro x hx
  refine ⟨(hall x hx).writes, ?_⟩
  intro row hrow hst
  obtain ⟨row', w, hrow', hw, hst'⟩ := hrows.row x hx
  obtain rfl : row = row' := Option.some.inj (hrow.symm.trans hrow')
  have hstw : w.status = .unconfirmed := Status.text_injective (hst'.symm.trans hst)
  have hmem := List.mem_of_getLast? hw
  exact ⟨w, hmem, hstw, (hall x hx).writes w hmem hstw⟩

/-- An attempt whose pinned modem is missing ends in `unconfirmed` without any call. -/
theorem unknownModem_unconfirmed {x : Send} {pool : ModemPool} {i : Nat} {id : JsString}
    (hx : x.stage = .waiting) (hmodem : x.modem = some id) (hid : id ≠ [])
    (hmissing : Pool.get pool id = none) :
    ∃ x₁ x₂ patch, x.step (chooseModem pool x.modem).1 (.start i) = some (x₁, none) ∧
      x₁.step (.error (unknownModem id)) (.failed i) = some (x₂, some patch) ∧
      ⟨.unconfirmed, some ⟨false, none⟩⟩ ∈ x₂.writes ∧ ¬ UnconfirmedMeans x₂ := by
  have hchoose : (chooseModem pool x.modem).1 = .error (unknownModem id) := by
    simp [chooseModem, hmodem, hid, hmissing]
  have hmem : (⟨.unconfirmed, some ⟨false, none⟩⟩ : Write) ∈
      x.writes ++ [⟨.unconfirmed, some ⟨false, none⟩⟩] := by simp
  rw [hchoose]
  refine ⟨{ x with stage := .threw (unknownModem id) ⟨false, none⟩ }, _, _,
    by simp only [Send.step, hx], rfl, hmem, ?_⟩
  intro hmeans
  obtain ⟨a, ha, hover⟩ := hmeans _ hmem rfl
  obtain rfl := Option.some.inj ha
  exact absurd hover.1 (by decide)

/-- A send whose confirmation times out. -/
def timedOut : List Event :=
  [.post oneEntry (some (js "m1")), .added 0, .start 0, .call 0,
    .rejected 0 { newError (js "no answer") with confirmTimeout := true }, .failed 0]

theorem timedOut_isSome : (run (start onePool) timedOut).isSome = true := by decide +kernel

theorem unconfirmed_means_timed_out :
    ∃ x ∈ ((run (start onePool) timedOut).get timedOut_isSome).sends, UnconfirmedMeans x ∧
      ∀ row, getLog ((run (start onePool) timedOut).get timedOut_isSome).rows x.logId = some row →
        row.status = Status.unconfirmed.text →
        ∃ w ∈ x.writes, w.status = .unconfirmed ∧ ∃ a, w.attempt = some a ∧ a.HandedOver := by
  have hsent : ((run (start onePool) timedOut).get timedOut_isSome).sends ≠ [] :=
    List.ne_nil_of_length_pos (by decide +kernel)
  obtain ⟨x, hx⟩ := List.exists_mem_of_ne_nil _ hsent
  exact ⟨x, hx, unconfirmed_means (Option.some_get timedOut_isSome).symm (by decide +kernel) x hx⟩

def otherPool : ModemPool := ⟨[⟨js "m2", true⟩], 0, by simp⟩

/-- A pinned job that outlives the modem it was pinned to. -/
def modemRemoved : List Event :=
  [.post oneEntry (some (js "m1")), .added 0, .restart otherPool, .start 0, .failed 0]

theorem modemRemoved_isSome : (run (start onePool) modemRemoved).isSome = true := by decide +kernel

/-- The row is `unconfirmed` although the attempt called no driver. -/
theorem modemRemoved_unconfirmed :
    let s := (run (start onePool) modemRemoved).get modemRemoved_isSome
    ∃ x row, s.sends[0]? = some x ∧ getLog s.rows x.logId = some row ∧
      row.status = Status.unconfirmed.text ∧ ¬ UnconfirmedMeans x := by
  let x : Send :=
    { logId := js "a", modem := some (js "m1"), attemptsMade := 1, stage := .done
      writes := [⟨.pending, none⟩, ⟨.unconfirmed, some ⟨false, none⟩⟩]
      outcomes := [.unrecoverable] }
  let row : Row :=
    { oneEntry with status := js "unconfirmed", modemId := some (js "m1")
                    error := some (js "Unknown modem \"m1\"") }
  refine ⟨x, row, by decide +kernel, by decide +kernel, rfl, ?_⟩
  intro hmeans
  obtain ⟨a, ha, hover⟩ := hmeans ⟨.unconfirmed, some ⟨false, none⟩⟩ (by simp [x]) rfl
  obtain rfl := Option.some.inj ha
  exact absurd hover.1 (by decide)

end SmsGateway.SendQueue
