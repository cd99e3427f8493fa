import SmsGateway.Serial.Calls
import SmsGateway.Serial.Ussd

/-!
# Registered waiters

A waiter can outlive the call that has registered it. What the driver's steps do to the list
of waiters, and what therefore holds of all of them.
-/

namespace SmsGateway.Serial.Machine

open Ussd Lib Lib.Async

/-- What a step does to the waiters. Those that are resolved leave the list. -/
inductive WaiterStep (s s' : State) : Prop where
  | same (h : SameWaiters s s')
  | registers (r : Running) (pre : JsString) (timeoutMs : Nat) (k : Nat → Prog Result)
      (hr : s.running = some r) (hprog : r.phase.prog = .call (.waitForUrc pre timeoutMs) k)
      (hwaiters : s'.urcWaiters = s.urcWaiters ++ [⟨s.nextWaiter, pre, r.id, s.now + timeoutMs⟩])
      (hsettled : s'.settledUrcs = s.settledUrcs) (hnext : s'.nextWaiter = s.nextWaiter + 1)
  | resolves (gone : List (Nat × Option JsString)) (hleft : s'.urcWaiters.Sublist s.urcWaiters)
      (hsettled : s'.settledUrcs = gone ++ s.settledUrcs) (hnext : s'.nextWaiter = s.nextWaiter)
      (hgone : ∀ p ∈ gone, ∃ x ∈ s.urcWaiters, x.id = p.1)
      (hother : (s.urcWaiters.map (·.id)).Nodup → ∀ p ∈ gone, ∀ x ∈ s'.urcWaiters, x.id ≠ p.1)

/-- Waiters for USSD replies take no other line. -/
theorem find_passed {waiters : List Waiter} (hall : ∀ x ∈ waiters, x.pre = cusd) {line : JsString}
    (hline : startsWith line cusd = false) : waiters.find? (takes line) = none := by
  rw [List.find?_eq_none]
  intro x hx
  rw [takes, hall x hx, hline]
  exact Bool.false_ne_true

section

variable {s s' : State}

theorem sameWaiters_scheduleReconnect (s : State) : SameWaiters s (scheduleReconnect s) := by
  unfold scheduleReconnect
  split
  · exact ⟨rfl, rfl, rfl⟩
  · exact ⟨rfl, rfl, rfl⟩

theorem WaiterStep.congr {t t' : State} (h : WaiterStep t t') (hs : SameWaiters s t)
    (hrun : ∀ r, t.running = some r → s.running = some r) (hnow : t.now = s.now)
    (hs' : SameWaiters t' s') : WaiterStep s s' := by
  cases h with
  | same h =>
      exact .same ⟨hs'.waiters.trans (h.waiters.trans hs.waiters),
        hs'.settled.trans (h.settled.trans hs.settled), hs'.next.trans (h.next.trans hs.next)⟩
  | registers r pre timeoutMs k hr hprog hwaiters hsettled hnext =>
      refine .registers r pre timeoutMs k (hrun r hr) hprog ?_ ?_ ?_
      · rw [hs'.waiters, hwaiters, hs.waiters, hs.next, hnow]
      · rw [hs'.settled, hsettled, hs.settled]
      · rw [hs'.next, hnext, hs.next]
  | resolves gone hleft hsettled hnext hgone hother =>
      rw [hs.waiters] at hleft hgone hother
      refine .resolves gone ?_ ?_ ?_ hgone ?_
      · rw [hs'.waiters]
        exact hleft
      · rw [hs'.settled, hsettled, hs.settled]
      · rw [hs'.next, hnext, hs.next]
      · rw [hs'.waiters]
        exact hother

/-- One waiter is resolved. -/
theorem waiterStep_resolveWaiter {waiters : List Waiter} {w : Waiter} (line : Option JsString)
    (hw : w ∈ s.urcWaiters) (hleft : waiters.Sublist s.urcWaiters)
    (hother : (s.urcWaiters.map (·.id)).Nodup → ∀ x ∈ waiters, x.id ≠ w.id) :
    WaiterStep s (resolveWaiter { s with urcWaiters := waiters } w line) := by
  refine .resolves [(w.id, line)] hleft rfl rfl ?_ ?_
  · intro p hp
    rw [List.mem_singleton.mp hp]
    exact ⟨w, hw, rfl⟩
  · intro hnodup p hp x hx
    rw [List.mem_singleton.mp hp]
    exact hother hnodup x hx

theorem waiterStep_handleLine (s : State) (line : JsString) : WaiterStep s (handleLine s line) := by
  unfold handleLine
  split
  case h_1 w hfind =>
    have hmem := List.mem_of_find?_eq_some hfind
    refine waiterStep_resolveWaiter (some line) hmem List.eraseP_sublist ?_
    intro hnodup x hx he
    obtain ⟨y, before, after, hbefore, htakes, hall, herase⟩ :=
      List.exists_of_eraseP hmem (List.find?_some hfind)
    obtain rfl : y = w := by
      rw [hall, List.find?_append, List.find?_eq_none.mpr hbefore] at hfind
      simpa [htakes] using hfind
    rw [herase] at hx
    rw [hall, List.map_append, List.map_cons, List.nodup_middle, List.nodup_cons, ← List.map_append]
      at hnodup
    exact hnodup.1 (he ▸ List.mem_map_of_mem hx)
  case h_2 => exact .same ⟨rfl, rfl, rfl⟩

theorem foldl_resolved (ws : List Waiter) (t : State) :
    let t' := ws.foldl (fun s w => resolveWaiter s w none) t
    t'.urcWaiters = t.urcWaiters ∧ t'.nextWaiter = t.nextWaiter ∧
      t'.settledUrcs = (ws.map fun w => (w.id, none)).reverse ++ t.settledUrcs := by
  induction ws generalizing t with
  | nil => exact ⟨rfl, rfl, rfl⟩
  | cons w ws ih =>
      obtain ⟨hwaiters, hnext, hsettled⟩ := ih (resolveWaiter t w none)
      refine ⟨hwaiters, hnext, ?_⟩
      rw [List.foldl_cons, hsettled, List.map_cons, List.reverse_cons, List.append_assoc]
      rfl

theorem waiterStep_failCurrentCommand (s : State) (err : JsError) :
    WaiterStep s (failCurrentCommand s err) := by
  obtain ⟨hwaiters, hnext, hsettled⟩ := foldl_resolved s.urcWaiters
    { s.mapRunning (·.abandon err) with urcWaiters := [] }
  have hnil : (failCurrentCommand s err).urcWaiters = [] := hwaiters
  refine .resolves _ ?_ hsettled hnext ?_ ?_
  · rw [hnil]
    exact List.nil_sublist _
  · intro p hp
    rw [List.mem_reverse, List.mem_map] at hp
    obtain ⟨x, hx, rfl⟩ := hp
    exact ⟨x, hx, rfl⟩
  · rw [hnil]
    intro _ p _ x hx
    cases hx

theorem waiterStep_advance {r : Running} {p : Prog Result} (hr : s.running = some r)
    (hph : r.phase = .ready p) (random : Nat) : WaiterStep s (advance s r p random) := by
  cases p with
  | ret a => exact .same ⟨rfl, rfl, rfl⟩
  | fail e => exact .same ⟨rfl, rfl, rfl⟩
  | call op k =>
      cases op with
      | transact req =>
          rw [advance_transact]
          split
          · exact .same ⟨rfl, rfl, rfl⟩
          · exact .same ⟨rfl, rfl, rfl⟩
      | waitForUrc pre timeoutMs =>
          have hprog : r.phase.prog = .call (.waitForUrc pre timeoutMs) k := by rw [hph]; rfl
          exact .registers r pre timeoutMs k hr hprog rfl rfl rfl
      | urc w =>
          rw [advance_urc]
          split
          · exact .same ⟨rfl, rfl, rfl⟩
          · exact .same ⟨rfl, rfl, rfl⟩
      | _ => exact .same ⟨rfl, rfl, rfl⟩

theorem waiterStep_react {e : Event} (h : react s e = some s') : WaiterStep s s' := by
  cases e with
  | call job =>
      obtain rfl := Option.some.inj h
      exact .same ⟨rfl, rfl, rfl⟩
  | data text =>
      rw [react] at h
      split at h
      · obtain rfl := Option.some.inj h
        exact .same ⟨rfl, rfl, rfl⟩
      · cases h
  | commandTimeout =>
      rw [react] at h
      split at h
      · split at h
        · split at h
          · obtain rfl := Option.some.inj h
            exact .same ⟨rfl, rfl, rfl⟩
          · cases h
        · cases h
      · cases h
  | waiterTimeout waiter =>
      rw [react] at h
      split at h
      case h_1 w hfind =>
        split at h
        · obtain rfl := Option.some.inj h
          have hmatch := List.find?_some hfind
          have hid : w.id = waiter := beq_iff_eq.mp hmatch
          refine waiterStep_resolveWaiter none (List.mem_of_find?_eq_some hfind) List.filter_sublist ?_
          intro _ x hx
          rw [hid]
          exact bne_iff_ne.mp (List.mem_filter.mp hx).2
        · cases h
      case h_2 => cases h
  | quietOver =>
      rw [react] at h
      split at h
      · split at h
        · split at h
          · obtain rfl := Option.some.inj h
            exact .same ⟨rfl, rfl, rfl⟩
          · cases h
        · cases h
      · cases h
  | writeFailed message reached =>
      obtain rfl := Option.some.inj h
      exact .same ⟨rfl, rfl, rfl⟩
  | persisted answer =>
      rw [react] at h
      split at h
      · split at h
        · obtain rfl := Option.some.inj h
          exact .same ⟨rfl, rfl, rfl⟩
        · cases h
      · cases h
  | opened ok =>
      rw [react] at h
      split at h
      · split at h
        · obtain rfl := Option.some.inj h
          exact .same ⟨rfl, rfl, rfl⟩
        · obtain rfl := Option.some.inj h
          have hsame := sameWaiters_scheduleReconnect { s with opening := false }
          exact .same ⟨hsame.waiters, hsame.settled, hsame.next⟩
      · cases h
  | portClosed =>
      rw [react] at h
      split at h
      · obtain rfl := Option.some.inj h
        exact (waiterStep_failCurrentCommand { s with connected := false } portClosedError).congr
          ⟨rfl, rfl, rfl⟩ (fun _ hr => hr) rfl (sameWaiters_scheduleReconnect _)
      · cases h
  | reconnect =>
      rw [react] at h
      split at h
      · split at h
        · obtain rfl := Option.some.inj h
          unfold connect
          split
          · exact .same ⟨rfl, rfl, rfl⟩
          · exact .same ⟨rfl, rfl, rfl⟩
        · cases h
      · cases h
  | close =>
      obtain rfl := Option.some.inj h
      exact (waiterStep_failCurrentCommand { s with closing := true, reconnectTimer := none }
        shuttingDown).congr ⟨rfl, rfl, rfl⟩ (fun _ hr => hr) rfl ⟨rfl, rfl, rfl⟩
  | tick ms =>
      obtain rfl := Option.some.inj h
      exact .same ⟨rfl, rfl, rfl⟩
  | scan => cases h
  | microtask random => cases h

theorem step_waiters {e : Event} (h : step s e = some s') : WaiterStep s s' := by
  rcases step_cases h with ⟨-, hscan⟩ | ⟨random, -, -, htask⟩ | ⟨-, -, hreact⟩
  · unfold runScan at hscan
    split at hscan
    · cases hscan
    · next line rest _ =>
        obtain rfl := Option.some.inj hscan
        exact (waiterStep_handleLine { s with scan := some rest } line).congr ⟨rfl, rfl, rfl⟩
          (fun _ hr => hr) rfl ⟨rfl, rfl, rfl⟩
    · split at hscan
      · obtain rfl := Option.some.inj hscan
        exact .same ⟨rfl, rfl, rfl⟩
      · obtain rfl := Option.some.inj hscan
        exact .same ⟨rfl, rfl, rfl⟩
  · unfold runMicrotask at htask
    split at htask
    case h_1 r hr =>
      split at htask
      case h_1 p hph =>
        obtain rfl := Option.some.inj htask
        exact waiterStep_advance hr hph random
      case h_2 => cases htask
    case h_2 =>
      split at htask
      · cases htask
      · obtain rfl := Option.some.inj htask
        exact .same ⟨rfl, rfl, rfl⟩
  · exact waiterStep_react hreact

/-! ## All waiters of a run -/

/-- A registered waiter waits for a USSD reply, and has none. -/
structure Registered (s : State) : Prop where
  pre : ∀ x ∈ s.urcWaiters, x.pre = cusd
  unresolved : ∀ x ∈ s.urcWaiters, s.settledUrcs.lookup x.id = none
  distinct : (s.urcWaiters.map (·.id)).Nodup
  below : ∀ x ∈ s.urcWaiters, x.id < s.nextWaiter
  settled : ∀ p ∈ s.settledUrcs, p.1 < s.nextWaiter

theorem lookup_append_other {gone settled : List (Nat × Option JsString)} {w : Nat}
    (h : ∀ p ∈ gone, w ≠ p.1) : (gone ++ settled).lookup w = settled.lookup w := by
  have hnone : gone.lookup w = none := by
    rw [List.lookup_eq_none_iff]
    intro p hp
    simpa using h p hp
  rw [List.lookup_append, hnone, Option.none_or]

/-- Only `runUssd` registers waiters. -/
theorem Running.Within.waits {r : Running} (h : r.Within) {pre : JsString} {timeoutMs : Nat}
    {k : Nat → Prog Result} (hprog : r.phase.prog = .call (.waitForUrc pre timeoutMs) k) :
    pre = cusd := by
  obtain ⟨smsc, hrest⟩ := h
  obtain ⟨stage, hobeys⟩ := obeys_rest hrest (obeys_prog smsc r.job)
  rw [hprog] at hobeys
  exact hobeys.1.2.2

theorem registered_step {e : Event} (h : Registered s) (hwithin : ∀ r, s.running = some r → r.Within)
    (hs : step s e = some s') : Registered s' := by
  cases step_waiters hs with
  | same hsame =>
      refine ⟨?_, ?_, ?_, ?_, ?_⟩
      · rw [hsame.waiters]
        exact h.pre
      · rw [hsame.waiters, hsame.settled]
        exact h.unresolved
      · rw [hsame.waiters]
        exact h.distinct
      · rw [hsame.waiters, hsame.next]
        exact h.below
      · rw [hsame.settled, hsame.next]
        exact h.settled
  | registers r pre timeoutMs k hr hprog hwaiters hsettled hnext =>
      have hfresh : s.nextWaiter ∉ s.urcWaiters.map (·.id) := by
        intro hmem
        obtain ⟨x, hx, hid⟩ := List.mem_map.mp hmem
        exact Nat.ne_of_lt (h.below x hx) hid
      have hcases : ∀ x ∈ s'.urcWaiters, x ∈ s.urcWaiters ∨ x = ⟨s.nextWaiter, pre, r.id, s.now + timeoutMs⟩ := by
        intro x hx
        rw [hwaiters] at hx
        exact (List.mem_append.mp hx).imp_right List.mem_singleton.mp
      refine ⟨?_, ?_, ?_, ?_, ?_⟩
      · intro x hx
        rcases hcases x hx with hx | rfl
        · exact h.pre x hx
        · exact (hwithin r hr).waits hprog
      · intro x hx
        rw [hsettled]
        rcases hcases x hx with hx | rfl
        · exact h.unresolved x hx
        · rw [List.lookup_eq_none_iff]
          intro p hp
          simpa using Nat.ne_of_gt (h.settled p hp)
      · rw [hwaiters, List.map_append, List.nodup_append]
        refine ⟨h.distinct, List.nodup_singleton _, ?_⟩
        rintro a ha b hb rfl
        rw [List.map_singleton, List.mem_singleton] at hb
        rw [hb] at ha
        exact hfresh ha
      · intro x hx
        rw [hnext]
        rcases hcases x hx with hx | rfl
        · exact Nat.lt_succ_of_lt (h.below x hx)
        · exact Nat.lt_succ_self _
      · intro p hp
        rw [hnext]
        exact Nat.lt_succ_of_lt (h.settled p (hsettled ▸ hp))
  | resolves gone hleft hsettled hnext hgone hother =>
      have hsub := hleft.subset
      refine ⟨fun x hx => h.pre x (hsub hx), ?_, h.distinct.sublist (hleft.map _), ?_, ?_⟩
      · intro x hx
        rw [hsettled, lookup_append_other fun p hp => hother h.distinct p hp x hx]
        exact h.unresolved x (hsub hx)
      · intro x hx
        rw [hnext]
        exact h.below x (hsub hx)
      · intro p hp
        rw [hnext]
        rw [hsettled] at hp
        rcases List.mem_append.mp hp with hp | hp
        · obtain ⟨x, hx, hid⟩ := hgone p hp
          exact hid ▸ h.below x hx
        · exact h.settled p hp

theorem registered_start (smsc : JsString) : Registered (start smsc) :=
  ⟨nofun, nofun, List.nodup_nil, nofun, nofun⟩

theorem registered_run {smsc : JsString} {es : List Event} (h : run (start smsc) es = some s) :
    Registered s := by
  have hinv : CallInv Running.Within (fun _ => True) [] s ∧ Registered s := by
    refine Runs.run_induct (P := fun s => CallInv Running.Within (fun _ => True) [] s ∧ Registered s)
      (A := fun _ => True) ?_ ⟨callInv_start smsc, registered_start smsc⟩ (fun _ _ => trivial) h
    rintro s e s' ⟨hs, hr⟩ _ hstep
    exact ⟨callInv_step keeps_within hs (fun _ _ _ => trivial) hstep,
      registered_step hr hs.running hstep⟩
  exact hinv.2

end

end SmsGateway.Serial.Machine
