import SmsGateway.Serial.Machine

/-!
# The calls of the driver

Calls are numbered as they are made and are worked off in that order, and the holder of the lock
is always in what is left of its own function.
-/

namespace SmsGateway.Serial.Machine

open SmsGateway Serial
open Lib Lib.Async

/-! ## The rest of a call -/

/-- The holder is in its own function. -/
def Running.Within (r : Running) : Prop := ∃ smsc, Rest (r.job.prog smsc) r.phase.prog

section

variable {r r' : Running}

theorem Running.Within.same (h : r.Within) (hjob : r'.job = r.job)
    (hprog : r'.phase.prog = r.phase.prog) : r'.Within := by
  obtain ⟨smsc, hrest⟩ := h
  refine ⟨smsc, ?_⟩
  rw [hjob, hprog]
  exact hrest

theorem Running.Within.answer (h : r.Within) (hjob : r'.job = r.job) {op : Op}
    {k : Ans op → Prog Result} (hprog : r.phase.prog = .call op k) (a : Ans op)
    (hph : r'.phase.prog = k a) : r'.Within := by
  obtain ⟨smsc, hrest⟩ := h
  rw [hprog] at hrest
  refine ⟨smsc, ?_⟩
  rw [hjob, hph]
  exact hrest.after a

theorem Running.Within.settle (h : r.Within) (err : Option JsError) : (r.settle err).Within := by
  unfold Running.settle
  split
  case h_1 c k hph =>
    have hprog : r.phase.prog = .call (.transact c.request) k := by rw [hph]; rfl
    exact h.answer rfl hprog _ rfl
  case h_2 => exact h

theorem Running.Within.receive (h : r.Within) (line : JsString) : (r.receive line).Within := by
  unfold Running.receive
  split
  case h_1 c k hph =>
    have hwaits : Running.Within
        { r with phase := .command { c with lines := c.lines ++ [line] } k } :=
      h.same rfl (by rw [hph]; rfl)
    dsimp only
    split
    · split
      · exact (hwaits.settle (some (respondedError line c.request.label))).same rfl rfl
      · exact hwaits.settle none
    · exact hwaits
  case h_2 => exact h

theorem Running.Within.resolveUrc (h : r.Within) (waiter : Nat) (line : Option JsString) :
    (r.resolveUrc waiter line).Within := by
  unfold Running.resolveUrc
  split
  case h_1 w k hph =>
    split
    · have hprog : r.phase.prog = .call (.urc w) k := by rw [hph]; rfl
      exact h.answer rfl hprog line rfl
    · exact h
  case h_2 => exact h

theorem Running.Within.abandon (h : r.Within) (err : JsError) : (r.abandon err).Within := by
  unfold Running.abandon
  split
  · exact (h.settle (some err)).same rfl rfl
  · exact h

theorem Running.Within.failWrite (h : r.Within) (message : JsString) (reached : Bool) :
    (r.failWrite message reached).Within := by
  unfold Running.failWrite
  split
  · exact h.abandon _
  · split
    · exact (h.settle (some (writeFailedError message))).same rfl rfl
    · exact h

theorem Running.Within.issue (h : r.Within) (connected : Bool) (now : Nat) {req : Request}
    {k : Except JsError (List JsString) → Prog Result}
    (hprog : r.phase.prog = .call (.transact req) k) : (r.issue connected now req k).Within := by
  unfold Running.issue
  split
  · exact h.same rfl hprog.symm
  · exact h.answer rfl hprog _ rfl

end

theorem keeps_within : Keeps Running.Within (fun _ => True) (fun _ => True) :=
  { new := fun _ _ smsc => ⟨smsc, .whole⟩
    prompt := fun h => h.settle none
    timeout := fun _ h => h.settle _
    receive := fun line h => h.receive line
    resolveUrc := fun waiter line h => h.resolveUrc waiter line
    abandon := fun _ _ _ h => h.abandon _
    failWrite := fun message h => h.failWrite message false
    issue := fun connected now hprog _ h => h.issue connected now hprog
    answer := fun a hprog _ _ h => h.answer rfl hprog a rfl
    await := fun _ hprog _ _ h => h.same rfl hprog
    finish := fun _ _ _ _ => trivial }

theorem within_run {smsc : JsString} {es : List Event} {s : State}
    (h : run (start smsc) es = some s) : ∀ r, s.running = some r → r.Within := by
  have hinv : CallInv Running.Within (fun _ => True) [] s :=
    Runs.run_induct (A := fun _ => True)
      (fun _ _ _ hs _ hstep => callInv_step keeps_within hs (fun _ _ _ => trivial) hstep)
      (callInv_start smsc) (fun _ _ => trivial) h
  exact hinv.running

/-! ## The order of calls -/

theorem settle_id (r : Running) (err : Option JsError) : (r.settle err).id = r.id := by
  unfold Running.settle
  split <;> rfl

theorem abandon_id (r : Running) (err : JsError) : (r.abandon err).id = r.id := by
  unfold Running.abandon
  split
  · exact settle_id r _
  · rfl

theorem failWrite_id (r : Running) (message : JsString) (reached : Bool) :
    (r.failWrite message reached).id = r.id := by
  unfold Running.failWrite
  split
  · exact abandon_id r _
  · split
    · exact settle_id r _
    · rfl

theorem receive_id (r : Running) (line : JsString) : (r.receive line).id = r.id := by
  unfold Running.receive
  split
  · dsimp only
    split
    · split
      · exact settle_id _ _
      · exact settle_id _ _
    · rfl
  · rfl

theorem resolveUrc_id (r : Running) (waiter : Nat) (line : Option JsString) :
    (r.resolveUrc waiter line).id = r.id := by
  unfold Running.resolveUrc
  split
  · split <;> rfl
  · rfl

theorem issue_id (r : Running) (connected : Bool) (now : Nat) (req : Request)
    (k : Except JsError (List JsString) → Prog Result) :
    (r.issue connected now req k).id = r.id := by
  unfold Running.issue
  split <;> rfl

/-- The same calls are finished, under way and queued. -/
structure SameCalls (s s' : State) : Prop where
  results : s'.results = s.results
  running : s'.running.map (·.id) = s.running.map (·.id)
  queue : s'.queue = s.queue
  next : s'.nextCall = s.nextCall

/-- What a step does to the calls. -/
inductive CallStep (s s' : State) : Prop where
  | same (h : SameCalls s s')
  | called (job : Job) (h : SameCalls (enqueue s job) s')
  | started (id : Nat) (job : Job) (queue : List (Nat × Job)) (h : s.running = none)
      (hqueue : s.queue = (id, job) :: queue)
      (h' : s' = { s with
        queue
        running := some ⟨id, job, .ready (job.prog s.smsc), false, false, false⟩ })
  | finished (r : Running) (result : Except JsError Result) (h : s.running = some r)
      (h' : s' = finish s r result)

section

variable {s s' : State}

theorem SameCalls.refl (s : State) : SameCalls s s := ⟨rfl, rfl, rfl, rfl⟩

theorem SameCalls.map {f : Running → Running} (hf : ∀ r, (f r).id = r.id)
    (hresults : s'.results = s.results) (hrunning : s'.running = s.running.map f)
    (hqueue : s'.queue = s.queue) (hnext : s'.nextCall = s.nextCall) : SameCalls s s' := by
  refine ⟨hresults, ?_, hqueue, hnext⟩
  rw [hrunning, Option.map_map]
  congr 1
  exact funext hf

theorem SameCalls.trans {t : State} (h : SameCalls s t) (h' : SameCalls t s') : SameCalls s s' :=
  ⟨h'.results.trans h.results, h'.running.trans h.running, h'.queue.trans h.queue,
    h'.next.trans h.next⟩

theorem sameCalls_resolveWaiter (s : State) (w : Waiter) (line : Option JsString) :
    SameCalls s (resolveWaiter s w line) :=
  .map (fun r => resolveUrc_id r w.id line) rfl rfl rfl rfl

theorem SameCalls.handleLine (h : SameCalls s s') (line : JsString) :
    SameCalls s (handleLine s' line) := by
  unfold Machine.handleLine
  split
  · have hsame : SameCalls s' { s' with urcWaiters := s'.urcWaiters.eraseP (takes line) } :=
      ⟨rfl, rfl, rfl, rfl⟩
    exact (h.trans hsame).trans (sameCalls_resolveWaiter _ _ _)
  · exact h.trans (.map (fun r => receive_id r line) rfl rfl rfl rfl)

theorem SameCalls.failCurrentCommand (h : SameCalls s s') (err : JsError) :
    SameCalls s (failCurrentCommand s' err) := by
  have hfold (ws : List Waiter) (t : State) (ht : SameCalls s t) :
      SameCalls s (ws.foldl (fun s w => resolveWaiter s w none) t) := by
    induction ws generalizing t with
    | nil => exact ht
    | cons w ws ih => exact ih _ (ht.trans (sameCalls_resolveWaiter t w none))
  have habandon : SameCalls s' { s'.mapRunning (·.abandon err) with urcWaiters := [] } :=
    .map (fun r => abandon_id r err) rfl rfl rfl rfl
  exact hfold _ _ (h.trans habandon)

theorem SameCalls.scheduleReconnect (h : SameCalls s s') :
    SameCalls s (scheduleReconnect s') := by
  unfold Machine.scheduleReconnect
  split
  · exact h
  · exact ⟨h.results, h.running, h.queue, h.next⟩

theorem callStep_advance {r : Running} {p : Prog Result} (hr : s.running = some r)
    (random : Nat) : CallStep s (advance s r p random) := by
  have hset {t : State} (r' : Running) (hid : r'.id = r.id) (hresults : t.results = s.results)
      (hrunning : t.running = some r') (hqueue : t.queue = s.queue)
      (hnext : t.nextCall = s.nextCall) : CallStep s t := by
    refine .same ⟨hresults, ?_, hqueue, hnext⟩
    rw [hr, hrunning, Option.map_some, Option.map_some, hid]
  cases p with
  | ret a => exact .finished r _ hr rfl
  | fail e => exact .finished r _ hr rfl
  | call op k =>
      cases op with
      | transact req =>
          rw [advance_transact]
          split
          · exact hset { r with phase := .quiet s.quietUntil req k } rfl rfl rfl rfl rfl
          · exact hset _ (issue_id r _ _ _ _) rfl rfl rfl rfl
      | writeEsc => exact hset { r with phase := .ready (k ()) } rfl rfl rfl rfl rfl
      | waitForUrc pre timeoutMs =>
          exact hset { r with phase := .ready (k s.nextWaiter) } rfl rfl rfl rfl rfl
      | urc w =>
          rw [advance_urc]
          split
          · exact hset { r with phase := .ready (k _) } rfl rfl rfl rfl rfl
          · exact hset { r with phase := .urc w k } rfl rfl rfl rfl rfl
      | persist messages =>
          exact hset { r with phase := .persist messages k } rfl rfl rfl rfl rfl
      | randomInt max =>
          exact hset { r with phase := .ready (k (random % max)) } rfl rfl rfl rfl rfl

theorem callStep_react {e : Event} (h : react s e = some s') : CallStep s s' := by
  cases e with
  | call job =>
      obtain rfl := Option.some.inj h
      exact .called job (.refl _)
  | data text =>
      rw [react] at h
      split at h
      · obtain rfl := Option.some.inj h
        exact .same ⟨rfl, rfl, rfl, rfl⟩
      · cases h
  | scan => cases h
  | microtask random => cases h
  | commandTimeout =>
      rw [react] at h
      split at h
      · split at h
        · split at h
          · obtain rfl := Option.some.inj h
            exact .same (.map (fun r => settle_id r _) rfl rfl rfl rfl)
          · cases h
        · cases h
      · cases h
  | waiterTimeout waiter =>
      rw [react] at h
      split at h
      · split at h
        · obtain rfl := Option.some.inj h
          exact .same (.map (fun r => resolveUrc_id r _ none) rfl rfl rfl rfl)
        · cases h
      · cases h
  | quietOver =>
      rw [react] at h
      split at h
      case h_1 r hr =>
        split at h
        · split at h
          · obtain rfl := Option.some.inj h
            refine .same ⟨rfl, ?_, rfl, rfl⟩
            rw [hr, issue, Option.map_some, Option.map_some, issue_id]
          · cases h
        · cases h
      case h_2 => cases h
  | writeFailed message reached =>
      obtain rfl := Option.some.inj h
      exact .same (.map (fun r => failWrite_id r message reached) rfl rfl rfl rfl)
  | persisted answer =>
      rw [react] at h
      split at h
      case h_1 r hr =>
        split at h
        · obtain rfl := Option.some.inj h
          refine .same ⟨rfl, ?_, rfl, rfl⟩
          rw [hr, goOn, Option.map_some, Option.map_some]
        · cases h
      case h_2 => cases h
  | opened ok =>
      rw [react] at h
      split at h
      · split at h
        · obtain rfl := Option.some.inj h
          exact .called .initModem ⟨rfl, rfl, rfl, rfl⟩
        · obtain rfl := Option.some.inj h
          have hsame : SameCalls s { s with opening := false } := ⟨rfl, rfl, rfl, rfl⟩
          exact .same hsame.scheduleReconnect
      · cases h
  | portClosed =>
      rw [react] at h
      split at h
      · obtain rfl := Option.some.inj h
        have hsame : SameCalls s { s with connected := false } := ⟨rfl, rfl, rfl, rfl⟩
        exact .same (hsame.failCurrentCommand portClosedError).scheduleReconnect
      · cases h
  | reconnect =>
      rw [react] at h
      split at h
      · split at h
        · obtain rfl := Option.some.inj h
          unfold connect
          split
          · exact .same ⟨rfl, rfl, rfl, rfl⟩
          · exact .same ⟨rfl, rfl, rfl, rfl⟩
        · cases h
      · cases h
  | close =>
      obtain rfl := Option.some.inj h
      have hsame : SameCalls s { s with closing := true, reconnectTimer := none } :=
        ⟨rfl, rfl, rfl, rfl⟩
      exact .same (hsame.failCurrentCommand shuttingDown)
  | tick ms =>
      obtain rfl := Option.some.inj h
      exact .same ⟨rfl, rfl, rfl, rfl⟩

theorem step_calls {e : Event} (h : step s e = some s') : CallStep s s' := by
  rcases step_cases h with ⟨-, hscan⟩ | ⟨random, -, -, htask⟩ | ⟨-, -, hreact⟩
  · unfold runScan at hscan
    split at hscan
    · cases hscan
    · next line rest _ =>
        obtain rfl := Option.some.inj hscan
        have hsame : SameCalls s { s with scan := some rest } := ⟨rfl, rfl, rfl, rfl⟩
        exact .same (hsame.handleLine line)
    · split at hscan
      · obtain rfl := Option.some.inj hscan
        exact .same (.map (fun r => settle_id r none) rfl rfl rfl rfl)
      · obtain rfl := Option.some.inj hscan
        exact .same ⟨rfl, rfl, rfl, rfl⟩
  · unfold runMicrotask at htask
    split at htask
    case h_1 r hr =>
      split at htask
      · obtain rfl := Option.some.inj htask
        exact callStep_advance hr random
      · cases htask
    case h_2 hr =>
      split at htask
      · cases htask
      · next id job queue hqueue =>
          obtain rfl := Option.some.inj htask
          exact .started id job queue hr hqueue rfl
  · exact callStep_react hreact

/-- The numbers of all calls: the finished ones, the one under way and the queued ones. -/
def callIds (s : State) : List Nat :=
  s.results.map (·.id) ++ ((s.running.map (·.id)).toList ++ s.queue.map (·.1))

/-- The lock goes from call to call in the order of the calls. -/
theorem callIds_run {smsc : JsString} {es : List Event} {s : State}
    (h : run (start smsc) es = some s) : callIds s = List.range s.nextCall := by
  refine Runs.run_induct (P := fun s => callIds s = List.range s.nextCall) (A := fun _ => True)
    ?_ rfl (fun _ _ => trivial) h
  intro s e s' hs _ hstep
  cases step_calls hstep with
  | same hsame => rw [callIds, hsame.results, hsame.running, hsame.queue, hsame.next, ← hs, callIds]
  | called job hsame =>
      rw [callIds, hsame.results, hsame.running, hsame.queue, hsame.next, enqueue, List.range_succ,
        ← hs, callIds]
      simp
  | started id job queue hfree hqueue h' =>
      rw [h', ← hs, callIds, callIds, hfree, hqueue]
      rfl
  | finished r result hr h' =>
      rw [h', finish, ← hs, callIds, callIds, hr]
      simp

/-- The number of the holder belongs to no other call. -/
structure Unfinished (id : Nat) (s : State) : Prop where
  results : ∀ f ∈ s.results, f.id ≠ id
  queue : ∀ p ∈ s.queue, p.1 ≠ id
  next : id < s.nextCall

theorem unfinished_run {smsc : JsString} {es : List Event} {s : State} {r : Running}
    (h : run (start smsc) es = some s) (hr : s.running = some r) : Unfinished r.id s := by
  have hids := callIds_run h
  have hnodup : (callIds s).Nodup := by
    rw [hids]
    exact List.nodup_range
  have hmem : r.id ∈ List.range s.nextCall := by
    rw [← hids, callIds, hr]
    simp
  rw [callIds, hr, Option.map_some, Option.toList_some, List.singleton_append,
    List.nodup_middle, List.nodup_cons, List.mem_append, not_or] at hnodup
  obtain ⟨⟨hresults, hqueue⟩, -⟩ := hnodup
  refine ⟨?_, ?_, List.mem_range.mp hmem⟩
  · intro f hf he
    exact hresults (List.mem_map.mpr ⟨f, hf, he⟩)
  · intro p hp he
    exact hqueue (List.mem_map.mpr ⟨p, hp, he⟩)

end

end SmsGateway.Serial.Machine
