import SmsGateway.InboxStore

/-!
# A modem's inbox and its readers

What `fetchAndStore` is for, without a driver: SMS arrive on a modem, and calls
that hold the modem's lock list them, save what they listed in one transaction and
delete it afterwards. Every step may fail, and a failed delete may have deleted any
part of what it names.
-/

namespace SmsGateway.Inbox

open SmsGateway InboxStore

/-- An SMS that has arrived; `uid` tells it from every other one. -/
structure Sms (C : Type) where
  uid : Nat
  content : C

/-- How a modem names its SMS, and the row a driver makes of one. A key is free again after
a delete, unless the modem never uses one twice. -/
structure Format (C K : Type) where
  key : C → K
  row : JsString → C → Row
  freshKeys : Bool

/-- A call of `saveReceived` whose transaction was committed, and the listing it came from. -/
structure Batch (C : Type) where
  listing : List (Sms C)
  receivedAt : JsString
  rows : List Row

/-- What a call has done so far; `found` was on the modem when it took the lock. -/
structure CallLog (C : Type) where
  found : List (Sms C)
  listing : List (Sms C)
  /-- the modem held more than one listing shows -/
  clipped : Bool
  rejected : Bool
  deletes : Nat

structure Box (C : Type) where
  stored : List (Sms C)
  arrived : List (Sms C)
  committed : List (Batch C)
  /-- each deleted SMS with the listing of the call that deleted it -/
  removed : List (List (Sms C) × Sms C)
  log : CallLog C
  past : List (CallLog C)
  failed : Bool

variable {C K : Type}

/-- A call that has only taken the lock. -/
def entered (found : List (Sms C)) : CallLog C := ⟨found, [], false, false, 0⟩

def empty : Box C := ⟨[], [], [], [], entered [], [], false⟩

namespace Box

variable (b : Box C)

/-- The SMS in committed calls, each as often as it was inserted. -/
def inserted : List (Sms C) := b.committed.flatMap (·.listing)

def insertions (x : Sms C) : Nat := (b.inserted.map (·.uid)).count x.uid

/-- The table `received_messages`. -/
def receivedMessages : List Row := b.committed.flatMap (·.rows)

/-! ## Steps -/

def arrive (x : Sms C) : Box C := { b with stored := b.stored ++ [x], arrived := b.arrived ++ [x] }

def enter : Box C := { b with log := entered b.stored, past := b.past ++ [b.log] }

def list (l : List (Sms C)) (clipped : Bool) : Box C :=
  { b with log := { b.log with listing := l, clipped } }

def commit (receivedAt : JsString) (rows : List Row) : Box C :=
  { b with committed := b.committed ++ [⟨b.log.listing, receivedAt, rows⟩] }

def fail : Box C := { b with failed := true }

def reject : Box C := { b with log := { b.log with rejected := true }, failed := true }

def delete (gone : Sms C → Bool) : Box C :=
  { b with stored := b.stored.filter fun x => !gone x
           removed := b.removed ++ (b.stored.filter gone).map fun x => (b.log.listing, x)
           log := { b.log with deletes := b.log.deletes + 1 } }

end Box

/-- The SMS whose keys a new one cannot have. -/
def Format.taken (F : Format C K) (b : Box C) : List (Sms C) :=
  if F.freshKeys then b.arrived else b.stored

/-- A new SMS takes any free key. -/
structure Format.CanArrive (F : Format C K) (b : Box C) (x : Sms C) : Prop where
  key : ∀ y ∈ F.taken b, F.key y.content ≠ F.key x.content
  uid : ∀ y ∈ b.arrived, y.uid ≠ x.uid

/-- SMS arrive at any moment. -/
def Format.Arrives (F : Format C K) (b b' : Box C) : Prop := ∃ x, F.CanArrive b x ∧ b' = b.arrive x

/-- How `saveReceived` may settle: all rows are inserted or none. -/
inductive Persists (rows : JsString → List Row) (b : Box C) : Except JsError Unit → Box C → Prop where
  | committed (receivedAt : JsString) :
      Persists rows b (.ok ()) (b.commit receivedAt (rows receivedAt))
  | rejected (e : JsError) : Persists rows b (.error e) b.reject

/-! ## What readers guarantee -/

/-- The call has inserted what it listed, and so all it found where one listing shows that. -/
structure Box.Saved (b : Box C) (l : CallLog C) : Prop where
  listing : ∀ x ∈ l.listing, b.insertions x = 1
  found : l.clipped = false → ∀ x ∈ l.found, b.insertions x = 1

structure Kept (F : Format C K) (b : Box C) : Prop where
  /-- every SMS is on the modem or in a call that committed -/
  notLost : ∀ x ∈ b.arrived, x ∈ b.stored ∨ ∃ c ∈ b.committed, x ∈ c.listing
  /-- such a call has inserted one row for each SMS it listed -/
  rows : ∀ c ∈ b.committed, c.rows = c.listing.map fun x => F.row c.receivedAt x.content
  rejectedKeeps : ∀ l ∈ b.log :: b.past, l.rejected = true → l.deletes = 0
  ownListing : ∀ p ∈ b.removed, p.2 ∈ p.1
  once : b.failed = false → ∀ x ∈ b.arrived, b.insertions x ≤ 1 ∧
    (x ∉ b.stored → b.insertions x = 1)
  saved : b.failed = false → ∀ l ∈ b.past, b.Saved l

/-- The call has listed all it found, where one listing shows that. -/
def CallLog.ListsAll (l : CallLog C) : Prop := l.clipped = false → ∀ x ∈ l.found, x ∈ l.listing

/-- What holds at every moment. -/
structure Base (F : Format C K) (b : Box C) : Prop where
  keys : ∀ x ∈ F.taken b, ∀ y ∈ F.taken b, F.key x.content = F.key y.content → x = y
  storedUids : (b.stored.map (·.uid)).Nodup
  arrivedUids : (b.arrived.map (·.uid)).Nodup
  stored : ∀ x ∈ b.stored, x ∈ b.arrived
  inserted : ∀ x ∈ b.inserted, x ∈ b.arrived
  rows : ∀ c ∈ b.committed, c.rows = c.listing.map fun x => F.row c.receivedAt x.content
  kept : ∀ x ∈ b.arrived, x ∈ b.stored ∨ x ∈ b.inserted
  rejectedKeeps : ∀ l ∈ b.log :: b.past, l.rejected = true → l.deletes = 0
  ownListing : ∀ p ∈ b.removed, p.2 ∈ p.1
  once : b.failed = false → (b.inserted.map (·.uid)).Nodup
  listsAll : b.failed = false → ∀ l ∈ b.past, l.ListsAll
  saved : b.failed = false → ∀ l ∈ b.past, ∀ x ∈ l.listing, x ∈ b.inserted

/-- No call runs. -/
structure Idle (F : Format C K) (b : Box C) : Prop where
  base : Base F b
  disjoint : b.failed = false → ∀ x ∈ b.inserted, x ∉ b.stored
  listsAll : b.failed = false → b.log.ListsAll
  listed : b.failed = false → ∀ x ∈ b.log.listing, x ∈ b.inserted

/-- A call has not listed yet, and nothing of what it found is gone. -/
structure Entered (F : Format C K) (b : Box C) : Prop where
  base : Base F b
  log : b.log = entered b.log.found
  found : ∀ x ∈ b.log.found, x ∈ b.stored
  disjoint : b.failed = false → ∀ x ∈ b.inserted, x ∉ b.stored

/-- A call has listed, and nothing of its listing is gone. -/
structure HasListed (F : Format C K) (b : Box C) : Prop where
  base : Base F b
  untouched : b.log.rejected = false ∧ b.log.deletes = 0
  listsAll : b.log.ListsAll
  listing : ∀ x ∈ b.log.listing, x ∈ b.stored
  uids : (b.log.listing.map (·.uid)).Nodup
  disjoint : b.failed = false → ∀ x ∈ b.inserted, x ∉ b.stored

/-- A call has saved its listing and has `rest` of it to delete. -/
structure Deleting (F : Format C K) (rest : List (Sms C)) (b : Box C) : Prop where
  base : Base F b
  accepted : b.log.rejected = false
  listsAll : b.log.ListsAll
  committed : ∀ x ∈ b.log.listing, x ∈ b.inserted
  listed : ∀ x ∈ rest, x ∈ b.log.listing
  occupied : ∀ x ∈ rest, x ∈ F.taken b
  disjoint : b.failed = false → ∀ x ∈ b.inserted, x ∈ b.stored → x ∈ rest

section

variable {F : Format C K} {b : Box C}

theorem eq_of_uid {l : List (Sms C)} (h : (l.map (·.uid)).Nodup) {x y : Sms C} (hx : x ∈ l)
    (hy : y ∈ l) (hxy : x.uid = y.uid) : x = y :=
  List.inj_on_of_nodup_map h hx hy hxy

theorem Base.insertions_of_mem (h : Base F b) (hf : b.failed = false) {x : Sms C}
    (hx : x ∈ b.inserted) : b.insertions x = 1 :=
  List.count_eq_one_of_mem (h.once hf) (List.mem_map_of_mem hx)

theorem Base.toSaved (h : Base F b) (hf : b.failed = false) {l : CallLog C} (hall : l.ListsAll)
    (hl : ∀ x ∈ l.listing, x ∈ b.inserted) : b.Saved l :=
  ⟨fun x hx => h.insertions_of_mem hf (hl x hx),
    fun hclipped x hx => h.insertions_of_mem hf (hl x (hall hclipped x hx))⟩

/-- The invariant says what readers guarantee. -/
theorem Base.toKept (h : Base F b) : Kept F b := by
  refine ⟨?_, h.rows, h.rejectedKeeps, h.ownListing, ?_, ?_⟩
  · exact fun x hx => (h.kept x hx).imp_right List.mem_flatMap.mp
  · intro hf x hx
    refine ⟨List.nodup_iff_count_le_one.mp (h.once hf) x.uid, ?_⟩
    intro hns
    exact h.insertions_of_mem hf ((h.kept x hx).resolve_left hns)
  · exact fun hf l hl => h.toSaved hf (h.listsAll hf l hl) (h.saved hf l hl)

theorem Idle.saved (h : Idle F b) (hf : b.failed = false) : b.Saved b.log :=
  h.base.toSaved hf (h.listsAll hf) (h.listed hf)

theorem Base.stored_taken (h : Base F b) {x : Sms C} (hx : x ∈ b.stored) : x ∈ F.taken b := by
  unfold Format.taken
  split
  · exact h.stored x hx
  · exact hx

theorem taken_arrive (x : Sms C) : F.taken (b.arrive x) = F.taken b ++ [x] := by
  unfold Format.taken
  split <;> rfl

theorem Base.arrive (h : Base F b) {x : Sms C} (hx : F.CanArrive b x) : Base F (b.arrive x) := by
  have hnew (l : List (Sms C)) (hl : ∀ y ∈ l, y ∈ b.arrived) (hn : (l.map (·.uid)).Nodup) :
      ((l ++ [x]).map (·.uid)).Nodup := by
    rw [List.map_append, List.nodup_append]
    refine ⟨hn, by simp, ?_⟩
    intro u hu v hv huv
    obtain ⟨y, hy, rfl⟩ := List.mem_map.mp hu
    rw [List.map_singleton, List.mem_singleton] at hv
    exact hx.uid y (hl y hy) (huv.trans hv)
  refine { h with
    keys := ?_
    storedUids := hnew b.stored h.stored h.storedUids
    arrivedUids := hnew b.arrived (fun _ hy => hy) h.arrivedUids
    stored := ?_, inserted := ?_, kept := ?_ }
  · intro y hy z hz hyz
    rw [taken_arrive] at hy hz
    rcases List.mem_append.mp hy with hy | hy <;> rcases List.mem_append.mp hz with hz | hz
    · exact h.keys y hy z hz hyz
    · rw [List.mem_singleton.mp hz] at hyz
      exact absurd hyz (hx.key y hy)
    · rw [List.mem_singleton.mp hy] at hyz
      exact absurd hyz.symm (hx.key z hz)
    · rw [List.mem_singleton.mp hy, List.mem_singleton.mp hz]
  · intro y hy
    rcases List.mem_append.mp hy with hy | hy
    · exact List.mem_append_left _ (h.stored y hy)
    · exact List.mem_append_right _ hy
  · exact fun y hy => List.mem_append_left _ (h.inserted y hy)
  · intro y hy
    rcases List.mem_append.mp hy with hy | hy
    · exact (h.kept y hy).imp_left fun hs => List.mem_append_left _ hs
    · exact Or.inl (List.mem_append_right _ hy)

/-- A phase that arrivals leave is kept by the modem's own steps. -/
theorem arrives_of_arrive {A : Box C → Prop} (h : ∀ b x, A b → F.CanArrive b x → A (b.arrive x))
    (b b' : Box C) (hb : A b) (hs : F.Arrives b b') : A b' := by
  obtain ⟨x, hx, rfl⟩ := hs
  exact h b x hb hx

/-- An SMS that has just arrived has not been inserted. -/
theorem not_inserted_of_canArrive (h : Base F b) {x : Sms C} (hx : F.CanArrive b x) :
    x ∉ b.inserted :=
  fun hin => hx.uid x (h.inserted x hin) rfl

theorem disjoint_arrive (h : Base F b) {x : Sms C} (hx : F.CanArrive b x)
    (hd : b.failed = false → ∀ y ∈ b.inserted, y ∉ b.stored) :
    (b.arrive x).failed = false → ∀ y ∈ (b.arrive x).inserted, y ∉ (b.arrive x).stored := by
  intro hf y hy hs
  rcases List.mem_append.mp hs with hs | hs
  · exact hd hf y hy hs
  · rw [List.mem_singleton.mp hs] at hy
    exact not_inserted_of_canArrive h hx hy

theorem Idle.arrive (h : Idle F b) {x : Sms C} (hx : F.CanArrive b x) : Idle F (b.arrive x) :=
  ⟨h.base.arrive hx, disjoint_arrive h.base hx h.disjoint, h.listsAll, h.listed⟩

theorem Entered.arrive (h : Entered F b) {x : Sms C} (hx : F.CanArrive b x) :
    Entered F (b.arrive x) :=
  ⟨h.base.arrive hx, h.log, fun y hy => List.mem_append_left _ (h.found y hy),
    disjoint_arrive h.base hx h.disjoint⟩

theorem HasListed.arrive (h : HasListed F b) {x : Sms C} (hx : F.CanArrive b x) :
    HasListed F (b.arrive x) :=
  ⟨h.base.arrive hx, h.untouched, h.listsAll,
    fun y hy => List.mem_append_left _ (h.listing y hy), h.uids,
    disjoint_arrive h.base hx h.disjoint⟩

theorem Deleting.arrive {rest : List (Sms C)} (h : Deleting F rest b) {x : Sms C}
    (hx : F.CanArrive b x) : Deleting F rest (b.arrive x) := by
  refine { h with base := h.base.arrive hx, occupied := ?_, disjoint := ?_ }
  · intro y hy
    rw [taken_arrive]
    exact List.mem_append_left _ (h.occupied y hy)
  · intro hf y hy hs
    rcases List.mem_append.mp hs with hs | hs
    · exact h.disjoint hf y hy hs
    · rw [List.mem_singleton.mp hs] at hy
      exact absurd hy (not_inserted_of_canArrive h.base hx)

/-! ## The steps of a call -/

theorem Base.fail (h : Base F b) : Base F b.fail :=
  { h with once := nofun, listsAll := nofun, saved := nofun }

/-- A failure leaves nothing to show but the invariant. -/
theorem Base.idle_of_failed (h : Base F b) (hf : b.failed = true) : Idle F b := by
  have hne (hn : b.failed = false) : False := by
    rw [hf] at hn
    cases hn
  exact ⟨h, fun hn => (hne hn).elim, fun hn => (hne hn).elim, fun hn => (hne hn).elim⟩

theorem Base.idle_fail (h : Base F b) : Idle F b.fail := h.fail.idle_of_failed rfl

theorem Idle.enter (h : Idle F b) : Entered F b.enter := by
  have hlogs {l : CallLog C} (hl : l ∈ b.past ++ [b.log]) : l ∈ b.log :: b.past := by
    rcases List.mem_append.mp hl with hl | hl
    · exact List.mem_cons_of_mem _ hl
    · rw [List.mem_singleton.mp hl]
      exact List.mem_cons_self
  refine ⟨{ h.base with rejectedKeeps := ?_, listsAll := ?_, saved := ?_ }, rfl, fun _ hx => hx,
    h.disjoint⟩
  · intro l hl hr
    rcases List.mem_cons.mp hl with rfl | hl
    · cases hr
    · exact h.base.rejectedKeeps l (hlogs hl) hr
  · intro hf l hl
    rcases List.mem_append.mp hl with hl | hl
    · exact h.base.listsAll hf l hl
    · rw [List.mem_singleton.mp hl]
      exact h.listsAll hf
  · intro hf l hl
    rcases List.mem_append.mp hl with hl | hl
    · exact h.base.saved hf l hl
    · rw [List.mem_singleton.mp hl]
      exact h.listed hf

theorem Entered.list (h : Entered F b) {l : List (Sms C)} (hl : l.Subperm b.stored)
    {clipped : Bool} (hall : clipped = false → ∀ x ∈ b.stored, x ∈ l) :
    HasListed F (b.list l clipped) := by
  have hlog : (b.list l clipped).log = ⟨b.log.found, l, clipped, false, 0⟩ := by
    show (⟨b.log.found, l, clipped, b.log.rejected, b.log.deletes⟩ : CallLog C) = _
    rw [h.log]
    rfl
  obtain ⟨l', hperm, hsub⟩ := hl
  refine ⟨{ h.base with rejectedKeeps := ?_ }, ?_, ?_, ?_, ?_, h.disjoint⟩
  · intro l' hl' hr
    rcases List.mem_cons.mp hl' with rfl | hl'
    · rw [hlog]
    · exact h.base.rejectedKeeps l' (List.mem_cons_of_mem _ hl') hr
  · rw [hlog]
    exact ⟨rfl, rfl⟩
  · exact fun hclipped x hx => hall hclipped x (h.found x hx)
  · exact fun x hx => hsub.subset (hperm.mem_iff.mpr hx)
  · exact (hperm.map (·.uid)).nodup_iff.mp (h.base.storedUids.sublist (hsub.map _))

/-- A call whose listing is empty has nothing to save. -/
theorem HasListed.idle_nil (h : HasListed F b) (hnil : b.log.listing = []) : Idle F b :=
  ⟨h.base, h.disjoint, fun _ => h.listsAll, fun _ x hx => by rw [hnil] at hx; cases hx⟩

theorem HasListed.reject (h : HasListed F b) : Idle F b.reject := by
  refine ⟨{ h.base.fail with rejectedKeeps := ?_, listsAll := nofun }, nofun, nofun, nofun⟩
  intro l hl hr
  rcases List.mem_cons.mp hl with rfl | hl
  · exact h.untouched.2
  · exact h.base.rejectedKeeps l (List.mem_cons_of_mem _ hl) hr

theorem inserted_commit (receivedAt : JsString) (rows : List Row) :
    (b.commit receivedAt rows).inserted = b.inserted ++ b.log.listing := by
  simp [Box.inserted, Box.commit]

theorem HasListed.commit (h : HasListed F b) (receivedAt : JsString) : Deleting F b.log.listing
    (b.commit receivedAt (b.log.listing.map fun x => F.row receivedAt x.content)) := by
  have hin := inserted_commit (b := b) receivedAt
    (b.log.listing.map fun x => F.row receivedAt x.content)
  have harrived : ∀ x ∈ b.log.listing, x ∈ b.arrived := fun x hx => h.base.stored x (h.listing x hx)
  refine ⟨{ h.base with inserted := ?_, rows := ?_, kept := ?_, once := ?_, saved := ?_ },
    h.untouched.1, h.listsAll, ?_, fun x hx => hx, ?_, ?_⟩
  · intro x hx
    rw [hin] at hx
    exact (List.mem_append.mp hx).elim (h.base.inserted x) (harrived x)
  · intro c hc
    rcases List.mem_append.mp hc with hc | hc
    · exact h.base.rows c hc
    · rw [List.mem_singleton.mp hc]
  · intro x hx
    rw [hin]
    exact (h.base.kept x hx).imp_right fun hx => List.mem_append_left _ hx
  · intro hf
    rw [hin, List.map_append, List.nodup_append]
    refine ⟨h.base.once hf, h.uids, ?_⟩
    intro u hu v hv huv
    obtain ⟨x, hx, rfl⟩ := List.mem_map.mp hu
    obtain ⟨y, hy, rfl⟩ := List.mem_map.mp hv
    have hxy := eq_of_uid h.base.arrivedUids (h.base.inserted x hx) (harrived y hy) huv
    subst hxy
    exact h.disjoint hf x hx (h.listing x hy)
  · intro hf l hl x hx
    rw [hin]
    exact List.mem_append_left _ (h.base.saved hf l hl x hx)
  · intro x hx
    rw [hin]
    exact List.mem_append_right _ hx
  · exact fun x hx => h.base.stored_taken (h.listing x hx)
  · intro hf x hx hs
    rw [hin] at hx
    rcases List.mem_append.mp hx with hx | hx
    · exact absurd hs (h.disjoint hf x hx)
    · exact hx

/-- Whatever a delete of saved keys takes with it, the invariant stays. -/
theorem Deleting.base_delete {rest : List (Sms C)} (h : Deleting F rest b) {gone : Sms C → Bool}
    (hgone : ∀ x ∈ b.stored, gone x = true → ∃ y ∈ rest, F.key x.content = F.key y.content) :
    Base F (b.delete gone) := by
  have hlisted : ∀ x ∈ b.stored, gone x = true → x ∈ b.log.listing := by
    intro x hx hg
    obtain ⟨y, hy, hkey⟩ := hgone x hx hg
    rw [h.base.keys x (h.base.stored_taken hx) y (h.occupied y hy) hkey]
    exact h.listed y hy
  have hsub : ∀ x ∈ F.taken (b.delete gone), x ∈ F.taken b := by
    intro x hx
    cases hF : F.freshKeys
    · simp only [Format.taken, hF, Bool.false_eq_true, if_false] at hx ⊢
      exact List.mem_of_mem_filter hx
    · simp only [Format.taken, hF, if_true] at hx ⊢
      exact hx
  refine { h.base with
    keys := fun x hx y hy => h.base.keys x (hsub x hx) y (hsub y hy)
    storedUids := ?_, stored := ?_, kept := ?_, rejectedKeeps := ?_, ownListing := ?_ }
  · exact h.base.storedUids.sublist (List.filter_sublist.map _)
  · exact fun x hx => h.base.stored x (List.mem_of_mem_filter hx)
  · intro x hx
    rcases h.base.kept x hx with hs | hin
    · cases hg : gone x
      · exact Or.inl (List.mem_filter.mpr ⟨hs, by simp [hg]⟩)
      · exact Or.inr (h.committed x (hlisted x hs hg))
    · exact Or.inr hin
  · intro l hl hr
    rcases List.mem_cons.mp hl with rfl | hl
    · exact (Bool.false_ne_true (h.accepted.symm.trans hr)).elim
    · exact h.base.rejectedKeeps l (List.mem_cons_of_mem _ hl) hr
  · intro p hp
    rcases List.mem_append.mp hp with hp | hp
    · exact h.base.ownListing p hp
    · obtain ⟨x, hx, rfl⟩ := List.mem_map.mp hp
      obtain ⟨hs, hg⟩ := List.mem_filter.mp hx
      exact hlisted x hs hg

/-- A delete that worked leaves the rest of what there is to delete. -/
theorem Deleting.delete {rest rest' : List (Sms C)} (h : Deleting F rest b) {gone : Sms C → Bool}
    (hgone : ∀ x ∈ b.stored, gone x = true → ∃ y ∈ rest, F.key x.content = F.key y.content)
    (hrest : ∀ x ∈ rest', x ∈ rest) (htaken : ∀ x ∈ rest', x ∈ F.taken (b.delete gone))
    (hleft : b.failed = false → ∀ x ∈ rest, gone x = false → x ∈ rest') :
    Deleting F rest' (b.delete gone) := by
  refine ⟨h.base_delete hgone, h.accepted, h.listsAll, h.committed, fun x hx => h.listed x (hrest x hx),
    htaken, ?_⟩
  intro hf x hx hs
  obtain ⟨hs, hg⟩ := List.mem_filter.mp hs
  exact hleft hf x (h.disjoint hf x hx hs) (by simpa using hg)

/-- A call that has nothing left to delete is done. -/
theorem Deleting.idle (h : Deleting F [] b) : Idle F b :=
  ⟨h.base, fun hf x hx hs => List.not_mem_nil (h.disjoint hf x hx hs), fun _ => h.listsAll,
    fun _ => h.committed⟩

theorem Deleting.fail {rest : List (Sms C)} (h : Deleting F rest b) : Deleting F rest b.fail :=
  { h with base := h.base.fail, disjoint := nofun, occupied := h.occupied }

end

end SmsGateway.Inbox
