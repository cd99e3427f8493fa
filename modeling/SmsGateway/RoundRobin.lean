import SmsGateway.Pool
import SmsGateway.Lib.Rotation

/-!
# The pool over time

Runs of `pick` calls and connection changes over the pool, and how often a window of
picks comes to each modem. `rr` counts exactly, as a JavaScript number does below 2^53.
-/

namespace SmsGateway.RoundRobin

open SmsGateway Pool
open Lib.Rotation

/-- The keys of `modems`: at least one, and a `Map` has each of them once. -/
structure Fleet where
  ids : List JsString
  nonempty : ids ≠ []
  distinct : ids.Nodup

/-- The pool of a fresh process; `up` is what each modem reports. -/
def Fleet.opened (f : Fleet) (up : JsString → Bool) : ModemPool :=
  { modems := f.ids.map fun id => ⟨id, up id⟩
    rr := 0
    nonempty := by simpa using f.nonempty }

inductive Event where
  | pick
  | connection (id : JsString) (up : Bool)
  deriving DecidableEq, Repr

def step (p : ModemPool) : Event → ModemPool
  | .pick => (Pool.pick p).2
  | .connection id up => setConnected p id up

def play (p : ModemPool) (es : List Event) : ModemPool := es.foldl step p

/-- What the `pick` calls of a run return. -/
def picked : ModemPool → List Event → List Modem
  | _, [] => []
  | p, .pick :: es => (Pool.pick p).1 :: picked (step p .pick) es
  | p, .connection id up :: es => picked (step p (.connection id up)) es

/-- The candidates of each `pick` call of a run. -/
def offered : ModemPool → List Event → List (List Modem)
  | _, [] => []
  | p, .pick :: es => candidates p :: offered (step p .pick) es
  | p, .connection id up :: es => offered (step p (.connection id up)) es

/-! ## What stays -/

abbrev ids (ms : List Modem) : List JsString := ms.map (·.id)

theorem ids_opened (f : Fleet) (up : JsString → Bool) : ids (f.opened up).modems = f.ids := by
  simp [ids, Fleet.opened, Function.comp_def]

theorem ids_step (p : ModemPool) (e : Event) : ids (step p e).modems = ids p.modems := by
  cases e with
  | pick => rfl
  | connection id up =>
      simp only [ids, step, setConnected, List.map_map]
      apply List.map_congr_left
      intro m _
      dsimp only [Function.comp_apply]
      split <;> rfl

theorem ids_play (p : ModemPool) (es : List Event) : ids (play p es).modems = ids p.modems := by
  induction es generalizing p with
  | nil => rfl
  | cons e es ih => exact (ih (step p e)).trans (ids_step p e)

theorem candidates_sublist (p : ModemPool) : (candidates p).Sublist p.modems := by
  unfold candidates
  dsimp only
  split
  · exact List.filter_sublist
  · exact List.Sublist.refl _

theorem pick_connected {p : ModemPool} (h : ∃ m ∈ p.modems, m.connected = true) :
    (Pool.pick p).1.connected = true := by
  obtain ⟨m, hm, hup⟩ := h
  have hmem : m ∈ p.modems.filter (·.connected) := List.mem_filter.mpr ⟨hm, hup⟩
  have hcand : candidates p = p.modems.filter (·.connected) := by
    unfold candidates
    rw [if_pos (List.length_pos_of_mem hmem)]
  have hpick : (Pool.pick p).1 ∈ candidates p := List.get_mem _ _
  rw [hcand] at hpick
  exact (List.mem_filter.mp hpick).2

/-! ## A window of picks -/

theorem pick_turn (p : ModemPool) :
    (ids (candidates p))[p.rr % (ids (candidates p)).length]? = some (Pool.pick p).1.id := by
  have hlt := pick_lt p
  simp [ids, Pool.pick, List.getElem?_eq_getElem hlt]

/-- While the candidates stay, the picks take turns. -/
theorem picked_turns {p : ModemPool} {es : List Event} {l : List JsString}
    (h : ∀ ms ∈ offered p es, ids ms = l) :
    ids (picked p es) = turns l p.rr (picked p es).length := by
  induction es generalizing p with
  | nil => rfl
  | cons e es ih =>
      cases e with
      | pick =>
          have hnow : ids (candidates p) = l := h _ List.mem_cons_self
          have hrest := ih (p := step p .pick) fun ms hms => h ms (List.mem_cons_of_mem _ hms)
          have hturn := pick_turn p
          rw [hnow] at hturn
          simp only [picked, List.length_cons, ids, List.map_cons]
          rw [turns_succ hturn]
          exact congrArg ((Pool.pick p).1.id :: ·) hrest
      | connection id up => exact ih h

theorem offered_length (p : ModemPool) (es : List Event) :
    (offered p es).length = (picked p es).length := by
  induction es generalizing p with
  | nil => rfl
  | cons e es ih =>
      cases e with
      | pick => exact congrArg (· + 1) (ih _)
      | connection id up => exact ih _

theorem offered_sublist {p : ModemPool} {es : List Event} :
    ∀ ms ∈ offered p es, (ids ms).Sublist (ids p.modems) := by
  induction es generalizing p with
  | nil => exact fun ms hms => absurd hms List.not_mem_nil
  | cons e es ih =>
      intro ms hms
      rw [← ids_step p e]
      cases e with
      | pick =>
          rcases List.mem_cons.mp hms with rfl | hms
          · exact (candidates_sublist p).map (·.id)
          · exact ih ms hms
      | connection id up => exact ih ms hms

/-- In every window of picks with the candidates `C`, each of them is picked equally often. -/
theorem window_fair {p : ModemPool} {es : List Event} {C : Finset JsString}
    (hnd : (ids p.modems).Nodup) (h : ∀ ms ∈ offered p es, ∀ id, id ∈ ids ms ↔ id ∈ C)
    {id : JsString} (hid : id ∈ C) :
    (ids (picked p es)).count id = (picked p es).length / C.card ∨
      (ids (picked p es)).count id = (picked p es).length ⌈/⌉ C.card := by
  cases hoff : offered p es with
  | nil =>
      have hlen := offered_length p es
      rw [hoff] at hlen
      have hnil : picked p es = [] := List.eq_nil_of_length_eq_zero hlen.symm
      simp [hnil, ids]
  | cons ms rest =>
      have hms : ms ∈ offered p es := by simp [hoff]
      have hsub := offered_sublist ms hms
      have hsame : ∀ ms' ∈ offered p es, ids ms' = ids ms := by
        intro ms' hms'
        apply sublist_ext hnd (offered_sublist ms' hms') hsub
        intro a
        rw [h ms' hms', h ms hms]
      have hcard : C.card = (ids ms).length := by
        rw [← List.toFinset_card_of_nodup (hnd.sublist hsub)]
        congr 1
        ext a
        rw [List.mem_toFinset, h ms hms]
      rw [picked_turns hsame, hcard]
      exact turns_fair (hnd.sublist hsub) ((h ms hms id).mpr hid) _ _

/-- Whatever happened before: `pick` returns a modem of the pool, a connected one if there is
one, and a window of picks with the same candidates comes to each of them equally often. -/
theorem pick_fair (f : Fleet) (up : JsString → Bool) (before window : List Event) :
    let p := play (f.opened up) before
    ((Pool.pick p).1 ∈ p.modems ∧ (Pool.pick p).1.id ∈ f.ids) ∧
      ((∃ m ∈ p.modems, m.connected = true) → (Pool.pick p).1.connected = true) ∧
      ∀ C : Finset JsString, (∀ ms ∈ offered p window, ∀ id, id ∈ ids ms ↔ id ∈ C) →
        ∀ id ∈ C,
          (ids (picked p window)).count id = (picked p window).length / C.card ∨
            (ids (picked p window)).count id = (picked p window).length ⌈/⌉ C.card := by
  intro p
  have hids : ids p.modems = f.ids := (ids_play _ before).trans (ids_opened f up)
  refine ⟨⟨pick_mem p, ?_⟩, pick_connected, ?_⟩
  · rw [← hids]
    exact List.mem_map_of_mem (pick_mem p)
  · intro C hC id hid
    exact window_fair (hids ▸ f.distinct) hC hid

def trio : Fleet := ⟨[js "a", js "b", js "c"], by decide, by decide⟩

/-- Two picks, the second modem goes down, and five more picks. -/
theorem pick_fair_trio :
    let p := play (trio.opened fun _ => true) [.pick, .pick, .connection (js "b") false]
    (ids (picked p [.pick, .pick, .pick, .pick, .pick])).count (js "a") = 5 / 2 ∨
      (ids (picked p [.pick, .pick, .pick, .pick, .pick])).count (js "a") = 5 ⌈/⌉ 2 := by
  have hC : ∀ ms ∈ offered (play (trio.opened fun _ => true)
      [.pick, .pick, .connection (js "b") false]) [.pick, .pick, .pick, .pick, .pick],
      ∀ id, id ∈ ids ms ↔ id ∈ ({js "a", js "c"} : Finset JsString) := by
    intro ms hms id
    have hids : ids ms = [js "a", js "c"] := by
      revert ms
      decide
    rw [hids]
    simp
  exact (pick_fair trio (fun _ => true) [.pick, .pick, .connection (js "b") false]
    [.pick, .pick, .pick, .pick, .pick]).2.2 _ hC (js "a") (by simp)

end SmsGateway.RoundRobin
