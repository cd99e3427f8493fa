import SmsGateway.Js

/-!
# The modem pool

`utils/pool.js`: lookup by id and the round-robin choice over the modems that
report a connection.
-/

namespace SmsGateway.Pool

open SmsGateway

structure Modem where
  id : JsString
  connected : Bool
  deriving DecidableEq, Repr

/-- The configured modems, at least one, and the counter `rr`. -/
structure ModemPool where
  modems : List Modem
  rr : Nat
  nonempty : modems ≠ []
  deriving DecidableEq

def get (p : ModemPool) (id : JsString) : Option Modem := p.modems.find? fun m => m.id == id

/-- The connected modems, or the full pool when nothing is up. -/
def candidates (p : ModemPool) : List Modem :=
  let connected := p.modems.filter (·.connected)
  if connected.length > 0 then connected else p.modems

/-- What `isConnected` of one modem reports from now on. -/
def setConnected (p : ModemPool) (id : JsString) (connected : Bool) : ModemPool :=
  { modems := p.modems.map fun m => if m.id = id then { m with connected } else m
    rr := p.rr
    nonempty := by simpa using p.nonempty }

theorem candidates_ne_nil (p : ModemPool) : candidates p ≠ [] := by
  unfold candidates
  dsimp only
  split
  case isTrue h => exact List.ne_nil_of_length_pos h
  case isFalse => exact p.nonempty

theorem candidates_subset (p : ModemPool) : ∀ m ∈ candidates p, m ∈ p.modems := by
  unfold candidates
  dsimp only
  split
  · exact fun m hm => (List.mem_filter.mp hm).1
  · exact fun m hm => hm

theorem pick_lt (p : ModemPool) : p.rr % (candidates p).length < (candidates p).length :=
  Nat.mod_lt _ (List.length_pos_of_ne_nil (candidates_ne_nil p))

/-- `candidates[rr++ % candidates.length]`. -/
def pick (p : ModemPool) : Modem × ModemPool :=
  ((candidates p).get ⟨p.rr % (candidates p).length, pick_lt p⟩, { p with rr := p.rr + 1 })

theorem pick_mem (p : ModemPool) : (pick p).1 ∈ p.modems :=
  candidates_subset p _ (List.get_mem _ _)

end SmsGateway.Pool
