import CardDuel.Lane
import CardDuel.Side
import CardDuel.Status
import CardDuel.Trigger

/-!
# Units on the board

The host owns the units; the rules read them and ask for changes.  A status lasts until an expiry
turn: a stun ends before that turn, exposure and an attack penalty last through it.

Principal statements: `hasStatus_stun_iff`, `hasStatus_exposed_iff`, `hasStatus_attackDown_iff`
(when a status is active), `Condition.all_holds_congr` (neither order nor repetition of conditions
matters).
-/

set_option autoImplicit false

namespace CardDuel

/-- A unit, with the card that it was summoned from, its name in log lines and the expiry turn of
each status. -/
structure BoardUnit where
  id : UnitId
  cardId : String
  name : String
  side : Side
  lane : Lane
  attack : Int32
  health : Int32
  maxHealth : Int32
  shield : UInt32 := 0
  stunUntil : Option UInt32 := none
  exposedUntil : Option UInt32 := none
  attackPenalty : UInt32 := 0
  attackPenaltyUntil : Option UInt32 := none
  deriving DecidableEq, Repr

namespace BoardUnit

/-- A unit at full health without statuses. -/
def fresh (id : UnitId) (cardId name : String) (side : Side) (lane : Lane)
    (attack health : Int32) : BoardUnit :=
  { id, cardId, name, side, lane, attack, health, maxHealth := health }

/-- Whether the unit is on its feet. -/
def alive (u : BoardUnit) : Bool := 0 < u.health

/-- Whether the unit has lost health. -/
def damaged (u : BoardUnit) : Bool := u.health < u.maxHealth

/-- The expiry turn of a status. -/
def expiry (u : BoardUnit) : Status → Option UInt32
  | .stun => u.stunUntil
  | .exposed => u.exposedUntil
  | .attackDown => u.attackPenaltyUntil

/-- Whether a status is active at a turn. -/
def hasStatus (u : BoardUnit) (s : Status) (turn : UInt32) : Bool :=
  match s with
  | .stun => u.stunUntil.any (turn < ·)
  | .exposed => u.exposedUntil.any (turn ≤ ·)
  | .attackDown => decide (0 < u.attackPenalty) && u.attackPenaltyUntil.any (turn ≤ ·)

/-- Whether a listed status is active at a turn; an empty list asks for nothing. -/
def matchesFilter (u : BoardUnit) (filter : List Status) (turn : UInt32) : Bool :=
  filter.isEmpty || filter.any fun s => u.hasStatus s turn

theorem hasStatus_stun_iff (u : BoardUnit) (t : UInt32) :
    u.hasStatus .stun t = true ↔ ∃ e, u.stunUntil = some e ∧ t < e := by
  simp [hasStatus, Option.any_eq_true]

theorem hasStatus_exposed_iff (u : BoardUnit) (t : UInt32) :
    u.hasStatus .exposed t = true ↔ ∃ e, u.exposedUntil = some e ∧ t ≤ e := by
  simp [hasStatus, Option.any_eq_true]

theorem hasStatus_attackDown_iff (u : BoardUnit) (t : UInt32) :
    u.hasStatus .attackDown t = true ↔
      0 < u.attackPenalty ∧ ∃ e, u.attackPenaltyUntil = some e ∧ t ≤ e := by
  simp [hasStatus, Option.any_eq_true]

end BoardUnit

namespace Condition

/-- Whether a condition holds, for the acting unit, the outcome of the combat if there is one, and
the unit that was hit if it is still there. -/
def holds (source : BoardUnit) (combat : Option CombatOutcome) (hit : Option BoardUnit) :
    Condition → Bool
  | .sourceSurvived => source.alive && combat.all fun o => !o.sourceDied
  | .targetSurvived => combat.any fun o => o.target.isSome && !o.targetDied && hit.any (·.alive)

theorem all_holds_congr {cs cs' : List Condition} (h : ∀ c, c ∈ cs ↔ c ∈ cs')
    (source : BoardUnit) (combat : Option CombatOutcome) (hit : Option BoardUnit) :
    cs.all (holds source combat hit) = cs'.all (holds source combat hit) := by
  rw [Bool.eq_iff_iff]
  simp only [List.all_eq_true, h]

end Condition

end CardDuel
