import CardDuel.Host.Script
import CardDuel.Sandbox.Basic

/-!
# The sandbox as a host

Each request has an operation of its own, which returns the answer and the sandbox afterwards;
`Sandbox.answer` collects them.

* Units are listed from the lowest id; the lowest health wins, and the lower id among equals.
* Health never goes above its maximum and attack never below zero.
* A status lands unless the unit resists it.  The later of two expiry turns stands, and so does the
  greater of two penalties.
* A cleanse removes what is active at the turn of the sandbox.
-/

set_option autoImplicit false

namespace CardDuel

namespace BoardUnit

/-- Forgets a status. -/
def clear (u : BoardUnit) : Status → BoardUnit
  | .stun => { u with stunUntil := none }
  | .exposed => { u with exposedUntil := none }
  | .attackDown => { u with attackPenalty := 0, attackPenaltyUntil := none }

/-- Removes the listed statuses that are active at a turn, and returns those that were. -/
def cleanse (u : BoardUnit) (turn : UInt32) : List Status → BoardUnit × List Status
  | [] => (u, [])
  | s :: ss =>
    if u.hasStatus s turn then
      let (u, removed) := (u.clear s).cleanse turn ss
      (u, s :: removed)
    else u.cleanse turn ss

/-- The later of a recorded expiry turn and a new one. -/
def later (old : Option UInt32) (new : UInt32) : Option UInt32 :=
  match old with
  | none => some new
  | some turn => some (max turn new)

/-- Records a stun. -/
def stun (u : BoardUnit) (expiry : UInt32) : BoardUnit :=
  { u with stunUntil := later u.stunUntil expiry }

/-- Records exposure. -/
def expose (u : BoardUnit) (expiry : UInt32) : BoardUnit :=
  { u with exposedUntil := later u.exposedUntil expiry }

/-- Records an attack penalty. -/
def penalise (u : BoardUnit) (magnitude expiry : UInt32) : BoardUnit :=
  { u with
    attackPenalty := max u.attackPenalty magnitude
    attackPenaltyUntil := later u.attackPenaltyUntil expiry }

/-- Whether a unit comes first when the lowest health is looked for. -/
def weaker (u v : BoardUnit) : Bool :=
  u.health < v.health || (u.health == v.health && u.id.raw < v.id.raw)

/-- The weakest of some units, the first of them among equals. -/
def weakest? : List BoardUnit → Option BoardUnit
  | [] => none
  | u :: us => match weakest? us with
    | none => some u
    | some v => some (if v.weaker u then v else u)

end BoardUnit

namespace Sandbox

/-! ## Reading and choosing -/

/-- The units of a side, in one lane or in any. -/
def unitIds (s : Sandbox) (side : Side) (lane : Option Lane) : List UnitId :=
  (s.board.filter fun u => u.side == side && lane.all u.lane.accepts).map (·.id)

/-- One of the candidates at random. -/
def pickRandom (s : Sandbox) (candidates : List UnitId) (label : String) :
    Option UnitId × Sandbox :=
  let (id, dice) := s.dice.pick label candidates
  (id, { s with dice })

/-- The candidate with the lowest health. -/
def lowestHealth? (s : Sandbox) (candidates : List UnitId) : Option UnitId :=
  (BoardUnit.weakest? (candidates.filterMap s.unit?)).map (·.id)

/-! ## Changing units -/

/-- Restores health and returns how much. -/
def healUnit (s : Sandbox) (id : UnitId) (amount : UInt32) : UInt32 × Sandbox :=
  match s.unit? id with
  | none => (0, s)
  | some u =>
    let healed := min amount (Word.missing u.health u.maxHealth)
    (healed, s.put id { u with health := u.health + healed.toInt32 })

/-- Adds shield charges. -/
def addShield (s : Sandbox) (id : UnitId) (amount : UInt32) : Sandbox :=
  s.edit id fun u => { u with shield := Word.add u.shield amount }

/-- Changes attack and returns by how much. -/
def modifyAttack (s : Sandbox) (id : UnitId) (delta : Int32) : Int32 × Sandbox :=
  match s.unit? id with
  | none => (0, s)
  | some u =>
    let attack := max (Word.addSigned u.attack delta) 0
    (attack - u.attack, s.put id { u with attack })

/-- Removes the listed statuses that are active, with their sources, and returns how many. -/
def cleanse (s : Sandbox) (id : UnitId) (statuses : List Status) : UInt32 × Sandbox :=
  match s.unit? id with
  | none => (0, s)
  | some u =>
    let (u, removed) := u.cleanse s.turn statuses
    (.ofNat removed.length,
      { s.put id u with
        sources := removed.foldl (fun sources status => sources.erase ⟨id, status⟩) s.sources })

/-! ## Statuses -/

/-- The chance that a unit resists a status. -/
def resistanceAgainst (s : Sandbox) (id : UnitId) (status : Status) : Float :=
  match s.resistances[id]? with
  | none => 0
  | some r => r.against status

/-- The label of a resistance roll. -/
def resistanceLabel (id : UnitId) (status : Status) : String :=
  "resist:" ++ status.spelling ++ ":" ++ toString id.raw.toNat

/-- Whether a status lands on a unit.  Without a chance to resist it does, and nothing is rolled. -/
def lands (s : Sandbox) (id : UnitId) (status : Status) : Bool × Sandbox :=
  let chance := s.resistanceAgainst id status
  if chance ≤ 0.0 then (true, s)
  else match s.dice.roll? (resistanceLabel id status) chance with
    | none => (true, s)
    | some (resisted, dice) => (!resisted, { s with dice })

/-- Records a status on a unit with its source, unless it is resisted or the unit is unknown. -/
def afflict (s : Sandbox) (id : UnitId) (status : Status) (source : String)
    (change : BoardUnit → BoardUnit) : Bool × Sandbox :=
  match s.unit? id with
  | none => (false, s)
  | some u =>
    let (landed, s) := s.lands id status
    if landed then
      (true, { s.put id (change u) with sources := s.sources.insert ⟨id, status⟩ source })
    else (false, s)

/-- Stuns a unit before a turn. -/
def applyStun (s : Sandbox) (id : UnitId) (expiry : UInt32) (source : String) : Bool × Sandbox :=
  s.afflict id .stun source fun u => u.stun expiry

/-- Exposes a unit through a turn. -/
def applyExposed (s : Sandbox) (id : UnitId) (expiry : UInt32) (source : String) :
    Bool × Sandbox :=
  s.afflict id .exposed source fun u => u.expose expiry

/-- Lowers the attack of a unit through a turn. -/
def applyAttackPenalty (s : Sandbox) (id : UnitId) (magnitude expiry : UInt32) (source : String) :
    Bool × Sandbox :=
  s.afflict id .attackDown source fun u => u.penalise magnitude expiry

/-! ## Changing sides -/

/-- Credits a side. -/
def gainShares (s : Sandbox) (side : Side) (amount : UInt32) : Sandbox :=
  let h := s.holdings side
  s.setHoldings side { h with shares := Word.add h.shares amount }

/-- Heals a leader and returns how much was restored. -/
def healLeader (s : Sandbox) (side : Side) (amount : UInt32) : UInt32 × Sandbox :=
  let h := s.holdings side
  let healed := min amount (Word.missing h.leader h.leaderMax)
  (healed, s.setHoldings side { h with leader := h.leader + healed.toInt32 })

/-- Moves the top card of a deck to the hand. -/
def drawCard (s : Sandbox) (side : Side) : Option String × Sandbox :=
  let h := s.holdings side
  match h.deck with
  | [] => (none, s)
  | card :: deck => (some card, s.setHoldings side { h with deck, hand := h.hand ++ [card] })

/-- Appends a line to the log. -/
def addLine (s : Sandbox) (line : String) : Sandbox := { s with log := s.log ++ [line] }

/-! ## Answers -/

/-- The sandbox as a host. -/
def answer : Handler Sandbox
  | .unitIds side lane, s => (s.unitIds side lane, s)
  | .unit id, s => (s.unit? id, s)
  | .pickRandom candidates label, s => s.pickRandom candidates label
  | .pickLowestHealth candidates, s => (s.lowestHealth? candidates, s)
  | .healUnit id amount, s => s.healUnit id amount
  | .addShield id amount, s => ((), s.addShield id amount)
  | .cleanse id statuses, s => s.cleanse id statuses
  | .applyStun id expiry source, s => s.applyStun id expiry source
  | .applyExposed id expiry source, s => s.applyExposed id expiry source
  | .applyAttackPenalty id magnitude expiry source, s =>
    ((), (s.applyAttackPenalty id magnitude expiry source).2)
  | .modifyAttack id delta, s => s.modifyAttack id delta
  | .gainShares side amount, s => ((), s.gainShares side amount)
  | .healLeader side amount, s => s.healLeader side amount
  | .drawCard side, s => s.drawCard side
  | .log line, s => ((), s.addLine line)

end Sandbox

end CardDuel
