import CardDuel.BoardUnit
import CardDuel.Catalog
import CardDuel.Dice.Basic
import CardDuel.Word

/-!
# The sandbox

The sandbox is a complete small match: units on a board, two leaders with their shares, decks and
hands, the dice, the turn and the log.  It is the reference for what a host does with the requests
of the rules.

The sandbox remembers, beside each unit, the resistance of its card and who applied the statuses
that are recorded on it.  Both are kept under the unit's id and outlive a unit that is put in its
place.

Principal statements: `holdings_setHoldings`, `setHoldings_holdings` (the two sides are apart),
`unit?_put`, `unit?_put_self`, `unit?_place` (where a new unit goes).
-/

set_option autoImplicit false

namespace CardDuel

/-- What a side has outside of the board; the deck is the draw pile, top first. -/
structure Holdings where
  leader : Int32
  leaderMax : Int32
  shares : UInt32 := 0
  deck : List String := []
  hand : List String := []
  deriving DecidableEq, Repr

/-- A status of a unit. -/
structure Mark where
  unit : UnitId
  status : Status
  deriving DecidableEq, Repr

namespace Mark

instance : Ord Mark := ⟨compareLex (compareOn unit) (compareOn status)⟩

instance : Std.TransOrd Mark :=
  inferInstanceAs (Std.TransCmp (compareLex (compareOn unit) (compareOn status)))

instance : Std.LawfulEqOrd Mark where
  eq_of_compare {a b} h := by
    have h' : (compareOn unit a b).then (compareOn status a b) = .eq := h
    rw [Ordering.then_eq_eq] at h'
    cases a; cases b
    exact congr (congrArg Mark.mk (Std.LawfulEqOrd.eq_of_compare h'.1))
      (Std.LawfulEqOrd.eq_of_compare h'.2)

end Mark

/-- How a match is set up: the seed of the dice, and the health of both leaders, at the start and at
most. -/
structure Setup where
  seed : UInt64 := 0
  leaderHealth : Int32 := 20
  deriving DecidableEq, Repr

/-- A match.  A source is who applied a status that is recorded on a unit; the log is oldest first.
-/
structure Sandbox where
  units : Std.ExtTreeMap UnitId BoardUnit := ∅
  resistances : Std.ExtTreeMap UnitId Resistance := ∅
  sources : Std.ExtTreeMap Mark String := ∅
  player : Holdings
  enemy : Holdings
  dice : Dice
  nextUnit : UInt32 := 1
  turn : UInt32 := 1
  log : List String := []

namespace Sandbox

/-- An empty board at turn 1. -/
def start (setup : Setup) : Sandbox :=
  let holdings : Holdings := { leader := setup.leaderHealth, leaderMax := setup.leaderHealth }
  { player := holdings, enemy := holdings, dice := { seed := setup.seed } }

/-! ## Sides -/

/-- What a side has. -/
def holdings (s : Sandbox) : Side → Holdings
  | .player => s.player
  | .enemy => s.enemy

/-- Gives a side other holdings. -/
def setHoldings (s : Sandbox) (side : Side) (h : Holdings) : Sandbox :=
  match side with
  | .player => { s with player := h }
  | .enemy => { s with enemy := h }

@[simp]
theorem holdings_setHoldings (s : Sandbox) (side side' : Side) (h : Holdings) :
    (s.setHoldings side h).holdings side' = if side = side' then h else s.holdings side' := by
  cases side <;> cases side' <;> rfl

@[simp]
theorem setHoldings_holdings (s : Sandbox) (side : Side) :
    s.setHoldings side (s.holdings side) = s := by
  cases side <;> rfl

/-- Replaces the draw pile of a side. -/
def setDeck (s : Sandbox) (side : Side) (cards : List String) : Sandbox :=
  s.setHoldings side { s.holdings side with deck := cards }

/-- Sets the health of a leader, at most to its maximum. -/
def setLeader (s : Sandbox) (side : Side) (health : Int32) : Sandbox :=
  let h := s.holdings side
  s.setHoldings side { h with leader := min health h.leaderMax }

/-! ## Board -/

/-- The unit with an id. -/
def unit? (s : Sandbox) (id : UnitId) : Option BoardUnit := s.units[id]?

/-- The units from the lowest id to the highest. -/
def board (s : Sandbox) : List BoardUnit := s.units.toList.map (·.2)

/-- Puts a unit under an id, in the place of the one that was there. -/
def put (s : Sandbox) (id : UnitId) (u : BoardUnit) : Sandbox :=
  { s with units := s.units.insert id u }

/-- Changes the unit with an id, if there is one. -/
def edit (s : Sandbox) (id : UnitId) (f : BoardUnit → BoardUnit) : Sandbox :=
  match s.unit? id with
  | some u => s.put id (f u)
  | none => s

/-- Puts a prepared unit on the board.  New units get ids above it, as long as there are any. -/
def place (s : Sandbox) (u : BoardUnit) : Sandbox :=
  { s.put u.id u with nextUnit := max s.nextUnit (Word.add u.id.raw 1) }

/-- The unit that a unit card puts on the board. -/
def summoned (card : Card) (lane : Lane) (stats : Stats) (side : Side) (id : UnitId) : BoardUnit :=
  { BoardUnit.fresh id card.id card.name side lane stats.attack stats.health with
    shield := card.summonShield }

/-- Puts a fresh unit of a card on the board and returns its id; nothing happens if the catalog has
no unit card under the given id. -/
def summon (s : Sandbox) (catalog : Catalog) (cardId : String) (side : Side) :
    Option UnitId × Sandbox :=
  match catalog.getUnit? cardId with
  | none => (none, s)
  | some card => match card.kind with
    | .nonUnit => (none, s)
    | .unit lane stats =>
      let id : UnitId := ⟨s.nextUnit⟩
      (some id,
        { s.put id (summoned card lane stats side id) with
          nextUnit := Word.add s.nextUnit 1
          resistances := s.resistances.insert id card.resistance })

/-- Moves to the next turn. -/
def advance (s : Sandbox) : Sandbox := { s with turn := Word.add s.turn 1 }

/-- Who applied a status that is recorded on a unit. -/
def statusSource? (s : Sandbox) (id : UnitId) (status : Status) : Option String :=
  s.sources[(⟨id, status⟩ : Mark)]?

/-- The recorded sources of the statuses of the units on the board, by unit and status. -/
def recordedSources (s : Sandbox) : List (Mark × String) :=
  s.sources.toList.filter fun p => (s.unit? p.1.unit).isSome

@[simp]
theorem unit?_put (s : Sandbox) (id id' : UnitId) (u : BoardUnit) :
    (s.put id u).unit? id' = if id = id' then some u else s.unit? id' := by
  simp [put, unit?, Std.ExtTreeMap.getElem?_insert]

theorem unit?_put_self (s : Sandbox) (id : UnitId) (u : BoardUnit) :
    (s.put id u).unit? id = some u := by
  rw [unit?_put, if_pos rfl]

theorem unit?_place (s : Sandbox) (u : BoardUnit) (id : UnitId) :
    (s.place u).unit? id = if u.id = id then some u else s.unit? id :=
  unit?_put s u.id id u

end Sandbox

end CardDuel
