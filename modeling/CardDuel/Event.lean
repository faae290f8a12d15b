import CardDuel.UnitId

/-!
# Events and combat outcomes

A card ability waits for one of five events.  Three of them are the phases of a combat, which fire
according to its outcome.

Principal statements: `Event.isCombat_iff`, the events of a combat are its phases, and
`Event.ofSpelling?_spelling`, an event is known by its name.
-/

set_option autoImplicit false

namespace CardDuel

/-- What an ability waits for: the unit enters the board, a turn of its side begins, it strikes an
opposing unit, the strike kills, or it lives through the exchange. -/
inductive Event where
  | summon
  | turnStart
  | hit
  | kill
  | survival
  deriving DecidableEq, Repr

namespace Event

/-- Every event, in the order of declaration. -/
def all : List Event := [.summon, .turnStart, .hit, .kill, .survival]

/-- The phases of a combat, in the order in which it goes through them. -/
def combatPhases : List Event := [.hit, .kill, .survival]

/-- Whether the event happens inside a combat.  Only there may an ability have conditions or name
the hit target. -/
def isCombat : Event → Bool
  | .hit | .kill | .survival => true
  | .summon | .turnStart => false

/-- The name of an event in card files, labels and reports. -/
def spelling : Event → String
  | .summon => "on_summon"
  | .turnStart => "turn_start"
  | .hit => "on_hit"
  | .kill => "on_kill"
  | .survival => "after_combat_survived"

/-- The event with a given name. -/
def ofSpelling? (s : String) : Option Event := all.find? fun x => x.spelling == s

theorem isCombat_iff (e : Event) : e.isCombat = true ↔ e ∈ combatPhases := by
  cases e <;> decide

theorem ofSpelling?_spelling (e : Event) : ofSpelling? e.spelling = some e := by
  cases e <;> decide

end Event

/-- What happened in one exchange, as the acting unit sees it; there is a target if the strike
landed on a unit. -/
structure CombatOutcome where
  target : Option UnitId := none
  targetDied : Bool := false
  sourceDied : Bool := false
  deriving DecidableEq, Repr

namespace CombatOutcome

/-- Whether a phase is reached: a hit always, a kill with a dead target, survival with a living
source. -/
def fires (o : CombatOutcome) : Event → Bool
  | .hit => true
  | .kill => o.targetDied
  | .survival => !o.sourceDied
  | .summon | .turnStart => false

end CombatOutcome

end CardDuel
