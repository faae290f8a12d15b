import CardDuel.Host.Script
import CardDuel.Settings

/-!
# Firings

A firing is one run of a trigger's actions: whose it is, what set it off and when.  Its actions
share a memory of the ally that was chosen last, so that "heal an ally, then cleanse that ally"
reaches one unit.

The label of a random choice names the card, the event and the kind of choice.
-/

set_option autoImplicit false

namespace CardDuel

/-- What every action of a firing knows: the card that owns the trigger, the event, the acting side,
the acting unit and its name in log lines, the turn and, for a combat event, the combat. -/
structure Firing where
  cardId : String
  event : Event
  side : Side
  source : UnitId
  sourceName : String
  turn : UInt32
  combat : Option CombatOutcome
  settings : Settings
  deriving DecidableEq, Repr

/-- What the actions of one firing remember: the ally that was chosen last. -/
structure Memory where
  ally : Option UnitId := none
  deriving DecidableEq, Repr

namespace Firing

/-- The class of a random choice, as it stands in a label. -/
def choiceClass : Option ActionKind → String
  | some .cleanse => ":cleanse"
  | some .gainShield => ":shield"
  | _ => ""

/-- The label of a random choice of an ally. -/
def allyLabel (f : Firing) (kind : Option ActionKind) : String :=
  f.cardId ++ ":" ++ f.event.spelling ++ choiceClass kind ++ ":ally"

end Firing

end CardDuel
