/-!
# Settings of the rules

The size of an attack penalty and the tag that marks who applied a status are chosen once for a
whole duel.
-/

set_option autoImplicit false

namespace CardDuel

/-- The size of the penalty that an attack-down status brings, and the tag behind a unit that is
recorded as the source of a status. -/
structure Settings where
  attackPenalty : UInt32 := 1
  sourceTag : String := "[V2]"
  deriving DecidableEq, Repr

/-- The source that is recorded for a status applied by a unit of a given name. -/
def Settings.sourceLabel (s : Settings) (name : String) : String :=
  if s.sourceTag.isEmpty then name else name ++ " " ++ s.sourceTag

end CardDuel
