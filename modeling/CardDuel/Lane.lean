/-!
# Lanes

A unit stands in the front or the back lane; a flexible one is declared for both.

Principal statement: `Lane.ofSpelling?_spelling`, a lane is known by its name.
-/

set_option autoImplicit false

namespace CardDuel

inductive Lane where
  | front
  | back
  | both
  deriving DecidableEq, Repr

namespace Lane

/-- Every lane, in the order of declaration. -/
def all : List Lane := [.front, .back, .both]

/-- Whether a unit declared for `lane` can stand in `slot`. -/
def accepts (lane slot : Lane) : Bool :=
  lane == .both || slot == .both || lane == slot

/-- The name of a lane in card files and reports. -/
def spelling : Lane → String
  | .front => "front"
  | .back => "back"
  | .both => "both"

/-- The lane with a given name. -/
def ofSpelling? (s : String) : Option Lane := all.find? fun x => x.spelling == s

theorem ofSpelling?_spelling (l : Lane) : ofSpelling? l.spelling = some l := by
  cases l <;> decide

end Lane

end CardDuel
