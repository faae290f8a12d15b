import CardDuel.Action
import CardDuel.Event

/-!
# Triggers

A trigger binds one event to a list of actions, which run in order when all of its conditions hold.
-/

set_option autoImplicit false

namespace CardDuel

/-- A condition on the exchange that an ability fires in: the acting unit is alive and did not die
in it, or the hit target exists, was not killed and is alive. -/
inductive Condition where
  | sourceSurvived
  | targetSurvived
  deriving DecidableEq, Repr

namespace Condition

def all : List Condition := [.sourceSurvived, .targetSurvived]

/-- The name of a condition in card files and reports. -/
def spelling : Condition → String
  | .sourceSurvived => "source_survived"
  | .targetSurvived => "target_survived"

/-- The condition with a given name. -/
def ofSpelling? (s : String) : Option Condition := all.find? fun x => x.spelling == s

theorem ofSpelling?_spelling (c : Condition) : ofSpelling? c.spelling = some c := by
  cases c <;> decide

end Condition

/-- A trigger.  Conditions belong to combat events; the note is a remark of the designer, without
effect. -/
structure Trigger where
  event : Event
  actions : List Action
  conditions : List Condition := []
  note : Option String := none
  deriving DecidableEq, Repr

end CardDuel
