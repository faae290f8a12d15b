import CardDuel.Status

/-!
# Actions

An action is the smallest effect of a card ability.  Amounts are signed although most must be
positive: card files are not trusted, and validation has to see a `-1` to refuse it.

Principal statements: `Target.ofSpelling?_spelling`, `ActionKind.ofSpelling?_spelling`, targets and
kinds are known by their names.
-/

set_option autoImplicit false

namespace CardDuel

/-- Whom an action applies to: the unit that owns the ability, its opponent in the current combat,
the leader of its side, which only a heal can reach, or a unit of its side that is chosen by what
the action needs. -/
inductive Target where
  | self
  | hitTarget
  | leader
  | ally
  deriving DecidableEq, Repr

namespace Target

def all : List Target := [.self, .hitTarget, .leader, .ally]

/-- The name of a target in card files and reports. -/
def spelling : Target → String
  | .self => "self"
  | .hitTarget => "hit_target"
  | .leader => "leader"
  | .ally => "ally"

/-- The target with a given name. -/
def ofSpelling? (s : String) : Option Target := all.find? fun x => x.spelling == s

theorem ofSpelling?_spelling (t : Target) : ofSpelling? t.spelling = some t := by
  cases t <;> decide

end Target

/-- What an action does, without its details. -/
inductive ActionKind where
  | gainShield
  | heal
  | gainShares
  | modifyAttack
  | cleanse
  | applyStatus
  | drawCard
  deriving DecidableEq, Repr

namespace ActionKind

def all : List ActionKind :=
  [.gainShield, .heal, .gainShares, .modifyAttack, .cleanse, .applyStatus, .drawCard]

/-- The name of a kind in card files and reports. -/
def spelling : ActionKind → String
  | .gainShield => "gain_shield"
  | .heal => "heal"
  | .gainShares => "gain_shares"
  | .modifyAttack => "modify_attack"
  | .cleanse => "cleanse"
  | .applyStatus => "apply_status"
  | .drawCard => "draw_card"

/-- The kind with a given name. -/
def ofSpelling? (s : String) : Option ActionKind := all.find? fun x => x.spelling == s

theorem ofSpelling?_spelling (k : ActionKind) : ofSpelling? k.spelling = some k := by
  cases k <;> decide

end ActionKind

/-- An action.  A cleanse removes the listed statuses, or all of them when there is no list or an
empty one; a status is applied for a number of turns, and cards are drawn up to the amount. -/
inductive Action where
  | gainShield (target : Target) (amount : Int32)
  | heal (target : Target) (amount : Int32)
  | gainShares (amount : Int32)
  | modifyAttack (target : Target) (amount : Int32)
  | cleanse (target : Target) (statuses : Option (List Status))
  | applyStatus (target : Target) (status : Status) (turns : Int32)
  | drawCard (amount : Int32)
  deriving DecidableEq, Repr

namespace Action

/-- What the action does. -/
def kind : Action → ActionKind
  | .gainShield .. => .gainShield
  | .heal .. => .heal
  | .gainShares .. => .gainShares
  | .modifyAttack .. => .modifyAttack
  | .cleanse .. => .cleanse
  | .applyStatus .. => .applyStatus
  | .drawCard .. => .drawCard

/-- Whom the action applies to, for actions that take a target. -/
def target? : Action → Option Target
  | .gainShield t _ | .heal t _ | .modifyAttack t _ | .cleanse t _ | .applyStatus t _ _ => some t
  | .gainShares _ | .drawCard _ => none

/-- The statuses that a cleanse asks a unit to show; an empty list asks for nothing. -/
def statusFilter (statuses : Option (List Status)) : List Status := statuses.getD []

/-- The statuses that a cleanse removes. -/
def cleansed (statuses : Option (List Status)) : List Status :=
  match statusFilter statuses with
  | [] => Status.all
  | listed => listed

end Action

end CardDuel
