import CardDuel.Action
import CardDuel.Decimal.Shortest
import CardDuel.Event
import CardDuel.Lane

/-!
# Issues

An issue is a problem at a place of a card.  Places and problems are data; `Place.path`,
`Problem.message` and `Issue.text` give them words.  The problem alone decides whether the issue is
an error, which rejects a card list, or a warning.
-/

set_option autoImplicit false

namespace CardDuel

/-! ## Places -/

/-- A part of an action. -/
inductive ActionPart where
  | target
  | amount
  | turns
  | statuses
  deriving DecidableEq, Repr

/-- A part of a trigger. -/
inductive TriggerPart where
  | actions
  | conditions
  | action (index : Nat) (part : ActionPart)
  deriving DecidableEq, Repr

/-- A part of a special. -/
inductive SpecialPart where
  | whole
  | amount
  | chance (status : Status)
  deriving DecidableEq, Repr

/-- A part of a card. -/
inductive Place where
  | id
  | name
  | health
  | attack
  | keyword (index : Nat)
  | triggers
  | special (index : Nat) (part : SpecialPart)
  | trigger (index : Nat) (part : TriggerPart)
  deriving DecidableEq, Repr

/-- The last step of the path to a part of an action. -/
def ActionPart.path : ActionPart → String
  | .target => "target"
  | .amount => "amount"
  | .turns => "turns"
  | .statuses => "statuses"

/-- The path within a trigger. -/
def TriggerPart.path : TriggerPart → String
  | .actions => "actions"
  | .conditions => "requires"
  | .action j part => s!"actions[{j}]." ++ part.path

/-- The path within a special; the special itself is at its end. -/
def SpecialPart.path : SpecialPart → String
  | .whole => ""
  | .amount => ".amount"
  | .chance .stun => ".stun"
  | .chance .exposed => ".exposed"
  | .chance .attackDown => ".atkDown"

/-- The path within a card, such as `triggers[0].actions[1].amount`. -/
def Place.path : Place → String
  | .id => "id"
  | .name => "name"
  | .health => "stats.health"
  | .attack => "stats.attack"
  | .keyword i => s!"keywords[{i}]"
  | .triggers => "triggers"
  | .special i part => s!"specials[{i}]" ++ part.path
  | .trigger i part => s!"triggers[{i}]." ++ part.path

/-! ## Problems -/

/-- An error rejects the card list; a warning is reported and tolerated. -/
inductive Severity where
  | error
  | warning
  deriving DecidableEq, Repr

inductive Problem where
  | duplicateId (first : Nat)
  | missingId
  | missingName
  | notPositive
  | negative
  | zero
  | duplicateKeyword (keyword : String)
  | secondTaunt
  | tauntWithoutUnit
  | tauntInLane (lane : Lane)
  | secondResistance
  | chanceOutOfRange (chance : Float)
  | triggersNeverFire
  | noAction
  | conditionsOutsideCombat (event : Event)
  | hitTargetOutsideCombat
  | leaderWithoutHeal (kind : ActionKind)
  | emptyStatusList
  deriving DecidableEq, Repr

namespace Problem

/-- How serious a problem is. -/
def severity : Problem → Severity
  | .duplicateKeyword _ | .triggersNeverFire | .emptyStatusList => .warning
  | _ => .error

/-- The description of a problem. -/
def message : Problem → String
  | .duplicateId first => s!"duplicate card id (first defined at index {first})"
  | .missingId => "card id is required"
  | .missingName => "card name is required"
  | .notPositive => "must be a positive integer"
  | .negative => "must be a non-negative integer"
  | .zero => "must be a non-zero integer"
  | .duplicateKeyword keyword => "duplicate keyword '" ++ keyword ++ "'"
  | .secondTaunt => "at most one taunt special per card"
  | .tauntWithoutUnit => "taunt requires a unit card"
  | .tauntInLane lane => "taunt requires lane front (found " ++ lane.spelling ++ ")"
  | .secondResistance => "at most one resistance special per card"
  | .chanceOutOfRange chance =>
    "resistance must be within 0..1 (got " ++ Decimal.text chance ++ ")"
  | .triggersNeverFire => "triggers on a non-unit card never fire"
  | .noAction => "trigger must declare at least one action"
  | .conditionsOutsideCombat event =>
    "conditions are only allowed on combat triggers (on_hit, on_kill, after_combat_survived), " ++
      "found " ++ event.spelling
  | .hitTargetOutsideCombat => "hit_target is only valid in combat triggers"
  | .leaderWithoutHeal kind => "leader is only valid for heal, not " ++ kind.spelling
  | .emptyStatusList => "empty status list cleanses every status; omit it instead"

end Problem

/-! ## Issues -/

/-- A problem of a card, which is named by its id, blank if that is what is wrong with it. -/
structure Issue where
  cardId : String
  place : Place
  problem : Problem
  deriving DecidableEq, Repr

namespace Issue

/-- How serious an issue is. -/
def severity (i : Issue) : Severity := i.problem.severity

/-- Whether the issue rejects the card list. -/
def isError (i : Issue) : Bool := i.severity == .error

/-- The line that reports an issue. -/
def text (i : Issue) : String :=
  "[" ++ i.cardId ++ "] " ++ i.place.path ++ ": " ++ i.problem.message

end Issue

end CardDuel
