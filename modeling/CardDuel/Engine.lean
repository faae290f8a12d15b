import CardDuel.Catalog
import CardDuel.Resolution

/-!
# The engine

The engine holds a catalog and the settings of a duel.  The host tells it about events
(`Engine.onSummon`, `Engine.onTurnStart`, `Engine.onCombat`); it finds the card of the acting unit
and fires the card's triggers for the event in order.  An `Occasion` is one of the three.

The answer to an event is whether the card has a trigger for it, whatever became of the actions.  A
combat goes through its phases in order and skips those that its outcome does not reach.

`Engine.event?` and `Engine.combat?` do the same and return a report on every trigger they come to;
the answers are whether there is a report.
-/

set_option autoImplicit false

namespace CardDuel

/-- The rules of one duel. -/
structure Engine where
  catalog : Catalog
  settings : Settings := {}

/-- The unit that an event is about, the side that it acts for, and the turn. -/
structure Actor where
  side : Side
  unit : UnitId
  turn : UInt32
  deriving DecidableEq, Repr

/-- What became of a trigger: the host no longer knew the acting unit, a condition failed, or the
actions were carried out.  The acting unit and the unit that was hit are those that the host showed
when the trigger was reached. -/
inductive Verdict where
  | unknownSource
  | refused (source : BoardUnit) (hit : Option BoardUnit)
  | fired (source : BoardUnit) (hit : Option BoardUnit) (deeds : List Deed)
  deriving DecidableEq, Repr

/-- What became of a trigger of an event. -/
structure TriggerReport where
  event : Event
  trigger : Trigger
  verdict : Verdict
  deriving DecidableEq, Repr

namespace Engine

open Script (request)

/-- The unit card behind the acting unit. -/
def cardOf (e : Engine) (a : Actor) : Script (Option Card) := do
  let u ← request (.unit a.unit)
  return u.bind fun u => e.catalog.getUnit? u.cardId

/-- The unit that was hit, which is looked at only for the sake of a condition. -/
def hitUnit (t : Trigger) (combat : Option CombatOutcome) : Script (Option BoardUnit) :=
  if t.conditions.isEmpty then return none
  else match combat.bind (·.target) with
    | none => return none
    | some id => request (.unit id)

/-- The firing of a trigger by a unit as the host shows it. -/
def firing (e : Engine) (a : Actor) (card : Card) (event : Event)
    (combat : Option CombatOutcome) (source : BoardUnit) : Firing :=
  { cardId := card.id, event, side := a.side, source := a.unit, sourceName := source.name,
    turn := a.turn, combat, settings := e.settings }

/-- Fires one trigger, unless the host no longer knows the acting unit or a condition fails. -/
def fireTrigger (e : Engine) (a : Actor) (card : Card) (event : Event)
    (combat : Option CombatOutcome) (t : Trigger) : Script Verdict := do
  match ← request (.unit a.unit) with
  | none => return .unknownSource
  | some source =>
    let hit ← hitUnit t combat
    if t.conditions.all (Condition.holds source combat hit) then
      let deeds ← (e.firing a card event combat source).resolveAll {} t.actions
      return .fired source hit deeds
    else return .refused source hit

/-- Fires triggers in order. -/
def fireTriggers (e : Engine) (a : Actor) (card : Card) (event : Event)
    (combat : Option CombatOutcome) : List Trigger → Script (List TriggerReport)
  | [] => return []
  | t :: ts => do
    let verdict ← e.fireTrigger a card event combat t
    let reports ← e.fireTriggers a card event combat ts
    return ⟨event, t, verdict⟩ :: reports

/-- Fires a card's triggers for an event. -/
def fireEvent (e : Engine) (a : Actor) (card : Card) (combat : Option CombatOutcome)
    (event : Event) : Script (List TriggerReport) :=
  e.fireTriggers a card event combat (card.triggersFor event)

/-- Goes through the given phases of a combat. -/
def firePhases (e : Engine) (a : Actor) (card : Card) (outcome : CombatOutcome) :
    List Event → Script (List TriggerReport)
  | [] => return []
  | event :: events =>
    if outcome.fires event then do
      let first ← e.fireEvent a card (some outcome) event
      let others ← e.firePhases a card outcome events
      return first ++ others
    else e.firePhases a card outcome events

/-- Answers an event outside of combat with a report; none if the acting unit's card has no trigger
for the event. -/
def event? (e : Engine) (a : Actor) (event : Event) : Script (Option (List TriggerReport)) := do
  match ← e.cardOf a with
  | none => return none
  | some card =>
    if card.hasTrigger event then return some (← e.fireEvent a card none event)
    else return none

/-- Answers a combat of the unit with a report; none if its card has no trigger for any phase. -/
def combat? (e : Engine) (a : Actor) (outcome : CombatOutcome) :
    Script (Option (List TriggerReport)) := do
  match ← e.cardOf a with
  | none => return none
  | some card =>
    if Event.combatPhases.any card.hasTrigger then
      return some (← e.firePhases a card outcome Event.combatPhases)
    else return none

/-! ## Events -/

/-- Tells the engine that the unit entered the board. -/
def onSummon (e : Engine) (a : Actor) : Script Bool := do
  return (← e.event? a .summon).isSome

/-- Tells the engine that a turn of the unit's side began. -/
def onTurnStart (e : Engine) (a : Actor) : Script Bool := do
  return (← e.event? a .turnStart).isSome

/-- Tells the engine about a combat of the unit. -/
def onCombat (e : Engine) (a : Actor) (outcome : CombatOutcome) : Script Bool := do
  return (← e.combat? a outcome).isSome

end Engine

/-! ## Occasions -/

/-- An event to tell the engine about. -/
inductive Occasion where
  | summon
  | turnStart
  | combat (outcome : CombatOutcome)
  deriving DecidableEq, Repr

/-- What the engine does about an occasion. -/
def Occasion.script (e : Engine) (a : Actor) : Occasion → Script Bool
  | .summon => e.onSummon a
  | .turnStart => e.onTurnStart a
  | .combat outcome => e.onCombat a outcome

end CardDuel
