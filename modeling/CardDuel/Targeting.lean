import CardDuel.Firing

/-!
# Targeting

`Firing.target` finds the unit that an action applies to.

* `self` is the acting unit.
* `hit_target` is the opponent of the combat, if the host knows it.
* `leader` is no unit.
* `ally` is the ally in memory while it is alive and, for a cleanse, shows a status that is asked
  for; otherwise one is chosen anew and remembered.

An ally is chosen among the living units of the acting side that the action is of use to
(`Firing.suits`): the damaged one with the lowest health for a heal, else one at random.
-/

set_option autoImplicit false

namespace CardDuel.Firing

open Script (request)

/-- Whether the remembered ally still serves an action. -/
def stillServes (f : Firing) (action : Action) (u : BoardUnit) : Bool :=
  match action with
  | .cleanse _ statuses => u.alive && u.matchesFilter (Action.statusFilter statuses) f.turn
  | _ => u.alive

/-- Whether an action is of use to a living unit of the acting side. -/
def suits (f : Firing) (action : Action) (u : BoardUnit) : Bool :=
  match action with
  | .heal .. => u.damaged
  | .cleanse _ statuses => u.matchesFilter (Action.statusFilter statuses) f.turn
  | .gainShield .. => u.id != f.source
  | _ => true

/-- The ids among which an ally is chosen. -/
def candidates (f : Firing) (action : Action) (units : List BoardUnit) : List UnitId :=
  (units.filter fun u => u.alive && f.suits action u).map (·.id)

/-- The units that the host knows under the given ids. -/
def knownUnits : List UnitId → Script (List BoardUnit)
  | [] => return []
  | id :: ids => do
    let u ← request (.unit id)
    let us ← knownUnits ids
    return u.toList ++ us

/-- Asks the host for one of the candidates; without candidates nothing is asked. -/
def choose (f : Firing) (action : Action) (ids : List UnitId) : Script (Option UnitId) :=
  if ids.isEmpty then return none
  else match action with
    | .heal .. => request (.pickLowestHealth ids)
    | _ => request (.pickRandom ids (f.allyLabel (some action.kind)))

/-- Chooses an ally for an action. -/
def pickAlly (f : Firing) (action : Action) : Script (Option UnitId) := do
  let ids ← request (.unitIds f.side none)
  let units ← knownUnits ids
  f.choose action (f.candidates action units)

/-- The remembered ally, if it still serves the action. -/
def remembered (f : Firing) (memory : Memory) (action : Action) : Script (Option UnitId) :=
  match memory.ally with
  | none => return none
  | some id => do
    let u ← request (.unit id)
    return if u.any (f.stillServes action) then some id else none

/-- The ally that an action applies to, and the memory afterwards. -/
def ally (f : Firing) (memory : Memory) (action : Action) : Script (Option UnitId × Memory) := do
  match ← f.remembered memory action with
  | some id => return (some id, memory)
  | none =>
    match ← f.pickAlly action with
    | some id => return (some id, { ally := some id })
    | none => return (none, memory)

/-- The opponent of the combat, if the host knows it. -/
def opponent (f : Firing) : Script (Option UnitId) :=
  match f.combat.bind (·.target) with
  | none => return none
  | some id => do
    let u ← request (.unit id)
    return if u.isSome then some id else none

/-- The unit that an action applies to, and the memory afterwards. -/
def target (f : Firing) (memory : Memory) (action : Action) : Script (Option UnitId × Memory) :=
  match action.target? with
  | none => return (none, memory)
  | some .self => return (some f.source, memory)
  | some .hitTarget => do return (← f.opponent, memory)
  | some .leader => return (none, memory)
  | some .ally => f.ally memory action

end CardDuel.Firing
