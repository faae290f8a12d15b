import CardDuel.Targeting
import CardDuel.Word

/-!
# Resolution

`Firing.resolve` carries out one action through the host.  An action whose amount says nothing, that
finds no target, or that changes nothing is skipped without a log line; everything else is logged,
except an attack penalty.

Each action follows one pattern: check the amount, find the target, ask for the change, and report
what the host answered.
-/

set_option autoImplicit false

namespace CardDuel

/-- What became of an action: it changed the match, it ran and nothing changed, or it had no valid
target. -/
inductive Resolution where
  | applied
  | noEffect
  | noTarget
  deriving DecidableEq, Repr

/-- The name of a resolution in reports. -/
def Resolution.spelling : Resolution → String
  | .applied => "applied"
  | .noEffect => "no_effect"
  | .noTarget => "no_target"

namespace Firing

open Script (request)

/-! ## Words of the log -/

/-- A number with its sign. -/
def signed (n : Int32) : String :=
  if 0 ≤ n then "+" ++ toString n.toInt else toString n.toInt

/-- A number and the noun that goes with it. -/
def counted (n : Nat) (one many : String) : String :=
  toString n ++ " " ++ if n = 1 then one else many

/-- How a unit is called in a log line: the acting unit by itself, others by the name that the host
gives them. -/
def nameOf (f : Firing) (id : UnitId) : Script String :=
  if id = f.source then return "itself"
  else do
    let u ← request (.unit id)
    return (u.map (·.name)).getD id.label

/-- Shows a line that begins with the name of the acting unit. -/
def say (f : Firing) (rest : String) : Script Unit :=
  request (.log (f.sourceName ++ " " ++ rest ++ "."))

/-! ## Steps -/

/-- An amount that means something. -/
def positive? (amount : Int32) : Option UInt32 :=
  if 0 < amount then some amount.toUInt32 else none

/-- Goes on with an amount if it is positive. -/
def withPositive (memory : Memory) (amount : Int32)
    (next : UInt32 → Script (Resolution × Memory)) : Script (Resolution × Memory) :=
  match positive? amount with
  | none => return (.noEffect, memory)
  | some n => next n

/-- Goes on with the target of an action if there is one. -/
def withTarget (f : Firing) (memory : Memory) (action : Action)
    (next : UnitId → Script Resolution) : Script (Resolution × Memory) := do
  let (id, memory) ← f.target memory action
  match id with
  | none => return (.noTarget, memory)
  | some id => return (← next id, memory)

/-- Reports a change if there was one. -/
def reportIf (changed : Bool) (report : Script Unit) : Script Resolution :=
  if changed then do
    report
    return .applied
  else return .noEffect

/-! ## Effects -/

/-- Grants shield charges to a unit. -/
def grantShield (f : Firing) (n : UInt32) (id : UnitId) : Script Resolution := do
  request (.addShield id n)
  let name ← f.nameOf id
  f.say ("grants " ++ name ++ " " ++ toString n.toNat ++ " shield")
  return .applied

/-- Heals the leader of the acting side. -/
def healLeader (f : Firing) (n : UInt32) : Script Resolution := do
  let healed ← request (.healLeader f.side n)
  reportIf (healed != 0) <| f.say ("heals the leader for " ++ toString healed.toNat)

/-- Heals a unit. -/
def healUnit (f : Firing) (n : UInt32) (id : UnitId) : Script Resolution := do
  let healed ← request (.healUnit id n)
  reportIf (healed != 0) do
    let name ← f.nameOf id
    f.say ("heals " ++ name ++ " for " ++ toString healed.toNat)

/-- Credits the acting side. -/
def earnShares (f : Firing) (n : UInt32) : Script Resolution := do
  request (.gainShares f.side n)
  f.say ("earns " ++ toString n.toNat ++ " shares")
  return .applied

/-- Changes the attack of a unit. -/
def changeAttack (f : Firing) (delta : Int32) (id : UnitId) : Script Resolution := do
  let applied ← request (.modifyAttack id delta)
  reportIf (applied != 0) do
    let name ← f.nameOf id
    f.say ("gives " ++ name ++ " " ++ signed applied ++ " attack")

/-- Removes statuses from a unit. -/
def cleanseUnit (f : Firing) (statuses : List Status) (id : UnitId) : Script Resolution := do
  let removed ← request (.cleanse id statuses)
  reportIf (removed != 0) do
    let name ← f.nameOf id
    f.say ("cleanses " ++ counted removed.toNat "status" "statuses" ++ " from " ++ name)

/-- The turn at which a status runs out; a count of turns below one adds nothing. -/
def expiry (f : Firing) (turns : Int32) : UInt32 :=
  Word.add f.turn ((positive? turns).getD 0)

/-- Puts a status on a unit.  An attack penalty is not reported. -/
def inflict (f : Firing) (status : Status) (turns : Int32) (id : UnitId) : Script Resolution := do
  let expiry := f.expiry turns
  let source := f.settings.sourceLabel f.sourceName
  match status with
  | .stun =>
    let landed ← request (.applyStun id expiry source)
    reportIf landed do
      let name ← f.nameOf id
      f.say ("stuns " ++ name ++ " until turn " ++ toString expiry.toNat)
  | .exposed =>
    let landed ← request (.applyExposed id expiry source)
    reportIf landed do
      let name ← f.nameOf id
      f.say ("exposes " ++ name ++ " until turn " ++ toString expiry.toNat)
  | .attackDown =>
    request (.applyAttackPenalty id f.settings.attackPenalty expiry source)
    return .applied

/-- Draws cards until there are `n` of them or the deck is empty, and counts them. -/
def drawUpTo (side : Side) : Nat → Script Nat
  | 0 => return 0
  | n + 1 => do
    match ← request (.drawCard side) with
    | none => return 0
    | some _ => return (← drawUpTo side n) + 1

/-- Draws cards for the acting side. -/
def drawCards (f : Firing) (n : UInt32) : Script Resolution := do
  let drawn ← drawUpTo f.side n.toNat
  reportIf (drawn != 0) <| f.say ("drew " ++ counted drawn "card" "cards")

/-! ## Actions -/

/-- Carries out an action. -/
def resolve (f : Firing) (memory : Memory) (action : Action) : Script (Resolution × Memory) :=
  match action with
  | .gainShield _ amount =>
    withPositive memory amount fun n => f.withTarget memory action (f.grantShield n)
  | .heal .leader amount =>
    withPositive memory amount fun n => do return (← f.healLeader n, memory)
  | .heal _ amount =>
    withPositive memory amount fun n => f.withTarget memory action (f.healUnit n)
  | .gainShares amount =>
    withPositive memory amount fun n => do return (← f.earnShares n, memory)
  | .modifyAttack _ amount =>
    if amount = 0 then return (.noEffect, memory)
    else f.withTarget memory action (f.changeAttack amount)
  | .cleanse _ statuses =>
    f.withTarget memory action (f.cleanseUnit (Action.cleansed statuses))
  | .applyStatus _ status turns =>
    f.withTarget memory action (f.inflict status turns)
  | .drawCard amount =>
    withPositive memory amount fun n => do return (← f.drawCards n, memory)

end Firing

/-! ## Lists of actions -/

/-- One action of a firing: what was remembered before it, what became of it, and what is remembered
after it. -/
structure Deed where
  action : Action
  before : Memory
  result : Resolution
  after : Memory
  deriving DecidableEq, Repr

/-- Carries out a list of actions, each with the memory that the one before it leaves. -/
def Firing.resolveAll (f : Firing) (memory : Memory) : List Action → Script (List Deed)
  | [] => return []
  | action :: actions => do
    let (result, after) ← f.resolve memory action
    let deeds ← f.resolveAll after actions
    return ⟨action, memory, result, after⟩ :: deeds

end CardDuel
