import CardDuel.Status

/-!
# Specials

Specials are passive: a taunt, shield charges on summon, and resistances, which are chances that a
status fails to apply.
-/

set_option autoImplicit false

namespace CardDuel

/-- A passive ability: enemies must attack a taunt first, shield charges are there from the summon
on, and a status fails to apply with a chance from 0 to 1. -/
inductive Special where
  | taunt
  | shieldOnSummon (amount : Int32)
  | resistance (stun exposed attackDown : Option Float)
  deriving DecidableEq, Repr

/-- The name of the special's kind in card files. -/
def Special.kindSpelling : Special → String
  | .taunt => "taunt"
  | .shieldOnSummon _ => "shield_on_summon"
  | .resistance .. => "resistance"

/-- The chances of one unit to resist each status; it resists nothing unless told otherwise. -/
structure Resistance where
  stun : Float := 0
  exposed : Float := 0
  attackDown : Float := 0
  deriving DecidableEq, Repr

/-- The chance that a status fails to apply. -/
def Resistance.against (r : Resistance) : Status → Float
  | .stun => r.stun
  | .exposed => r.exposed
  | .attackDown => r.attackDown

/-- The resistance that a special declares; a missing chance is none. -/
def Special.resistance? : Special → Option Resistance
  | .resistance stun exposed attackDown =>
    some ⟨stun.getD 0, exposed.getD 0, attackDown.getD 0⟩
  | _ => none

/-- The charges that a special grants on summon; a negative amount grants none. -/
def Special.charges : Special → UInt32
  | .shieldOnSummon amount => if 0 ≤ amount then amount.toUInt32 else 0
  | _ => 0

end CardDuel
