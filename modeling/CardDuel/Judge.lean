/-!
# The judge

How likely the judge is to catch a dirty play: a base chance, raised by the weight of the play, by
probation strikes and by hostility, lowered by a good mood, and kept between a floor and a ceiling.
Callers roll against the result themselves.

The formula is stated for any kind of number with an order, so that it can be computed on floats and
reasoned about on numbers that do not round.  It is evaluated from left to right.  A sum that is no
number, which is the one that differs from itself, gives the floor.
-/

set_option autoImplicit false

namespace CardDuel

/-- What the judge looks at: the summed dirty power of the play, the probation strikes of the acting
side, and the mood and the hostility of the judge, a good mood being lenient. -/
structure JudgeInputs (α : Type) where
  dirtyPower : α
  probation : α
  mood : α
  hostility : α
  deriving DecidableEq, Repr

namespace JudgeInputs

variable {α : Type} [OfScientific α] [Add α] [Sub α] [Mul α] [BEq α] [LT α] [DecidableLT α]

/-- The least chance. -/
def floor : α := 0.05

/-- The greatest chance. -/
def ceiling : α := 0.95

/-- The chance before the floor and the ceiling are applied. -/
def raw (i : JudgeInputs α) : α :=
  0.10 + 0.08 * i.dirtyPower + 0.06 * i.probation - 0.03 * i.mood + 0.04 * i.hostility

/-- A value, or the bound that it lies beyond. -/
def clamp (x : α) : α :=
  if x < floor then floor else if ceiling < x then ceiling else x

/-- The chance that the judge catches the play. -/
def catchChance (i : JudgeInputs α) : α :=
  if i.raw == i.raw then clamp i.raw else floor

end JudgeInputs

end CardDuel
