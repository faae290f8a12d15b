import Mathlib

/-!
# Floats and the numbers that they stand for

A float of double precision is a whole number of 53 binary places times a power of two that is at
least `2 ^ (-1074)`.  To round a positive number, it is divided by the value of its last place,
rounded to the nearest integer and multiplied again; what is rounded to `2 ^ 1024` or more is
infinite (`rounded`).

Floats are computed with mantissas.  `Approximates` says which number a shifted mantissa and its two
bits stand for, `packed` what is left of a float in 64 bits, and `value` which number it stands for.
-/

set_option autoImplicit false

namespace CardDuel.Rounding

open Float.Model (Format UnpackedFloat)
open Float.Model.UnpackedFloat

/-! ## Numbers -/

/-- The integer nearest to a number, the even one of two that are as near. -/
noncomputable def nearestEven (x : ℝ) : ℤ :=
  if Int.fract x < 1 / 2 then ⌊x⌋ else if 1 / 2 < Int.fract x then ⌊x⌋ + 1 else ⌊x⌋ + ⌊x⌋ % 2

/-- The exponent of the last of 53 binary places of a positive number. -/
noncomputable def lastPlace (x : ℝ) : ℤ := max (Int.log 2 x - 52) (-1074)

/-- The number with 53 places that is nearest to a number that is not negative. -/
noncomputable def nearest (x : ℝ) : ℝ := nearestEven (x / 2 ^ lastPlace x) * 2 ^ lastPlace x

/-- A whole number of 53 places; the first of them is used unless the last is the least there is. -/
structure Normalized (m : ℕ) (e : ℤ) : Prop where
  lt : m < 2 ^ 53
  least : -1074 ≤ e
  full : 2 ^ 52 ≤ m ∨ e = -1074

/-- The float nearest to a number that is not negative, infinite from `2 ^ 1024` on. -/
noncomputable def magnitude (x : ℝ) : EReal :=
  if 2 ^ (1024 : ℤ) ≤ nearest x then ⊤ else (nearest x : EReal)

/-- The float nearest to a number. -/
noncomputable def roundedReal (x : ℝ) : EReal :=
  if x < 0 then -magnitude (-x) else magnitude x

/-- The float nearest to a number; infinities stay what they are. -/
noncomputable def rounded (x : EReal) : EReal :=
  if x = ⊥ then ⊥ else if x = ⊤ then ⊤ else roundedReal x.toReal

/-! ## Floats -/

/-- A mantissa stands for a number: its round bit for a half, its sticky bit for anything less. -/
def Approximates (em : ExtendedMantissa) (x : ℝ) : Prop :=
  ∃ tail : ℝ, 0 ≤ tail ∧ tail < 1 / 2 ∧ (em.stickyBit = true ↔ 0 < tail) ∧
    x = em.mantissa + (if em.roundBit then 1 / 2 else 0) + tail

/-- A float with a sign, a mantissa and an exponent. -/
def signed (s : Sign) (m : ℕ) (e : ℤ) : UnpackedFloat :=
  if h : m = 0 then .zero s else .finite s m e (Nat.pos_of_ne_zero h)

/-- A float that is not changed by packing. -/
def Canonical : UnpackedFloat → Prop
  | .finite _ m e _ => Normalized m e ∧ e ≤ 971
  | _ => True

/-- A float as it is packed: infinite if its exponent is too large. -/
def packed (u : UnpackedFloat) : UnpackedFloat := (Float.Model.pack u).unpack

/-- The value of a float.  What is not a number stands with the infinity below all numbers, so that
the sum of either of them with anything else has the same value. -/
noncomputable def value : UnpackedFloat → EReal
  | .notANumber => ⊥
  | .infinity .negative => ⊥
  | .infinity .positive => ⊤
  | .zero _ => 0
  | .finite s m e _ => (((s.apply m : ℤ) : ℝ) * 2 ^ e : ℝ)

end CardDuel.Rounding
