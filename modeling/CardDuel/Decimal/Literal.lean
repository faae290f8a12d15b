import CardDuel.Decimal.Digits

/-!
# Reading a float from decimal text

A decimal literal is an optional sign, digits with an optional point among, before or after them,
and an optional exponent.  It denotes the float nearest to its value, ties to even; values beyond
the largest float become infinite.  The words for infinity and NaN are read in any case.
-/

set_option autoImplicit false

namespace CardDuel.Decimal

/-- The sign that `cs` starts with (`true` for minus), and what follows it. -/
def leadingSign : List Char → Bool × List Char
  | '-' :: cs => (true, cs)
  | '+' :: cs => (false, cs)
  | cs => (false, cs)

/-- The exponent after the digits, zero when there is none. -/
def exponent? : List Char → Option Int
  | [] => some 0
  | c :: cs =>
    if c = 'e' ∨ c = 'E' then
      let (minus, cs) := leadingSign cs
      let (ds, rest) := leadingDigits cs
      if ds.isEmpty ∨ ¬ rest.isEmpty then none
      else some (if minus then -ofDigits ds else ofDigits ds)
    else none

/-- The float nearest to `significand * 10 ^ exponent`.  Far outside the range of floats the power
is not computed. -/
def nearest (significand : Nat) (exponent : Int) : Float :=
  let top := exponent + (Nat.toDigits 10 significand).length
  if significand = 0 ∨ top < -400 then 0.0
  else if 400 < top then 1.0 / 0.0
  else if 0 ≤ exponent then Float.ofScientific significand false exponent.toNat
  else Float.ofScientific significand true (-exponent).toNat

/-- The float that an unsigned literal denotes. -/
def unsigned? (cs : List Char) : Option Float := do
  let word := cs.map Char.toLower
  if word = "inf".toList ∨ word = "infinity".toList then return 1.0 / 0.0
  if word = "nan".toList then return 0.0 / 0.0
  let (whole, rest) := leadingDigits cs
  let (fraction, rest) := match rest with
    | '.' :: cs => leadingDigits cs
    | rest => ([], rest)
  if whole.isEmpty ∧ fraction.isEmpty then none
  let e ← exponent? rest
  return nearest (ofDigits (whole ++ fraction)) (e - fraction.length)

/-- The float that a text denotes. -/
def read? (s : String) : Option Float := do
  let (minus, cs) := leadingSign s.toList
  let x ← unsigned? cs
  return if minus then -x else x

end CardDuel.Decimal
