import CardDuel.Decimal.Digits
import CardDuel.Json.Basic

/-!
# JSON number literals

A literal is split into its parts (`Numeral.ofChars?`) and the parts are given a value
(`Numeral.value`).  An integer literal that fits in 64 bits is an integer; every other literal is
a float, and `-0` is the float that carries the sign.

The float is not the nearest one.  The digits are gathered into a significand below 2^64, digits
that no longer fit are dropped, and the significand is scaled by one power of ten, so that each
step rounds on its own.  A literal beyond the largest float has no value.
-/

set_option autoImplicit false

namespace CardDuel.Json

open Decimal (leadingDigits ofDigits)

/-- The parts of a number literal; digits are numbers from 0 to 9, an exponent is its sign (`true`
for minus) and its digits, and a literal without point and exponent is integral. -/
structure Numeral where
  negative : Bool
  whole : List Nat
  fraction : List Nat
  exponent : Option (Bool × List Nat)
  integral : Bool
  deriving DecidableEq, Repr

namespace Numeral

/-- Reads what may follow the whole and fractional digits: nothing or an exponent. -/
def exponent? : List Char → Option (Option (Bool × List Nat))
  | [] => some none
  | c :: cs =>
    if c = 'e' ∨ c = 'E' then
      let (minus, cs) := match cs with
        | '-' :: cs => (true, cs)
        | '+' :: cs => (false, cs)
        | cs => (false, cs)
      let (ds, rest) := leadingDigits cs
      if ds.isEmpty ∨ ¬ rest.isEmpty then none else some (some (minus, ds))
    else none

/-- Splits a literal into its parts.  A leading zero stands alone, and digits follow a point. -/
def ofChars? (cs : List Char) : Option Numeral := do
  let (negative, cs) := match cs with
    | '-' :: cs => (true, cs)
    | cs => (false, cs)
  let (whole, rest) := leadingDigits cs
  if whole.isEmpty ∨ (whole.head? = some 0 ∧ 1 < whole.length) then none
  match rest with
  | '.' :: cs =>
    let (fraction, rest) := leadingDigits cs
    if fraction.isEmpty then none
    return { negative, whole, fraction, exponent := ← exponent? rest, integral := false }
  | rest =>
    return {
      negative, whole, fraction := []
      exponent := ← exponent? rest
      integral := rest.isEmpty }

/-! ## Values -/

/-- Appends digits to a significand while it stays below 2^64, and returns the digits left over. -/
def gather (significand : Nat) : List Nat → Nat × List Nat
  | [] => (significand, [])
  | d :: ds =>
    if 10 * significand + d < UInt64.size then gather (10 * significand + d) ds
    else (significand, d :: ds)

/-- The float nearest to a power of ten, up to the largest one that is finite. -/
def powerOfTen (k : Nat) : Float :=
  Float.ofScientific 1 false k

/-- The greatest power of ten that is a finite float. -/
def maxPower : Nat := 308

/-- Divides by a power of ten, in steps of the greatest finite one. -/
def scaleDown (x : Float) (k : Nat) : Float :=
  if k ≤ maxPower then x / powerOfTen k
  else if x == 0.0 then x
  else scaleDown (x / powerOfTen maxPower) (k - maxPower)
termination_by k
decreasing_by simp [maxPower] at *; omega

/-- Multiplies by a power of ten; `none` when the product is not finite. -/
def scaleUp? (x : Float) (k : Nat) : Option Float :=
  if k ≤ maxPower then
    let y := x * powerOfTen k
    if y.isInf then none else some y
  else if x == 0.0 then some x
  else none

/-- A significand times a power of ten. -/
def scale? (significand : Nat) (exponent : Int) : Option Float :=
  let x := significand.toUInt64.toFloat
  if 0 ≤ exponent then scaleUp? x exponent.toNat else some (scaleDown x (-exponent).toNat)

/-- Exponents beyond this one are not computed with. -/
def maxExponent : Nat := 2147483647

/-- The magnitude of a literal as a float: the digits that fit make the significand, each dropped
whole digit raises and each kept fractional digit lowers its exponent. -/
def magnitude? (n : Numeral) : Option Float :=
  let (s, dropped) := gather 0 n.whole
  let (s, ignored) := gather s n.fraction
  let places : Int := (dropped.length : Int) - (n.fraction.length - ignored.length : Nat)
  match n.exponent with
  | none => scale? s places
  | some (minus, ds) =>
    let e := ofDigits ds
    if e ≤ maxExponent then scale? s (if minus then places - e else places + e)
    else if s ≠ 0 ∧ ¬ minus then none
    else some 0.0

/-- The value of a literal, `unreadable` when no finite float is near. -/
def value (n : Numeral) : Json :=
  let (s, dropped) := gather 0 n.whole
  if n.integral ∧ dropped.isEmpty ∧ ¬ n.negative then .integer s
  else if n.integral ∧ dropped.isEmpty ∧ 0 < s ∧ Int64.minValue.toInt ≤ -s then .integer (-s)
  else match n.magnitude? with
    | none => .unreadable
    | some x => .float (if n.negative then -x else x)

end Numeral

end CardDuel.Json
