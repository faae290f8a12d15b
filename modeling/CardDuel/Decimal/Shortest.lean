/-!
# The shortest decimal text of a float

A finite float stands for all reals that round to it.  Its text is the decimal with the fewest
digits among them, the nearest one if there are several, written positionally: no exponent, no
point when there is no fraction.  All comparisons are made on naturals, by cross-multiplication.

`Span` is the interval of reals that round to a float; `Span.shortest` looks for a point of the
grids 10^308, 10^307, … in it.  The two neighbours of the float on a grid are tried; of two points
the nearer is taken, and the upper one when both are equally near.
-/

set_option autoImplicit false

namespace CardDuel.Decimal

/-- The reals that round to a positive finite float, in units of `2 ^ exponent`, with both ends if
the span is closed. -/
structure Span where
  low : Nat
  mid : Nat
  high : Nat
  exponent : Int
  closed : Bool
  deriving DecidableEq, Repr

/-- The span of a positive finite float.  Below a power of two the neighbour is only half as far
away as above, except at the least exponent; the ends round to the float when its significand is
even. -/
def Span.ofBits (b : UInt64) : Span :=
  let e := ((b >>> 52) &&& 0x7FF).toNat
  let f := (b &&& 0xFFFFFFFFFFFFF).toNat
  let m := if e = 0 then f else 4503599627370496 + f
  { low := if f = 0 ∧ 1 < e then 4 * m - 1 else 4 * m - 2
    mid := 4 * m
    high := 4 * m + 2
    exponent := (if e = 0 then 1 else e : Nat) - 1077
    closed := m % 2 == 0 }

/-- The unit of the span over the step of the grid `10 ^ k`, as a fraction. -/
def Span.ratio (s : Span) (k : Int) : Nat × Nat :=
  (Nat.pow 2 s.exponent.toNat * Nat.pow 10 (-k).toNat,
    Nat.pow 2 (-s.exponent).toNat * Nat.pow 10 k.toNat)

/-- Whether `c * 10 ^ k` lies in the span. -/
def Span.contains (s : Span) (k : Int) (c : Nat) : Bool :=
  let (num, den) := s.ratio k
  if s.closed then s.low * num ≤ c * den && c * den ≤ s.high * num
  else s.low * num < c * den && c * den < s.high * num

/-- The point of the grid `10 ^ k` in the span that is nearest to the float. -/
def Span.onGrid? (s : Span) (k : Int) : Option Nat :=
  let (num, den) := s.ratio k
  let c := s.mid * num / den
  if s.contains k c then
    if s.contains k (c + 1) ∧ (2 * c + 1) * den ≤ 2 * (s.mid * num) then some (c + 1) else some c
  else if s.contains k (c + 1) then some (c + 1)
  else none

/-- The first grid with a point in the span, from `10 ^ k` on through finer grids. -/
def Span.search (s : Span) : Nat → Int → Nat × Int
  | 0, k => (s.mid * (s.ratio k).1 / (s.ratio k).2, k)
  | n + 1, k => match s.onGrid? k with
    | some c => (c, k)
    | none => s.search n (k - 1)

/-- The shortest decimal in the span, as digits and the place of the last one.  Every float lies
on the grid `10 ^ -1074` itself. -/
def Span.shortest (s : Span) : Nat × Int :=
  s.search (308 + 1074) 308

/-- Writes `c * 10 ^ k` positionally. -/
def positional (c : Nat) (k : Int) : String :=
  let ds := (Nat.toDigits 10 c)
  let places := (-k).toNat
  let ds := List.replicate (places + 1 - ds.length) '0' ++ ds ++ List.replicate k.toNat '0'
  let (whole, fraction) := ds.splitAt (ds.length - places)
  String.ofList (if fraction.isEmpty then whole else whole ++ '.' :: fraction)

/-- The text of a float. -/
def text (x : Float) : String :=
  let sign := if x.toBits >>> 63 == 1 then "-" else ""
  if x.isNaN then "NaN"
  else if x.isInf then sign ++ "inf"
  else if x == 0.0 then sign ++ "0"
  else
    let (c, k) := (Span.ofBits x.toBits).shortest
    sign ++ positional c k

end CardDuel.Decimal
