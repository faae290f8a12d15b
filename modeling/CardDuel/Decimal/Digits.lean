/-!
# Decimal digits

Number literals begin with digits; `leadingDigits` takes them off and `ofDigits` gives their value.
-/

set_option autoImplicit false

namespace CardDuel.Decimal

/-- The digits that `cs` starts with, and what follows them. -/
def leadingDigits (cs : List Char) : List Nat × List Char :=
  ((cs.takeWhile Char.isDigit).map fun c => c.toNat - '0'.toNat, cs.dropWhile Char.isDigit)

/-- The number that decimal digits spell. -/
def ofDigits (ds : List Nat) : Nat :=
  ds.foldl (fun n d => 10 * n + d) 0

end CardDuel.Decimal
