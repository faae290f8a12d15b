import Std.Data.ExtTreeMap

/-!
# Unit ids

The host numbers the units on its board; the rules only hand the numbers back.  Ids are ordered by
their number, so a board keyed by id is enumerated from the lowest id to the highest.
-/

set_option autoImplicit false

namespace CardDuel

structure UnitId where
  raw : UInt32
  deriving DecidableEq, Repr

namespace UnitId

instance : Ord UnitId := ⟨compareOn raw⟩

instance : Std.TransOrd UnitId := inferInstanceAs (Std.TransCmp (compareOn raw))

instance : Std.LawfulEqOrd UnitId where
  eq_of_compare {a b} h := by
    cases a; cases b; congr; exact Std.LawfulEqOrd.eq_of_compare h

theorem compare_eq_lt {a b : UnitId} : compare a b = .lt ↔ a.raw < b.raw := by
  show compare a.raw b.raw = .lt ↔ _
  exact Std.compare_eq_lt

/-- How a unit is named when the host knows nothing else about it. -/
def label (id : UnitId) : String := s!"Unit({id.raw.toNat})"

end UnitId

end CardDuel
