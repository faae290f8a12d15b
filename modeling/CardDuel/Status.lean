import Std.Data.ExtTreeMap

/-!
# Timed statuses

A stunned unit cannot act, an exposed one suffers more from some effects, and an attack penalty
lowers its attack for a time.

Principal statement: `Status.ofSpelling?_spelling`.
-/

set_option autoImplicit false

namespace CardDuel

inductive Status where
  | stun
  | exposed
  | attackDown
  deriving DecidableEq, Repr

namespace Status

/-- Every status, in the order of reports; also what an unrestricted cleanse removes. -/
def all : List Status := [.stun, .exposed, .attackDown]

theorem mem_all (s : Status) : s ∈ all := by
  cases s <;> decide

/-- The name of a status in card files and reports. -/
def spelling : Status → String
  | .stun => "stun"
  | .exposed => "exposed"
  | .attackDown => "atk_down"

/-- The status with a given name. -/
def ofSpelling? (s : String) : Option Status := all.find? fun x => x.spelling == s

theorem ofSpelling?_spelling (s : Status) : ofSpelling? s.spelling = some s := by
  cases s <;> decide

/-- The place of a status in reports. -/
def rank : Status → Nat
  | .stun => 0
  | .exposed => 1
  | .attackDown => 2

instance : Ord Status := ⟨compareOn rank⟩

instance : Std.TransOrd Status := inferInstanceAs (Std.TransCmp (compareOn rank))

instance : Std.LawfulEqOrd Status where
  eq_of_compare {a b} h := by
    cases a <;> cases b <;> first | rfl | exact absurd h (by decide)

end Status

end CardDuel
