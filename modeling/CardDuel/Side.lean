/-!
# The two sides of a duel

Each side owns a leader, a balance of shares, a deck and the units it put on the board.

Principal statements: `Side.opponent_opponent`, `Side.ofSpelling?_spelling`.
-/

set_option autoImplicit false

namespace CardDuel

inductive Side where
  | player
  | enemy
  deriving DecidableEq, Repr

namespace Side

/-- Both sides, in seat order. -/
def all : List Side := [.player, .enemy]

/-- The other side. -/
def opponent : Side → Side
  | .player => .enemy
  | .enemy => .player

/-- The seat number. -/
def seat : Side → Nat
  | .player => 0
  | .enemy => 1

/-- The name of a side in card files and reports. -/
def spelling : Side → String
  | .player => "player"
  | .enemy => "enemy"

/-- The side with a given name. -/
def ofSpelling? (s : String) : Option Side := all.find? fun x => x.spelling == s

@[simp]
theorem opponent_opponent (s : Side) : s.opponent.opponent = s := by
  cases s <;> rfl

@[simp]
theorem opponent_ne (s : Side) : s.opponent ≠ s := by
  cases s <;> decide

theorem eq_opponent_of_ne {s t : Side} (h : s ≠ t) : s = t.opponent := by
  cases s <;> cases t <;> first | rfl | exact absurd rfl h

theorem ofSpelling?_spelling (s : Side) : ofSpelling? s.spelling = some s := by
  cases s <;> decide

end Side

end CardDuel
