/-!
# Blank text

`isBlank` is the Unicode property `White_Space`.  A text that holds nothing else is blank, which
is how an id or a name counts as missing.
-/

set_option autoImplicit false

namespace CardDuel.Text

/-- The ranges of the property `White_Space`, first and last code point. -/
def blankRanges : List (Nat × Nat) :=
  [(0x09, 0x0D), (0x20, 0x20), (0x85, 0x85), (0xA0, 0xA0), (0x1680, 0x1680), (0x2000, 0x200A),
   (0x2028, 0x2029), (0x202F, 0x202F), (0x205F, 0x205F), (0x3000, 0x3000)]

/-- Whether a character has the property `White_Space`. -/
def isBlank (c : Char) : Bool :=
  blankRanges.any fun r => r.1 ≤ c.toNat && c.toNat ≤ r.2

/-- Whether a text holds nothing but blank characters. -/
def blank (s : String) : Bool := s.toList.all isBlank

end CardDuel.Text
