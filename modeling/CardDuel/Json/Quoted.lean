import CardDuel.Json.Basic

/-!
# The inside of a JSON string

`units?` undoes the escapes of the text between two quotes; `decode` joins escaped surrogate pairs
and reports whether the result is a string of characters.  `decode` answers `none` for text that
is not well formed, `some none` for well-formed text with half of a surrogate pair, and
`some (some s)` otherwise.
-/

set_option autoImplicit false

namespace CardDuel.Json.Quoted

/-- The value of a hexadecimal digit. -/
def hex? (c : Char) : Option Nat :=
  if c.isDigit then some (c.toNat - '0'.toNat)
  else if 'a' ≤ c ∧ c ≤ 'f' then some (c.toNat - 'a'.toNat + 10)
  else if 'A' ≤ c ∧ c ≤ 'F' then some (c.toNat - 'A'.toNat + 10)
  else none

/-- The character that a one-letter escape stands for. -/
def escape? : Char → Option Char
  | '"' => some '"'
  | '\\' => some '\\'
  | '/' => some '/'
  | 'b' => some '\x08'
  | 'f' => some '\x0c'
  | 'n' => some '\n'
  | 'r' => some '\r'
  | 't' => some '\t'
  | _ => none

/-- The code points and escaped 16-bit units of the text; control characters must be escaped.
`acc` holds what came before, the newest first. -/
def unitsFrom (acc : List Nat) : List Char → Option (List Nat)
  | [] => some acc.reverse
  | '\\' :: 'u' :: a :: b :: c :: d :: rest => do
    let a ← hex? a
    let b ← hex? b
    let c ← hex? c
    let d ← hex? d
    unitsFrom ((((16 * a + b) * 16 + c) * 16 + d) :: acc) rest
  | '\\' :: c :: rest => do
    let e ← escape? c
    unitsFrom (e.toNat :: acc) rest
  | c :: rest => if c.toNat < 0x20 ∨ c = '\\' then none else unitsFrom (c.toNat :: acc) rest

/-- `unitsFrom` at the start of the text. -/
def units? (cs : List Char) : Option (List Nat) := unitsFrom [] cs

/-- Whether a unit opens a surrogate pair. -/
def isHigh (u : Nat) : Bool := 0xD800 ≤ u && u < 0xDC00

/-- Whether a unit closes a surrogate pair. -/
def isLow (u : Nat) : Bool := 0xDC00 ≤ u && u < 0xE000

/-- Joins each surrogate pair into its character; `none` when half of a pair stands alone. -/
def joinFrom (acc : List Char) : List Nat → Option (List Char)
  | [] => some acc.reverse
  | [u] => if isHigh u || isLow u then none else some (Char.ofNat u :: acc).reverse
  | u :: v :: rest =>
    if isHigh u then
      if isLow v then
        joinFrom (Char.ofNat (0x10000 + (u - 0xD800) * 0x400 + (v - 0xDC00)) :: acc) rest
      else none
    else if isLow u then none
    else joinFrom (Char.ofNat u :: acc) (v :: rest)

/-- The string that the text between two quotes denotes. -/
def decode (cs : List Char) : Option (Option String) := do
  let us ← units? cs
  return (joinFrom [] us).map String.ofList

end CardDuel.Json.Quoted
