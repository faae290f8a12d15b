/-!
# The keystream behind the dice

A stream is keyed by eight words that are grown from one 64-bit seed.  Block `n` of the stream is
computed from the key and the counter `n` alone: four double rounds of ChaCha over a state of
constants, key, counter and zeros, added to that state.  So any word of the stream can be had
without those before it.
-/

set_option autoImplicit false

namespace CardDuel.Dice

/-! ## The key -/

/-- One step of the linear generator that grows the key. -/
def grow (s : UInt64) : UInt64 := s * 6364136223846793005 + 11634580027462260723

/-- Turns the bits of a word right; a turn by zero leaves it alone. -/
def turnRight (x : UInt32) (n : UInt32) : UInt32 := (x >>> n) ||| (x <<< ((32 - n) % 32))

/-- The key word that a state of the generator gives. -/
def keyWord (s : UInt64) : UInt32 :=
  turnRight (((s >>> 18) ^^^ s) >>> 27).toUInt32 (s >>> 59).toUInt32

/-- The first `n` key words. -/
def keyWords (s : UInt64) : Nat → List UInt32
  | 0 => []
  | n + 1 => keyWord (grow s) :: keyWords (grow s) n

/-! ## Blocks -/

/-- Turns the bits of a word left by 1 to 31 places. -/
def turnLeft (x : UInt32) (n : UInt32) : UInt32 := (x <<< n) ||| (x >>> (32 - n))

/-- The state of the block function, sixteen words in four rows. -/
abbrev Block := Vector UInt32 16

/-- A quarter round on the words at four places. -/
def quarterRound (v : Block) (a b c d : Fin 16) : Block :=
  let v := v.set a (v[a] + v[b])
  let v := v.set d (turnLeft (v[d] ^^^ v[a]) 16)
  let v := v.set c (v[c] + v[d])
  let v := v.set b (turnLeft (v[b] ^^^ v[c]) 12)
  let v := v.set a (v[a] + v[b])
  let v := v.set d (turnLeft (v[d] ^^^ v[a]) 8)
  let v := v.set c (v[c] + v[d])
  v.set b (turnLeft (v[b] ^^^ v[c]) 7)

/-- A round over the columns and a round over the diagonals. -/
def doubleRound (v : Block) : Block :=
  let v := quarterRound v 0 4 8 12
  let v := quarterRound v 1 5 9 13
  let v := quarterRound v 2 6 10 14
  let v := quarterRound v 3 7 11 15
  let v := quarterRound v 0 5 10 15
  let v := quarterRound v 1 6 11 12
  let v := quarterRound v 2 7 8 13
  quarterRound v 3 4 9 14

/-- The first row of every state. -/
def constants : List UInt32 := [0x61707865, 0x3320646e, 0x79622d32, 0x6b206574]

/-- The state before the rounds: the constants, the key, the counter with its low word first, and
two zeros. -/
def initialBlock (key : List UInt32) (counter : UInt64) : Block :=
  Vector.ofFn fun i =>
    (constants ++ key ++ [counter.toUInt32, (counter >>> 32).toUInt32])[i.val]?.getD 0

/-- One block of the keystream. -/
def block (key : List UInt32) (counter : UInt64) : Block :=
  let v := initialBlock key counter
  Vector.zipWith (· + ·) (doubleRound (doubleRound (doubleRound (doubleRound v)))) v

/-! ## Streams -/

/-- An endless stream of words, given by its key. -/
structure Stream where
  key : List UInt32
  deriving DecidableEq, Repr

/-- The stream that a seed starts. -/
def Stream.ofSeed (seed : UInt64) : Stream := ⟨keyWords seed 8⟩

/-- The word at a place of the stream. -/
def Stream.word (s : Stream) (i : Nat) : UInt32 :=
  (block s.key (.ofNat (i / 16))).get ⟨i % 16, Nat.mod_lt i (by decide)⟩

/-- The double word at a place of the stream, its low half first. -/
def Stream.doubleWord (s : Stream) (i : Nat) : UInt64 :=
  (s.word (2 * i)).toUInt64 ||| ((s.word (2 * i + 1)).toUInt64 <<< 32)

end CardDuel.Dice
