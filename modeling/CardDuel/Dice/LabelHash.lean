/-!
# The hash of a labelled request

A random request is named by a label.  The seed, the bytes of the label and the number of draws
made so far are mixed, word by word, into the 64-bit seed of the request's own stream.  The bytes
are taken in little-endian words of eight, then four, two and one, and a closing byte follows them.

Principal statements: `mix_injective_word`, `mix_injective_hash`, one step of mixing loses nothing
of the word and nothing of the hash.
-/

set_option autoImplicit false

namespace CardDuel.Dice

/-- The factor of one mixing step; it is odd, so multiplying by it can be undone. -/
def factor : UInt64 := 0x517cc1b727220a95

/-- The inverse of `factor`. -/
def factorInverse : UInt64 := 0x2040003d780970bd

/-- Turns the bits left by five places. -/
def turn (h : UInt64) : UInt64 := (h <<< 5) ||| (h >>> 59)

/-- Mixes one word into the hash. -/
def mix (h w : UInt64) : UInt64 := (turn h ^^^ w) * factor

/-- The number whose little-endian bytes are given. -/
def littleEndian (bytes : List UInt8) : UInt64 :=
  bytes.foldr (fun b n => b.toUInt64 ||| (n <<< 8)) 0

/-- The last words of a byte string shorter than eight bytes. -/
def tailWords (bytes : List UInt8) : List UInt64 :=
  let fours := if 4 ≤ bytes.length then 4 else 0
  let rest := bytes.drop fours
  let twos := if 2 ≤ rest.length then 2 else 0
  (if fours = 0 then [] else [littleEndian (bytes.take 4)]) ++
    (if twos = 0 then [] else [littleEndian (rest.take 2)]) ++
    (rest.drop twos).map (·.toUInt64)

/-- The words of a byte string. -/
def words : List UInt8 → List UInt64
  | a :: b :: c :: d :: e :: f :: g :: h :: rest =>
    littleEndian [a, b, c, d, e, f, g, h] :: words rest
  | bytes => tailWords bytes

/-- The seed of the stream for a label. -/
def labelHash (seed draws : UInt64) (label : String) : UInt64 :=
  (seed :: words label.toUTF8.toList ++ [0xff, draws]).foldl mix 0

/-! ## Turning -/

theorem toBitVec_turn (h : UInt64) : (turn h).toBitVec = h.toBitVec.rotateLeft 5 := by
  rw [BitVec.rotateLeft_def]
  rfl

/-- Bit `i` of a word is found five places further up in the turned word, counted around. -/
theorem getLsbD_turn (h : UInt64) {i : Nat} (hi : i < 64) :
    (turn h).toBitVec.getLsbD ((i + 5) % 64) = h.toBitVec.getLsbD i := by
  rw [toBitVec_turn, BitVec.getLsbD_rotateLeft]
  by_cases hlt : i < 59
  · have h₁ : (i + 5) % 64 = i + 5 := Nat.mod_eq_of_lt (by omega)
    have h₂ : ¬ (i + 5 < 5) := by omega
    have h₃ : i + 5 < 64 := by omega
    simp only [h₁, h₂, h₃, Nat.reduceMod, decide_false, decide_true, cond_false, Bool.true_and,
      Nat.add_sub_cancel]
  · have h₁ : (i + 5) % 64 = i - 59 := by omega
    have h₂ : i - 59 < 5 := by omega
    have h₃ : 64 - 5 + (i - 59) = i := by omega
    simp only [h₁, h₂, h₃, Nat.reduceMod, decide_true, cond_true]

theorem turn_injective {a b : UInt64} (e : turn a = turn b) : a = b := by
  apply UInt64.toBitVec_inj.1
  apply BitVec.eq_of_getLsbD_eq
  intro i hi
  rw [← getLsbD_turn a hi, ← getLsbD_turn b hi, e]

/-! ## Mixing -/

theorem factor_mul_inverse : factor * factorInverse = 1 := by decide

theorem mul_factor_injective {a b : UInt64} (h : a * factor = b * factor) : a = b := by
  have := congrArg (· * factorInverse) h
  simpa only [UInt64.mul_assoc, factor_mul_inverse, UInt64.mul_one] using this

theorem mix_injective_word (h : UInt64) {w w' : UInt64} (e : mix h w = mix h w') : w = w' := by
  have := mul_factor_injective e
  have := congrArg (turn h ^^^ ·) this
  simpa only [← UInt64.xor_assoc, UInt64.xor_self, UInt64.zero_xor] using this

theorem mix_injective_hash (w : UInt64) {h h' : UInt64} (e : mix h w = mix h' w) : h = h' := by
  have := mul_factor_injective e
  have := congrArg (w ^^^ ·) this
  apply turn_injective
  simpa only [UInt64.xor_comm _ w, ← UInt64.xor_assoc, UInt64.xor_self, UInt64.zero_xor] using this

end CardDuel.Dice
