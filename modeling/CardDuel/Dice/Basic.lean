import CardDuel.Dice.ChaCha
import CardDuel.Dice.LabelHash

/-!
# Labelled dice

Every random decision is a request with a label.  The dice answer it from a stream of its own, which
the seed, the label and the number of earlier draws determine, so a replay with the same seed makes
the same decisions.

`pick` takes one of several options, each equally likely; `roll?` succeeds with a given
probability.

Principal statements: `indexBelow_lt` (an index is below its bound), `mem_of_pick` (what is picked is
one of the options), `draws_pick`, `draws_roll?` (each answer counts as one draw).
-/

set_option autoImplicit false

namespace CardDuel

/-- The dice: a seed and the number of draws answered so far. -/
structure Dice where
  seed : UInt64
  draws : UInt64 := 0
  deriving DecidableEq, Repr

namespace Dice

/-- The stream for a label. -/
def stream (d : Dice) (label : String) : Stream :=
  .ofSeed (labelHash d.seed d.draws label)

/-- The dice after one more draw. -/
def drawn (d : Dice) : Dice := { d with draws := d.draws + 1 }

/-! ## Picking -/

/-- The greatest low half of a product that is accepted for the bound `n`: as many values lead to
each index. -/
def zone (n : UInt64) : UInt64 := (n <<< .ofNat (63 - n.toNat.log2)) - 1

/-- The first index below `n` from the double words at place `j` on: the high half of a double word
times `n`, unless the low half lies outside the zone.  The last double word of the search is taken
as it comes. -/
def indexFrom (s : Stream) (n : UInt64) : Nat → Nat → Nat
  | 0, j => (s.doubleWord j).toNat * n.toNat / UInt64.size
  | fuel + 1, j =>
    let p := (s.doubleWord j).toNat * n.toNat
    if p % UInt64.size ≤ (zone n).toNat then p / UInt64.size else indexFrom s n fuel (j + 1)

/-- The number of double words after which a stream repeats; a longer search finds nothing new. -/
def period : Nat := 8 * UInt64.size

/-- An index below `n`. -/
def indexBelow (s : Stream) (n : UInt64) : Nat := indexFrom s n period 0

/-- One of the options, and the dice afterwards; no option, no draw. -/
def pick {α : Type} (d : Dice) (label : String) (options : List α) : Option α × Dice :=
  if options.isEmpty then (none, d)
  else (options[indexBelow (d.stream label) (.ofNat options.length)]?, d.drawn)

/-! ## Rolling -/

/-- The probability with the bounds 0 and 1 applied. -/
def clamp (p : Float) : Float :=
  if p < 0.0 then 0.0 else if 1.0 < p then 1.0 else p

/-- Whether a check of probability `p` succeeds, and the dice afterwards.  A probability that is not
a number has no answer. -/
def roll? (d : Dice) (label : String) (p : Float) : Option (Bool × Dice) :=
  if p.isNaN then none
  else
    let p := clamp p
    let hit := if p == 1.0 then true
      else (d.stream label).doubleWord 0 < (p * 18446744073709551616.0).toUInt64
    some (hit, d.drawn)

/-! ## Laws -/

theorem indexFrom_lt (s : Stream) {n : UInt64} (h : 0 < n.toNat) (fuel j : Nat) :
    indexFrom s n fuel j < n.toNat := by
  have key (i : Nat) : (s.doubleWord i).toNat * n.toNat / UInt64.size < n.toNat := by
    rw [Nat.div_lt_iff_lt_mul (by decide), Nat.mul_comm n.toNat]
    exact Nat.mul_lt_mul_of_pos_right (s.doubleWord i).toNat_lt h
  induction fuel generalizing j with
  | zero => exact key j
  | succ fuel ih =>
    simp only [indexFrom]
    split
    · exact key j
    · exact ih (j + 1)

theorem indexBelow_lt (s : Stream) {n : UInt64} (h : 0 < n.toNat) : indexBelow s n < n.toNat :=
  indexFrom_lt s h period 0

theorem mem_of_pick {α : Type} {d : Dice} {label : String} {options : List α} {a : α}
    (h : (d.pick label options).1 = some a) : a ∈ options := by
  unfold pick at h
  split at h
  · cases h
  · exact List.mem_of_getElem? h

/-- From options there are, fewer than 2^64, one is picked. -/
theorem isSome_pick {α : Type} (d : Dice) (label : String) {options : List α} (h : options ≠ [])
    (hn : options.length < UInt64.size) : (d.pick label options).1.isSome = true := by
  have hlen : (UInt64.ofNat options.length).toNat = options.length := by simpa using hn
  have hpos : 0 < options.length := List.length_pos_iff.2 h
  have hlt := indexBelow_lt (d.stream label) (n := .ofNat options.length) (by omega)
  rw [hlen] at hlt
  unfold pick
  rw [if_neg (by simpa using h)]
  simp only [List.getElem?_eq_getElem hlt, Option.isSome_some]

theorem draws_pick {α : Type} (d : Dice) (label : String) {options : List α} (h : options ≠ []) :
    (d.pick label options).2 = d.drawn := by
  unfold pick
  rw [if_neg (by simpa using h)]

theorem draws_roll? {d d' : Dice} {label : String} {p : Float} {hit : Bool}
    (h : d.roll? label p = some (hit, d')) : d' = d.drawn := by
  unfold roll? at h
  split at h
  · cases h
  · simp only [Option.some.injEq, Prod.mk.injEq] at h
    exact h.2.symm

end Dice

end CardDuel
