import CardDuel.Judge
import CardDuel.Proofs.Rounding.Floats

/-!
# The chance to be caught

On floats each step of the formula is the exact step followed by a rounding that keeps the order, so
the chance keeps the order of what is looked at.  A sum that is no number has the level of the
infinity below all numbers; both give the floor, and so the order is kept through them too.

* `level_raw_mono` — the sum before the floor and the ceiling keeps the order.
* `level_catchChance` — the chance is this sum, held between the floor and the ceiling.
* `catchChance_bounded_mono` — the chance lies between them and keeps the order.
-/

set_option autoImplicit false

namespace CardDuel.JudgeInputs

open Rounding

variable {i j : JudgeInputs Float}

/-! ## The sum -/

/-- The weights have all of their places. -/
theorem full_weights : Full 0.08 ∧ Full 0.06 ∧ Full 0.03 ∧ Full 0.04 := by decide +kernel

/-- The level of the sum, step by step. -/
theorem level_raw (hmood : i.mood.isNaN = false) :
    level i.raw = rounded (rounded (rounded (rounded (level 0.10 +
      rounded (level 0.08 * level i.dirtyPower)) + rounded (level 0.06 * level i.probation)) -
      rounded (level 0.03 * level i.mood)) + rounded (level 0.04 * level i.hostility)) := by
  obtain ⟨hdirty, hprobation, hlenient, hhostility⟩ := full_weights
  rw [raw, level_add, level_sub _ (isNaN_mul hlenient hmood), level_add, level_add,
    level_mul hdirty, level_mul hprobation, level_mul hlenient, level_mul hhostility]

/-- A rounded product with a constant keeps the order. -/
theorem rounded_mul_mono {c : Float} (hc : Full c) {x y : EReal} (hxy : x ≤ y) :
    rounded (level c * x) ≤ rounded (level c * y) :=
  rounded_mono (mul_le_mul_of_nonneg_left hxy hc.level_pos.le)

/-- **The sum keeps the order.** -/
theorem level_raw_mono (hdirty : i.dirtyPower ≤ j.dirtyPower)
    (hprobation : i.probation ≤ j.probation) (hmood : j.mood ≤ i.mood)
    (hhostility : i.hostility ≤ j.hostility) : level i.raw ≤ level j.raw := by
  obtain ⟨hj, hi⟩ := Dice.isNaN_of_le hmood
  obtain ⟨hfull₁, hfull₂, hfull₃, hfull₄⟩ := full_weights
  have hlevel {x y : Float} (h : x ≤ y) : level x ≤ level y :=
    (le_iff_level (Dice.isNaN_of_le h).1 (Dice.isNaN_of_le h).2).1 h
  rw [level_raw hi, level_raw hj]
  apply rounded_mono
  apply add_le_add _ (rounded_mul_mono hfull₄ (hlevel hhostility))
  apply rounded_mono
  apply EReal.sub_le_sub _ (rounded_mul_mono hfull₃ (hlevel hmood))
  apply rounded_mono
  apply add_le_add _ (rounded_mul_mono hfull₂ (hlevel hprobation))
  apply rounded_mono
  exact add_le_add le_rfl (rounded_mul_mono hfull₁ (hlevel hdirty))

/-! ## The bounds -/

theorem isNaN_floor : (floor : Float).isNaN = false := by decide +kernel

theorem isNaN_ceiling : (ceiling : Float).isNaN = false := by decide +kernel

theorem floor_lt_ceiling : level floor < level ceiling :=
  (lt_iff_level isNaN_floor isNaN_ceiling).1 (by decide +kernel)

/-- A value that is a number is held between the floor and the ceiling. -/
theorem level_clamp {x : Float} (hx : x.isNaN = false) : (clamp x).isNaN = false ∧
    level (clamp x) = max (level floor) (min (level ceiling) (level x)) := by
  unfold clamp
  split
  · rename_i hlow
    rw [lt_iff_level hx isNaN_floor] at hlow
    exact ⟨isNaN_floor, (max_eq_left (min_le_of_right_le hlow.le)).symm⟩
  · rename_i hlow
    rw [lt_iff_level hx isNaN_floor, not_lt] at hlow
    split
    · rename_i hhigh
      rw [lt_iff_level isNaN_ceiling hx] at hhigh
      rw [min_eq_left hhigh.le, max_eq_right floor_lt_ceiling.le]
      exact ⟨isNaN_ceiling, rfl⟩
    · rename_i hhigh
      rw [lt_iff_level isNaN_ceiling hx, not_lt] at hhigh
      rw [min_eq_right hhigh, max_eq_right hlow]
      exact ⟨hx, rfl⟩

theorem beq_self (x : Float) : (x == x) = !x.isNaN := by
  rw [Bool.eq_iff_iff]
  simp

/-- **The chance is the sum, held between the floor and the ceiling.** -/
theorem level_catchChance (i : JudgeInputs Float) : i.catchChance.isNaN = false ∧
    level i.catchChance = max (level floor) (min (level ceiling) (level i.raw)) := by
  unfold catchChance
  rw [beq_self]
  cases hraw : i.raw.isNaN with
  | false => exact level_clamp hraw
  | true =>
    rw [level_of_isNaN hraw, min_eq_right bot_le, max_eq_left bot_le]
    exact ⟨isNaN_floor, rfl⟩

/-- **The chance is bounded and keeps the order.**  Whatever is looked at, numbers or not, the
chance lies between 0.05 and 0.95.  If it is numbers, finite or not, then the chance does not fall
when the dirty power, the probation or the hostility rises, and does not rise when the mood does. -/
theorem catchChance_bounded_mono :
    (∀ i : JudgeInputs Float, 0.05 ≤ i.catchChance ∧ i.catchChance ≤ 0.95) ∧
    ∀ i j : JudgeInputs Float, i.dirtyPower ≤ j.dirtyPower → i.probation ≤ j.probation →
      j.mood ≤ i.mood → i.hostility ≤ j.hostility → i.catchChance ≤ j.catchChance := by
  constructor
  · intro i
    obtain ⟨hnumber, hlevel⟩ := level_catchChance i
    constructor
    · apply (le_iff_level isNaN_floor hnumber).2
      rw [hlevel]
      exact le_max_left _ _
    · apply (le_iff_level hnumber isNaN_ceiling).2
      rw [hlevel]
      exact max_le floor_lt_ceiling.le (min_le_left _ _)
  · intro i j hdirty hprobation hmood hhostility
    obtain ⟨hi, hleveli⟩ := level_catchChance i
    obtain ⟨hj, hlevelj⟩ := level_catchChance j
    rw [le_iff_level hi hj, hleveli, hlevelj]
    exact max_le_max le_rfl (min_le_min le_rfl (level_raw_mono hdirty hprobation hmood hhostility))

/-- What a calm judge looks at, and the same with endless power and hostility. -/
def calm : JudgeInputs Float :=
  { dirtyPower := 2.0, probation := 1.0, mood := 0.5, hostility := 0.0 }

def furious : JudgeInputs Float :=
  { dirtyPower := 1.0 / 0.0, probation := 1.0, mood := 0.5, hostility := 1.0 / 0.0 }

theorem catchChance_bounded_mono_furious :
    0.05 ≤ calm.catchChance ∧ calm.catchChance ≤ furious.catchChance ∧ furious.catchChance ≤ 0.95 :=
  ⟨(catchChance_bounded_mono.1 calm).1,
    catchChance_bounded_mono.2 calm furious (by decide +kernel) (by decide +kernel)
      (by decide +kernel) (by decide +kernel),
    (catchChance_bounded_mono.1 furious).2⟩

end CardDuel.JudgeInputs
