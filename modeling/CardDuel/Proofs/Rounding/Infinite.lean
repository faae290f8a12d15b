import CardDuel.Proofs.Rounding.Floats

/-!
# Infinite floats

A float is finite, infinite or no number.  The levels of the finite ones lie between that of the
greatest and its negative.

* `level_eq_top_iff`, `level_eq_bot_iff` — the floats with an infinite level.
* `level_within_greatest` — the bounds of the others.
* `isNaN_mul_of_isNaN`, `level_sub_of_isNaN` — what is not a number, in a product and in a
  difference.
-/

set_option autoImplicit false

namespace CardDuel.Rounding

open Float.Model (UnpackedFloat)
open Float.Model.UnpackedFloat (Sign)

variable {u : UnpackedFloat} {x y : Float}

/-- The float above all numbers. -/
def infinity : Float := 1.0 / 0.0

/-- The greatest float that is a number, `(2 ^ 53 - 1) * 2 ^ 971`. -/
def greatest : Float := .ofBits 0x7fefffffffffffff

theorem unpack_infinity : infinity.toModel.unpack = .infinity .positive := rfl

theorem unpack_neg_infinity : (-infinity).toModel.unpack = .infinity .negative := rfl

theorem unpack_greatest :
    greatest.toModel.unpack = .finite .positive (2 ^ 53 - 1) 971 (by norm_num) := rfl

theorem unpack_neg_greatest :
    (-greatest).toModel.unpack = .finite .negative (2 ^ 53 - 1) 971 (by norm_num) := rfl

theorem isNaN_infinity : infinity.isNaN = false ∧ (-infinity).isNaN = false := by decide +kernel

theorem isNaN_greatest : greatest.isNaN = false ∧ (-greatest).isNaN = false := by decide +kernel

/-! ## Infinite levels -/

theorem compare_infinity_iff (s : Sign) : u.compare (.infinity s) = some .eq ↔ u = .infinity s := by
  cases u with
  | infinity s' =>
    cases s <;> cases s'
    case negative.negative | positive.positive => exact iff_of_true rfl rfl
    all_goals exact iff_of_false nofun nofun
  | notANumber | zero | finite => cases s <;> simp [UnpackedFloat.compare]

theorem beq_infinity_iff : (x == infinity) = true ↔ x.toModel.unpack = .infinity .positive := by
  rw [Dice.beq_iff, Dice.compare?, unpack_infinity, compare_infinity_iff]

theorem beq_neg_infinity_iff :
    (x == -infinity) = true ↔ x.toModel.unpack = .infinity .negative := by
  rw [Dice.beq_iff, Dice.compare?, unpack_neg_infinity, compare_infinity_iff]

theorem value_eq_top_iff : value u = ⊤ ↔ u = .infinity .positive := by
  cases u with
  | infinity s => cases s <;> simp [value]
  | notANumber | zero => simp [value]
  | finite s m e hm =>
    rw [value_finite]
    exact iff_of_false (EReal.coe_ne_top _) fun h => by cases h

theorem value_eq_bot_iff : value u = ⊥ ↔ u = .notANumber ∨ u = .infinity .negative := by
  cases u with
  | infinity s => cases s <;> simp [value]
  | notANumber | zero => simp [value]
  | finite s m e hm =>
    rw [value_finite]
    exact iff_of_false (EReal.coe_ne_bot _) (by rintro (h | h) <;> cases h)

theorem level_eq_top_iff : level x = ⊤ ↔ (x == infinity) = true := by
  rw [level, value_eq_top_iff, beq_infinity_iff]

theorem level_eq_bot_iff : level x = ⊥ ↔ x.isNaN = true ∨ (x == -infinity) = true := by
  rw [level, value_eq_bot_iff, isNaN_eq_true_iff, beq_neg_infinity_iff]

theorem isNaN_of_level_ne_bot (h : level x ≠ ⊥) : x.isNaN = false :=
  Bool.eq_false_iff.2 fun hx => h (level_of_isNaN hx)

theorem infinity_le (h : level x = ⊤) : infinity ≤ x := by
  rw [le_iff_level isNaN_infinity.1 (isNaN_of_level_ne_bot (h ▸ top_ne_bot)), h]
  exact le_top

theorem le_neg_infinity (hnumber : x.isNaN = false) (h : level x = ⊥) : x ≤ -infinity :=
  (le_iff_level hnumber isNaN_infinity.2).2 (h ▸ bot_le)

/-- What is not finite has an infinite level. -/
theorem level_of_not_finite (h : x.isFinite = false) : level x = ⊥ ∨ level x = ⊤ := by
  unfold Float.isFinite Float.Model.isFinite at h
  unfold level
  generalize x.toModel.unpack = u at h
  cases u with
  | notANumber => exact .inl rfl
  | infinity s =>
    cases s with
    | negative => exact .inl rfl
    | positive => exact .inr rfl
  | zero | finite => cases h

/-! ## Bounds -/

/-- A normalized number is at most the greatest one. -/
theorem mul_zpow_le_greatest {m : ℕ} {e : ℤ} (h : Normalized m e) (he : e ≤ 971) :
    (m : ℝ) * 2 ^ e ≤ (2 ^ 53 - 1 : ℕ) * 2 ^ (971 : ℤ) := by
  have hmantissa : m ≤ 2 ^ 53 - 1 := Nat.le_pred_of_lt h.lt
  exact mul_le_mul (by exact_mod_cast hmantissa) (zpow_le_zpow_right₀ one_le_two he)
    (two_zpow_pos e).le (Nat.cast_nonneg _)

/-- **A number lies within the greatest one and its negative.** -/
theorem level_within_greatest (hbot : level x ≠ ⊥) (htop : level x ≠ ⊤) :
    level (-greatest) ≤ level x ∧ level x ≤ level greatest := by
  have hcanonical := canonical_unpack x.toModel
  have hneg := value_negative_lt (m := 2 ^ 53 - 1) (by norm_num) 971
  have hpos := lt_value_positive (m := 2 ^ 53 - 1) (by norm_num) 971
  unfold level at hbot htop ⊢
  rw [unpack_neg_greatest, unpack_greatest]
  generalize x.toModel.unpack = u at hbot htop hcanonical
  cases u with
  | notANumber => exact absurd rfl hbot
  | infinity s =>
    cases s with
    | negative => exact absurd rfl hbot
    | positive => exact absurd rfl htop
  | zero s => exact ⟨hneg.le, hpos.le⟩
  | finite s m e hm =>
    have hle := mul_zpow_le_greatest hcanonical.1 hcanonical.2
    cases s with
    | negative =>
      refine ⟨?_, ((value_negative_lt hm e).trans hpos).le⟩
      rw [value_negative, value_negative, EReal.neg_le_neg_iff]
      exact EReal.coe_le_coe_iff.2 hle
    | positive =>
      refine ⟨(hneg.trans (lt_value_positive hm e)).le, ?_⟩
      rw [value_positive, value_positive]
      exact EReal.coe_le_coe_iff.2 hle

theorem neg_greatest_le (h : level x ≠ ⊥) : -greatest ≤ x := by
  rw [le_iff_level isNaN_greatest.2 (isNaN_of_level_ne_bot h)]
  rcases eq_or_ne (level x) ⊤ with htop | htop
  · exact htop ▸ le_top
  · exact (level_within_greatest h htop).1

theorem le_greatest (hnumber : x.isNaN = false) (h : level x ≠ ⊤) : x ≤ greatest := by
  rw [le_iff_level hnumber isNaN_greatest.1]
  rcases eq_or_ne (level x) ⊥ with hbot | hbot
  · exact hbot ▸ bot_le
  · exact (level_within_greatest hbot h).2

/-! ## What is not a number -/

theorem isNaN_mul_of_isNaN (x : Float) (hy : y.isNaN = true) : (x * y).isNaN = true := by
  rw [isNaN_eq_true_iff] at hy ⊢
  show packed (UnpackedFloat.mul .binary64 x.toModel.unpack y.toModel.unpack) = _
  rw [hy]
  cases x.toModel.unpack <;> exact packed_notANumber

theorem level_sub_of_isNaN (x : Float) (hy : y.isNaN = true) : level (x - y) = ⊥ := by
  rw [isNaN_eq_true_iff] at hy
  show value (packed (UnpackedFloat.sub .binary64 x.toModel.unpack y.toModel.unpack)) = _
  rw [hy]
  cases x.toModel.unpack <;> exact congrArg value packed_notANumber

end CardDuel.Rounding
