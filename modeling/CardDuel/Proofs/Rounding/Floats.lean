import CardDuel.Proofs.Dice.Probability
import CardDuel.Proofs.Rounding.Arithmetic

/-!
# Floats as rounded numbers

Every operation on floats is the exact operation on their levels, rounded, and numbers are ordered
as their levels.

* `level_add`, `level_sub`, `level_mul` — sums, differences and products with a constant.
* `le_iff_level`, `lt_iff_level` — the order of numbers.
-/

set_option autoImplicit false

namespace CardDuel.Rounding

open Float.Model (UnpackedFloat)
open Float.Model.UnpackedFloat (Sign)

variable {c x y : Float}

/-- The value of a float; what is not a number is below all numbers. -/
noncomputable def level (x : Float) : EReal := value x.toModel.unpack

/-! ## What is not a number -/

theorem isNaN_eq_true_iff : x.isNaN = true ↔ x.toModel.unpack = .notANumber :=
  UnpackedFloat.isNaN_iff

theorem isNaN_eq_false_iff : x.isNaN = false ↔ x.toModel.unpack ≠ .notANumber := by
  rw [Bool.eq_false_iff]
  exact isNaN_eq_true_iff.not

theorem level_of_isNaN (h : x.isNaN = true) : level x = ⊥ := by
  rw [level, isNaN_eq_true_iff.1 h]
  rfl

/-! ## Operations -/

/-- **A sum of floats is the exact sum, rounded.** -/
theorem level_add (x y : Float) : level (x + y) = rounded (level x + level y) :=
  value_packed_add (canonical_unpack _) (canonical_unpack _)

/-- **A difference of floats is the exact difference, rounded**, if the second one is a number. -/
theorem level_sub (x : Float) (hy : y.isNaN = false) :
    level (x - y) = rounded (level x - level y) :=
  value_packed_sub (canonical_unpack _) (canonical_unpack _) (isNaN_eq_false_iff.1 hy)

/-- Whether a float is a positive number with all of its places. -/
def isFull : UnpackedFloat → Bool
  | .finite .positive m _ _ => 2 ^ 52 ≤ m
  | _ => false

/-- A positive number with all of its places. -/
def Full (c : Float) : Prop := isFull c.toModel.unpack = true

instance (c : Float) : Decidable (Full c) := inferInstanceAs (Decidable (_ = true))

theorem Full.exists_unpack (hc : Full c) :
    ∃ m e hm, 2 ^ 52 ≤ m ∧ c.toModel.unpack = .finite .positive m e hm := by
  unfold Full isFull at hc
  split at hc
  · rename_i m e hm hunpack
    exact ⟨m, e, hm, of_decide_eq_true hc, hunpack⟩
  · cases hc

/-- **A product with a constant is the exact product, rounded.** -/
theorem level_mul (hc : Full c) (y : Float) : level (c * y) = rounded (level c * level y) := by
  obtain ⟨m, e, hm, hfull, hunpack⟩ := hc.exists_unpack
  have hproduct := value_packed_mul (e := e) hm hfull y.toModel.unpack
  rw [← hunpack] at hproduct
  exact hproduct

theorem Full.level_pos (hc : Full c) : 0 < level c := by
  obtain ⟨m, e, hm, -, hunpack⟩ := hc.exists_unpack
  rw [level, hunpack]
  exact lt_value_positive hm e

/-- A product of a constant with a number is a number. -/
theorem isNaN_mul (hc : Full c) (hy : y.isNaN = false) : (c * y).isNaN = false := by
  obtain ⟨m, e, hm, hfull, hunpack⟩ := hc.exists_unpack
  have hproduct := packed_mul_ne (e := e) hm hfull (isNaN_eq_false_iff.1 hy)
  rw [← hunpack] at hproduct
  exact isNaN_eq_false_iff.2 hproduct

/-! ## Order -/

theorem exists_compare? (hx : x.isNaN = false) (hy : y.isNaN = false) :
    ∃ order, Dice.compare? x y = some order ∧ order.Compares (level x) (level y) :=
  compare_value (canonical_unpack _) (canonical_unpack _) (isNaN_eq_false_iff.1 hx)
    (isNaN_eq_false_iff.1 hy)

/-- **Numbers are ordered as their levels.** -/
theorem le_iff_level (hx : x.isNaN = false) (hy : y.isNaN = false) : x ≤ y ↔ level x ≤ level y := by
  obtain ⟨order, horder, hcompares⟩ := exists_compare? hx hy
  rw [Dice.le_iff, horder]
  cases order with
  | lt => exact iff_of_true rfl (le_of_lt hcompares)
  | eq => exact iff_of_true rfl (le_of_eq hcompares)
  | gt => exact iff_of_false Bool.false_ne_true (not_le_of_gt hcompares)

theorem lt_iff_level (hx : x.isNaN = false) (hy : y.isNaN = false) : x < y ↔ level x < level y := by
  obtain ⟨order, horder, hcompares⟩ := exists_compare? hx hy
  rw [Dice.lt_iff, horder]
  cases order with
  | lt => exact iff_of_true rfl hcompares
  | eq => exact iff_of_false (by decide) (not_lt_of_ge (le_of_eq (Eq.symm hcompares)))
  | gt => exact iff_of_false (by decide) (lt_asymm hcompares)

end CardDuel.Rounding
