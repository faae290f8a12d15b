import CardDuel.Dice.Basic

/-!
# Probabilities

What a roll does with its probability.  The order of floating-point numbers is a partial comparison:
what is not a number compares with nothing.

* `compare?_swap`, `isNaN_of_le`, `not_lt_of_le`, `lt_iff_not_le` — the order between numbers.
* `clamp_eq_self` — a probability between the bounds is not changed by them.
* `roll?_eq_some`, `roll?_one` — a number has an answer, and certainty succeeds.
-/

set_option autoImplicit false

namespace CardDuel.Dice

open Float.Model (UnpackedFloat)

/-! ## Order -/

/-- How two floating-point numbers compare, unless one of them is not a number. -/
def compare? (x y : Float) : Option Ordering := x.toModel.unpack.compare y.toModel.unpack

variable {x y p : Float}

theorem le_iff : x ≤ y ↔ (compare? x y).any (·.isLE) = true :=
  ⟨fun h => of_decide_eq_true h, fun h => decide_eq_true h⟩

theorem lt_iff : x < y ↔ compare? x y = some .lt := by
  have hlt : x < y ↔ UnpackedFloat.lt x.toModel.unpack y.toModel.unpack = true :=
    ⟨fun h => of_decide_eq_true h, fun h => decide_eq_true h⟩
  rw [hlt, UnpackedFloat.lt, beq_iff_eq, compare?]

theorem beq_iff : (x == y) = true ↔ compare? x y = some .eq := by
  show (compare? x y == some .eq) = true ↔ _
  rw [beq_iff_eq]

/-- Comparing the other way round turns the answer around. -/
theorem compare?_swap (x y : Float) : compare? x y = (compare? y x).map Ordering.swap := by
  unfold compare?
  generalize x.toModel.unpack = u, y.toModel.unpack = v
  cases u with
  | notANumber => cases v <;> rfl
  | infinity s =>
    cases v with
    | infinity s' => cases s <;> cases s' <;> rfl
    | notANumber | zero | finite => cases s <;> rfl
  | zero s =>
    cases v with
    | notANumber | zero => rfl
    | infinity s' => cases s' <;> rfl
    | finite s' m' e' h' => cases s' <;> rfl
  | finite s m e h =>
    cases v with
    | notANumber => cases s <;> rfl
    | infinity s' => cases s' <;> cases s <;> rfl
    | zero s' => cases s <;> rfl
    | finite s' m' e' h' =>
      -- of two finite numbers of one sign the exponents decide, then the mantissas
      have hswap : (compare e e').then (compare m m') =
          ((compare e' e).then (compare m' m)).swap := by
        rw [Ordering.swap_then, ← Std.OrientedOrd.eq_swap, ← Std.OrientedOrd.eq_swap]
      cases s <;> cases s'
      case positive.positive => exact congrArg some hswap
      case negative.negative => exact congrArg (fun order => some order.swap) hswap
      all_goals rfl

/-- Numbers can be compared. -/
theorem isSome_compare? (hx : x.isNaN = false) (hy : y.isNaN = false) :
    (compare? x y).isSome = true := by
  unfold Float.isNaN Float.Model.isNaN at hx hy
  unfold compare?
  revert hx hy
  generalize x.toModel.unpack = u, y.toModel.unpack = v
  intro hx hy
  cases u with
  | notANumber => cases hx
  | infinity s =>
    cases v with
    | notANumber => cases hy
    | infinity s' => rfl
    | zero | finite => cases s <;> rfl
  | zero s =>
    cases v with
    | notANumber => cases hy
    | zero => rfl
    | infinity s' | finite s' => cases s' <;> rfl
  | finite s m e h =>
    cases v with
    | notANumber => cases hy
    | infinity s' => cases s' <;> cases s <;> rfl
    | zero => cases s <;> rfl
    | finite s' => cases s <;> cases s' <;> rfl

theorem le_of_lt (h : x < y) : x ≤ y := by
  rw [le_iff, lt_iff.1 h]
  rfl

theorem not_lt_of_le (h : x ≤ y) : ¬ y < x := by
  intro hlt
  rw [le_iff, compare?_swap, lt_iff.1 hlt] at h
  cases h

/-- A number that is not at most another number is above it. -/
theorem lt_of_not_le (hx : x.isNaN = false) (hy : y.isNaN = false) (h : ¬ x ≤ y) : y < x := by
  obtain ⟨order, horder⟩ := Option.isSome_iff_exists.1 (isSome_compare? hx hy)
  rw [lt_iff, compare?_swap, horder]
  rw [le_iff, horder] at h
  cases order with
  | lt | eq => exact absurd rfl h
  | gt => rfl

/-- What is ordered is a number. -/
theorem isNaN_of_le (h : x ≤ y) : x.isNaN = false ∧ y.isNaN = false := by
  rw [le_iff] at h
  unfold compare? at h
  unfold Float.isNaN Float.Model.isNaN
  revert h
  generalize x.toModel.unpack = u, y.toModel.unpack = v
  intro h
  constructor
  · cases u with
    | notANumber => cases h
    | infinity | zero | finite => rfl
  · cases v with
    | notANumber => cases u <;> cases h
    | infinity | zero | finite => rfl

/-- Above a number is every number that is not at most it. -/
theorem lt_iff_not_le (hx : x.isNaN = false) : x < y ↔ ¬ y ≤ x ∧ y.isNaN = false :=
  ⟨fun h => ⟨fun hle => not_lt_of_le hle h, (isNaN_of_le (le_of_lt h)).2⟩,
    fun h => lt_of_not_le h.2 hx h.1⟩

/-! ## Rolls -/

/-- **A probability between the bounds is not changed by them.** -/
theorem clamp_eq_self (h0 : 0.0 ≤ p) (h1 : p ≤ 1.0) : clamp p = p := by
  unfold clamp
  rw [if_neg (not_lt_of_le h0), if_neg (not_lt_of_le h1)]

theorem roll?_eq_none (d : Dice) (label : String) (hp : p.isNaN = true) :
    d.roll? label p = none := by
  unfold roll?
  rw [if_pos hp]

/-- **A number has an answer**, by one draw. -/
theorem roll?_eq_some (d : Dice) (label : String) (hp : p.isNaN = false) :
    ∃ hit, d.roll? label p = some (hit, d.drawn) := by
  unfold roll?
  rw [hp]
  exact ⟨_, rfl⟩

/-- **Certainty succeeds.** -/
theorem roll?_one (d : Dice) (label : String) : d.roll? label 1.0 = some (true, d.drawn) := by
  have hnumber : (1.0 : Float).isNaN = false := by decide +kernel
  have hcertain : (clamp 1.0 == 1.0) = true := by decide +kernel
  unfold roll?
  rw [hnumber]
  simp only [hcertain, if_true]
  rfl

end CardDuel.Dice
