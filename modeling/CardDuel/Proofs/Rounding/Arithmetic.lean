import CardDuel.Proofs.Rounding.Value

/-!
# Arithmetic with rounding

Sums, differences and products of unpacked floats are the exact ones, rounded, with the rules for
infinities and for what is not a number; comparison is that of the values.

* `value_packed_add`, `value_packed_sub`, `value_packed_mul` — the operations.
* `compare_value` — the order.
-/

set_option autoImplicit false

namespace CardDuel.Rounding

open Float.Model (Format UnpackedFloat totalExponent)
open Float.Model.UnpackedFloat

/-! ## Values -/

variable {s : Sign} {m : ℕ} {e : ℤ}

theorem value_finite (s : Sign) (hm : 0 < m) (e : ℤ) :
    value (.finite s m e hm) = ((((s.apply m : ℤ) : ℝ) * 2 ^ e : ℝ) : EReal) := rfl

theorem value_packed_signed (s : Sign) (h : Normalized m e) :
    value (packed (signed s m e)) =
      if e ≤ 971 then ((((s.apply m : ℤ) : ℝ) * 2 ^ e : ℝ) : EReal) else value (.infinity s) := by
  rcases Nat.eq_zero_or_pos m with rfl | hm
  · have he : e ≤ 971 := by
      have hfull := h.full
      omega
    have hzero : s.apply (0 : ℕ) = 0 := by cases s <;> rfl
    rw [if_pos he, hzero, Int.cast_zero, zero_mul]
    show value (packed (.zero s)) = _
    rw [packed_zero]
    rfl
  · rw [signed_of_pos s hm, packed_finite s hm h]
    split <;> rfl

theorem packed_signed_ne (s : Sign) (h : Normalized m e) :
    packed (signed s m e) ≠ .notANumber := by
  rcases Nat.eq_zero_or_pos m with rfl | hm
  · show packed (.zero s) ≠ _
    rw [packed_zero]
    exact nofun
  · rw [signed_of_pos s hm, packed_finite s hm h]
    split <;> exact nofun

theorem negative_apply (m : ℕ) (e : ℤ) :
    ((Sign.negative.apply m : ℤ) : ℝ) * 2 ^ e = -(m * 2 ^ e) := by
  show ((-(m : ℤ) : ℤ) : ℝ) * 2 ^ e = _
  push_cast
  ring

theorem positive_apply (m : ℕ) (e : ℤ) :
    ((Sign.positive.apply m : ℤ) : ℝ) * 2 ^ e = m * 2 ^ e := by
  show ((m : ℤ) : ℝ) * 2 ^ e = _
  rw [Int.cast_natCast]

theorem value_negative (hm : 0 < m) (e : ℤ) :
    value (.finite .negative m e hm) = -((m * 2 ^ e : ℝ) : EReal) := by
  rw [value_finite, negative_apply, EReal.coe_neg]

theorem value_positive (hm : 0 < m) (e : ℤ) :
    value (.finite .positive m e hm) = ((m * 2 ^ e : ℝ) : EReal) := by
  rw [value_finite, positive_apply]

/-- **A mantissa is rounded as the number that it stands for.** -/
theorem value_packed_roundWithAccuracy (s : Sign) (hm : 0 < m) (he : e ≤ lastPlace (m * 2 ^ e)) :
    value (packed (roundWithAccuracy Format.binary64 s m e .exact)) =
      roundedReal (((s.apply m : ℤ) : ℝ) * 2 ^ e) := by
  obtain ⟨m', e', hround, hnormalized, hnearest⟩ := roundWithAccuracy_eq s hm he
  have hpos : (0 : ℝ) < m * 2 ^ e := mul_pos (Nat.cast_pos.2 hm) (two_zpow_pos e)
  have hmagnitude := magnitude_of_normalized hnormalized hnearest
  rw [hround, value_packed_signed s hnormalized]
  cases s with
  | negative =>
    rw [negative_apply, negative_apply, roundedReal_neg hpos, hmagnitude]
    split <;> rfl
  | positive =>
    rw [positive_apply, positive_apply, roundedReal_of_pos hpos, hmagnitude]
    rfl

/-! ## Sums -/

/-- A mantissa may be written with more places. -/
theorem shift_mul_zpow (m n : ℕ) (e : ℤ) : ((m <<< n : ℕ) : ℝ) * 2 ^ (e - n) = m * 2 ^ e := by
  rw [Nat.shiftLeft_eq, zpow_sub₀ two_ne_zero, zpow_natCast]
  push_cast
  field_simp

/-- A mantissa that is written with as many places as the target has, or more. -/
theorem round_eq (s : Sign) (hm : 0 < m) (e : ℤ) :
    ∃ m' e', UnpackedFloat.round Format.binary64 s m e =
      roundWithAccuracy Format.binary64 s m' e' .exact ∧ 0 < m' ∧
      e' ≤ lastPlace (m' * 2 ^ e') ∧ (m' : ℝ) * 2 ^ e' = m * 2 ^ e := by
  generalize hn : (e - lastPlace (m * 2 ^ e)).toNat = n
  have hvalue := shift_mul_zpow m n e
  refine ⟨m <<< n, e - n, ?_, ?_, ?_, hvalue⟩
  · unfold UnpackedFloat.round decreaseExponent
    simp only [targetExponent_eq hm, hn]
  · rw [Nat.shiftLeft_eq]
    positivity
  · rw [hvalue]
    omega

theorem value_packed_round (s : Sign) (hm : 0 < m) (e : ℤ) :
    value (packed (UnpackedFloat.round Format.binary64 s m e)) =
      roundedReal (((s.apply m : ℤ) : ℝ) * 2 ^ e) := by
  obtain ⟨m', e', hround, hm', he', hvalue⟩ := round_eq s hm e
  rw [hround, value_packed_roundWithAccuracy s hm' he']
  cases s with
  | negative => rw [negative_apply, negative_apply, hvalue]
  | positive => rw [positive_apply, positive_apply, hvalue]

/-- **A sum of mantissas is rounded as the number that it stands for.** -/
theorem value_packed_normalize (m e : ℤ) :
    value (packed (UnpackedFloat.normalize Format.binary64 m e .positive)) =
      roundedReal ((m : ℝ) * 2 ^ e) := by
  unfold UnpackedFloat.normalize
  cases hm : compare m 0 with
  | lt =>
    have hneg : m < 0 := compare_lt_iff_lt.1 hm
    have hsame : Sign.negative.apply (-m).toNat = m := by
      show -(((-m).toNat : ℕ) : ℤ) = m
      omega
    dsimp only
    rw [value_packed_round .negative (by omega) e, hsame]
  | eq =>
    rw [compare_eq_iff_eq] at hm
    subst hm
    dsimp only
    rw [packed_zero, Int.cast_zero, zero_mul, roundedReal_zero]
    rfl
  | gt =>
    have hpos : 0 < m := compare_gt_iff_gt.1 hm
    have hsame : Sign.positive.apply m.toNat = m := by
      show ((m.toNat : ℕ) : ℤ) = m
      omega
    dsimp only
    rw [value_packed_round .positive (by omega) e, hsame]

/-- A canonical float is packed as it is. -/
theorem packed_of_canonical {u : UnpackedFloat} (hu : Canonical u) : packed u = u := by
  cases u with
  | notANumber => exact packed_notANumber
  | infinity s => exact packed_infinity s
  | zero s => exact packed_zero s
  | finite s m e hm => rw [packed_finite s hm hu.1, if_pos hu.2]

/-- **A canonical float is its own nearest.** -/
theorem rounded_value {u : UnpackedFloat} (hu : Canonical u) : rounded (value u) = value u := by
  cases u with
  | notANumber => exact rounded_bot
  | infinity s => cases s <;> simp [value]
  | zero s => exact (rounded_coe 0).trans roundedReal_zero
  | finite s m e hm =>
    have hmagnitude := magnitude_of_normalized hu.1 (nearest_of_normalized hu.1).symm
    have hpos : (0 : ℝ) < m * 2 ^ e := mul_pos (Nat.cast_pos.2 hm) (two_zpow_pos e)
    rw [if_pos hu.2] at hmagnitude
    cases s with
    | negative =>
      rw [value_negative, ← EReal.coe_neg, rounded_coe, roundedReal_neg hpos, hmagnitude,
        EReal.coe_neg]
    | positive => rw [value_positive, rounded_coe, roundedReal_of_pos hpos, hmagnitude]

theorem apply_shift (s : Sign) (m : ℕ) {e t : ℤ} (h : t ≤ e) :
    ((s.apply (m <<< (e - t).toNat : ℕ) : ℤ) : ℝ) * 2 ^ t = ((s.apply m : ℤ) : ℝ) * 2 ^ e := by
  have ht : t = e - (e - t).toNat := by omega
  have hshift := shift_mul_zpow m (e - t).toNat e
  rw [← ht] at hshift
  cases s with
  | negative => rw [negative_apply, negative_apply, hshift]
  | positive => rw [positive_apply, positive_apply, hshift]

theorem value_packed_add_finite (s s' : Sign) {m m' : ℕ} (e e' : ℤ) (hm : 0 < m) (hm' : 0 < m') :
    value (packed (UnpackedFloat.add Format.binary64 (.finite s m e hm) (.finite s' m' e' hm'))) =
      rounded (value (.finite s m e hm) + value (.finite s' m' e' hm')) := by
  have hsum : ((s.apply (m <<< (e - min e e').toNat : ℕ) +
      s'.apply (m' <<< (e' - min e e').toNat : ℕ) : ℤ) : ℝ) * 2 ^ min e e' =
      ((s.apply m : ℤ) : ℝ) * 2 ^ e + ((s'.apply m' : ℤ) : ℝ) * 2 ^ e' := by
    rw [Int.cast_add, add_mul, apply_shift s m (min_le_left e e'),
      apply_shift s' m' (min_le_right e e')]
  rw [value_finite, value_finite, ← EReal.coe_add, rounded_coe, ← hsum]
  exact value_packed_normalize _ _

/-- **A sum is the exact sum, rounded.** -/
theorem value_packed_add {u v : UnpackedFloat} (hu : Canonical u) (hv : Canonical v) :
    value (packed (UnpackedFloat.add Format.binary64 u v)) = rounded (value u + value v) := by
  cases u with
  | notANumber => simp [UnpackedFloat.add, packed_notANumber, value]
  | infinity s =>
    cases v with
    | notANumber => cases s <;> simp [UnpackedFloat.add, packed_notANumber, value]
    | infinity s' =>
      cases s <;> cases s' <;>
        simp [UnpackedFloat.add, packed_infinity, packed_notANumber, value]
    | zero | finite => cases s <;> simp [UnpackedFloat.add, packed_infinity, value, -EReal.coe_mul]
  | zero s =>
    cases v with
    | notANumber => simp [UnpackedFloat.add, packed_notANumber, value]
    | infinity s' => cases s' <;> simp [UnpackedFloat.add, packed_infinity, value]
    | zero s' =>
      have hzero : rounded 0 = 0 := rounded_value (u := .zero s) trivial
      cases s <;> cases s' <;> simp [UnpackedFloat.add, packed_zero, value, hzero]
    | finite s' m' e' hm' =>
      show value (packed (.finite s' m' e' hm')) = rounded (0 + _)
      rw [zero_add, packed_of_canonical hv, rounded_value hv]
  | finite s m e hm =>
    cases v with
    | notANumber => simp [UnpackedFloat.add, packed_notANumber, value]
    | infinity s' => cases s' <;> simp [UnpackedFloat.add, packed_infinity, value, -EReal.coe_mul]
    | zero s' =>
      show value (packed (.finite s m e hm)) = rounded (_ + 0)
      rw [add_zero, packed_of_canonical hu, rounded_value hu]
    | finite s' m' e' hm' => exact value_packed_add_finite s s' e e' hm hm'

/-! ## Differences -/

theorem neg_apply (s : Sign) (n : ℤ) : (-s).apply n = -s.apply n := by
  cases s with
  | negative => exact (neg_neg n).symm
  | positive => rfl

/-- A difference is a sum with the second number negated. -/
theorem sub_eq_add_neg (u v : UnpackedFloat) :
    UnpackedFloat.sub Format.binary64 u v = UnpackedFloat.add Format.binary64 u v.neg := by
  cases u with
  | notANumber => rfl
  | infinity s => cases v <;> rfl
  | zero s => cases v <;> rfl
  | finite s m e hm =>
    cases v with
    | finite s' m' e' hm' =>
      simp only [UnpackedFloat.sub, UnpackedFloat.add, UnpackedFloat.neg, neg_apply,
        Int.sub_eq_add_neg]
    | _ => rfl

theorem canonical_neg {u : UnpackedFloat} (hu : Canonical u) : Canonical u.neg := by
  cases u <;> exact hu

theorem value_neg {u : UnpackedFloat} (hu : u ≠ .notANumber) : value u.neg = -value u := by
  cases u with
  | notANumber => exact absurd rfl hu
  | infinity s => cases s <;> simp [UnpackedFloat.neg, value]
  | zero s => simp [UnpackedFloat.neg, value]
  | finite s m e hm =>
    show value (.finite (-s) m e hm) = -value (.finite s m e hm)
    rw [value_finite, value_finite, neg_apply, Int.cast_neg, neg_mul, EReal.coe_neg]

/-- **A difference is the exact difference, rounded**, if the second one is a number. -/
theorem value_packed_sub {u v : UnpackedFloat} (hu : Canonical u) (hv : Canonical v)
    (hnumber : v ≠ .notANumber) :
    value (packed (UnpackedFloat.sub Format.binary64 u v)) = rounded (value u - value v) := by
  rw [sub_eq_add_neg, value_packed_add hu (canonical_neg hv), value_neg hnumber]
  rfl

/-! ## Products -/

theorem apply_mul (s : Sign) (m n : ℤ) : s.apply (m * n) = m * s.apply n := by
  cases s with
  | negative => exact (mul_neg m n).symm
  | positive => rfl

/-- A product with a number of 53 places has as many places itself. -/
theorem le_lastPlace_mul {m m' : ℕ} (hfull : 2 ^ 52 ≤ m) (hm' : 0 < m') (e : ℤ) :
    e ≤ lastPlace ((m * m' : ℕ) * 2 ^ e) := by
  have hplaces : 2 ^ 52 ≤ m * m' := hfull.trans (Nat.le_mul_of_pos_right m hm')
  have hproduct : 0 < m * m' := Nat.pos_of_ne_zero (by omega)
  have hlog := (Nat.le_log2 hproduct.ne').2 hplaces
  unfold lastPlace
  rw [log_mul_zpow hproduct]
  omega

/-- **A product with a positive number of 53 places is the exact product, rounded.**  Products are
never shifted to the left, so that one factor must have all of its places. -/
theorem value_packed_mul {m : ℕ} {e : ℤ} (hm : 0 < m) (hfull : 2 ^ 52 ≤ m) (v : UnpackedFloat) :
    value (packed (UnpackedFloat.mul Format.binary64 (.finite .positive m e hm) v)) =
      rounded (value (.finite .positive m e hm) * value v) := by
  have hpos : (0 : ℝ) < m * 2 ^ e := mul_pos (Nat.cast_pos.2 hm) (two_zpow_pos e)
  rw [value_positive]
  cases v with
  | notANumber =>
    show value (packed .notANumber) = rounded (_ * ⊥)
    rw [packed_notANumber, EReal.coe_mul_bot_of_pos hpos, rounded_bot]
    rfl
  | infinity s =>
    cases s with
    | negative =>
      show value (packed (.infinity .negative)) = rounded (_ * ⊥)
      rw [packed_infinity, EReal.coe_mul_bot_of_pos hpos, rounded_bot]
      rfl
    | positive =>
      show value (packed (.infinity .positive)) = rounded (_ * ⊤)
      rw [packed_infinity, EReal.coe_mul_top_of_pos hpos, rounded_top]
      rfl
  | zero s =>
    show value (packed (.zero _)) = rounded (_ * 0)
    rw [packed_zero, mul_zero]
    exact (rounded_value (u := .zero s) trivial).symm
  | finite s m' e' hm' =>
    have hplace := le_lastPlace_mul hfull hm' (e + e')
    have hsign : Sign.positive * s = s := by cases s <;> rfl
    have hexact : ((s.apply (m * m' : ℕ) : ℤ) : ℝ) * 2 ^ (e + e') =
        m * 2 ^ e * (((s.apply m' : ℤ) : ℝ) * 2 ^ e') := by
      rw [zpow_add₀ two_ne_zero, Nat.cast_mul, apply_mul]
      push_cast
      ring
    have hmul : UnpackedFloat.mul Format.binary64 (.finite .positive m e hm) (.finite s m' e' hm') =
        roundWithAccuracy Format.binary64 (Sign.positive * s) (m * m') (e + e') .exact := rfl
    rw [hmul, hsign, value_packed_roundWithAccuracy s (Nat.mul_pos hm hm') hplace, hexact,
      value_finite, ← EReal.coe_mul, rounded_coe]

/-- It is a number if the other factor is. -/
theorem packed_mul_ne {m : ℕ} {e : ℤ} (hm : 0 < m) (hfull : 2 ^ 52 ≤ m) {v : UnpackedFloat}
    (hv : v ≠ .notANumber) :
    packed (UnpackedFloat.mul Format.binary64 (.finite .positive m e hm) v) ≠ .notANumber := by
  cases v with
  | notANumber => exact absurd rfl hv
  | infinity s =>
    show packed (.infinity _) ≠ _
    rw [packed_infinity]
    exact nofun
  | zero s =>
    show packed (.zero _) ≠ _
    rw [packed_zero]
    exact nofun
  | finite s m' e' hm' =>
    obtain ⟨n, k, hround, hnormalized, -⟩ := roundWithAccuracy_eq (Sign.positive * s)
      (Nat.mul_pos hm hm') (le_lastPlace_mul hfull hm' (e + e'))
    show packed (roundWithAccuracy Format.binary64 _ _ _ .exact) ≠ _
    rw [hround]
    exact packed_signed_ne _ hnormalized

/-! ## Order -/

/-- Of two normalized numbers the exponents decide, then the mantissas. -/
theorem compares_normalized {m m' : ℕ} {e e' : ℤ} (h : Normalized m e) (h' : Normalized m' e') :
    ((compare e e').then (compare m m')).Compares ((m : ℝ) * 2 ^ e) (m' * 2 ^ e') := by
  have hbelow {n n' : ℕ} {k k' : ℤ} (hn : Normalized n k) (hn' : Normalized n' k') (hlt : k < k') :
      (n : ℝ) * 2 ^ k < n' * 2 ^ k' := by
    have hleast := hn.least
    have hfull : 2 ^ 52 ≤ n' := hn'.full.resolve_right (by omega)
    calc (n : ℝ) * 2 ^ k < 2 ^ 53 * 2 ^ k :=
          mul_lt_mul_of_pos_right (by exact_mod_cast hn.lt) (two_zpow_pos k)
      _ = 2 ^ 52 * 2 ^ (k + 1) := by rw [zpow_add₀ two_ne_zero]; ring
      _ ≤ n' * 2 ^ k' := mul_le_mul (by exact_mod_cast hfull)
          (zpow_le_zpow_right₀ one_le_two (by omega)) (two_zpow_pos _).le (Nat.cast_nonneg n')
  rcases lt_trichotomy e e' with he | rfl | he
  · rw [compare_lt_iff_lt.2 he]
    exact hbelow h h' he
  · rw [compare_eq_iff_eq.2 rfl]
    show (compare m m').Compares _ _
    rcases lt_trichotomy m m' with hm | rfl | hm
    · rw [compare_lt_iff_lt.2 hm]
      exact mul_lt_mul_of_pos_right (by exact_mod_cast hm) (two_zpow_pos e)
    · rw [compare_eq_iff_eq.2 rfl]
      rfl
    · rw [compare_gt_iff_gt.2 hm]
      exact mul_lt_mul_of_pos_right (by exact_mod_cast hm) (two_zpow_pos e)
  · rw [compare_gt_iff_gt.2 he]
    exact hbelow h' h he

theorem value_negative_lt (hm : 0 < m) (e : ℤ) : value (.finite .negative m e hm) < 0 := by
  rw [value_finite, negative_apply]
  exact EReal.coe_neg'.2 (neg_neg_of_pos (mul_pos (Nat.cast_pos.2 hm) (two_zpow_pos e)))

theorem lt_value_positive (hm : 0 < m) (e : ℤ) : 0 < value (.finite .positive m e hm) := by
  rw [value_positive]
  exact EReal.coe_pos.2 (mul_pos (Nat.cast_pos.2 hm) (two_zpow_pos e))

/-- Two finite numbers are compared as their values: if they have one sign, by their exponents and
mantissas. -/
theorem compare_value_finite {s s' : Sign} {m m' : ℕ} {e e' : ℤ} (hm : 0 < m) (hm' : 0 < m')
    (h : Normalized m e) (h' : Normalized m' e') :
    ∃ order, UnpackedFloat.compare (.finite s m e hm) (.finite s' m' e' hm') = some order ∧
      order.Compares (value (.finite s m e hm)) (value (.finite s' m' e' hm')) := by
  have hcompares := compares_normalized h h'
  cases s with
  | negative =>
    cases s' with
    | negative =>
      refine ⟨_, rfl, ?_⟩
      rw [value_finite, value_finite, negative_apply, negative_apply]
      generalize (compare e e').then (compare m m') = order at hcompares
      cases order with
      | lt => exact EReal.coe_lt_coe_iff.2 (neg_lt_neg hcompares)
      | eq => exact congrArg (fun x : ℝ => ((-x : ℝ) : EReal)) hcompares
      | gt => exact EReal.coe_lt_coe_iff.2 (neg_lt_neg hcompares)
    | positive => exact ⟨.lt, rfl, (value_negative_lt hm e).trans (lt_value_positive hm' e')⟩
  | positive =>
    cases s' with
    | negative => exact ⟨.gt, rfl, (value_negative_lt hm' e').trans (lt_value_positive hm e)⟩
    | positive =>
      refine ⟨_, rfl, ?_⟩
      rw [value_positive, value_positive]
      generalize (compare e e').then (compare m m') = order at hcompares
      cases order with
      | lt => exact EReal.coe_lt_coe_iff.2 hcompares
      | eq => exact congrArg Real.toEReal hcompares
      | gt => exact EReal.coe_lt_coe_iff.2 hcompares

/-- **Numbers are compared as their values.** -/
theorem compare_value {u v : UnpackedFloat} (hu : Canonical u) (hv : Canonical v)
    (hu' : u ≠ .notANumber) (hv' : v ≠ .notANumber) :
    ∃ order, u.compare v = some order ∧ order.Compares (value u) (value v) := by
  cases u with
  | notANumber => exact absurd rfl hu'
  | infinity s =>
    cases v with
    | notANumber => exact absurd rfl hv'
    | infinity s' =>
      cases s <;> cases s'
      case negative.negative | positive.positive => exact ⟨.eq, rfl, rfl⟩
      case negative.positive => exact ⟨.lt, rfl, bot_lt_top⟩
      case positive.negative => exact ⟨.gt, rfl, bot_lt_top⟩
    | zero | finite =>
      cases s with
      | negative => exact ⟨.lt, rfl, EReal.bot_lt_coe _⟩
      | positive => exact ⟨.gt, rfl, EReal.coe_lt_top _⟩
  | zero s =>
    cases v with
    | notANumber => exact absurd rfl hv'
    | infinity s' =>
      cases s' with
      | negative => exact ⟨.gt, rfl, EReal.bot_lt_zero⟩
      | positive => exact ⟨.lt, rfl, EReal.zero_lt_top⟩
    | zero s' => exact ⟨.eq, rfl, rfl⟩
    | finite s' m' e' hm' =>
      cases s' with
      | negative => exact ⟨.gt, rfl, value_negative_lt hm' e'⟩
      | positive => exact ⟨.lt, rfl, lt_value_positive hm' e'⟩
  | finite s m e hm =>
    cases v with
    | notANumber => exact absurd rfl hv'
    | infinity s' =>
      cases s' with
      | negative => cases s <;> exact ⟨.gt, rfl, EReal.bot_lt_coe _⟩
      | positive => cases s <;> exact ⟨.lt, rfl, EReal.coe_lt_top _⟩
    | zero s' =>
      cases s with
      | negative => exact ⟨.lt, rfl, value_negative_lt hm e⟩
      | positive => exact ⟨.gt, rfl, lt_value_positive hm e⟩
    | finite s' m' e' hm' => exact compare_value_finite hm hm' hu.1 hv.1

end CardDuel.Rounding
