import CardDuel.Proofs.Rounding.Basic

/-!
# Rounding to the nearest float

Of two numbers the larger one is rounded to the larger float, also where the last place changes or
the sign, and a float is rounded to itself.

* `nearestEven_mono` — rounding to integers keeps the order.
* `nearest_mono` — so does rounding to 53 places.
* `rounded_mono` — so does rounding of any number and of the infinities.
* `nearest_of_normalized` — what has 53 places is not changed.
-/

set_option autoImplicit false

namespace CardDuel.Rounding

/-! ## Integers -/

theorem floor_le_nearestEven (x : ℝ) : ⌊x⌋ ≤ nearestEven x := by
  unfold nearestEven
  split_ifs <;> omega

theorem nearestEven_le_floor_add_one (x : ℝ) : nearestEven x ≤ ⌊x⌋ + 1 := by
  unfold nearestEven
  split_ifs <;> omega

@[simp]
theorem nearestEven_intCast (n : ℤ) : nearestEven n = n := by
  unfold nearestEven
  rw [Int.fract_intCast, if_pos (by norm_num), Int.floor_intCast]

/-- **Rounding to integers keeps the order.** -/
theorem nearestEven_mono : Monotone nearestEven := by
  intro x y hxy
  rcases (Int.floor_mono hxy).lt_or_eq with hfloor | hfloor
  · have hx := nearestEven_le_floor_add_one x
    have hy := floor_le_nearestEven y
    omega
  · have hfract : Int.fract x ≤ Int.fract y := by
      unfold Int.fract
      rw [hfloor]
      linarith
    unfold nearestEven
    rw [hfloor]
    split_ifs <;> first | omega | (exfalso; linarith)

theorem nearestEven_nonneg {x : ℝ} (hx : 0 ≤ x) : 0 ≤ nearestEven x :=
  (Int.floor_nonneg.2 hx).trans (floor_le_nearestEven x)

/-! ## Places -/

theorem least_le_lastPlace (x : ℝ) : -1074 ≤ lastPlace x := le_max_right _ _

variable {x y : ℝ}

theorem two_zpow_pos (e : ℤ) : (0 : ℝ) < 2 ^ e := zpow_pos two_pos e

theorem lastPlace_mono (hx : 0 < x) (hxy : x ≤ y) : lastPlace x ≤ lastPlace y :=
  max_le_max (Int.sub_le_sub_right (Int.log_mono_right hx hxy) 52) le_rfl

theorem nearest_zero : nearest 0 = 0 := by
  have hzero := nearestEven_intCast 0
  rw [Int.cast_zero] at hzero
  rw [nearest, zero_div, hzero, Int.cast_zero, zero_mul]

theorem nearest_nonneg (hx : 0 ≤ x) : 0 ≤ nearest x := by
  have hinteger : 0 ≤ nearestEven (x / 2 ^ lastPlace x) :=
    nearestEven_nonneg (div_nonneg hx (two_zpow_pos _).le)
  exact mul_nonneg (Int.cast_nonneg hinteger) (two_zpow_pos _).le

/-- A number is rounded to at most the power of two above it. -/
theorem nearest_le (x : ℝ) : nearest x ≤ 2 ^ (lastPlace x + 53) := by
  have hlog : x < 2 ^ (Int.log 2 x + 1) := by
    exact_mod_cast Int.lt_zpow_succ_log_self one_lt_two x
  have hplace : (2 : ℝ) ^ (Int.log 2 x + 1) ≤ 2 ^ (lastPlace x + 53) := by
    apply zpow_le_zpow_right₀ one_le_two
    unfold lastPlace
    omega
  have hquotient : x / 2 ^ lastPlace x ≤ ((2 ^ 53 : ℤ) : ℝ) := by
    rw [div_le_iff₀ (two_zpow_pos _)]
    refine (hlog.le.trans hplace).trans_eq ?_
    rw [zpow_add₀ two_ne_zero, mul_comm]
    norm_num
  have hinteger := nearestEven_mono hquotient
  rw [nearestEven_intCast] at hinteger
  rw [nearest, zpow_add₀ two_ne_zero, mul_comm]
  apply mul_le_mul_of_nonneg_left _ (two_zpow_pos _).le
  exact_mod_cast hinteger

/-- A number is rounded to at least the power of two below it. -/
theorem le_nearest (hy : 0 < y) (hplace : -1074 < lastPlace y) :
    2 ^ (lastPlace y + 52) ≤ nearest y := by
  have hlog : lastPlace y + 52 = Int.log 2 y := by
    unfold lastPlace at hplace ⊢
    omega
  have hpower : (2 : ℝ) ^ (lastPlace y + 52) ≤ y := by
    rw [hlog]
    exact_mod_cast Int.zpow_log_le_self one_lt_two hy
  have hquotient : ((2 ^ 52 : ℤ) : ℝ) ≤ y / 2 ^ lastPlace y := by
    rw [le_div_iff₀ (two_zpow_pos _)]
    refine Eq.trans_le ?_ hpower
    rw [zpow_add₀ two_ne_zero, mul_comm]
    norm_num
  have hinteger := nearestEven_mono hquotient
  rw [nearestEven_intCast] at hinteger
  rw [nearest, zpow_add₀ two_ne_zero, mul_comm]
  apply mul_le_mul_of_nonneg_right _ (two_zpow_pos _).le
  exact_mod_cast hinteger

/-- **Rounding to 53 places keeps the order.**  If the last places differ, a power of two lies
between the two numbers. -/
theorem nearest_mono (hx : 0 ≤ x) (hxy : x ≤ y) : nearest x ≤ nearest y := by
  rcases hx.eq_or_lt with rfl | hpos
  · rw [nearest_zero]
    exact nearest_nonneg hxy
  rcases (lastPlace_mono hpos hxy).lt_or_eq with hplace | hplace
  · have hbelow : -1074 < lastPlace y := (least_le_lastPlace x).trans_lt hplace
    calc nearest x ≤ 2 ^ (lastPlace x + 53) := nearest_le x
      _ ≤ 2 ^ (lastPlace y + 52) := zpow_le_zpow_right₀ one_le_two (by omega)
      _ ≤ nearest y := le_nearest (hpos.trans_le hxy) hbelow
  · unfold nearest
    rw [← hplace]
    apply mul_le_mul_of_nonneg_right _ (two_zpow_pos _).le
    exact_mod_cast nearestEven_mono (div_le_div_of_nonneg_right hxy (two_zpow_pos _).le)

/-! ## Normalized numbers -/

/-- The logarithm of a whole number of places. -/
theorem log_mul_zpow {m : ℕ} (hm : 0 < m) (e : ℤ) :
    Int.log 2 ((m : ℝ) * 2 ^ e) = (m.log2 : ℤ) + e := by
  have hlow : ((2 : ℕ) : ℝ) ^ ((m.log2 : ℤ) + e) ≤ m * 2 ^ e := by
    rw [Nat.cast_two, zpow_add₀ two_ne_zero, zpow_natCast]
    apply mul_le_mul_of_nonneg_right _ (two_zpow_pos _).le
    exact_mod_cast Nat.log2_self_le hm.ne'
  have hhigh : (m : ℝ) * 2 ^ e < ((2 : ℕ) : ℝ) ^ ((m.log2 : ℤ) + e + 1) := by
    rw [Nat.cast_two, add_right_comm, zpow_add₀ two_ne_zero]
    apply mul_lt_mul_of_pos_right _ (two_zpow_pos _)
    exact_mod_cast Nat.lt_log2_self
  have hpos : (0 : ℝ) < m * 2 ^ e := mul_pos (Nat.cast_pos.2 hm) (two_zpow_pos e)
  apply le_antisymm
  · exact Int.lt_add_one_iff.1 ((Int.lt_zpow_iff_log_lt one_lt_two hpos).1 hhigh)
  · exact (Int.zpow_le_iff_le_log one_lt_two hpos).1 hlow

/-- **What has 53 places is not changed.** -/
theorem nearest_of_normalized {m : ℕ} {e : ℤ} (h : Normalized m e) :
    nearest (m * 2 ^ e) = m * 2 ^ e := by
  rcases Nat.eq_zero_or_pos m with rfl | hm
  · rw [Nat.cast_zero, zero_mul, nearest_zero]
  have hlt : m.log2 < 53 := (Nat.log2_lt hm.ne').2 h.lt
  have hplace : lastPlace ((m : ℝ) * 2 ^ e) = e := by
    unfold lastPlace
    rw [log_mul_zpow hm]
    have hleast := h.least
    rcases h.full with hfull | hfull
    · have hlog := (Nat.le_log2 hm.ne').2 hfull
      omega
    · omega
  rw [nearest, hplace, mul_div_cancel_right₀ _ (two_zpow_pos e).ne']
  have hinteger := nearestEven_intCast m
  rw [Int.cast_natCast] at hinteger
  rw [hinteger, Int.cast_natCast]

/-! ## Signs and infinities -/

/-- The magnitude is infinite if the exponent is too large. -/
theorem magnitude_of_normalized {m : ℕ} {e : ℤ} (h : Normalized m e)
    (hx : (m : ℝ) * 2 ^ e = nearest x) :
    magnitude x = if e ≤ 971 then ((m * 2 ^ e : ℝ) : EReal) else ⊤ := by
  unfold magnitude
  rw [← hx]
  split_ifs with hlarge he he
  · have hsmall : (m : ℝ) * 2 ^ e < 2 ^ (53 : ℤ) * 2 ^ (971 : ℤ) := by
      rw [zpow_ofNat]
      exact mul_lt_mul (by exact_mod_cast h.lt) (zpow_le_zpow_right₀ one_le_two he)
        (two_zpow_pos e) (by positivity)
    rw [← zpow_add₀ two_ne_zero] at hsmall
    exact absurd hsmall (not_lt.2 hlarge)
  · rfl
  · rfl
  · have hfull : 2 ^ 52 ≤ m := h.full.resolve_right (by omega)
    have hbig : (2 : ℝ) ^ (52 : ℤ) * 2 ^ (972 : ℤ) ≤ m * 2 ^ e := by
      rw [zpow_ofNat]
      exact mul_le_mul (by exact_mod_cast hfull) (zpow_le_zpow_right₀ one_le_two (by omega))
        (two_zpow_pos _).le (Nat.cast_nonneg m)
    rw [← zpow_add₀ two_ne_zero] at hbig
    exact absurd hbig hlarge

theorem magnitude_nonneg (hx : 0 ≤ x) : 0 ≤ magnitude x := by
  unfold magnitude
  split
  · exact le_top
  · exact EReal.coe_nonneg.2 (nearest_nonneg hx)

theorem magnitude_mono (hx : 0 ≤ x) (hxy : x ≤ y) : magnitude x ≤ magnitude y := by
  have hnearest := nearest_mono hx hxy
  unfold magnitude
  split_ifs with h h'
  · exact le_rfl
  · exact absurd (h.trans hnearest) h'
  · exact le_top
  · exact EReal.coe_le_coe_iff.2 hnearest

theorem roundedReal_of_pos (hx : 0 < x) : roundedReal x = magnitude x :=
  if_neg (not_lt.2 hx.le)

theorem roundedReal_neg (hx : 0 < x) : roundedReal (-x) = -magnitude x := by
  rw [roundedReal, if_pos (neg_neg_of_pos hx), neg_neg]

theorem roundedReal_zero : roundedReal 0 = 0 := by
  rw [roundedReal, if_neg (lt_irrefl 0), magnitude, nearest_zero,
    if_neg (not_le.2 (two_zpow_pos 1024)), EReal.coe_zero]

theorem roundedReal_mono : Monotone roundedReal := by
  intro x y hxy
  unfold roundedReal
  split_ifs with hx hy hy
  · exact EReal.neg_le_neg_iff.2 (magnitude_mono (by linarith) (by linarith))
  · have hneg : -magnitude (-x) ≤ -0 :=
      EReal.neg_le_neg_iff.2 (magnitude_nonneg (by linarith))
    rw [neg_zero] at hneg
    exact hneg.trans (magnitude_nonneg (not_lt.1 hy))
  · exact absurd (hxy.trans_lt hy) hx
  · exact magnitude_mono (not_lt.1 hx) hxy

@[simp]
theorem rounded_bot : rounded ⊥ = ⊥ := if_pos rfl

@[simp]
theorem rounded_top : rounded ⊤ = ⊤ := by
  rw [rounded, if_neg top_ne_bot, if_pos rfl]

@[simp]
theorem rounded_coe (x : ℝ) : rounded x = roundedReal x := by
  rw [rounded, if_neg (EReal.coe_ne_bot x), if_neg (EReal.coe_ne_top x), EReal.toReal_coe]

/-- **Rounding keeps the order.** -/
theorem rounded_mono : Monotone rounded := by
  intro x y hxy
  induction x with
  | bot => rw [rounded_bot]; exact bot_le
  | top => rw [top_le_iff.1 hxy]
  | coe x =>
    induction y with
    | bot => exact absurd (le_bot_iff.1 hxy) (EReal.coe_ne_bot x)
    | top => rw [rounded_top]; exact le_top
    | coe y =>
      rw [rounded_coe, rounded_coe]
      exact roundedReal_mono (EReal.coe_le_coe_iff.1 hxy)

end CardDuel.Rounding
