import CardDuel.Proofs.Rounding.Nearest

/-!
# Rounding of mantissas

A float is computed in three steps: the mantissa is shifted until it has 53 places, with two bits
for what falls off, it is rounded by these bits, and it is packed.  The two bits are enough to round
to the nearest integer, so that the first two steps give the nearest number with 53 places.

* `Approximates.roundedMantissa` — the two bits are enough.
* `roundWithAccuracy_eq` — a rounded mantissa is the nearest number, normalized.
* `canonical_unpack`, `packed_finite` — what is unpacked is canonical, and packing changes only
  exponents that are too large.
-/

set_option autoImplicit false

namespace CardDuel.Rounding

open Float.Model (Format UnpackedFloat totalExponent)
open Float.Model.UnpackedFloat

/-! ## Mantissas with a tail -/

namespace Approximates

variable {em : ExtendedMantissa} {x : ℝ}

theorem exact (m : ℕ) : Approximates (.ofMantissaAndAccuracy m .exact) m := by
  refine ⟨0, le_rfl, by norm_num, ?_, ?_⟩
  · simp [ExtendedMantissa.ofMantissaAndAccuracy]
  · simp [ExtendedMantissa.ofMantissaAndAccuracy]

theorem shiftRightOne (h : Approximates em x) : Approximates em.shiftRightOne (x / 2) := by
  obtain ⟨tail, hnonneg, hlt, hsticky, rfl⟩ := h
  have hmantissa : (em.mantissa : ℝ) = 2 * (em.mantissa / 2 : ℕ) + (em.mantissa % 2 : ℕ) := by
    exact_mod_cast (Nat.div_add_mod em.mantissa 2).symm
  refine ⟨(if em.roundBit then 1 / 4 else 0) + tail / 2, ?_, ?_, ?_, ?_⟩
  · split_ifs <;> linarith
  · split_ifs <;> linarith
  · unfold ExtendedMantissa.shiftRightOne
    rw [Bool.or_eq_true, hsticky]
    split_ifs with hround
    · simp only [hround, true_or, true_iff]
      linarith
    · simp only [hround, Bool.false_eq_true, false_or, zero_add]
      exact ⟨half_pos, fun h => by linarith⟩
  · unfold ExtendedMantissa.shiftRightOne
    rw [hmantissa]
    rcases Nat.mod_two_eq_zero_or_one em.mantissa with hmod | hmod
    · simp only [hmod, bne_self_eq_false, Bool.false_eq_true, if_false, Nat.cast_zero]
      split_ifs <;> ring
    · simp only [hmod]
      split_ifs <;> simp_all <;> ring

theorem shiftRight (h : Approximates em x) (n : ℕ) : Approximates (em >>> n) (x / 2 ^ n) := by
  induction n with
  | zero =>
    rw [pow_zero, div_one]
    exact h
  | succ n ih =>
    have hnext := ih.shiftRightOne
    rw [div_div, ← pow_succ] at hnext
    exact hnext

/-- **The two bits are enough to round to the nearest integer.** -/
theorem roundedMantissa (h : Approximates em x) : (em.roundedMantissa : ℤ) = nearestEven x := by
  obtain ⟨tail, hnonneg, hlt, hsticky, rfl⟩ := h
  obtain ⟨m, round, sticky⟩ := em
  have hfloor : ⌊(m : ℝ) + (if round then 1 / 2 else 0) + tail⌋ = m := by
    rw [Int.floor_eq_iff]
    split_ifs <;> constructor <;> push_cast <;> linarith
  have hfract : Int.fract ((m : ℝ) + (if round then 1 / 2 else 0) + tail) =
      (if round then 1 / 2 else 0) + tail := by
    rw [Int.fract, hfloor, Int.cast_natCast]
    ring
  unfold nearestEven
  rw [hfract, hfloor]
  cases round with
  | false =>
    rw [if_pos (by simpa using hlt)]
    cases sticky <;> rfl
  | true =>
    rw [if_neg (by simpa using hnonneg)]
    cases sticky with
    | false =>
      have htail : ¬ 0 < tail := fun h => Bool.false_ne_true (hsticky.2 h)
      rw [if_neg (by simpa using htail)]
      rfl
    | true =>
      rw [if_pos (by simpa using hsticky.1 rfl)]
      rfl

end Approximates

/-! ## Rounding to 53 places -/

theorem targetExponent_eq {m : ℕ} (hm : 0 < m) (e : ℤ) :
    Format.binary64.targetExponent (totalExponent m e) = lastPlace (m * 2 ^ e) := by
  have hplaces : totalExponent m e - Format.binary64.mantissaBits = m.log2 + e - 52 := by
    show (m.log2 : ℤ) + 1 + e - 53 = m.log2 + e - 52
    omega
  rw [lastPlace, log_mul_zpow hm, Format.targetExponent, hplaces]
  rfl

theorem targetExponent_le {m : ℕ} {e : ℤ} (hlt : m < 2 ^ 53) (hleast : -1074 ≤ e) :
    Format.binary64.targetExponent (totalExponent m e) ≤ e := by
  have hlog : m.log2 ≤ 52 := by
    rcases eq_or_ne m 0 with rfl | hm
    · exact Nat.zero_le 52
    · exact Nat.lt_succ_iff.1 ((Nat.log2_lt hm).2 hlt)
  show max ((m.log2 : ℤ) + 1 + e - 53) (-1074) ≤ e
  omega

theorem shiftToTargetExponent_eq {m n : ℕ} {e : ℤ}
    (hn : (Format.binary64.targetExponent (totalExponent m e) - e).toNat = n) :
    shiftToTargetExponent Format.binary64 m e .exact =
      (ExtendedMantissa.ofMantissaAndAccuracy m .exact >>> n, e + n) := by
  rw [← hn]
  rfl

/-- What was rounded has its places, or one too many, which is a zero. -/
theorem shift_rounded {m : ℕ} {e : ℤ} (hle : m ≤ 2 ^ 53) (hleast : -1074 ≤ e)
    (hfull : 2 ^ 52 ≤ m ∨ e = -1074) :
    ∃ em e', shiftToTargetExponent Format.binary64 m e .exact = (em, e') ∧
      Normalized em.mantissa e' ∧ (em.mantissa : ℝ) * 2 ^ e' = m * 2 ^ e := by
  rcases hle.lt_or_eq with hlt | rfl
  · have hnone : (Format.binary64.targetExponent (totalExponent m e) - e).toNat = 0 := by
      have htarget := targetExponent_le hlt hleast
      omega
    refine ⟨⟨m, false, false⟩, e, ?_, ⟨hlt, hleast, hfull⟩, rfl⟩
    rw [shiftToTargetExponent_eq hnone, Nat.cast_zero, add_zero]
    rfl
  · have htarget : Format.binary64.targetExponent (totalExponent (2 ^ 53) e) = e + 1 := by
      show max (((2 ^ 53).log2 : ℤ) + 1 + e - 53) (-1074) = e + 1
      rw [Nat.log2_two_pow]
      omega
    have hone : (Format.binary64.targetExponent (totalExponent (2 ^ 53) e) - e).toNat = 1 := by
      omega
    refine ⟨⟨2 ^ 52, false, false⟩, e + 1, ?_, ⟨by norm_num, by omega, .inl le_rfl⟩, ?_⟩
    · rw [shiftToTargetExponent_eq hone]
      rfl
    · rw [zpow_add₀ two_ne_zero]
      norm_num
      ring

theorem roundWithAccuracy_eq (s : Sign) {m : ℕ} {e : ℤ} (hm : 0 < m)
    (he : e ≤ lastPlace (m * 2 ^ e)) :
    ∃ m' e', roundWithAccuracy Format.binary64 s m e .exact = signed s m' e' ∧
      Normalized m' e' ∧ (m' : ℝ) * 2 ^ e' = nearest (m * 2 ^ e) := by
  have hpos : (0 : ℝ) < m * 2 ^ e := mul_pos (Nat.cast_pos.2 hm) (two_zpow_pos e)
  obtain ⟨n, hn⟩ : ∃ n : ℕ, lastPlace (m * 2 ^ e) = e + n :=
    ⟨(lastPlace (m * 2 ^ e) - e).toNat, by omega⟩
  have hshift : shiftToTargetExponent Format.binary64 m e .exact =
      (ExtendedMantissa.ofMantissaAndAccuracy m .exact >>> n, lastPlace (m * 2 ^ e)) := by
    rw [hn]
    apply shiftToTargetExponent_eq
    rw [targetExponent_eq hm, hn, add_sub_cancel_left, Int.toNat_natCast]
  have hrounded := ((Approximates.exact m).shiftRight n).roundedMantissa
  have hquotient : (m : ℝ) / 2 ^ n = m * 2 ^ e / 2 ^ lastPlace (m * 2 ^ e) := by
    rw [hn, zpow_add₀ two_ne_zero, mul_comm (m : ℝ), mul_div_mul_left _ _ (two_zpow_pos e).ne',
      zpow_natCast]
  rw [hquotient] at hrounded
  generalize hr : (ExtendedMantissa.ofMantissaAndAccuracy m .exact >>> n).roundedMantissa = r
    at hrounded
  have hnearest : (r : ℝ) * 2 ^ lastPlace (m * 2 ^ e) = nearest (m * 2 ^ e) := by
    rw [nearest, ← hrounded, Int.cast_natCast]
  -- rounding may carry into one place more, which the second shift takes away again
  have hle : r ≤ 2 ^ 53 := by
    have hbound := nearest_le (m * 2 ^ e)
    rw [← hnearest, add_comm, zpow_add₀ two_ne_zero] at hbound
    exact_mod_cast le_of_mul_le_mul_right hbound (two_zpow_pos _)
  have hfull : 2 ^ 52 ≤ r ∨ lastPlace (m * 2 ^ e) = -1074 := by
    rcases (least_le_lastPlace (m * 2 ^ e)).lt_or_eq with hleast | hleast
    · have hbound := le_nearest hpos hleast
      rw [← hnearest, add_comm, zpow_add₀ two_ne_zero] at hbound
      left
      exact_mod_cast le_of_mul_le_mul_right hbound (two_zpow_pos _)
    · exact .inr hleast.symm
  obtain ⟨em, e', hfinal, hnormalized, hvalue⟩ :=
    shift_rounded hle (least_le_lastPlace _) hfull
  refine ⟨em.mantissa, e', ?_, hnormalized, hvalue.trans hnearest⟩
  simp only [roundWithAccuracy, hshift, hr, hfinal]
  rfl

/-! ## Packing -/

theorem toNat_implicit (v : BitVec 52) : (1#1 ++ v).toNat = 2 ^ 52 + v.toNat := by
  rw [BitVec.toNat_append, ← Nat.shiftLeft_add_eq_or_of_lt v.isLt, Nat.shiftLeft_eq]
  rfl

/-- **What is unpacked is canonical.** -/
theorem canonical_unpack (x : Float.Model) : Canonical x.unpack := by
  unfold Float.Model.unpack
  generalize x.toBits.toBitVec = b
  unfold UnpackedFloat.unpack
  extract_lets mantissa exponent e sign
  have hmantissa : mantissa.toNat < 2 ^ 52 := mantissa.isLt
  have he : e = exponent.toNat - 1075 := rfl
  split_ifs with hlast hzero hfirst hzero
  · trivial
  · trivial
  · trivial
  · have hexponent : exponent.toNat = 0 := congrArg BitVec.toNat hfirst
    exact ⟨⟨by omega, by omega, by omega⟩, by omega⟩
  · have hexponent : exponent.toNat ≠ 0 := fun h => hfirst (BitVec.eq_of_toNat_eq h)
    have hlast : exponent.toNat ≠ 2047 := fun h => hlast (BitVec.eq_of_toNat_eq h)
    have hlt : exponent.toNat < 2048 := exponent.isLt
    show Normalized (1#1 ++ mantissa).toNat e ∧ e ≤ 971
    rw [toNat_implicit]
    exact ⟨⟨by omega, by omega, by omega⟩, by omega⟩

theorem packed_notANumber : packed .notANumber = .notANumber :=
  @unpack_packedNaN Format.binary64

theorem packed_zero (s : Sign) : packed (.zero s) = .zero s :=
  @unpack_packedZero Format.binary64 s

theorem signed_of_pos (s : Sign) {m : ℕ} (hm : 0 < m) (e : ℤ) :
    signed s m e = .finite s m e hm :=
  dif_neg hm.ne'

/-- The components of what is packed are found again. -/
theorem unpack_packComponents (s : Sign) (exponent : BitVec 11) (mantissa : BitVec 52) :
    UnpackedFloat.unpack Format.binary64 (packComponents Format.binary64 s exponent mantissa) =
      if exponent = -1#11 then if mantissa = 0#52 then .infinity s else .notANumber
      else if exponent = 0#11 then signed s mantissa.toNat (-1074)
      else signed s (1#1 ++ mantissa).toNat (exponent.toNat - 1075) := by
  unfold UnpackedFloat.unpack
  simp only [unpackExponent_packComponents, unpackMantissa_packComponents,
    unpackSign_packComponents, Sign.ofBitVec_toBitVec]
  split_ifs with hlast hzero hfirst hzero
  · rfl
  · rfl
  · rw [hzero]
    rfl
  · have hpos : 0 < mantissa.toNat :=
      Nat.pos_of_ne_zero fun h => hzero (BitVec.eq_of_toNat_eq h)
    rw [signed_of_pos s hpos, hfirst]
    rfl
  · have hpos : 0 < (1#1 ++ mantissa).toNat := by
      rw [toNat_implicit]
      omega
    rw [signed_of_pos s hpos]
    rfl

theorem packed_infinity (s : Sign) : packed (.infinity s) = .infinity s :=
  unpack_packComponents s (-1#11) 0#52

/-- **A float is packed as it is or as infinite.** -/
theorem packed_finite (s : Sign) {m : ℕ} {e : ℤ} (hm : 0 < m) (h : Normalized m e) :
    packed (.finite s m e hm) = if e ≤ 971 then .finite s m e hm else .infinity s := by
  have hleast := h.least
  have hpack : UnpackedFloat.pack Format.binary64 (.finite s m e hm) =
      if 2048 ≤ (e + 1023 + 52).toNat + 1 then packedInfinity Format.binary64 s
      else if m.log2 + 1 = 53 then packComponents Format.binary64 s
        (BitVec.ofNat 11 (e + 1023 + 52).toNat) (BitVec.ofNat 52 m)
      else packComponents Format.binary64 s 0#11 (BitVec.ofNat 52 m) := rfl
  show UnpackedFloat.unpack Format.binary64 (UnpackedFloat.pack Format.binary64 _) = _
  rw [hpack]
  -- the exponent is too large, or all places are used, or the number is below the least normal one
  split_ifs with hlarge he hfull he hfull
  · omega
  · exact packed_infinity s
  · have hlow : 2 ^ 52 ≤ m := (Nat.le_log2 hm.ne').1 (by omega)
    have hexponent : (BitVec.ofNat 11 (e + 1023 + 52).toNat).toNat = (e + 1023 + 52).toNat := by
      rw [BitVec.toNat_ofNat, Nat.mod_eq_of_lt (by omega)]
    have hmantissa : (1#1 ++ BitVec.ofNat 52 m).toNat = m := by
      have hlt := h.lt
      rw [toNat_implicit, BitVec.toNat_ofNat]
      omega
    have hlast : BitVec.ofNat 11 (e + 1023 + 52).toNat ≠ -1#11 := by
      intro heq
      have hvalue : (BitVec.ofNat 11 (e + 1023 + 52).toNat).toNat = 2047 :=
        congrArg BitVec.toNat heq
      omega
    have hfirst : BitVec.ofNat 11 (e + 1023 + 52).toNat ≠ 0#11 := by
      intro heq
      have hvalue : (BitVec.ofNat 11 (e + 1023 + 52).toNat).toNat = 0 := congrArg BitVec.toNat heq
      omega
    have he' : (((e + 1023 + 52).toNat : ℕ) : ℤ) - 1075 = e := by omega
    rw [unpack_packComponents, if_neg hlast, if_neg hfirst, hmantissa, hexponent, he',
      signed_of_pos s hm]
  · omega
  · have hlow : m < 2 ^ 52 := by
      by_contra hlow
      have hlog := (Nat.le_log2 hm.ne').2 (not_lt.1 hlow)
      have hlog' := (Nat.log2_lt hm.ne').2 h.lt
      omega
    have he' : e = -1074 := h.full.resolve_left (by omega)
    have hmantissa : (BitVec.ofNat 52 m).toNat = m := by
      rw [BitVec.toNat_ofNat, Nat.mod_eq_of_lt hlow]
    have hlast : (0#11 : BitVec 11) ≠ -1#11 := by decide
    subst he'
    rw [unpack_packComponents, if_neg hlast, if_pos rfl, hmantissa, signed_of_pos s hm]
  · omega

end CardDuel.Rounding
