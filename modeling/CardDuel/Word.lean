/-!
# Counters that stop at their bounds

Shield charges, shares, turns and ids are unsigned words and attack is a signed one; they stop at
the bounds of their width instead of wrapping.  Health is compared with its maximum by a
difference that is exact as long as it fits.

Principal statements: `toNat_add`, `toInt_addSigned` (a sum is the exact sum, cut to the range),
`toNat_missing` (what is missing is the exact difference, or nothing).
-/

set_option autoImplicit false

namespace CardDuel.Word

/-- The greatest unsigned word. -/
def maxNat : Nat := 4294967295

/-- The sum of two unsigned words, or the greatest word. -/
def add (a b : UInt32) : UInt32 := UInt32.ofNatClamp (a.toNat + b.toNat)

/-- The sum of two signed words, or the nearest bound. -/
def addSigned (a b : Int32) : Int32 := Int32.ofIntClamp (a.toInt + b.toInt)

/-- What is missing from `now` to `most`, nothing when `now` is already there. -/
def missing (now most : Int32) : UInt32 := (max (most - now) 0).toUInt32

theorem toNat_add (a b : UInt32) : (add a b).toNat = min (a.toNat + b.toNat) maxNat := by
  simp only [add, maxNat]
  by_cases h : a.toNat + b.toNat < 4294967296
  · rw [UInt32.toNat_ofNatClamp_of_lt (by simpa using h)]
    omega
  · rw [UInt32.toNat_ofNatClamp_of_le (by simpa using h)]
    simp; omega

theorem le_add (a b : UInt32) : a ≤ add a b := by
  have hsum := toNat_add a b
  have ha := a.toNat_lt
  rw [maxNat] at hsum
  rw [UInt32.le_iff_toNat_le]
  omega

/-- Below the greatest number there is room for one more. -/
theorem lt_add_one {a : UInt32} (h : a < 4294967295) : a < add a 1 := by
  have hsum := toNat_add a 1
  have hone : (1 : UInt32).toNat = 1 := rfl
  have hmost : (4294967295 : UInt32).toNat = 4294967295 := rfl
  rw [maxNat] at hsum
  rw [UInt32.lt_iff_toNat_lt] at h ⊢
  omega

theorem toInt_addSigned (a b : Int32) :
    (addSigned a b).toInt = max (-2147483648) (min (a.toInt + b.toInt) 2147483647) := by
  have hlo : Int32.minValue.toInt = -2147483648 := by decide
  have hhi : Int32.maxValue.toInt = 2147483647 := by decide
  unfold addSigned
  generalize a.toInt + b.toInt = s
  by_cases h₁ : Int32.minValue.toInt ≤ s
  · by_cases h₂ : s ≤ Int32.maxValue.toInt
    · rw [Int32.toInt_ofIntClamp h₁ h₂]
      omega
    · rw [Int32.ofIntClamp, dif_pos h₁, dif_neg h₂]
      omega
  · rw [Int32.ofIntClamp, dif_neg h₁]
    omega

theorem nonneg_iff {n : Int32} : 0 ≤ n ↔ 0 ≤ n.toInt := by
  rw [Int32.le_iff_toInt_le, Int32.toInt_zero]

theorem pos_iff {n : Int32} : 0 < n ↔ 0 < n.toInt := by
  rw [Int32.lt_iff_toInt_lt, Int32.toInt_zero]

theorem toInt_toUInt32 {n : Int32} (hn : 0 ≤ n) : (n.toUInt32.toNat : Int) = n.toInt := by
  rw [Int32.toNat_toUInt32_of_le hn, ← Int32.toNat_toInt]
  exact Int.toNat_of_nonneg (nonneg_iff.1 hn)

theorem toInt_sub {a b : Int32} (lo : -2147483648 ≤ a.toInt - b.toInt)
    (hi : a.toInt - b.toInt < 2147483648) : (a - b).toInt = a.toInt - b.toInt := by
  rw [Int32.toInt_sub]
  exact Int.bmod_eq_of_le (by simpa using lo) (by simpa using hi)

theorem toInt_max_zero (a : Int32) : (max a 0).toInt = max a.toInt 0 := by
  by_cases h : a ≤ 0
  · have hmax : max a 0 = 0 := if_pos h
    have hle := Int32.le_iff_toInt_le.1 h
    rw [hmax]
    exact (Int.max_eq_right hle).symm
  · have hmax : max a 0 = a := if_neg h
    have hpos := pos_iff.1 (Int32.not_le.1 h)
    rw [hmax]
    exact (Int.max_eq_left (Int.le_of_lt hpos)).symm

theorem toNat_missing {now most : Int32} (lo : -2147483648 ≤ most.toInt - now.toInt)
    (hi : most.toInt - now.toInt < 2147483648) :
    (missing now most).toNat = (most.toInt - now.toInt).toNat := by
  have hmax : (max (most - now) 0).toInt = max (most.toInt - now.toInt) 0 := by
    rw [toInt_max_zero, toInt_sub lo hi]
  have hnonneg : 0 ≤ max (most - now) 0 := nonneg_iff.2 (by omega)
  have hword := toInt_toUInt32 hnonneg
  unfold missing
  omega

end CardDuel.Word
