import CardDuel.Proofs.Judge.CatchChance
import CardDuel.Proofs.Rounding.Infinite

/-!
# What the judge makes of infinity

If something that is looked at is not finite, the chance is one of its bounds.  It is the floor if
something is no number or lowers the chance without end.  Otherwise it is the ceiling: the sum keeps
the order, and it is infinite even if the finite rest is as low as it can be.

* `level_raw_of_keptDown`, `level_raw_of_not_keptDown` — the sum is infinite, or no number.
* `catchChance_of_not_finite` — hence the chance is one of the bounds, and which one.
-/

set_option autoImplicit false

namespace CardDuel.JudgeInputs

open Rounding

variable {i j : JudgeInputs Float}

/-- Everything that is looked at. -/
def toList (i : JudgeInputs Float) : List Float := [i.dirtyPower, i.probation, i.mood, i.hostility]

/-- Something is no number, or it is infinite and lowers the chance. -/
def KeptDown (i : JudgeInputs Float) : Prop :=
  (∃ x ∈ i.toList, x.isNaN) ∨ i.dirtyPower == -infinity ∨ i.probation == -infinity ∨
    i.mood == infinity ∨ i.hostility == -infinity

instance (i : JudgeInputs Float) : Decidable i.KeptDown :=
  inferInstanceAs (Decidable (_ ∨ _))

theorem keptDown_iff : i.KeptDown ↔ level i.dirtyPower = ⊥ ∨ level i.probation = ⊥ ∨
    i.mood.isNaN = true ∨ level i.mood = ⊤ ∨ level i.hostility = ⊥ := by
  simp only [KeptDown, toList, List.exists_mem_cons_iff, List.not_mem_nil, false_and, exists_false,
    or_false, level_eq_bot_iff, level_eq_top_iff]
  tauto

/-! ## The sum -/

/-- **What keeps the chance down takes the sum below all numbers.** -/
theorem level_raw_of_keptDown (h : i.KeptDown) : level i.raw = ⊥ := by
  obtain ⟨hdirty, hprobation, hlenient, hhostility⟩ := full_weights
  cases hmood : i.mood.isNaN with
  | true =>
    rw [raw, level_add, level_sub_of_isNaN _ (isNaN_mul_of_isNaN _ hmood), EReal.bot_add,
      rounded_bot]
  | false =>
    rw [level_raw hmood]
    rcases keptDown_iff.1 h with h | h | h | h | h
    · simp [h, EReal.mul_bot_of_pos hdirty.level_pos]
    · simp [h, EReal.mul_bot_of_pos hprobation.level_pos]
    · rw [hmood] at h
      cases h
    · simp [h, EReal.mul_top_of_pos hlenient.level_pos]
    · simp [h, EReal.mul_bot_of_pos hhostility.level_pos]

/-- The finite values that lower the chance most. -/
def lowest : JudgeInputs Float :=
  { dirtyPower := -greatest, probation := -greatest, mood := greatest, hostility := -greatest }

/-- One infinity outweighs the rest. -/
theorem raw_lowest : ∀ j ∈ [{ lowest with dirtyPower := infinity },
    { lowest with probation := infinity }, { lowest with mood := -infinity },
    { lowest with hostility := infinity }], j.raw == infinity := by
  decide +kernel

/-- **Any other infinity takes it above them.** -/
theorem level_raw_of_not_keptDown (h : ¬ i.KeptDown) (hi : ∃ x ∈ i.toList, x.isFinite = false) :
    level i.raw = ⊤ := by
  simp only [keptDown_iff, not_or, Bool.not_eq_true] at h
  obtain ⟨hdirty, hprobation, hnumber, hmood, hhostility⟩ := h
  have hdirty' := neg_greatest_le hdirty
  have hprobation' := neg_greatest_le hprobation
  have hmood' := le_greatest hnumber hmood
  have hhostility' := neg_greatest_le hhostility
  -- the sum keeps the order, so it is at least that of the lowest values with the same infinity
  have habove {j : JudgeInputs Float} (hj : j.raw == infinity)
      (hle : level j.raw ≤ level i.raw) : level i.raw = ⊤ :=
    top_le_iff.1 (level_eq_top_iff.2 hj ▸ hle)
  have hlowest := raw_lowest
  simp only [List.forall_mem_cons] at hlowest
  obtain ⟨hraw₁, hraw₂, hraw₃, hraw₄, -⟩ := hlowest
  obtain ⟨x, hx, hfinite⟩ := hi
  have hlevel := level_of_not_finite hfinite
  simp only [toList, List.mem_cons, List.not_mem_nil, or_false] at hx
  rcases hx with rfl | rfl | rfl | rfl
  · have hinfinite := infinity_le (hlevel.resolve_left hdirty)
    exact habove hraw₁ (level_raw_mono hinfinite hprobation' hmood' hhostility')
  · have hinfinite := infinity_le (hlevel.resolve_left hprobation)
    exact habove hraw₂ (level_raw_mono hdirty' hinfinite hmood' hhostility')
  · have hinfinite := le_neg_infinity hnumber (hlevel.resolve_right hmood)
    exact habove hraw₃ (level_raw_mono hdirty' hprobation' hinfinite hhostility')
  · have hinfinite := infinity_le (hlevel.resolve_left hhostility)
    exact habove hraw₄ (level_raw_mono hdirty' hprobation' hmood' hinfinite)

/-! ## The chance -/

theorem catchChance_of_bot (h : level i.raw = ⊥) : i.catchChance = floor := by
  unfold catchChance
  rw [beq_self]
  cases hraw : i.raw.isNaN with
  | true => rfl
  | false =>
    have hfloor : level floor ≠ ⊥ := level_eq_bot_iff.not.2 (by decide +kernel)
    have hlow : i.raw < floor := by
      rw [lt_iff_level hraw isNaN_floor, h]
      exact bot_lt_iff_ne_bot.2 hfloor
    exact if_pos hlow

theorem catchChance_of_top (h : level i.raw = ⊤) : i.catchChance = ceiling := by
  have hraw : i.raw.isNaN = false := isNaN_of_level_ne_bot (h ▸ top_ne_bot)
  have hceiling : level ceiling ≠ ⊤ := level_eq_top_iff.not.2 (by decide +kernel)
  have hlow : ¬ i.raw < floor := by
    rw [lt_iff_level hraw isNaN_floor, h]
    exact not_top_lt
  have hhigh : ceiling < i.raw := by
    rw [lt_iff_level isNaN_ceiling hraw, h]
    exact lt_top_iff_ne_top.2 hceiling
  rw [catchChance, beq_self, hraw, Bool.not_false, if_pos rfl, clamp, if_neg hlow, if_pos hhigh]

/-- **What is not finite leads to a bound.**  If something that is looked at is infinite or no
number, whatever the rest is, the chance is the floor exactly if something is no number or lowers
the chance without end, and it is the ceiling in all other cases. -/
theorem catchChance_of_not_finite (i : JudgeInputs Float)
    (h : ∃ x ∈ i.toList, x.isFinite = false) :
    (i.catchChance = floor ↔ i.KeptDown) ∧ (i.catchChance = ceiling ↔ ¬ i.KeptDown) := by
  have hne : (floor : Float) ≠ ceiling := by decide +kernel
  by_cases hdown : i.KeptDown
  · have hchance := catchChance_of_bot (level_raw_of_keptDown hdown)
    rw [hchance]
    exact ⟨iff_of_true rfl hdown, iff_of_false hne (not_not.2 hdown)⟩
  · have hchance := catchChance_of_top (level_raw_of_not_keptDown hdown h)
    rw [hchance]
    exact ⟨iff_of_false hne.symm hdown, iff_of_true rfl hdown⟩

/-- A play of endless power. -/
def outrage : JudgeInputs Float :=
  { dirtyPower := infinity, probation := 0, mood := 0, hostility := 0 }

/-- The same before a judge in the best of moods. -/
def amnesty : JudgeInputs Float := { outrage with mood := infinity }

theorem catchChance_of_not_finite_outrage :
    (∃ x ∈ outrage.toList, x.isFinite = false) ∧ outrage.catchChance = ceiling ∧
      (∃ x ∈ amnesty.toList, x.isFinite = false) ∧ amnesty.catchChance = floor :=
  have hinfinite : infinity.isFinite = false := by decide +kernel
  have houtrage : ∃ x ∈ outrage.toList, x.isFinite = false := ⟨_, List.mem_cons_self, hinfinite⟩
  have hamnesty : ∃ x ∈ amnesty.toList, x.isFinite = false := ⟨_, List.mem_cons_self, hinfinite⟩
  ⟨houtrage, (catchChance_of_not_finite outrage houtrage).2.2 (by decide +kernel), hamnesty,
    (catchChance_of_not_finite amnesty hamnesty).1.2 (by decide +kernel)⟩

/-- Not everything that is not finite leads to the floor. -/
theorem outrage_above_floor : ¬ ∀ i : JudgeInputs Float,
    (∃ x ∈ i.toList, x.isFinite = false) → i.catchChance = floor := by
  intro h
  have hfloor := h outrage ⟨_, List.mem_cons_self, by decide +kernel⟩
  exact absurd hfloor (by decide +kernel)

end CardDuel.JudgeInputs
