import CardDuel.Proofs.Firing.Barren
import CardDuel.Proofs.Sandbox.Frame
import Mathlib.Data.UInt

/-!
# What a change comes to

The sandbox answers a change with what it came to: health restored, attack gained or lost, statuses
removed, a status landed, a card drawn.  These are exact.

* `Word.toInt_add_restored`, `Word.toInt_raised` — restoring up to a maximum, and a sum that stops
  at zero, in whole numbers.
* `toInt_healed`, `healed_pos` — the health after a heal; a wounded unit is healed.
* `mem_removed_iff`, `hasStatus_cleanse`, `toNat_removed` — what a cleanse removes and what is left.
* `fits_answer` — no request lets the distance from health to its maximum grow out of range.
* `onlyDrew_of_barren` — a request that is answered with nothing draws at most.
-/

set_option autoImplicit false

namespace CardDuel

namespace Word

/-! ## Words -/

theorem toInt_toInt32 {a : UInt32} (h : a.toNat < 2147483648) : a.toInt32.toInt = a.toNat := by
  have hbits : a.toInt32.toInt = a.toBitVec.toInt := rfl
  have hsmall : 2 * a.toBitVec.toNat < 2 ^ 32 := by
    rw [UInt32.toNat_toBitVec]
    omega
  rw [hbits, BitVec.toInt_eq_toNat_of_lt hsmall, UInt32.toNat_toBitVec]

section

variable {now most : Int32} (lo : -2147483648 ≤ most.toInt - now.toInt)
  (hi : most.toInt - now.toInt < 2147483648) (amount : UInt32)

include lo hi

theorem toNat_restored :
    (min amount (missing now most)).toNat = min amount.toNat (most.toInt - now.toInt).toNat := by
  rw [UInt32.toNat_min, toNat_missing lo hi]

/-- What is restored is a signed word. -/
theorem toInt_restored :
    (min amount (missing now most)).toInt32.toInt = (min amount (missing now most)).toNat := by
  have hrestored := toNat_restored lo hi amount
  exact toInt_toInt32 (by omega)

/-- **What is restored is added**, without an overflow. -/
theorem toInt_add_restored :
    (now + (min amount (missing now most)).toInt32).toInt =
      now.toInt + (min amount (missing now most)).toNat := by
  have hrestored := toNat_restored lo hi amount
  have hlo := now.le_toInt
  have hhi := now.toInt_lt
  have hmost := most.toInt_lt
  rw [Int32.toInt_add, toInt_restored lo hi]
  exact Int.bmod_eq_of_le (by omega) (by omega)

end

/-- A sum that stops at zero as well as at the bounds of a word. -/
theorem toInt_raised (a delta : Int32) :
    (max (addSigned a delta) 0).toInt = max 0 (min (a.toInt + delta.toInt) 2147483647) := by
  rw [toInt_max_zero, toInt_addSigned]
  omega

/-- Only from the least word of all the way up to zero is too long. -/
theorem toInt_raised_sub {a : Int32} (ha : -2147483648 < a.toInt) (delta : Int32) :
    (max (addSigned a delta) 0 - a).toInt = (max (addSigned a delta) 0).toInt - a.toInt := by
  have hraised := toInt_raised a delta
  have hhi := a.toInt_lt
  have hdelta := delta.toInt_lt
  exact toInt_sub (by omega) (by omega)

end Word

namespace BoardUnit

/-! ## Health -/

/-- How far the health is below its maximum. -/
def wound (u : BoardUnit) : Int := u.maxHealth.toInt - u.health.toInt

/-- The distance from the health to its maximum is a signed word. -/
def Fits (u : BoardUnit) : Prop := -2147483648 ≤ u.wound ∧ u.wound < 2147483648

/-- What a heal restores. -/
def healed (u : BoardUnit) (amount : UInt32) : UInt32 :=
  min amount (Word.missing u.health u.maxHealth)

variable {u : BoardUnit} (hfits : u.Fits) (amount : UInt32)

theorem damaged_iff : u.damaged = true ↔ 0 < u.wound := by
  rw [damaged, decide_eq_true_iff, Int32.lt_iff_toInt_lt, wound]
  omega

include hfits

theorem toNat_healed : (u.healed amount).toNat = min amount.toNat u.wound.toNat :=
  Word.toNat_restored hfits.1 hfits.2 amount

/-- **A heal adds what it restores**, without an overflow. -/
theorem toInt_healed :
    (u.health + (u.healed amount).toInt32).toInt = u.health.toInt + (u.healed amount).toNat :=
  Word.toInt_add_restored hfits.1 hfits.2 amount

theorem wound_healed :
    ({ u with health := u.health + (u.healed amount).toInt32 } : BoardUnit).wound =
      u.wound - (u.healed amount).toNat := by
  have hsum := toInt_healed hfits amount
  simp only [wound, hsum]
  omega

theorem fits_healed :
    ({ u with health := u.health + (u.healed amount).toInt32 } : BoardUnit).Fits := by
  have hhealed := toNat_healed hfits amount
  obtain ⟨hlo, hhi⟩ := hfits
  rw [Fits, wound_healed ⟨hlo, hhi⟩]
  omega

/-- **A wounded unit is healed.** -/
theorem healed_pos (hdamaged : u.damaged = true) (hamount : 0 < amount.toNat) :
    0 < (u.healed amount).toNat := by
  have hwound := damaged_iff.1 hdamaged
  rw [toNat_healed hfits]
  omega

end BoardUnit

/-! ## Attack -/

namespace BoardUnit

/-- The attack after a change. -/
def raised (u : BoardUnit) (delta : Int32) : Int32 := max (Word.addSigned u.attack delta) 0

theorem toInt_raised (u : BoardUnit) (delta : Int32) :
    (u.raised delta).toInt = max 0 (min (u.attack.toInt + delta.toInt) 2147483647) :=
  Word.toInt_raised u.attack delta

/-- **A change of attack is answered exactly**, the least word of all apart. -/
theorem toInt_raised_sub {u : BoardUnit} (hattack : -2147483648 < u.attack.toInt) (delta : Int32) :
    (u.raised delta - u.attack).toInt = (u.raised delta).toInt - u.attack.toInt :=
  Word.toInt_raised_sub hattack delta

end BoardUnit

/-! ## Statuses -/

namespace BoardUnit

theorem hasStatus_clear (u : BoardUnit) (status status' : Status) (turn : UInt32) :
    (u.clear status).hasStatus status' turn = true ↔
      u.hasStatus status' turn = true ∧ status' ≠ status := by
  have hclear : (u.clear status).hasStatus status' turn =
      if status' = status then false else u.hasStatus status' turn := by
    cases status <;> cases status' <;> rfl
  rw [hclear]
  split <;> simp [*]

theorem wound_cleanse (u : BoardUnit) (turn : UInt32) (statuses : List Status) :
    (u.cleanse turn statuses).1.wound = u.wound :=
  (congrArg wound (u.bare_cleanse turn statuses) :)

/-- **A cleanse leaves what it does not list.** -/
theorem hasStatus_cleanse (u : BoardUnit) (turn : UInt32) (statuses : List Status)
    (status : Status) :
    (u.cleanse turn statuses).1.hasStatus status turn = true ↔
      u.hasStatus status turn = true ∧ status ∉ statuses := by
  induction statuses generalizing u with
  | nil => simp [cleanse]
  | cons first statuses ih =>
    rw [cleanse]
    split
    · simp only [ih, hasStatus_clear, List.mem_cons, not_or, and_assoc]
    · rename_i hinactive
      have hother (h : u.hasStatus status turn = true) : status ≠ first := by
        rintro rfl
        exact hinactive h
      simp only [ih, List.mem_cons, not_or]
      exact and_congr_right fun h => ⟨fun hrest => ⟨hother h, hrest⟩, And.right⟩

/-- **A cleanse removes what is listed and active.** -/
theorem mem_removed_iff (u : BoardUnit) (turn : UInt32) (statuses : List Status)
    (status : Status) :
    status ∈ (u.cleanse turn statuses).2 ↔
      status ∈ statuses ∧ u.hasStatus status turn = true := by
  induction statuses generalizing u with
  | nil => simp [cleanse]
  | cons first statuses ih =>
    rw [cleanse]
    split
    · rename_i hactive
      simp only [List.mem_cons, ih, hasStatus_clear]
      by_cases hfirst : status = first
      · simp [hfirst, hactive]
      · simp [hfirst]
    · rename_i hinactive
      simp only [List.mem_cons, ih]
      refine and_congr_left fun h => ⟨.inr, fun hmem => hmem.resolve_left ?_⟩
      rintro rfl
      exact hinactive h

/-- A status that is listed twice is removed once. -/
theorem nodup_removed (u : BoardUnit) (turn : UInt32) (statuses : List Status) :
    (u.cleanse turn statuses).2.Nodup := by
  induction statuses generalizing u with
  | nil => exact List.nodup_nil
  | cons first statuses ih =>
    rw [cleanse]
    split
    · refine List.nodup_cons.2 ⟨fun hfirst => ?_, ih _⟩
      obtain ⟨-, hactive⟩ := (mem_removed_iff _ turn statuses first).1 hfirst
      exact ((hasStatus_clear u first first turn).1 hactive).2 rfl
    · exact ih u

/-- There are no more than three statuses to count. -/
theorem toNat_removed (u : BoardUnit) (turn : UInt32) (statuses : List Status) :
    (UInt32.ofNat (u.cleanse turn statuses).2.length).toNat =
      (u.cleanse turn statuses).2.length := by
  have hle : (u.cleanse turn statuses).2.length ≤ Status.all.length :=
    (u.nodup_removed turn statuses).length_le_of_subset fun status _ => status.mem_all
  exact UInt32.toNat_ofNat_of_lt' (Nat.lt_of_le_of_lt hle (by decide))

/-- A cleanse that removes nothing leaves the unit. -/
theorem cleanse_eq_self {u : BoardUnit} {turn : UInt32} {statuses : List Status}
    (h : (u.cleanse turn statuses).2 = []) : (u.cleanse turn statuses).1 = u := by
  induction statuses with
  | nil => rfl
  | cons first statuses ih =>
    rw [cleanse] at h ⊢
    split at h
    · cases h
    · rename_i hinactive
      rw [if_neg hinactive]
      exact ih h

end BoardUnit

/-! ## Requests -/

namespace Sandbox

variable {s : Sandbox}

/-- Nothing but the number of draws differs. -/
def OnlyDrew (s s' : Sandbox) : Prop :=
  ∃ draws, s' = { s with dice := { s.dice with draws } }

theorem OnlyDrew.refl (s : Sandbox) : s.OnlyDrew s := ⟨s.dice.draws, rfl⟩

theorem OnlyDrew.trans {s s' s'' : Sandbox} (h : s.OnlyDrew s') (h' : s'.OnlyDrew s'') :
    s.OnlyDrew s'' := by
  obtain ⟨draws, rfl⟩ := h
  obtain ⟨draws', rfl⟩ := h'
  exact ⟨draws', rfl⟩

theorem onlyDrew_drawn (s : Sandbox) : s.OnlyDrew { s with dice := s.dice.drawn } :=
  ⟨s.dice.draws + 1, rfl⟩

theorem put_self {id : UnitId} {u : BoardUnit} (hu : s.unit? id = some u) : s.put id u = s := by
  have hunits : s.units.insert id u = s.units := by
    refine Std.ExtTreeMap.ext_getElem? fun id' => ?_
    rw [Std.ExtTreeMap.getElem?_insert]
    split
    · rename_i hsame
      cases Std.LawfulEqOrd.eq_of_compare hsame
      exact hu.symm
    · rfl
  rw [put, hunits]

theorem healUnit_of_unit? {id : UnitId} {u : BoardUnit} (hu : s.unit? id = some u)
    (amount : UInt32) :
    s.healUnit id amount =
      (u.healed amount, s.put id { u with health := u.health + (u.healed amount).toInt32 }) := by
  rw [healUnit, hu]
  rfl

theorem addShield_of_unit? {id : UnitId} {u : BoardUnit} (hu : s.unit? id = some u)
    (amount : UInt32) :
    s.addShield id amount = s.put id { u with shield := Word.add u.shield amount } := by
  rw [addShield, edit, hu]

theorem modifyAttack_of_unit? {id : UnitId} {u : BoardUnit} (hu : s.unit? id = some u)
    (delta : Int32) :
    s.modifyAttack id delta =
      (u.raised delta - u.attack, s.put id { u with attack := u.raised delta }) := by
  rw [modifyAttack, hu]
  rfl

theorem cleanse_of_unit? {id : UnitId} {u : BoardUnit} (hu : s.unit? id = some u)
    (statuses : List Status) :
    s.cleanse id statuses =
      (.ofNat (u.cleanse s.turn statuses).2.length,
        { s.put id (u.cleanse s.turn statuses).1 with
          sources := (u.cleanse s.turn statuses).2.foldl
            (fun sources status => sources.erase ⟨id, status⟩) s.sources }) := by
  rw [cleanse, hu]

/-- Every unit's distance to its maximal health is a signed word. -/
def Fits (s : Sandbox) : Prop := ∀ id u, s.unit? id = some u → u.Fits

theorem fits_put (hs : s.Fits) {u : BoardUnit} (hu : u.Fits) (id : UnitId) : (s.put id u).Fits := by
  intro id' v hv
  rw [unit?_put] at hv
  split at hv
  · cases hv
    exact hu
  · exact hs id' v hv

theorem fits_start (setup : Setup) : (start setup).Fits := by
  intro id u hu
  simp [start, unit?] at hu

theorem fits_place (hs : s.Fits) {u : BoardUnit} (hu : u.Fits) : (s.place u).Fits :=
  fits_put hs hu u.id

theorem fits_afflict (hs : s.Fits) (id : UnitId) (status : Status) (source : String)
    {change : BoardUnit → BoardUnit} (hchange : ∀ u, (change u).wound = u.wound) :
    (s.afflict id status source change).2.Fits := by
  obtain ⟨dice, -, hresisted | ⟨u, hu, hlanded⟩⟩ := s.afflict_cases id status source change
  · rw [hresisted]
    exact hs
  · rw [hlanded]
    have hfits : (change u).Fits := by
      rw [BoardUnit.Fits, hchange]
      exact hs id u hu
    exact fits_put (s := { s with dice }) hs hfits id

theorem fits_setHoldings (hs : s.Fits) (side : Side) (holdings : Holdings) :
    (s.setHoldings side holdings).Fits := by
  cases side <;> exact hs

/-- **No request lets the distance from health to its maximum grow out of range.** -/
theorem fits_answer (hs : s.Fits) (q : Request) : (answer q s).2.Fits := by
  cases q with
  | unitIds | unit | pickRandom | pickLowestHealth | log => exact hs
  | healUnit id amount =>
    cases hu : s.unit? id with
    | none => simpa only [answer, healUnit, hu] using hs
    | some u =>
      rw [answer, healUnit_of_unit? hu]
      exact fits_put hs (BoardUnit.fits_healed (hs id u hu) amount) id
  | cleanse id statuses =>
    cases hu : s.unit? id with
    | none => simpa only [answer, cleanse, hu] using hs
    | some u =>
      rw [answer, cleanse_of_unit? hu]
      have hfits : (u.cleanse s.turn statuses).1.Fits := by
        rw [BoardUnit.Fits, BoardUnit.wound_cleanse]
        exact hs id u hu
      exact fits_put hs hfits id
  | addShield id amount =>
    simp only [answer, addShield, edit]
    split
    · rename_i u hu
      refine fits_put hs ?_ id
      exact hs id u hu
    · exact hs
  | modifyAttack id delta =>
    simp only [answer, modifyAttack]
    split
    · exact hs
    · rename_i u hu
      refine fits_put hs ?_ id
      exact hs id u hu
  | applyStun | applyExposed | applyAttackPenalty => exact fits_afflict hs _ _ _ fun _ => rfl
  | gainShares | healLeader => exact fits_setHoldings hs _ _
  | drawCard side =>
    simp only [answer, drawCard]
    split
    · exact hs
    · exact fits_setHoldings hs _ _

/-! ## Requests answered with nothing -/

theorem eq_of_healed {id : UnitId} {amount : UInt32} (h : (s.healUnit id amount).1 = 0) :
    (s.healUnit id amount).2 = s := by
  cases hu : s.unit? id with
  | none => rw [healUnit, hu]
  | some u =>
    rw [healUnit_of_unit? hu] at h ⊢
    have hhealth : u.health + (u.healed amount).toInt32 = u.health := by
      rw [show u.healed amount = 0 from h]
      exact Int32.add_zero _
    simp only [hhealth]
    exact put_self hu

theorem eq_of_modified {id : UnitId} {delta : Int32} (h : (s.modifyAttack id delta).1 = 0) :
    (s.modifyAttack id delta).2 = s := by
  unfold modifyAttack at h ⊢
  split
  · rfl
  · rename_i u hu
    rw [hu] at h
    have hnothing : max (Word.addSigned u.attack delta) 0 - u.attack = 0 := h
    have hattack : max (Word.addSigned u.attack delta) 0 = u.attack := by
      rwa [Int32.sub_eq_iff_eq_add, Int32.zero_add] at hnothing
    simp only [hattack]
    exact put_self hu

theorem eq_of_cleansed {id : UnitId} {statuses : List Status} (h : (s.cleanse id statuses).1 = 0) :
    (s.cleanse id statuses).2 = s := by
  cases hu : s.unit? id with
  | none => rw [cleanse, hu]
  | some u =>
    rw [cleanse_of_unit? hu] at h ⊢
    have hremoved : (u.cleanse s.turn statuses).2 = [] := by
      rw [← List.length_eq_zero_iff, ← u.toNat_removed s.turn statuses]
      exact congrArg UInt32.toNat h
    simp only [hremoved, BoardUnit.cleanse_eq_self hremoved, List.foldl_nil]
    exact put_self hu

theorem eq_of_leaderHealed {side : Side} {amount : UInt32} (h : (s.healLeader side amount).1 = 0) :
    (s.healLeader side amount).2 = s := by
  have hnothing :
      min amount (Word.missing (s.holdings side).leader (s.holdings side).leaderMax) = 0 := h
  have hleader : (s.holdings side).leader + (0 : UInt32).toInt32 = (s.holdings side).leader :=
    Int32.add_zero _
  simp only [healLeader, hnothing, hleader]
  exact setHoldings_holdings s side

theorem eq_of_undrawn {side : Side} (h : (s.drawCard side).1 = none) :
    (s.drawCard side).2 = s := by
  simp only [drawCard] at h ⊢
  split at h
  · rfl
  · cases h

theorem onlyDrew_of_resisted {id : UnitId} {status : Status} {source : String}
    {change : BoardUnit → BoardUnit} (h : (s.afflict id status source change).1 = false) :
    s.OnlyDrew (s.afflict id status source change).2 := by
  obtain ⟨⟨seed, draws⟩, hseed, hresisted | ⟨u, hu, hlanded⟩⟩ :=
    s.afflict_cases id status source change
  · obtain rfl : seed = s.dice.seed := hseed
    rw [hresisted]
    exact ⟨draws, rfl⟩
  · rw [hlanded] at h
    cases h

/-- **A request that the sandbox answers with nothing draws at most.** -/
theorem onlyDrew_of_barren {q : Request} (h : Exchange.barren ⟨q, (answer q s).1⟩ = true) :
    s.OnlyDrew (answer q s).2 := by
  have hstay {s' : Sandbox} (hs' : s' = s) : s.OnlyDrew s' := hs' ▸ .refl s
  cases q with
  | healUnit => exact hstay (eq_of_healed (beq_iff_eq.1 h))
  | cleanse => exact hstay (eq_of_cleansed (beq_iff_eq.1 h))
  | modifyAttack => exact hstay (eq_of_modified (beq_iff_eq.1 h))
  | healLeader => exact hstay (eq_of_leaderHealed (beq_iff_eq.1 h))
  | drawCard => exact hstay (eq_of_undrawn (Option.isNone_iff_eq_none.1 h))
  | applyStun | applyExposed => exact onlyDrew_of_resisted (Bool.not_eq_true' _ ▸ h)
  | _ => cases h

end Sandbox

end CardDuel
