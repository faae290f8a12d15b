import CardDuel.Proofs.Sandbox.Records
import Mathlib.Data.List.Dedup

/-!
# Exact removal

A cleanse goes through its list while it changes the unit that it looks at.  What comes of it can be
told from the unit before and from the set of listed statuses.

* `length_removed` — how many statuses are removed.
* `cleansed_cleanse` — what a cleanse leaves, of the unit and of everything else.
* `cleanse_congr`, `cleanse_again` — neither order nor repetition matters, and a second cleanse of
  the same statuses finds nothing.
* `cleanse_exact` — all of these, for every list.
-/

set_option autoImplicit false

namespace CardDuel

namespace BoardUnit

/-! ## Units -/

/-- A unit is what it is without its statuses, with the timing of each of them. -/
theorem ext_timing {u u' : BoardUnit} (hbare : u.bare = u'.bare)
    (htiming : ∀ status, u.timing status = u'.timing status) : u = u' := by
  have hstun := htiming .stun
  have hexposed := htiming .exposed
  have hattackDown := htiming .attackDown
  cases u
  cases u'
  simp_all [bare, clear, timing, expiry, magnitude]

theorem removed_perm (u : BoardUnit) (turn : UInt32) (statuses : List Status) {listed : List Status}
    (hnodup : listed.Nodup)
    (hlisted : ∀ status, status ∈ (u.cleanse turn statuses).2 ↔ status ∈ listed) :
    (u.cleanse turn statuses).2.Perm listed :=
  (List.perm_ext_iff_of_nodup (u.nodup_removed turn statuses) hnodup).2 hlisted

/-- **As many statuses are removed as different ones are listed and active.** -/
theorem length_removed (u : BoardUnit) (turn : UInt32) (statuses : List Status) :
    (u.cleanse turn statuses).2.length = statuses.dedup.countP (u.hasStatus · turn) := by
  have hperm := u.removed_perm turn statuses (statuses.nodup_dedup.filter (u.hasStatus · turn))
    fun status => by rw [mem_removed_iff, List.mem_filter, List.mem_dedup]
  rw [hperm.length_eq, List.countP_eq_length_filter]

variable {statuses statuses' : List Status}
  (h : ∀ status, status ∈ statuses' ↔ status ∈ statuses)

include h

theorem mem_removed_congr (u : BoardUnit) (turn : UInt32) (status : Status) :
    status ∈ (u.cleanse turn statuses').2 ↔ status ∈ (u.cleanse turn statuses).2 := by
  rw [mem_removed_iff, mem_removed_iff, h]

theorem length_removed_congr (u : BoardUnit) (turn : UInt32) :
    (u.cleanse turn statuses').2.length = (u.cleanse turn statuses).2.length :=
  (u.removed_perm turn statuses' (u.nodup_removed turn statuses)
    (mem_removed_congr h u turn)).length_eq

theorem cleanse_congr (u : BoardUnit) (turn : UInt32) :
    (u.cleanse turn statuses').1 = (u.cleanse turn statuses).1 := by
  refine ext_timing ((bare_cleanse u turn _).trans (bare_cleanse u turn _).symm) fun status => ?_
  rw [timing_cleanse, timing_cleanse]
  simp only [mem_removed_congr h]

end BoardUnit

namespace Sandbox

variable {s : Sandbox} {id : UnitId} {u : BoardUnit}

/-! ## What is left -/

/-- From `s` to `s'` the listed statuses of a unit that were active are removed with their sources,
and nothing else differs. -/
structure Cleansed (s : Sandbox) (id : UnitId) (u : BoardUnit) (statuses : List Status)
    (s' : Sandbox) (u' : BoardUnit) : Prop where
  unit : s'.unit? id = some u'
  inactive : ∀ status ∈ statuses, u'.hasStatus status s.turn = false
  removed : ∀ status ∈ statuses, u.hasStatus status s.turn = true →
    u'.timing status = (none, 0) ∧ s'.statusSource? id status = none
  kept : ∀ status, (status ∈ statuses → u.hasStatus status s.turn = false) →
    u'.timing status = u.timing status ∧ s'.statusSource? id status = s.statusSource? id status
  bare : u'.bare = u.bare
  others : ∀ id', id' ≠ id → s'.unit? id' = s.unit? id' ∧
    ∀ status, s'.statusSource? id' status = s.statusSource? id' status
  rest : { s' with units := s.units, sources := s.sources } = s

/-- The source of a status under the id of a cleanse. -/
theorem statusSource?_cleanse (hu : s.unit? id = some u) (statuses : List Status)
    (status : Status) :
    (s.cleanse id statuses).2.statusSource? id status =
      if status ∈ (u.cleanse s.turn statuses).2 then none else s.statusSource? id status := by
  rw [cleanse_of_unit? hu]
  exact getElem?_erase_removed s.sources id _ status

theorem unit?_cleanse (hu : s.unit? id = some u) (statuses : List Status) :
    (s.cleanse id statuses).2.unit? id = some (u.cleanse s.turn statuses).1 := by
  rw [cleanse_of_unit? hu]
  exact s.unit?_put_self id _

/-- **A cleanse removes what is listed and active**, and changes nothing else. -/
theorem cleansed_cleanse (hu : s.unit? id = some u) (statuses : List Status) :
    s.Cleansed id u statuses (s.cleanse id statuses).2 (u.cleanse s.turn statuses).1 where
  unit := unit?_cleanse hu statuses
  inactive status hlisted := by
    rw [Bool.eq_false_iff]
    intro hactive
    exact ((u.hasStatus_cleanse s.turn statuses status).1 hactive).2 hlisted
  removed status hlisted hactive := by
    have hremoved := (u.mem_removed_iff s.turn statuses status).2 ⟨hlisted, hactive⟩
    rw [BoardUnit.timing_cleanse, statusSource?_cleanse hu, if_pos hremoved, if_pos hremoved]
    exact ⟨rfl, rfl⟩
  kept status hkept := by
    have hnot : status ∉ (u.cleanse s.turn statuses).2 := by
      intro hremoved
      obtain ⟨hlisted, hactive⟩ := (u.mem_removed_iff s.turn statuses status).1 hremoved
      rw [hkept hlisted] at hactive
      cases hactive
    rw [BoardUnit.timing_cleanse, statusSource?_cleanse hu, if_neg hnot, if_neg hnot]
    exact ⟨rfl, rfl⟩
  bare := u.bare_cleanse s.turn statuses
  others id' hne := by
    rw [cleanse_of_unit? hu]
    refine ⟨?_, fun status => getElem?_erase_sources s.sources id _ hne⟩
    exact (s.unit?_put id id' _).trans (if_neg hne.symm)
  rest := by
    rw [cleanse_of_unit? hu]
    rfl

/-! ## The set of listed statuses -/

/-- **Neither order nor repetition matters** in the list of a cleanse. -/
theorem cleanse_congr {statuses statuses' : List Status}
    (h : ∀ status, status ∈ statuses' ↔ status ∈ statuses) (s : Sandbox) (id : UnitId) :
    s.cleanse id statuses' = s.cleanse id statuses := by
  cases hu : s.unit? id with
  | none => rw [cleanse, cleanse, hu]
  | some u =>
    have hsources : (u.cleanse s.turn statuses').2.foldl
          (fun sources status => sources.erase ⟨id, status⟩) s.sources =
        (u.cleanse s.turn statuses).2.foldl
          (fun sources status => sources.erase ⟨id, status⟩) s.sources := by
      refine Std.ExtTreeMap.ext_getElem? fun mark => ?_
      obtain ⟨id', status⟩ := mark
      by_cases hid : id' = id
      · subst id'
        rw [getElem?_erase_removed, getElem?_erase_removed]
        simp only [BoardUnit.mem_removed_congr h]
      · rw [getElem?_erase_sources _ _ _ hid, getElem?_erase_sources _ _ _ hid]
    rw [cleanse_of_unit? hu, cleanse_of_unit? hu, hsources, BoardUnit.cleanse_congr h,
      BoardUnit.length_removed_congr h]

/-- A cleanse of statuses that are not active changes nothing. -/
theorem cleanse_of_inactive (hu : s.unit? id = some u) {statuses : List Status}
    (h : ∀ status ∈ statuses, u.hasStatus status s.turn = false) :
    s.cleanse id statuses = (0, s) := by
  have hremoved : (u.cleanse s.turn statuses).2 = [] := by
    refine List.eq_nil_iff_forall_not_mem.2 fun status hmem => ?_
    obtain ⟨hlisted, hactive⟩ := (u.mem_removed_iff s.turn statuses status).1 hmem
    rw [h status hlisted] at hactive
    cases hactive
  have hcount : (s.cleanse id statuses).1 = 0 := by
    rw [cleanse_of_unit? hu, hremoved]
    rfl
  exact Prod.ext hcount (eq_of_cleansed hcount)

/-- **A second cleanse of the same statuses finds nothing.** -/
theorem cleanse_again {statuses statuses' : List Status} (h : statuses' ⊆ statuses) (s : Sandbox)
    (id : UnitId) :
    (s.cleanse id statuses).2.cleanse id statuses' = (0, (s.cleanse id statuses).2) := by
  cases hu : s.unit? id with
  | none =>
    have hfirst : s.cleanse id statuses = (0, s) := by rw [cleanse, hu]
    rw [hfirst, cleanse, hu]
  | some u =>
    have hcleansed := cleansed_cleanse hu statuses
    have hturn : (s.cleanse id statuses).2.turn = s.turn := by
      rw [cleanse_of_unit? hu]
      rfl
    refine cleanse_of_inactive hcleansed.unit fun status hlisted => ?_
    rw [hturn]
    exact hcleansed.inactive status (h hlisted)

/-- **A cleanse is exact.**  Under an unknown id it answers 0 and changes nothing.  Of a unit on the
board it removes the listed statuses that are active at the turn of the sandbox, and answers how
many different ones these are; what is not listed, or not active, is kept, and so is everything
else.  The outcome depends on the set of listed statuses alone, and afterwards a cleanse of any of
them answers 0 and changes nothing. -/
theorem cleanse_exact (s : Sandbox) (id : UnitId) (statuses : List Status) :
    (s.unit? id = none → s.cleanse id statuses = (0, s)) ∧
      (∀ u, s.unit? id = some u →
        (s.cleanse id statuses).1.toNat = statuses.dedup.countP (u.hasStatus · s.turn) ∧
        ∃ u', s.Cleansed id u statuses (s.cleanse id statuses).2 u') ∧
      (∀ statuses', (∀ status, status ∈ statuses' ↔ status ∈ statuses) →
        s.cleanse id statuses' = s.cleanse id statuses) ∧
      ∀ statuses', statuses' ⊆ statuses →
        (s.cleanse id statuses).2.cleanse id statuses' = (0, (s.cleanse id statuses).2) := by
  refine ⟨fun hnone => by rw [cleanse, hnone], fun u hu => ⟨?_, _, cleansed_cleanse hu statuses⟩,
    fun statuses' h => cleanse_congr h s id, fun statuses' h => cleanse_again h s id⟩
  rw [← u.length_removed s.turn statuses, ← u.toNat_removed s.turn statuses, cleanse_of_unit? hu]

/-- A clerk at turn 2, stunned and penalised for longer, and exposed through the turn before. -/
def quarantine : Sandbox :=
  let placed := (start {}).place (.fresh ⟨1⟩ "clerk" "Clerk" .player .back 1 3)
  let stunned := (placed.applyStun ⟨1⟩ 3 "bailiff").2
  let exposed := (stunned.applyExposed ⟨1⟩ 1 "sniper").2
  (exposed.applyAttackPenalty ⟨1⟩ 2 4 "manager").2.advance

/-- The clerk in quarantine. -/
def patient : BoardUnit :=
  { BoardUnit.fresh ⟨1⟩ "clerk" "Clerk" .player .back 1 3 with
    stunUntil := some 3, exposedUntil := some 1, attackPenalty := 2, attackPenaltyUntil := some 4 }

theorem cleanse_exact_quarantine :
    quarantine.unit? ⟨1⟩ = some patient ∧ quarantine.statusSource? ⟨1⟩ .stun = some "bailiff" ∧
      (quarantine.cleanse ⟨1⟩ [.stun, .exposed, .stun]).1.toNat = 1 ∧
      (quarantine.cleanse ⟨1⟩ [.stun, .exposed, .stun]).2.statusSource? ⟨1⟩ .stun = none ∧
      (quarantine.cleanse ⟨1⟩ [.stun, .exposed, .stun]).2.statusSource? ⟨1⟩ .exposed =
        some "sniper" ∧
      quarantine.cleanse ⟨1⟩ [.exposed, .stun] = quarantine.cleanse ⟨1⟩ [.stun, .exposed, .stun] ∧
      quarantine.cleanse ⟨2⟩ [.stun] = (0, quarantine) := by
  have hpatient : quarantine.unit? ⟨1⟩ = some patient := by decide +kernel
  obtain ⟨-, hexact, hset, -⟩ := cleanse_exact quarantine ⟨1⟩ [.stun, .exposed, .stun]
  obtain ⟨hcount, u', hcleansed⟩ := hexact patient hpatient
  have hstun := hcleansed.removed .stun (by decide) (by decide +kernel)
  have hexposed := hcleansed.kept .exposed fun _ => by decide +kernel
  have hunknown := (cleanse_exact quarantine ⟨2⟩ [.stun]).1 (by decide +kernel)
  exact ⟨hpatient, by decide +kernel, hcount.trans (by decide +kernel), hstun.2,
    hexposed.2.trans (by decide +kernel), hset _ fun status => by cases status <;> decide, hunknown⟩

end Sandbox

end CardDuel
