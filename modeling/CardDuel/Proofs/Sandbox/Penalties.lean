import CardDuel.Proofs.Sandbox.Standing

/-!
# Attack penalties

An attack penalty has a size and an expiry turn, and of two penalties the sandbox keeps the greater
size and the later expiry.  Once the turn has passed the penalty is no longer active, but its size
stays with the unit.  `attackPenalty_gathers` says what the next penalty comes to: exactly itself if
none that still counts is greater, or lasts longer.  A penalty that has run out counts for the size,
until a cleanse finds the status active and removes it; `attackPenalty_outlives` shows how.

* `attackPenalty_penalise_iff` — when a new penalty is kept as it is.
* `attackPenaltyUntil_of_inactive` — the expiry of a penalty that has run out does not matter.
-/

set_option autoImplicit false

namespace CardDuel

namespace BoardUnit

variable (u : BoardUnit) (magnitude expiry : UInt32)

theorem attackPenalty_penalise_iff :
    (u.penalise magnitude expiry).attackPenalty = magnitude ↔ ¬ magnitude < u.attackPenalty := by
  have hmax := UInt32.toNat_max u.attackPenalty magnitude
  simp only [penalise, ← UInt32.toNat_inj, UInt32.lt_iff_toNat_lt, hmax]
  omega

/-- **A penalty that is not active has run out before the new one does**, if it has a size. -/
theorem attackPenaltyUntil_of_inactive {u : BoardUnit} {turn : UInt32} {expiry : UInt32}
    (hinactive : u.hasStatus .attackDown turn = false) (hsize : u.attackPenalty ≠ 0)
    (hexpiry : turn ≤ expiry) (magnitude : UInt32) :
    (u.penalise magnitude expiry).attackPenaltyUntil = some expiry := by
  refine (later_eq_some_iff u.attackPenaltyUntil expiry).2 ?_
  rintro ⟨e, he, hlater⟩
  have hpositive : 0 < u.attackPenalty := UInt32.pos_iff_ne_zero.2 hsize
  have hactive : u.hasStatus .attackDown turn = true := by
    rw [hasStatus_attackDown_iff]
    exact ⟨hpositive, e, he, UInt32.le_trans hexpiry (UInt32.le_of_lt hlater)⟩
  rw [hinactive] at hactive
  cases hactive

end BoardUnit

namespace Sandbox

/-- **What a penalty comes to.**  A unit is left to the requests while anything else is played, and
then a penalty lands on it:

* the size is that of the penalty exactly if no application that still counts was greater, and
  neither was the penalty from before the plays as long as it counts;
* the expiry is that of the penalty exactly if, likewise, none lasts longer;
* where the unit has a penalty that is not active any more and the new one does not end in the past,
  the expiry is that of the new one.

An application counts from when it lands until a cleanse removes the status, whether it has run out
or not; and a cleanse removes an active status only. -/
theorem attackPenalty_gathers {s : Sandbox} {id : UnitId} {first : BoardUnit}
    (hfirst : s.unit? id = some first) {plays : List Play}
    (hplays : Along (Play.Spares id) plays s) (magnitude expiry : UInt32) (source : String) :
    let t := played plays s
    let t' := (t.applyAttackPenalty id magnitude expiry source).2
    let remains := Remains ⟨id, .attackDown⟩ (asked plays s)
    (t.applyAttackPenalty id magnitude expiry source).1 = true →
    ∃ u u', t.unit? id = some u ∧ t'.unit? id = some u' ∧
      (u'.attackPenalty = magnitude ↔
        ¬ remains (magnitude < first.attackPenalty) (magnitude < ·.strength)) ∧
      (u'.attackPenaltyUntil = some expiry ↔
        ¬ remains (∃ e, first.attackPenaltyUntil = some e ∧ expiry < e)
          fun q => ∃ e, q.expiry? = some e ∧ expiry < e) ∧
      (u.hasStatus .attackDown t.turn = false → u.attackPenalty ≠ 0 → t.turn ≤ expiry →
        u'.attackPenaltyUntil = some expiry) := by
  intro t t' remains hlanded
  have hbefore := record?_of_unit? hfirst .attackDown
  obtain ⟨r, hr, hgathers⟩ := gathers_played hplays hbefore
  obtain ⟨u, hu, hunits⟩ := unit?_of_afflicted hlanded
  have hu' : t'.unit? id = some (u.penalise magnitude expiry) := by
    have hself := hunits id
    rwa [if_pos rfl] at hself
  -- the record after the plays is what the unit shows
  cases hr.symm.trans (record?_of_unit? hu .attackDown)
  refine ⟨u, _, hu, hu', ?_, ?_, ?_⟩
  · rw [u.attackPenalty_penalise_iff]
    exact not_congr (hgathers.strong magnitude)
  · refine (BoardUnit.later_eq_some_iff u.attackPenaltyUntil expiry).trans ?_
    exact not_congr (hgathers.lasts (expiry.toNat + 1))
  · intro hinactive hsize hexpiry
    exact BoardUnit.attackPenaltyUntil_of_inactive hinactive hsize hexpiry magnitude

/-- The bailiff is weakened by three for one turn, and the turn goes by. -/
def lapse : List Play := [.request (.applyAttackPenalty ⟨1⟩ 3 1 "first"), .advance]

/-- The first penalty has run out, and its size is what the second one comes to. -/
theorem attackPenalty_gathers_lapse :
    let t := played lapse courtroom
    let remains := Remains ⟨⟨1⟩, .attackDown⟩ (asked lapse courtroom)
    Along (Play.Spares ⟨1⟩) lapse courtroom ∧
    (t.applyAttackPenalty ⟨1⟩ 1 4 "second").1 = true ∧
    ∃ first u u', courtroom.unit? ⟨1⟩ = some first ∧ t.unit? ⟨1⟩ = some u ∧
      u.hasStatus .attackDown t.turn = false ∧ u.attackPenalty ≠ 0 ∧ t.turn ≤ 4 ∧
      (t.applyAttackPenalty ⟨1⟩ 1 4 "second").2.unit? ⟨1⟩ = some u' ∧
      u'.attackPenalty = 3 ∧ remains (1 < first.attackPenalty) (1 < ·.strength) ∧
      u'.attackPenaltyUntil = some 4 := by
  intro t remains
  have hplays : Along (Play.Spares ⟨1⟩) lapse courtroom := ⟨trivial, trivial, trivial⟩
  have hlanded : (t.applyAttackPenalty ⟨1⟩ 1 4 "second").1 = true := by decide +kernel
  obtain ⟨first, hfirst⟩ : ∃ first, courtroom.unit? ⟨1⟩ = some first :=
    Option.isSome_iff_exists.1 (by decide +kernel)
  obtain ⟨u, u', hu, hu', hsize, -, hexpiry⟩ :=
    attackPenalty_gathers hfirst hplays 1 4 "second" hlanded
  have hbefore : (t.unit? ⟨1⟩).all (fun u => !u.hasStatus .attackDown t.turn &&
      u.attackPenalty == 3) = true := by decide +kernel
  have hafter : ((t.applyAttackPenalty ⟨1⟩ 1 4 "second").2.unit? ⟨1⟩).all
      (·.attackPenalty == 3) = true := by decide +kernel
  rw [hu, Option.all_some, Bool.and_eq_true, Bool.not_eq_true', beq_iff_eq] at hbefore
  rw [hu', Option.all_some, beq_iff_eq] at hafter
  obtain ⟨hinactive, hthree⟩ := hbefore
  have hnonzero : u.attackPenalty ≠ 0 := by
    rw [hthree]
    decide
  have hturn : t.turn ≤ 4 := by decide +kernel
  have hremains : remains (1 < first.attackPenalty) (1 < ·.strength) := by
    by_contra hnone
    have hone := hsize.2 hnone
    rw [hafter] at hone
    cases hone
  exact ⟨hplays, hlanded, first, u, u', hfirst, hu, hinactive, hnonzero, hturn, hu', hafter,
    hremains, hexpiry hinactive hnonzero hturn⟩

/-- **The size of a penalty outlives its turn.**  Not every penalty that lands on a unit without an
active one is kept as it is. -/
theorem attackPenalty_outlives : ¬ ∀ (s : Sandbox) (id : UnitId) (u : BoardUnit)
    (magnitude expiry : UInt32) (source : String), s.unit? id = some u →
    (s.applyAttackPenalty id magnitude expiry source).1 = true →
    u.hasStatus .attackDown s.turn = false → s.turn ≤ expiry →
    ∃ u', (s.applyAttackPenalty id magnitude expiry source).2.unit? id = some u' ∧
      u'.attackPenalty = magnitude ∧ u'.attackPenaltyUntil = some expiry := by
  intro hexact
  let t := played lapse courtroom
  obtain ⟨u, hu⟩ : ∃ u, t.unit? ⟨1⟩ = some u := Option.isSome_iff_exists.1 (by decide +kernel)
  have hinactive : (t.unit? ⟨1⟩).all (fun u => !u.hasStatus .attackDown t.turn) = true := by
    decide +kernel
  rw [hu, Option.all_some, Bool.not_eq_true'] at hinactive
  obtain ⟨u', hu', hone, -⟩ := hexact t ⟨1⟩ u 1 4 "second" hu (by decide +kernel) hinactive
    (by decide +kernel)
  have hafter : ((t.applyAttackPenalty ⟨1⟩ 1 4 "second").2.unit? ⟨1⟩).all
      (·.attackPenalty == 3) = true := by decide +kernel
  rw [hu', Option.all_some, beq_iff_eq, hone] at hafter
  cases hafter

end Sandbox

end CardDuel
