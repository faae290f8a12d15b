import CardDuel.Proofs.Sandbox.Play
import CardDuel.Proofs.Sandbox.Accumulation
import CardDuel.Proofs.Validation.Schema

/-!
# Fresh ids

New units are numbered.  The counter goes up with every summon and past every unit that is put in
place by hand, so as long as the last id of all is free, what a summon gives is above every id that
the sandbox knows anything of.

* `unit?_ne_none_played` — no play takes a unit off the board.
* `nextUnit_le_played` — the counter never goes down.
* `keyed_numbered_played` — a unit has the id under which it stands, so `lt_nextUnit_of_known`: what
  is known stands below the counter.
* `summonedIds_bounds` — the ids that a run of plays gives, between the counters at its ends.
* `summon_fresh` — ids are fresh.
-/

set_option autoImplicit false

namespace CardDuel

namespace Play

/-- A play leaves the unit under an id with this id as its own. -/
def KeepsId : Play → Sandbox → Prop
  | .edit id f, s => ∀ u, s.unit? id = some u → (f u).id = u.id
  | .summon .., _ | .place _, _ | .request _, _ | .call _, _ | .advance, _ => True

/-- The id that a play gives to a new unit. -/
def given? : Play → Sandbox → Option UnitId
  | .summon catalog cardId side, s => (s.summon catalog cardId side).1
  | .place _, _ | .request _, _ | .call _, _ | .advance, _ | .edit .., _ => none

end Play

namespace Sandbox

/-- The ids that the summons of some plays return, in order. -/
def summonedIds : List Play → Sandbox → List UnitId
  | [], _ => []
  | p :: plays, s => (p.given? s).toList ++ summonedIds plays (p.on s)

theorem summonedIds_append (plays plays' : List Play) (s : Sandbox) :
    summonedIds (plays ++ plays') s =
      summonedIds plays s ++ summonedIds plays' (played plays s) := by
  induction plays generalizing s with
  | nil => rfl
  | cons p plays ih =>
    rw [List.cons_append, summonedIds, summonedIds, ih, List.append_assoc]
    rfl

variable {s : Sandbox} {id : UnitId}

/-! ## One play -/

theorem unit?_ne_none_of_setup {p : Play} (hp : p.isSetup = true) (hs : s.unit? id ≠ none) :
    (p.on s).unit? id ≠ none := by
  have hput (id' : UnitId) (u : BoardUnit) : (s.put id' u).unit? id ≠ none := by
    rw [unit?_put]
    split
    · exact Option.some_ne_none u
    · exact hs
  cases p with
  | summon catalog cardId side =>
    cases hget : catalog.getUnit? cardId with
    | none =>
      rw [Play.on, summon_eq_none s hget]
      exact hs
    | some card =>
      obtain ⟨lane, stats, -, hsummon⟩ := s.exists_summon_eq hget side
      rw [Play.on, hsummon]
      exact hput _ _
  | place u => exact hput u.id u
  | advance => exact hs
  | edit id' f =>
    simp only [Play.on, edit]
    split
    · exact hput id' _
    · exact hs
  | request | call => cases hp

/-- **No play takes a unit off the board.** -/
theorem unit?_ne_none_played (plays : List Play) (hs : s.unit? id ≠ none) :
    (played plays s).unit? id ≠ none :=
  (kept_of_plays (I := fun t => t.unit? id ≠ none) (P := fun _ => True)
    (fun q t ht hnone => ht ((isNone_answer q t id).1 hnone))
    (fun _ _ _ hp ht => unit?_ne_none_of_setup hp ht) (fun _ _ => trivial) hs).2

/-- **The counter never goes down.** -/
theorem nextUnit_le_played (plays : List Play) (s : Sandbox) :
    s.nextUnit ≤ (played plays s).nextUnit := by
  refine (kept_of_plays (I := fun t => s.nextUnit ≤ t.nextUnit) (P := fun _ => True)
    (fun q t ht => ?_) (fun p t _ hp ht => ?_) (fun _ _ => trivial) (UInt32.le_refl _)).2
  · rw [(frame_any q t).nextUnit]
    exact ht
  · exact UInt32.le_trans ht (nextUnit_of_setup hp t)

/-- The last id is free if no unit on the board has it. -/
theorem unit?_lastId_of_board (hs : s.Keyed) (hfree : ∀ u ∈ s.board, u.id ≠ lastId) :
    s.unit? lastId = none := by
  by_contra hsome
  obtain ⟨u, hu⟩ := Option.ne_none_iff_exists'.1 hsome
  exact hfree u (mem_board_iff.2 ⟨lastId, hu⟩) (hs lastId u hu)

theorem Numbered.lt_nextUnit (hs : s.Numbered) (hlast : s.unit? lastId = none)
    (hknown : ¬ s.Vacant id) : id.raw < s.nextUnit := by
  by_contra hle
  exact hknown (hs.below hlast id (UInt32.not_lt.1 hle))

/-- **What is known stands below the counter**, as long as the last id is free. -/
theorem lt_nextUnit_of_known (hkeyed : s.Keyed) (hnumbered : s.Numbered)
    (hlast : s.unit? lastId = none) :
    (∀ u ∈ s.board, u.id.raw < s.nextUnit) ∧
    (∀ other : UnitId, (s.resistances[other]?).isSome = true → other.raw < s.nextUnit) ∧
    ∀ (other : UnitId) (status : Status), (s.statusSource? other status).isSome = true →
      other.raw < s.nextUnit := by
  refine ⟨fun u hu => ?_, fun other hother => ?_, fun other status hother => ?_⟩
  · obtain ⟨id, hid⟩ := mem_board_iff.1 hu
    rw [hkeyed id u hid]
    exact hnumbered.lt_nextUnit hlast fun hvacant => by cases hvacant.unit.symm.trans hid
  · refine hnumbered.lt_nextUnit hlast fun hvacant => ?_
    rw [hvacant.resistance] at hother
    cases hother
  · refine hnumbered.lt_nextUnit hlast fun hvacant => ?_
    rw [hvacant.source] at hother
    cases hother

theorem keyed_of_setup (hs : s.Keyed) {p : Play} (hp : p.isSetup = true) (hkeeps : p.KeepsId s) :
    (p.on s).Keyed := by
  cases p with
  | summon catalog cardId side =>
    cases hget : catalog.getUnit? cardId with
    | none =>
      rw [Play.on, summon_eq_none s hget]
      exact hs
    | some card =>
      obtain ⟨lane, stats, -, hsummon⟩ := s.exists_summon_eq hget side
      rw [Play.on, hsummon]
      exact keyed_put hs rfl
  | place u => exact keyed_place hs u
  | advance => exact hs
  | edit id f =>
    simp only [Play.on, edit]
    split
    · rename_i u hu
      exact keyed_put hs ((hkeeps u hu).trans (hs id u hu))
    · exact hs
  | request | call => cases hp

/-- **A unit that is summoned where nothing is known is as its card has it.** -/
theorem dossier?_summon (hvacant : s.Vacant ⟨s.nextUnit⟩) {catalog : Catalog} {cardId : String}
    {card : Card} (hget : catalog.getUnit? cardId = some card) (side : Side) :
    (s.summon catalog cardId side).1 = some ⟨s.nextUnit⟩ ∧
      ∃ lane stats, card.kind = .unit lane stats ∧
        (s.summon catalog cardId side).2.dossier? ⟨s.nextUnit⟩ =
          some ⟨summoned card lane stats side ⟨s.nextUnit⟩, some card.resistance,
            fun _ => none⟩ := by
  obtain ⟨lane, stats, hkind, hsummon⟩ := s.exists_summon_eq hget side
  rw [hsummon]
  refine ⟨rfl, lane, stats, hkind, ?_⟩
  have hsource : s.statusSource? ⟨s.nextUnit⟩ = fun _ => none := funext hvacant.source
  have hunit := s.unit?_put_self ⟨s.nextUnit⟩ (summoned card lane stats side ⟨s.nextUnit⟩)
  have hresistance : (s.resistances.insert ⟨s.nextUnit⟩ card.resistance)[
      (⟨s.nextUnit⟩ : UnitId)]? = some card.resistance := Std.ExtTreeMap.getElem?_insert_self
  rw [dossier?, Option.map_eq_some_iff]
  exact ⟨_, hunit, congr (congrArg (Dossier.mk _) hresistance) hsource⟩

/-! ## Numbers that are given -/

/-- A play that gives an id gives the next one, and the counter goes up, unless it was the last. -/
theorem lt_nextUnit_of_given {p : Play} (hgiven : p.given? s = some id)
    (hlast : (p.on s).unit? lastId = none) :
    id = ⟨s.nextUnit⟩ ∧ s.nextUnit < (p.on s).nextUnit := by
  cases p with
  | summon catalog cardId side =>
    cases hget : catalog.getUnit? cardId with
    | none =>
      rw [Play.given?, summon_eq_none s hget] at hgiven
      cases hgiven
    | some card =>
      obtain ⟨lane, stats, -, hsummon⟩ := s.exists_summon_eq hget side
      rw [Play.given?, hsummon] at hgiven
      rw [Play.on, hsummon] at hlast ⊢
      refine ⟨(Option.some.inj hgiven).symm, Word.lt_add_one ?_⟩
      -- the last id is still free, so it was not the one that was given
      have hne : s.nextUnit ≠ 4294967295 := by
        intro heq
        have hid : (⟨s.nextUnit⟩ : UnitId) = lastId := congrArg UnitId.mk heq
        have hself := s.unit?_put_self ⟨s.nextUnit⟩ (summoned card lane stats side ⟨s.nextUnit⟩)
        rw [hid] at hself hlast
        cases hself.symm.trans hlast
      have hlt := s.nextUnit.toNat_lt
      rw [← UInt32.toNat_inj.ne] at hne
      rw [UInt32.lt_iff_toNat_lt]
      have hmost : (4294967295 : UInt32).toNat = 4294967295 := rfl
      omega
  | place | request | call | advance | edit => cases hgiven

/-- **The ids that are given go up**, between the counters at the two ends of the plays. -/
theorem summonedIds_bounds {plays : List Play} (hlast : (played plays s).unit? lastId = none) :
    (∀ id ∈ summonedIds plays s,
      s.nextUnit ≤ id.raw ∧ id.raw < (played plays s).nextUnit) ∧
    (summonedIds plays s).Pairwise fun id id' => id.raw < id'.raw := by
  induction plays generalizing s with
  | nil => exact ⟨List.forall_mem_nil _, .nil⟩
  | cons p plays ih =>
    obtain ⟨hbounds, hincreasing⟩ := ih hlast
    have hfree : (p.on s).unit? lastId = none := by
      by_contra hsome
      exact unit?_ne_none_played plays hsome hlast
    have hfirst := nextUnit_le_played [p] s
    have hrest := nextUnit_le_played plays (p.on s)
    have hbetween : ∀ id ∈ summonedIds plays (p.on s),
        s.nextUnit ≤ id.raw ∧ id.raw < (played (p :: plays) s).nextUnit := by
      intro id hid
      obtain ⟨hlower, hupper⟩ := hbounds id hid
      exact ⟨UInt32.le_trans hfirst hlower, hupper⟩
    rw [summonedIds]
    cases hgiven : p.given? s with
    | none => exact ⟨hbetween, hincreasing⟩
    | some new =>
      obtain ⟨rfl, hup⟩ := lt_nextUnit_of_given hgiven hfree
      refine ⟨List.forall_mem_cons.2 ⟨⟨UInt32.le_refl _, ?_⟩, hbetween⟩,
        List.pairwise_cons.2 ⟨fun id hid => ?_, hincreasing⟩⟩
      · exact UInt32.lt_of_lt_of_le hup hrest
      · exact UInt32.lt_of_lt_of_le hup (hbounds id hid).1

/-- The next id, given after some plays, continues the ids that were given before. -/
theorem pairwise_summonedIds_concat {plays : List Play} {p : Play}
    (hlast : (played plays s).unit? lastId = none)
    (hgiven : p.given? (played plays s) = some ⟨(played plays s).nextUnit⟩) :
    (summonedIds (plays ++ [p]) s).Pairwise fun id id' => id.raw < id'.raw := by
  obtain ⟨hbounds, hincreasing⟩ := summonedIds_bounds hlast
  have hnew : summonedIds [p] (played plays s) = [⟨(played plays s).nextUnit⟩] := by
    simp [summonedIds, hgiven]
  rw [summonedIds_append, hnew]
  refine List.pairwise_append.2 ⟨hincreasing, List.pairwise_singleton _ _, ?_⟩
  intro id hid new hnew
  rw [List.mem_singleton.1 hnew]
  exact (hbounds id hid).2

/-! ## Reached sandboxes -/

theorem keyed_numbered_played (setup : Setup) {plays : List Play}
    (hplays : Along Play.KeepsId plays (start setup)) :
    (played plays (start setup)).Keyed ∧ (played plays (start setup)).Numbered :=
  (kept_along (I := fun s => s.Keyed ∧ s.Numbered)
    (fun q _ hs => ⟨keyed_answer hs.1 q, hs.2.answer q⟩)
    (fun _ _ hkeeps hp hs => ⟨keyed_of_setup hs.1 hp hkeeps, hs.2.of_setup hp⟩)
    hplays ⟨keyed_start setup, numbered_start setup⟩).2

/-- **Fresh ids.**  Whatever is played from an empty board, with units put in place under any ids,
as long as edits leave a unit its id:

* if no unit on the board has the last id of all, the summon of a unit card of an accepted catalog
  returns an id above those of all units on the board, and above every id with a resistance or a
  source of a status; so the unit is new there and inherits nothing, what is known of the others
  stays, and the ids that the summons have returned go up to this one;
* the summon of anything else returns no id and leaves the sandbox as it is. -/
theorem summon_fresh (setup : Setup) {plays : List Play}
    (hplays : Along Play.KeepsId plays (start setup)) :
    let s := played plays (start setup)
    (∀ (catalog : Catalog) (card : Card) (side : Side), (∀ u ∈ s.board, u.id ≠ lastId) →
      card ∈ catalog.cards → card.isUnit = true →
      let s' := (s.summon catalog card.id side).2
      ∃ id, (s.summon catalog card.id side).1 = some id ∧
        (∀ u ∈ s.board, u.id.raw < id.raw) ∧
        (∀ other : UnitId, (s.resistances[other]?).isSome = true → other.raw < id.raw) ∧
        (∀ (other : UnitId) (status : Status), (s.statusSource? other status).isSome = true →
          other.raw < id.raw) ∧
        (∃ lane stats, card.kind = .unit lane stats ∧
          s'.dossier? id = some ⟨summoned card lane stats side id, some card.resistance,
            fun _ => none⟩) ∧
        (∀ other, other ≠ id → s'.dossier? other = s.dossier? other) ∧
        (summonedIds (plays ++ [.summon catalog card.id side]) (start setup)).Pairwise
          fun id id' => id.raw < id'.raw) ∧
    ∀ (catalog : Catalog) (cardId : String) (side : Side),
      (∀ card ∈ catalog.cards, card.id = cardId → card.isUnit = false) →
      s.summon catalog cardId side = (none, s) := by
  intro s
  obtain ⟨hkeyed, hnumbered⟩ := keyed_numbered_played setup hplays
  constructor
  · intro catalog card side hfree hcard hunit s'
    have hlast := unit?_lastId_of_board hkeyed hfree
    have hget := Catalog.getUnit?_eq_some_iff.2 ⟨hcard, rfl, hunit⟩
    have hvacant := hnumbered.below hlast ⟨s.nextUnit⟩ (UInt32.le_refl _)
    obtain ⟨hgiven, hdossier⟩ := dossier?_summon hvacant hget side
    obtain ⟨hboard, hresistances, hsources⟩ := lt_nextUnit_of_known hkeyed hnumbered hlast
    refine ⟨⟨s.nextUnit⟩, hgiven, hboard, hresistances, hsources, hdossier, ?_, ?_⟩
    · intro other hne
      exact dossier?_of_spared (p := .summon catalog card.id side) rfl hne.symm
    · exact pairwise_summonedIds_concat (p := .summon catalog card.id side) hlast hgiven
  · intro catalog cardId side hnone
    exact summon_eq_none s (Catalog.getUnit?_eq_none_iff.2 hnone) side

/-- A bailiff is summoned, and two units are put in place under the least id of all and the last but
one. -/
def enrolment : List Play :=
  [.summon court.catalog "bailiff" .player,
    .place (.fresh ⟨4294967294⟩ "clerk" "Clerk" .player .back 1 3),
    .place (.fresh ⟨0⟩ "clerk" "Clerk" .enemy .front 1 3),
    .request (.applyExposed ⟨0⟩ 3 "bailiff"), .edit ⟨0⟩ fun u => { u with health := 1 }, .advance]

/-- The next unit gets the last id of all. -/
theorem summon_fresh_enrolment :
    let s := played enrolment (start {})
    Along Play.KeepsId enrolment (start {}) ∧ (∀ u ∈ s.board, u.id ≠ lastId) ∧
    (s.summon court.catalog "statue" .enemy).1 = some lastId ∧
    (∀ u ∈ s.board, u.id.raw < lastId.raw) ∧
    (s.summon court.catalog "statue" .enemy).2.dossier? ⟨0⟩ = s.dossier? ⟨0⟩ ∧
    (summonedIds (enrolment ++ [.summon court.catalog "statue" .enemy]) (start {})).Pairwise
      (fun id id' => id.raw < id'.raw) ∧
    summonedIds (enrolment ++ [.summon court.catalog "statue" .enemy]) (start {}) =
      [⟨1⟩, lastId] ∧
    (s.summon court.catalog "unheard-of" .enemy).1 = none := by
  intro s
  have hplays : Along Play.KeepsId enrolment (start {}) :=
    ⟨trivial, trivial, trivial, trivial, fun _ _ => rfl, trivial, trivial⟩
  have hfree : ∀ u ∈ s.board, u.id ≠ lastId := by decide +kernel
  obtain ⟨hknown, hunknown⟩ := summon_fresh {} hplays
  have hstatue : statue ∈ court.catalog.cards := .tail _ (.head _)
  obtain ⟨id, hid, hboard, -, -, -, hothers, hincreasing⟩ :=
    hknown court.catalog statue .enemy hfree hstatue rfl
  have hlast : (s.summon court.catalog "statue" .enemy).1 = some lastId := by decide +kernel
  obtain rfl : id = lastId := Option.some.inj (hid.symm.trans hlast)
  refine ⟨hplays, hfree, hlast, hboard, hothers ⟨0⟩ (by decide), hincreasing, by decide +kernel,
    ?_⟩
  have hnone := hunknown court.catalog "unheard-of" .enemy (by decide +kernel)
  exact congrArg Prod.fst hnone

end Sandbox

end CardDuel
