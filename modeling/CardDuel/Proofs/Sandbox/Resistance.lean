import CardDuel.Proofs.Catalog.Specials
import CardDuel.Proofs.Sandbox.Accumulation
import CardDuel.Proofs.Sandbox.Play
import CardDuel.Proofs.Sandbox.Records

/-!
# Resistance

The chances to resist come from accepted cards, and no play puts others in their place.  So whatever
is rolled for is a probability that the roll can use as it is.  At the ends nothing is left to
chance: what is certain to resist always resists, and without a chance the status always lands and
nothing is rolled.

* `against_cases`, `against_of_gives` — the resistance of a card and the chances that it gives.
* `fractional_answer`, `fractional_of_setup` — all chances on the board stay between 0 and 1.
* `settled_answer`, `settled_of_setup` — a summoned unit keeps the resistance of its card.
* `resistance_sound` — rolls are safe, and exact at the ends.
-/

set_option autoImplicit false

namespace CardDuel

open Validation (Fraction)

/-! ## Cards -/

/-- The chance that a special gives a unit to resist a status. -/
def Special.chance? : Special → Status → Option Float
  | .resistance stun _ _, .stun => stun
  | .resistance _ exposed _, .exposed => exposed
  | .resistance _ _ attackDown, .attackDown => attackDown
  | .taunt, _ | .shieldOnSummon _, _ => none

/-- A card gives its units a chance to resist a status. -/
def Card.Gives (c : Card) (status : Status) (chance : Float) : Prop :=
  ∃ special ∈ c.specials, special.chance? status = some chance

theorem Special.against_resistance? {special : Special} {r : Resistance}
    (h : special.resistance? = some r) (status : Status) :
    r.against status = (special.chance? status).getD 0 := by
  cases special with
  | resistance stun exposed attackDown =>
    cases h
    cases status <;> rfl
  | taunt | shieldOnSummon => cases h

theorem Special.isResistance_of_chance? {special : Special} {status : Status} {chance : Float}
    (h : special.chance? status = some chance) : Validation.isResistance special = true := by
  cases special with
  | resistance => rfl
  | taunt | shieldOnSummon => cases h

/-- The resistance of a card is a chance that it gives, or none. -/
theorem Card.against_cases (c : Card) (status : Status) :
    c.Gives status (c.resistance.against status) ∨ c.resistance.against status = 0 := by
  unfold Card.resistance
  cases hfound : c.specials.findSome? Special.resistance? with
  | none =>
    refine .inr ?_
    cases status <;> rfl
  | some r =>
    obtain ⟨special, hspecial, hr⟩ := List.exists_of_findSome?_eq_some hfound
    have hagainst := Special.against_resistance? hr status
    cases hchance : special.chance? status with
    | none =>
      rw [hchance] at hagainst
      exact .inr hagainst
    | some chance =>
      rw [hchance] at hagainst
      exact .inl ⟨special, hspecial, by rw [Option.getD_some, hagainst, hchance]; rfl⟩

/-- **The chance that an accepted card gives is its resistance.** -/
theorem Catalog.against_of_gives {catalog : Catalog} {id : String} {card : Card}
    (hget : catalog.getUnit? id = some card) {status : Status} {chance : Float}
    (hgives : card.Gives status chance) : card.resistance.against status = chance := by
  have hcard := ((Validation.errors_eq_nil_iff _).1 catalog.accepted).cards card
    (mem_of_getUnit? hget).1
  obtain ⟨special, hspecial, hchance⟩ := hgives
  have hdeclared : special ∈ card.specials.filter Validation.isResistance :=
    List.mem_filter.2 ⟨hspecial, Special.isResistance_of_chance? hchance⟩
  rcases card.resistance_cases hcard with ⟨hnone, -⟩ | ⟨stun, exposed, attackDown, honly, hcounts⟩
  · rw [hnone] at hdeclared
    cases hdeclared
  · rw [honly, List.mem_singleton] at hdeclared
    subst hdeclared
    have hgiven : (Special.resistance stun exposed attackDown).resistance? =
        some card.resistance := congrArg some hcounts.symm
    rw [Special.against_resistance? hgiven, hchance]
    rfl

/-- **The resistance of an accepted card is between 0 and 1.** -/
theorem Catalog.fraction_against {catalog : Catalog} {id : String} {card : Card}
    (hget : catalog.getUnit? id = some card) (status : Status) :
    Fraction (card.resistance.against status) := by
  have hcard := ((Validation.errors_eq_nil_iff _).1 catalog.accepted).cards card
    (mem_of_getUnit? hget).1
  rcases card.against_cases status with ⟨special, hspecial, hchance⟩ | hnone
  · have hwellFormed := hcard.specials special hspecial
    cases special with
    | resistance stun exposed attackDown =>
      refine hwellFormed _ ?_
      rw [← hchance]
      cases status <;> simp [Special.chance?]
    | taunt | shieldOnSummon => cases hchance
  · rw [hnone]
    exact ⟨by decide +kernel, by decide +kernel, by decide +kernel⟩

namespace Sandbox

/-! ## Chances -/

variable {s : Sandbox} {id : UnitId} {status : Status}

/-- All chances on the board are between 0 and 1. -/
def Fractional (s : Sandbox) : Prop :=
  ∀ (id : UnitId) (r : Resistance) (status : Status), s.resistances[id]? = some r →
    Fraction (r.against status)

theorem fractional_start (setup : Setup) : (start setup).Fractional := by
  intro id r status hr
  simp [start] at hr

theorem fractional_answer (hs : s.Fractional) (q : Request) : (answer q s).2.Fractional := by
  intro id r status hr
  rw [(frame_any q s).resistances] at hr
  exact hs id r status hr

theorem fractional_of_setup (hs : s.Fractional) {p : Play} (hp : p.isSetup = true) :
    (p.on s).Fractional := by
  cases p with
  | summon catalog cardId side =>
    simp only [Play.on, summon]
    split
    · exact hs
    · rename_i card hget
      split
      · exact hs
      · intro id r status hr
        have hinsert : (s.resistances.insert ⟨s.nextUnit⟩ card.resistance)[id]? = some r := hr
        rw [Std.ExtTreeMap.getElem?_insert] at hinsert
        split at hinsert
        · cases hinsert
          exact Catalog.fraction_against hget status
        · exact hs id r status hinsert
  | place | advance => exact hs
  | edit =>
    simp only [Play.on, edit]
    split <;> exact hs
  | request | call => cases hp

/-- **What is rolled for is a probability**, and above zero. -/
theorem fraction_of_rolled? (hs : s.Fractional) {q : Request} {p : Float}
    (hp : s.rolled? q = some p) : p.isNaN = false ∧ 0.0 < p ∧ p ≤ 1.0 := by
  obtain ⟨mark, -, hunit⟩ := Option.bind_eq_some_iff.1 hp
  obtain ⟨u, -, hchance⟩ := Option.bind_eq_some_iff.1 hunit
  unfold chance? at hchance
  split at hchance
  · cases hchance
  · rename_i habove
    obtain rfl := Option.some.inj hchance
    have hfraction : Fraction (s.resistanceAgainst mark.unit mark.status) := by
      unfold resistanceAgainst
      split
      · exact ⟨by decide +kernel, by decide +kernel, by decide +kernel⟩
      · rename_i r hr
        exact hs mark.unit r mark.status hr
    obtain ⟨hnumber, -, hle⟩ := hfraction
    have hzero : (0.0 : Float).isNaN = false := by decide +kernel
    exact ⟨hnumber, Dice.lt_of_not_le hnumber hzero habove, hle⟩

/-! ## Settled units -/

/-- A unit is on the board with a resistance, and new units get higher ids. -/
structure Settled (s : Sandbox) (id : UnitId) (r : Resistance) : Prop where
  unit : (s.unit? id).isSome = true
  resistance : s.resistances[id]? = some r
  below : id.raw < s.nextUnit

variable {r : Resistance}

theorem settled_answer (hs : s.Settled id r) (q : Request) : (answer q s).2.Settled id r where
  unit := by
    have hidentity := congrArg Option.isSome (identity_answer q s id)
    rw [Option.isSome_map, Option.isSome_map] at hidentity
    rw [hidentity]
    exact hs.unit
  resistance := by
    rw [(frame_any q s).resistances]
    exact hs.resistance
  below := by
    rw [(frame_any q s).nextUnit]
    exact hs.below

/-- What the sandbox keeps about a settled unit stays when something is set up elsewhere. -/
theorem settled_of_setup (hs : s.Settled id r) {p : Play} (hp : p.isSetup = true)
    (hreplaces : ¬ p.Replaces id) :
    (p.on s).Settled id r ∧ ∀ status, (p.on s).record? ⟨id, status⟩ = s.record? ⟨id, status⟩ := by
  obtain ⟨u, hu⟩ := Option.isSome_iff_exists.1 hs.unit
  have hdossier := dossier?_of_setup hp hreplaces hs.below
  have hnext := UInt32.lt_of_lt_of_le hs.below (nextUnit_of_setup hp s)
  refine ⟨?_, fun status => record?_of_dossier? hdossier⟩
  rcases cases_of_dossier? hdossier with ⟨-, hnone⟩ | ⟨v, hv, -, hresistance, -⟩
  · cases hnone.symm.trans hu
  · exact ⟨by rw [hv]; rfl, hresistance.trans hs.resistance, hnext⟩

/-- A unit that is summoned under a new id is settled with the resistance of its card, and nothing
is recorded on it. -/
theorem settled_summon (hs : s.Numbered) (hnext : s.nextUnit < lastId.raw) {catalog : Catalog}
    {cardId : String} {card : Card} (hget : catalog.getUnit? cardId = some card) (side : Side) :
    (s.summon catalog cardId side).2.Settled ⟨s.nextUnit⟩ card.resistance ∧
      ∀ status, (s.summon catalog cardId side).2.record? ⟨⟨s.nextUnit⟩, status⟩ = some .blank := by
  obtain ⟨lane, stats, -, hsummon⟩ := s.exists_summon_eq hget side
  rw [hsummon]
  have hput := s.unit?_put_self ⟨s.nextUnit⟩ (summoned card lane stats side ⟨s.nextUnit⟩)
  refine ⟨⟨?_, Std.ExtTreeMap.getElem?_insert_self, Word.lt_add_one hnext⟩, fun status => ?_⟩
  · show ((s.put _ _).unit? _).isSome = true
    rw [hput]
    rfl
  · have hvacant : s.Vacant ⟨s.nextUnit⟩ := hs.vacant hnext (UInt32.le_refl _)
    have hsource := hvacant.source status
    refine (record?_of_unit? hput status).trans ?_
    show some (Record.mk _ _ (s.statusSource? ⟨s.nextUnit⟩ status)) = _
    rw [hsource]
    cases status <;> rfl

/-- The chance of a settled unit. -/
theorem Settled.resistanceAgainst (hs : s.Settled id r) (status : Status) :
    s.resistanceAgainst id status = r.against status := by
  rw [Sandbox.resistanceAgainst, hs.resistance]

/-- **What is certain to resist resists**, by one draw. -/
theorem Settled.lands_of_certain (hs : s.Settled id r) (hr : r.against status = 1.0) :
    s.lands id status = (false, { s with dice := s.dice.drawn }) := by
  have hpositive : ¬ (1.0 : Float) ≤ 0.0 := by decide +kernel
  rw [lands_eq, chance?, hs.resistanceAgainst, hr, if_neg hpositive, Option.bind_some,
    Dice.roll?_one]
  rfl

/-- **Without a chance the status lands**, and nothing is rolled. -/
theorem Settled.lands_of_hopeless (hs : s.Settled id r) (hr : r.against status ≤ 0.0) :
    s.lands id status = (true, s) := by
  rw [lands_eq, chance?, hs.resistanceAgainst, if_pos hr]
  rfl

end Sandbox

/-! ## Applications -/

namespace Moment

/-- A request for a status is refused: nothing but a draw comes of it. -/
structure Refused (m : Moment Sandbox) : Prop where
  answer : (m.exchange Sandbox.answer).landed? ≠ some true
  onlyDrew : (Sandbox.answer m.request m.host).2 = { m.host with dice := m.host.dice.drawn }

/-- A request for a status lands: the status is recorded, and the dice are not touched. -/
structure Landed (m : Moment Sandbox) (mark : Mark) : Prop where
  answer : (m.exchange Sandbox.answer).landed? ≠ some false
  dice : (Sandbox.answer m.request m.host).2.dice = m.host.dice
  record : ∃ r, m.host.record? mark = some r ∧
    (Sandbox.answer m.request m.host).2.record? mark = some (r.renewed m.request)

variable {m : Moment Sandbox} {id : UnitId} {status : Status} {r : Resistance}

/-- **An application against certainty is refused.** -/
theorem refused_of_certain (hs : m.host.Settled id r) (hr : r.against status = 1.0)
    (hq : m.request.afflicts? = some ⟨id, status⟩) : m.Refused := by
  obtain ⟨u, hu⟩ := Option.isSome_iff_exists.1 hs.unit
  obtain ⟨source, change, happly⟩ := Sandbox.exists_afflict hq
  obtain ⟨hstate, hlanded⟩ := happly m.host
  have hlands := hs.lands_of_certain hr
  have hafflict : m.host.afflict id status source change =
      (false, { m.host with dice := m.host.dice.drawn }) := by
    rw [Sandbox.afflict_of_resisted hu (congrArg Prod.fst hlands), hlands]
  rw [hafflict] at hstate hlanded
  exact ⟨fun htrue => Bool.false_ne_true (hlanded true htrue), hstate⟩

/-- **An application against no chance lands.** -/
theorem landed_of_hopeless (hs : m.host.Settled id r) (hr : r.against status ≤ 0.0)
    (hq : m.request.afflicts? = some ⟨id, status⟩) : m.Landed ⟨id, status⟩ := by
  obtain ⟨u, hu⟩ := Option.isSome_iff_exists.1 hs.unit
  obtain ⟨source, change, happly⟩ := Sandbox.exists_afflict hq
  obtain ⟨hstate, hlanded⟩ := happly m.host
  have hlands := hs.lands_of_hopeless hr
  have hafflict : m.host.afflict id status source change =
      (true, { m.host.put id (change u) with
        sources := m.host.sources.insert ⟨id, status⟩ source }) := by
    rw [Sandbox.afflict_of_landed hu (congrArg Prod.fst hlands), hlands]
  rw [hafflict] at hstate hlanded
  refine ⟨fun hfalse => Bool.false_ne_true (hlanded false hfalse).symm, ?_, ?_⟩
  · rw [hstate]
    rfl
  · have hrecord := Sandbox.record?_of_landed hq (congrArg Prod.fst hlands)
    have hbefore := Sandbox.record?_of_unit? hu status
    rw [hbefore] at hrecord
    exact ⟨_, hbefore, hrecord⟩

end Moment

/-! ## Later plays -/

namespace Sandbox

variable {s : Sandbox} {id : UnitId} {r : Resistance} {plays : List Play}

/-- A settled unit stays settled as long as it is not replaced. -/
theorem settled_played (hs : s.Settled id r) (hplays : ∀ p ∈ plays, ¬ p.Replaces id) :
    ∀ m ∈ asked plays s, m.host.Settled id r :=
  (kept_of_plays (I := fun t => t.Settled id r) (fun q _ ht => settled_answer ht q)
    (fun _ _ hreplaces hp ht => (settled_of_setup ht hp hreplaces).1) hplays hs).1

/-- **A status that is certain to be resisted is never recorded.** -/
theorem blank_played {status : Status} (hs : s.Settled id r) (hr : r.against status = 1.0)
    (hblank : s.record? ⟨id, status⟩ = some .blank) (hplays : ∀ p ∈ plays, ¬ p.Replaces id) :
    (∀ m ∈ asked plays s, m.host.record? ⟨id, status⟩ = some .blank) ∧
      (played plays s).record? ⟨id, status⟩ = some .blank := by
  have hanswer (q : Request) (t : Sandbox)
      (ht : t.Settled id r ∧ t.record? ⟨id, status⟩ = some .blank) :
      (answer q t).2.Settled id r ∧ (answer q t).2.record? ⟨id, status⟩ = some .blank := by
    refine ⟨settled_answer ht.1 q, ?_⟩
    rcases record?_answer_cases q t ⟨id, status⟩ with hsame | hinflicts | ⟨-, hnone⟩
    · exact hsame.trans ht.2
    · -- nothing lands here
      have hlands : (t.lands id status).1 = true := hinflicts.lands
      rw [ht.1.lands_of_certain hr] at hlands
      cases hlands
    · exact hnone
  have hsetup (p : Play) (t : Sandbox) (hreplaces : ¬ p.Replaces id) (hp : p.isSetup = true)
      (ht : t.Settled id r ∧ t.record? ⟨id, status⟩ = some .blank) :
      (p.on t).Settled id r ∧ (p.on t).record? ⟨id, status⟩ = some .blank := by
    obtain ⟨hsettled, hrecord⟩ := settled_of_setup ht.1 hp hreplaces
    exact ⟨hsettled, (hrecord status).trans ht.2⟩
  obtain ⟨hmoments, hend⟩ := kept_of_plays hanswer hsetup hplays ⟨hs, hblank⟩
  exact ⟨fun m hm => (hmoments m hm).2, hend.2⟩

/-- **Resistance rolls are safe, and exact at the ends.**

* Whatever is played from an empty board, with units from any accepted catalogs, each chance that is
  rolled for is a number above 0 and at most 1, so the roll leaves it as it is and has an answer.
* A unit that is summoned before the last id is reached, and that no later play replaces or edits:
  if its card gives 1 against a status, the status is never recorded on it, neither after the plays
  nor at a request on the way, and each request for it is refused; if its card gives nothing but
  zeros against a status, each request for it lands without a draw. -/
theorem resistance_sound (setup : Setup) (plays : List Play) :
    (∀ m ∈ asked plays (start setup), ∀ p, m.host.rolled? m.request = some p →
      p.isNaN = false ∧ 0.0 < p ∧ p ≤ 1.0 ∧ Dice.clamp p = p ∧
        ∀ label, (m.host.dice.roll? label p).isSome = true) ∧
    ∀ (catalog : Catalog) (cardId : String) (card : Card) (side : Side) (later : List Play)
      (status : Status),
      let s := played plays (start setup)
      let mark : Mark := ⟨⟨s.nextUnit⟩, status⟩
      let s' := (s.summon catalog cardId side).2
      s.nextUnit < 4294967295 → catalog.getUnit? cardId = some card →
      (∀ p ∈ later, ¬ p.Replaces mark.unit) →
      (card.Gives status 1.0 → (played later s').record? mark = some .blank ∧
        ∀ m ∈ asked later s', m.host.record? mark = some .blank ∧
          (m.request.afflicts? = some mark → m.Refused)) ∧
      ((∀ chance, card.Gives status chance → chance = 0.0 ∨ chance = -0.0) →
        ∀ m ∈ asked later s', m.request.afflicts? = some mark → m.Landed mark) := by
  refine ⟨fun m hm p hp => ?_, ?_⟩
  · have hfractional : ∀ m ∈ asked plays (start setup), m.host.Fractional :=
      (kept_of_plays (I := Fractional) (P := fun _ => True) (fun q _ ht => fractional_answer ht q)
        (fun _ _ _ hp ht => fractional_of_setup ht hp) (fun _ _ => trivial)
        (fractional_start setup)).1
    obtain ⟨hnumber, hpositive, hle⟩ := fraction_of_rolled? (hfractional m hm) hp
    refine ⟨hnumber, hpositive, hle, Dice.clamp_eq_self (Dice.le_of_lt hpositive) hle,
      fun label => ?_⟩
    obtain ⟨hit, hroll⟩ := Dice.roll?_eq_some m.host.dice label hnumber
    rw [hroll]
    rfl
  · intro catalog cardId card side later status s mark s' hnext hget hlater
    obtain ⟨hsettled, hblank⟩ := settled_summon (numbered_played setup plays) hnext hget side
    have hlaterSettled := settled_played hsettled hlater
    refine ⟨fun hgives => ?_, fun hzero m hm hq => ?_⟩
    · have hcertain := Catalog.against_of_gives hget hgives
      obtain ⟨hmoments, hend⟩ := blank_played hsettled hcertain (hblank status) hlater
      refine ⟨hend, fun m hm => ⟨hmoments m hm, fun hq => ?_⟩⟩
      exact Moment.refused_of_certain (hlaterSettled m hm) hcertain hq
    · have hhopeless : card.resistance.against status ≤ 0.0 := by
        rcases card.against_cases status with hgives | hnone
        · rcases hzero _ hgives with hplus | hminus
          · rw [hplus]
            decide +kernel
          · rw [hminus]
            decide +kernel
        · rw [hnone]
          decide +kernel
      exact Moment.landed_of_hopeless (hlaterSettled m hm) hhopeless hq

/-- A statue is summoned and hit. -/
def firstStatue : List Play :=
  [.summon court.catalog "statue" .enemy, .request (.applyStun ⟨1⟩ 3 "bailiff")]

/-- A second statue is hit and exposed. -/
def secondStatue : List Play :=
  [.request (.applyStun ⟨2⟩ 4 "bailiff"), .request (.applyExposed ⟨2⟩ 4 "bailiff"), .advance]

theorem resistance_sound_statue :
    let s := played firstStatue (start {})
    let s' := (s.summon court.catalog "statue" .enemy).2
    (∃ m ∈ asked firstStatue (start {}), m.host.rolled? m.request = some 1.0 ∧
      Dice.clamp 1.0 = 1.0) ∧
    s.nextUnit < 4294967295 ∧ statue.Gives .stun 1.0 ∧
    (played secondStatue s').record? ⟨⟨2⟩, .stun⟩ = some .blank ∧
    (∃ m ∈ asked secondStatue s', m.request = .applyStun ⟨2⟩ 4 "bailiff" ∧ m.Refused) ∧
    (∃ m ∈ asked secondStatue s', m.request = .applyExposed ⟨2⟩ 4 "bailiff" ∧
      m.Landed ⟨⟨2⟩, .exposed⟩) := by
  intro s s'
  obtain ⟨hrolls, hsummon⟩ := resistance_sound {} firstStatue
  have hnext : s.nextUnit < 4294967295 := by decide +kernel
  have hget : court.catalog.getUnit? "statue" = some statue := by rfl
  have hid : (⟨s.nextUnit⟩ : UnitId) = ⟨2⟩ := by decide +kernel
  have hlater (status : Status) :
      ∀ p ∈ secondStatue, ¬ p.Replaces (Mark.mk ⟨s.nextUnit⟩ status).unit := by
    intro p hp
    simp only [secondStatue, List.mem_cons, List.not_mem_nil, or_false] at hp
    obtain rfl | rfl | rfl := hp <;> exact id
  have hgives : statue.Gives .stun 1.0 := ⟨_, List.mem_singleton_self _, rfl⟩
  have hnothing (chance : Float) : statue.Gives .exposed chance → chance = 0.0 ∨ chance = -0.0 := by
    rintro ⟨special, hspecial, hchance⟩
    obtain rfl := List.mem_singleton.1 hspecial
    cases hchance
  obtain ⟨hstun, -⟩ := hsummon _ _ _ .enemy secondStatue .stun hnext hget (hlater .stun)
  obtain ⟨-, hexposed⟩ := hsummon _ _ _ .enemy secondStatue .exposed hnext hget (hlater .exposed)
  obtain ⟨hblank, hrefused⟩ := hstun hgives
  rw [hid] at hblank
  have hfirst : ⟨.applyStun ⟨1⟩ 3 "bailiff", played (firstStatue.take 1) (start {})⟩ ∈
    asked firstStatue (start {}) := List.mem_singleton_self _
  have hroll : (played (firstStatue.take 1) (start {})).rolled? (.applyStun ⟨1⟩ 3 "bailiff") =
    some 1.0 := by decide +kernel
  obtain ⟨-, -, -, hclamp, -⟩ := hrolls _ hfirst 1.0 hroll
  refine ⟨⟨_, hfirst, hroll, hclamp⟩, hnext, hgives, hblank, ⟨_, .head _, rfl, ?_⟩,
    ⟨_, .tail _ (.head _), rfl, ?_⟩⟩
  · exact (hrefused _ (.head _)).2 (by rw [hid]; rfl)
  · rw [← hid]
    exact hexposed hnothing _ (.tail _ (.head _)) (by rw [hid]; rfl)

end Sandbox

end CardDuel
