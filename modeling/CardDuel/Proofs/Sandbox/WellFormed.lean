import CardDuel.Proofs.Sandbox.EventFrame
import CardDuel.Proofs.Sandbox.Evolution
import CardDuel.Proofs.Validation.Schema

/-!
# Sandboxes that play can reach

`Move` lists what can be done to a sandbox: summoning from one accepted catalog, any request of a
host, any occasion, and what a test may set up.  Every sandbox that is reached from an empty board
by such moves is well formed, and in a well-formed sandbox no difference, sum or cast in a heal or a
change of attack leaves the range of its word.

* `Identity.Genuine.maxHealth_pos` — what the checker of the catalog guarantees about a unit.
* `wellFormed_start`, `wellFormed_of_move` — the start and one move; `wellFormed_of_reached` — a
  run.
* `exact_of_wellFormed` — heals and changes of attack are exact.
-/

set_option autoImplicit false

namespace CardDuel

/-! ## Well-formed sandboxes -/

/-- The unit is one of a unit card of the catalog: of its name and lane, with its health. -/
def Identity.Genuine (catalog : Catalog) (identity : Identity) : Prop :=
  ∃ card stats, catalog.getUnit? identity.cardId = some card ∧
    card.kind = .unit identity.lane stats ∧ identity.name = card.name ∧
    identity.maxHealth = stats.health

/-- What holds of every unit on the board. -/
structure BoardUnit.Sound (catalog : Catalog) (u : BoardUnit) : Prop where
  genuine : u.identity.Genuine catalog
  attack : 0 ≤ u.attack.toInt
  health : 0 ≤ u.health.toInt
  health_le : u.health.toInt ≤ u.maxHealth.toInt

/-- What holds of the leader of every side. -/
structure Holdings.Sound (holdings : Holdings) : Prop where
  leader : 0 ≤ holdings.leader.toInt
  leader_le : holdings.leader.toInt ≤ holdings.leaderMax.toInt

structure Sandbox.WellFormed (catalog : Catalog) (s : Sandbox) : Prop where
  keyed : s.Keyed
  unit : ∀ id u, s.unit? id = some u → u.Sound catalog
  holdings : ∀ side, (s.holdings side).Sound

/-- The stats of a unit card are those that the checker lets pass. -/
theorem Catalog.stats_of_getUnit? {catalog : Catalog} {id : String} {card : Card} {lane : Lane}
    {stats : Stats} (h : catalog.getUnit? id = some card) (hkind : card.kind = .unit lane stats) :
    0 < stats.health.toInt ∧ 0 ≤ stats.attack.toInt := by
  have hcard := ((Validation.errors_eq_nil_iff _).1 catalog.accepted).cards card
    (mem_of_getUnit? h).1
  have hstats : card.stats? = some stats := by rw [Card.stats?, hkind]
  exact ⟨Word.pos_iff.1 (hcard.health stats hstats), Word.nonneg_iff.1 (hcard.attack stats hstats)⟩

theorem Identity.Genuine.maxHealth_pos {catalog : Catalog} {identity : Identity}
    (h : identity.Genuine catalog) : 0 < identity.maxHealth.toInt := by
  obtain ⟨card, stats, hget, hkind, -, hmax⟩ := h
  rw [hmax]
  exact (Catalog.stats_of_getUnit? hget hkind).1

/-! ## Steps -/

namespace BoardUnit

variable {catalog : Catalog} {u u' : BoardUnit}

theorem Sound.fits (hu : u.Sound catalog) : u.Fits := by
  have hattack := u.maxHealth.toInt_lt
  obtain ⟨-, -, hhealth, hle⟩ := hu
  constructor <;> rw [wound] <;> omega

theorem Sound.evolves (hu : u.Sound catalog) (h : u.Evolves u') : u'.Sound catalog := by
  have hmax : u'.maxHealth = u.maxHealth := congrArg Identity.maxHealth h.identity
  have hhealth : 0 ≤ u'.health.toInt ∧ u'.health.toInt ≤ u.maxHealth.toInt := by
    rcases h.health with hsame | ⟨amount, hhealed⟩
    · rw [hsame]
      exact ⟨hu.health, hu.health_le⟩
    · have hamount := toNat_healed hu.fits amount
      have hlo := hu.health
      have hle := hu.health_le
      rw [hhealed, toInt_healed hu.fits]
      rw [wound] at hamount
      omega
  refine ⟨h.identity ▸ hu.genuine, ?_, hhealth.1, hmax ▸ hhealth.2⟩
  rcases h.attack with hsame | ⟨delta, hraised⟩
  · rw [hsame]
    exact hu.attack
  · rw [hraised, toInt_raised]
    omega

/-- A fresh unit of a unit card is sound. -/
theorem sound_summoned {card : Card} {cardId : String} {lane : Lane} {stats : Stats}
    (hget : catalog.getUnit? cardId = some card) (hkind : card.kind = .unit lane stats)
    (side : Side) (id : UnitId) : (Sandbox.summoned card lane stats side id).Sound catalog := by
  obtain ⟨hhealth, hattack⟩ := Catalog.stats_of_getUnit? hget hkind
  have hcard : catalog.getUnit? card.id = some card := by
    rwa [(Catalog.mem_of_getUnit? hget).2]
  exact ⟨⟨card, stats, hcard, hkind, rfl, rfl⟩, hattack, Int.le_of_lt hhealth, Int.le_refl _⟩

end BoardUnit

namespace Holdings

variable {holdings holdings' : Holdings}

theorem Sound.fits (h : holdings.Sound) : holdings.Fits := by
  have hmax := holdings.leaderMax.toInt_lt
  obtain ⟨hleader, hle⟩ := h
  constructor <;> omega

theorem Sound.evolves (hs : holdings.Sound) (h : holdings.Evolves holdings') :
    holdings'.Sound := by
  rcases h.leader with hsame | ⟨amount, hhealed⟩
  · exact ⟨hsame ▸ hs.leader, hsame ▸ h.leaderMax ▸ hs.leader_le⟩
  · have hamount := toNat_healed hs.fits amount
    have hlo := hs.leader
    have hle := hs.leader_le
    constructor <;> rw [hhealed, toInt_healed hs.fits] <;> first | omega | (rw [h.leaderMax]; omega)

/-- The health of a leader is set at most to its maximum. -/
theorem Sound.set (hs : holdings.Sound) {health : Int32} (hhealth : 0 ≤ health.toInt) :
    ({ holdings with leader := min health holdings.leaderMax } : Holdings).Sound := by
  by_cases h : health ≤ holdings.leaderMax
  · have hmin : min health holdings.leaderMax = health := if_pos h
    rw [hmin]
    exact ⟨hhealth, Int32.le_iff_toInt_le.1 h⟩
  · have hmin : min health holdings.leaderMax = holdings.leaderMax := if_neg h
    rw [hmin]
    exact ⟨Int.le_trans hs.leader hs.leader_le, Int.le_refl _⟩

end Holdings

namespace Sandbox

variable {catalog : Catalog} {s s' : Sandbox}

theorem wellFormed_start {setup : Setup} (hleader : 0 ≤ setup.leaderHealth) :
    (start setup).WellFormed catalog where
  keyed := keyed_start setup
  unit id u hu := by simp [start, unit?] at hu
  holdings side := by
    have hpos := Word.nonneg_iff.1 hleader
    cases side <;> exact ⟨hpos, Int.le_refl _⟩

theorem WellFormed.put (hs : s.WellFormed catalog) {id : UnitId} {u : BoardUnit} (hid : u.id = id)
    (hu : u.Sound catalog) : (s.put id u).WellFormed catalog where
  keyed id' v hv := by
    rw [unit?_put] at hv
    split at hv
    · rename_i hsame
      cases hv
      exact hid.trans hsame
    · exact hs.keyed id' v hv
  unit id' v hv := by
    rw [unit?_put] at hv
    split at hv
    · cases hv
      exact hu
    · exact hs.unit id' v hv
  holdings := hs.holdings

theorem WellFormed.setHoldings (hs : s.WellFormed catalog) {side : Side} {holdings : Holdings}
    (h : holdings.Sound) : (s.setHoldings side holdings).WellFormed catalog := by
  have hunits (id : UnitId) : (s.setHoldings side holdings).unit? id = s.unit? id := by
    cases side <;> rfl
  refine ⟨fun id u hu => hs.keyed id u (hunits id ▸ hu), fun id u hu => ?_, fun side' => ?_⟩
  · exact hs.unit id u (hunits id ▸ hu)
  · rw [holdings_setHoldings]
    split
    · exact h
    · exact hs.holdings side'

theorem WellFormed.summon (hs : s.WellFormed catalog) (cardId : String) (side : Side) :
    (s.summon catalog cardId side).2.WellFormed catalog := by
  unfold Sandbox.summon
  split
  · exact hs
  · rename_i card hget
    split
    · exact hs
    · rename_i lane stats hkind
      have hput := hs.put rfl (BoardUnit.sound_summoned hget hkind side ⟨s.nextUnit⟩)
      exact ⟨hput.keyed, hput.unit, hput.holdings⟩

/-- **Any request leaves a sandbox well formed.** -/
theorem WellFormed.answer (hs : s.WellFormed catalog) (q : Request) :
    (answer q s).2.WellFormed catalog where
  keyed := keyed_answer hs.keyed q
  unit id u' hu' := by
    obtain ⟨u, hu, hevolves⟩ := (evolves_answer q s).unit id u' hu'
    exact (hs.unit id u hu).evolves hevolves
  holdings side := (hs.holdings side).evolves ((evolves_answer q s).holdings side)

/-! ## Runs -/

/-- What can be done to a sandbox; the last kind of move sets the attack, the health, the shield and
the statuses of a unit. -/
inductive Move (catalog : Catalog) : Sandbox → Sandbox → Prop
  | summon (s : Sandbox) (cardId : String) (side : Side) :
      Move catalog s (s.summon catalog cardId side).2
  | request (s : Sandbox) (q : Request) : Move catalog s (Sandbox.answer q s).2
  | occasion (s : Sandbox) (e : Engine) (a : Actor) (o : Occasion) :
      Move catalog s ((o.script e a).run Sandbox.answer s).2
  | advance (s : Sandbox) : Move catalog s s.advance
  | deck (s : Sandbox) (side : Side) (cards : List String) : Move catalog s (s.setDeck side cards)
  | leader (s : Sandbox) (side : Side) (health : Int32) (hhealth : 0 ≤ health) :
      Move catalog s (s.setLeader side health)
  | write (s : Sandbox) (id : UnitId) (u u' : BoardUnit) (hu : s.unit? id = some u)
      (hidentity : u'.identity = u.identity) (hattack : 0 ≤ u'.attack) (hhealth : 0 ≤ u'.health)
      (hle : u'.health ≤ u'.maxHealth) : Move catalog s (s.put id u')

/-- The sandboxes that moves can make of an empty board. -/
inductive Reached (catalog : Catalog) (setup : Setup) : Sandbox → Prop
  | start : Reached catalog setup (start setup)
  | step {s s' : Sandbox} (hs : Reached catalog setup s) (h : Move catalog s s') :
      Reached catalog setup s'

/-- **Any move leaves a sandbox well formed.** -/
theorem wellFormed_of_move (hs : s.WellFormed catalog) (h : Move catalog s s') :
    s'.WellFormed catalog := by
  cases h with
  | summon cardId side => exact hs.summon cardId side
  | request q => exact hs.answer q
  | occasion e a o =>
    -- whatever the engine asks, each request keeps the sandbox well formed
    exact Script.host_of_run (I := WellFormed catalog) (fun q _ ht => ht.answer q) hs
  | advance => exact ⟨hs.keyed, hs.unit, hs.holdings⟩
  | deck side cards =>
    exact hs.setHoldings ⟨(hs.holdings side).leader, (hs.holdings side).leader_le⟩
  | leader side health hhealth =>
    exact hs.setHoldings ((hs.holdings side).set (Word.nonneg_iff.1 hhealth))
  | write id u u' hu hidentity hattack hhealth hle =>
    refine hs.put ((congrArg Identity.id hidentity).trans (hs.keyed id u hu)) ?_
    exact ⟨hidentity ▸ (hs.unit id u hu).genuine, Word.nonneg_iff.1 hattack,
      Word.nonneg_iff.1 hhealth, Int32.le_iff_toInt_le.1 hle⟩

theorem WellFormed.of_reached {setup : Setup} (hleader : 0 ≤ setup.leaderHealth)
    (hs : Reached catalog setup s) : s.WellFormed catalog := by
  induction hs with
  | start => exact wellFormed_start hleader
  | step _ h ih => exact wellFormed_of_move ih h

/-! ## Exactness -/

/-- Restoring `restored` of `amount` from `now` towards `most` keeps to whole numbers: the missing
difference, its cut, the cast of what is restored, and the sum `now'`. -/
structure Restores (now most : Int32) (amount restored : UInt32) (now' : Int32) : Prop where
  difference : (most - now).toInt = most.toInt - now.toInt
  cut : (restored.toNat : Int) = min (amount.toNat : Int) (most.toInt - now.toInt)
  cast : restored.toInt32.toInt = restored.toNat
  sum : now'.toInt = now.toInt + restored.toNat

/-- Changing `attack` by `applied` of `delta` keeps to whole numbers: never below zero, never above
the greatest word, and exactly what is answered. -/
structure Raises (attack delta applied attack' : Int32) : Prop where
  bounded : applied.toInt = min (max (-attack.toInt) delta.toInt) (2147483647 - attack.toInt)
  sum : attack'.toInt = attack.toInt + applied.toInt

/-- Heals and changes of attack are exact. -/
structure Exact (s : Sandbox) : Prop where
  heal : ∀ id u amount, s.unit? id = some u → ∃ u',
    (s.healUnit id amount).2.unit? id = some u' ∧
      Restores u.health u.maxHealth amount (s.healUnit id amount).1 u'.health
  leader : ∀ side amount, Restores (s.holdings side).leader (s.holdings side).leaderMax amount
    (s.healLeader side amount).1 ((s.healLeader side amount).2.holdings side).leader
  attack : ∀ id u delta, s.unit? id = some u → ∃ u',
    (s.modifyAttack id delta).2.unit? id = some u' ∧
      Raises u.attack delta (s.modifyAttack id delta).1 u'.attack

theorem restores_of_le {now most : Int32} (lo : 0 ≤ now.toInt) (hle : now.toInt ≤ most.toInt)
    (amount : UInt32) : Restores now most amount (min amount (Word.missing now most))
      (now + (min amount (Word.missing now most)).toInt32) := by
  have hmost := most.toInt_lt
  have hlo : -2147483648 ≤ most.toInt - now.toInt := by omega
  have hhi : most.toInt - now.toInt < 2147483648 := by omega
  refine ⟨Word.toInt_sub hlo hhi, ?_, Word.toInt_restored hlo hhi amount,
    Word.toInt_add_restored hlo hhi amount⟩
  have hrestored := Word.toNat_restored hlo hhi amount
  omega

theorem raises_of_nonneg {u : BoardUnit} (hattack : 0 ≤ u.attack.toInt) (delta : Int32) :
    Raises u.attack delta (u.raised delta - u.attack) (u.raised delta) := by
  have hraised := u.toInt_raised delta
  have happlied := u.toInt_raised_sub (by omega) delta
  constructor <;> omega

/-- **In a well-formed sandbox heals and changes of attack are exact.** -/
theorem exact_of_wellFormed (hs : s.WellFormed catalog) : s.Exact where
  heal id u amount hu := by
    have hsound := hs.unit id u hu
    rw [healUnit_of_unit? hu]
    exact ⟨_, unit?_put_self ..,
      restores_of_le hsound.health hsound.health_le amount⟩
  leader side amount := by
    have hsound := hs.holdings side
    rw [healLeader, holdings_setHoldings, if_pos rfl]
    exact restores_of_le hsound.leader hsound.leader_le amount
  attack id u delta hu := by
    rw [modifyAttack_of_unit? hu]
    exact ⟨_, unit?_put_self .., raises_of_nonneg (hs.unit id u hu).attack delta⟩

/-- **Whatever is reached is well formed, and exact.**  From an empty board whose leaders have no
negative health, every sequence of moves over one accepted catalog leads to a sandbox

* whose units are stored under their own ids, stem from unit cards of the catalog, with their name,
  lane and health, and have no negative attack and no more health than their maximum;
* whose leaders have no more health than theirs;
* where no difference, sum or cast in a heal or a change of attack leaves its range. -/
theorem wellFormed_of_reached (catalog : Catalog) {setup : Setup}
    (hleader : 0 ≤ setup.leaderHealth) {s : Sandbox} (hs : Reached catalog setup s) :
    s.WellFormed catalog ∧ (∀ id u, s.unit? id = some u → 1 ≤ u.maxHealth.toInt) ∧ s.Exact := by
  have hwf := WellFormed.of_reached hleader hs
  exact ⟨hwf, fun id u hu => (hwf.unit id u hu).genuine.maxHealth_pos, exact_of_wellFormed hwf⟩

def casualty : BoardUnit := { summoned medic .front ⟨1, 3⟩ .player ⟨1⟩ with health := 1 }

/-- A medic was summoned and hurt. -/
def casualtyWard : Sandbox :=
  ((start {}).summon infirmary.catalog "medic" .player).2.put ⟨1⟩ casualty

/-- However much is asked for, the medic is healed up to the health of its card. -/
theorem wellFormed_of_reached_casualtyWard :
    0 ≤ ({} : Setup).leaderHealth ∧ Reached infirmary.catalog {} casualtyWard ∧
      casualtyWard.WellFormed infirmary.catalog ∧
      ∃ u', (casualtyWard.healUnit ⟨1⟩ 4294967295).2.unit? ⟨1⟩ = some u' ∧
        u'.health.toInt = 3 := by
  have hleader : 0 ≤ ({} : Setup).leaderHealth := by decide
  have hreached : Reached infirmary.catalog {} casualtyWard := by
    have hmedic : ((start {}).summon infirmary.catalog "medic" .player).2.unit? ⟨1⟩ =
        some (summoned medic .front ⟨1, 3⟩ .player ⟨1⟩) := by decide +kernel
    exact .step (.step .start (.summon _ "medic" .player))
      (.write _ _ _ casualty hmedic rfl (by decide) (by decide) (by decide))
  obtain ⟨hwf, -, hexact⟩ := wellFormed_of_reached infirmary.catalog hleader hreached
  obtain ⟨u', hu', hheal⟩ := hexact.heal ⟨1⟩ casualty 4294967295 ((unit?_put ..).trans (if_pos rfl))
  refine ⟨hleader, hreached, hwf, u', hu', ?_⟩
  have hcut : (UInt32.toNat (casualtyWard.healUnit ⟨1⟩ 4294967295).1 : Int) = 2 := hheal.cut
  rw [hheal.sum, hcut]
  rfl

end Sandbox

end CardDuel
