import CardDuel.Proofs.Sandbox.Draws
import CardDuel.Proofs.Sandbox.WellFormed

/-!
# Events only accumulate

Nothing that the rules ask for takes anything away: health goes up at most, and never over its
maximum; shields, shares and draws are counted up; lines are added to the log; and a card can only
go from the top of a deck to the end of the hand.

* `BoardUnit.Accumulates`, `Holdings.Accumulates`, `Sandbox.Accumulates` — the relation between an
  earlier and a later state.
* `accumulates_answer`, `accumulates_run` — one request, and a run of any script.
* `events_accumulate` — any calls of the entry points, one after the other.
-/

set_option autoImplicit false

namespace CardDuel

namespace Word

variable {now most : Int32} (lo : -2147483648 ≤ most.toInt - now.toInt)
  (hi : most.toInt - now.toInt < 2147483648) (amount : UInt32)

include lo hi

theorem le_add_restored : now ≤ now + (min amount (missing now most)).toInt32 := by
  rw [Int32.le_iff_toInt_le, toInt_add_restored lo hi]
  omega

/-- Restoring something does not go over the maximum; restoring nothing leaves what is over it. -/
theorem add_restored_le (hne : now + (min amount (missing now most)).toInt32 ≠ now) :
    now + (min amount (missing now most)).toInt32 ≤ most := by
  have hsum := toInt_add_restored lo hi amount
  have hrestored := toNat_restored lo hi amount
  have hpos : (min amount (missing now most)).toNat ≠ 0 := by
    intro hzero
    refine hne (Int32.toInt_inj.1 ?_)
    rw [hsum, hzero]
    exact Int.add_zero _
  rw [Int32.le_iff_toInt_le, hsum]
  omega

end Word

/-! ## Units -/

/-- A unit loses neither health nor shield, and gains health only up to its maximum. -/
structure BoardUnit.Accumulates (u u' : BoardUnit) : Prop where
  maxHealth : u'.maxHealth = u.maxHealth
  health : u.health ≤ u'.health
  health_le : u'.health ≠ u.health → u'.health ≤ u'.maxHealth
  shield : u.shield ≤ u'.shield

namespace BoardUnit

variable {u u' u'' : BoardUnit}

theorem Accumulates.of_eq (hmax : u'.maxHealth = u.maxHealth) (hhealth : u'.health = u.health)
    (hshield : u'.shield = u.shield) : u.Accumulates u' where
  maxHealth := hmax
  health := hhealth ▸ Int32.le_refl _
  health_le hne := absurd hhealth hne
  shield := hshield ▸ UInt32.le_refl _

theorem Accumulates.refl (u : BoardUnit) : u.Accumulates u := .of_eq rfl rfl rfl

theorem Accumulates.trans (h : u.Accumulates u') (h' : u'.Accumulates u'') :
    u.Accumulates u'' where
  maxHealth := h'.maxHealth.trans h.maxHealth
  health := Int32.le_trans h.health h'.health
  health_le hne := by
    by_cases hlast : u''.health = u'.health
    · rw [hlast, h'.maxHealth]
      exact h.health_le (hlast ▸ hne)
    · exact h'.health_le hlast
  shield := UInt32.le_trans h.shield h'.shield

theorem accumulates_healed (hfits : u.Fits) (amount : UInt32) :
    u.Accumulates { u with health := u.health + (u.healed amount).toInt32 } where
  maxHealth := rfl
  health := Word.le_add_restored hfits.1 hfits.2 amount
  health_le hne := Word.add_restored_le hfits.1 hfits.2 amount hne
  shield := UInt32.le_refl _

theorem stays_cleanse (u : BoardUnit) (turn : UInt32) (statuses : List Status) :
    (u.cleanse turn statuses).1.maxHealth = u.maxHealth ∧
      (u.cleanse turn statuses).1.shield = u.shield :=
  have hbare := u.bare_cleanse turn statuses
  ⟨(congrArg maxHealth hbare :), (congrArg shield hbare :)⟩

end BoardUnit

/-! ## Sides -/

/-- A side loses neither shares nor health of its leader, and the cards of its hand and its deck
stay in order. -/
structure Holdings.Accumulates (holdings holdings' : Holdings) : Prop where
  leaderMax : holdings'.leaderMax = holdings.leaderMax
  leader : holdings.leader ≤ holdings'.leader
  leader_le : holdings'.leader ≠ holdings.leader → holdings'.leader ≤ holdings'.leaderMax
  shares : holdings.shares ≤ holdings'.shares
  cards : holdings'.hand ++ holdings'.deck = holdings.hand ++ holdings.deck
  hand : holdings.hand <+: holdings'.hand

namespace Holdings

variable {holdings holdings' holdings'' : Holdings}

theorem Accumulates.refl (holdings : Holdings) : holdings.Accumulates holdings where
  leaderMax := rfl
  leader := Int32.le_refl _
  leader_le hne := absurd rfl hne
  shares := UInt32.le_refl _
  cards := rfl
  hand := List.prefix_refl _

theorem Accumulates.trans (h : holdings.Accumulates holdings')
    (h' : holdings'.Accumulates holdings'') : holdings.Accumulates holdings'' where
  leaderMax := h'.leaderMax.trans h.leaderMax
  leader := Int32.le_trans h.leader h'.leader
  leader_le hne := by
    by_cases hlast : holdings''.leader = holdings'.leader
    · rw [hlast, h'.leaderMax]
      exact h.leader_le (hlast ▸ hne)
    · exact h'.leader_le hlast
  shares := UInt32.le_trans h.shares h'.shares
  cards := h'.cards.trans h.cards
  hand := h.hand.trans h'.hand

theorem accumulates_shares (holdings : Holdings) (amount : UInt32) :
    holdings.Accumulates { holdings with shares := Word.add holdings.shares amount } :=
  { Accumulates.refl holdings with shares := Word.le_add _ _ }

theorem accumulates_healed (hfits : holdings.Fits) (amount : UInt32) :
    holdings.Accumulates
      { holdings with leader := holdings.leader + (holdings.healed amount).toInt32 } :=
  { Accumulates.refl holdings with
    leader := Word.le_add_restored hfits.1 hfits.2 amount
    leader_le := fun hne => Word.add_restored_le hfits.1 hfits.2 amount hne }

theorem accumulates_drawn {card : String} {deck : List String}
    (hdeck : holdings.deck = card :: deck) :
    holdings.Accumulates { holdings with deck, hand := holdings.hand ++ [card] } :=
  { Accumulates.refl holdings with
    cards := by
      rw [hdeck, List.append_assoc]
      rfl
    hand := List.prefix_append _ _ }

end Holdings

/-! ## Requests -/

namespace Sandbox

/-- From `s` to `s'` nothing on the board, of the sides or in the log is taken away. -/
structure Accumulates (s s' : Sandbox) : Prop where
  unit : ∀ id u, s.unit? id = some u → ∃ u', s'.unit? id = some u' ∧ u.Accumulates u'
  holdings : ∀ side, (s.holdings side).Accumulates (s'.holdings side)
  log : s.log <+: s'.log

variable {s s' s'' : Sandbox}

theorem Accumulates.refl (s : Sandbox) : s.Accumulates s where
  unit _ u hu := ⟨u, hu, .refl u⟩
  holdings side := .refl (s.holdings side)
  log := List.prefix_refl _

theorem Accumulates.trans (h : s.Accumulates s') (h' : s'.Accumulates s'') :
    s.Accumulates s'' where
  unit id u hu := by
    obtain ⟨u', hu', hfirst⟩ := h.unit id u hu
    obtain ⟨u'', hu'', hsecond⟩ := h'.unit id u' hu'
    exact ⟨u'', hu'', hfirst.trans hsecond⟩
  holdings side := (h.holdings side).trans (h'.holdings side)
  log := h.log.trans h'.log

theorem accumulates_put {id : UnitId} {u u' : BoardUnit} (hu : s.unit? id = some u)
    (h : u.Accumulates u') : s.Accumulates (s.put id u') where
  unit id' v hv := by
    rw [unit?_put]
    split
    · rename_i hid
      cases hu.symm.trans (hid ▸ hv)
      exact ⟨u', rfl, h⟩
    · exact ⟨v, hv, .refl v⟩
  holdings side := .refl (s.holdings side)
  log := List.prefix_refl _

theorem accumulates_setHoldings {side : Side} {holdings : Holdings}
    (h : (s.holdings side).Accumulates holdings) :
    s.Accumulates (s.setHoldings side holdings) where
  unit id u hu := by
    have hunits : (s.setHoldings side holdings).unit? id = s.unit? id := by cases side <;> rfl
    exact ⟨u, hunits.trans hu, .refl u⟩
  holdings side' := by
    rw [holdings_setHoldings]
    split
    · rename_i hside
      exact hside ▸ h
    · exact .refl _
  log := by cases side <;> exact List.prefix_refl _

theorem accumulates_afflict (s : Sandbox) (id : UnitId) (status : Status) (source : String)
    {change : BoardUnit → BoardUnit} (hchange : ∀ u : BoardUnit, u.Accumulates (change u)) :
    s.Accumulates (s.afflict id status source change).2 := by
  obtain ⟨dice, -, hresisted | ⟨u, hu, hlanded⟩⟩ := s.afflict_cases id status source change
  · rw [hresisted]
    exact ⟨(Accumulates.refl s).unit, (Accumulates.refl s).holdings, List.prefix_refl _⟩
  · rw [hlanded]
    have hput := accumulates_put hu (hchange u)
    exact ⟨hput.unit, hput.holdings, hput.log⟩

/-- **No request takes anything away.** -/
theorem accumulates_answer (hunits : s.Fits) (hleaders : ∀ side, (s.holdings side).Fits)
    (q : Request) : s.Accumulates (answer q s).2 := by
  cases q with
  | unitIds | unit | pickLowestHealth => exact .refl s
  | pickRandom =>
    exact ⟨(Accumulates.refl s).unit, (Accumulates.refl s).holdings, List.prefix_refl _⟩
  | log line =>
    exact ⟨(Accumulates.refl s).unit, (Accumulates.refl s).holdings, List.prefix_append _ _⟩
  | healUnit id amount =>
    cases hu : s.unit? id with
    | none => simpa only [answer, healUnit, hu] using .refl s
    | some u =>
      rw [answer, healUnit_of_unit? hu]
      exact accumulates_put hu (BoardUnit.accumulates_healed (hunits id u hu) amount)
  | addShield id amount =>
    simp only [answer, addShield, edit]
    split
    · rename_i u hu
      exact accumulates_put hu { BoardUnit.Accumulates.refl u with shield := Word.le_add _ _ }
    · exact .refl s
  | cleanse id statuses =>
    cases hu : s.unit? id with
    | none => simpa only [answer, cleanse, hu] using .refl s
    | some u =>
      rw [answer, cleanse_of_unit? hu]
      obtain ⟨-, hhealth⟩ := u.stats_cleanse s.turn statuses
      obtain ⟨hmax, hshield⟩ := u.stays_cleanse s.turn statuses
      have hput := accumulates_put hu (.of_eq hmax hhealth hshield)
      exact ⟨hput.unit, hput.holdings, hput.log⟩
  | applyStun | applyExposed | applyAttackPenalty =>
    exact s.accumulates_afflict _ _ _ fun _ => .of_eq rfl rfl rfl
  | modifyAttack id delta =>
    simp only [answer, modifyAttack]
    split
    · exact .refl s
    · rename_i u hu
      exact accumulates_put hu (.of_eq rfl rfl rfl)
  | gainShares side amount =>
    exact accumulates_setHoldings ((s.holdings side).accumulates_shares amount)
  | healLeader side amount =>
    exact accumulates_setHoldings (Holdings.accumulates_healed (hleaders side) amount)
  | drawCard side =>
    simp only [answer, drawCard]
    split
    · exact .refl s
    · rename_i card deck hdeck
      exact accumulates_setHoldings (Holdings.accumulates_drawn hdeck)

/-! ## Runs -/

/-- **No run takes anything away.**  The ranges of health are kept on the way, so that the next heal
is exact again. -/
theorem accumulates_run {α : Type} (hunits : s.Fits) (hleaders : ∀ side, (s.holdings side).Fits)
    (x : Script α) : s.Accumulates (x.run answer s).2 := by
  induction x generalizing s with
  | done a => exact .refl s
  | ask q next ih =>
    have hfirst := accumulates_answer hunits hleaders q
    have hleaders' (side : Side) : ((answer q s).2.holdings side).Fits :=
      ((evolves_answer q s).holdings side).fits (hleaders side)
    exact hfirst.trans (ih (answer q s).1 (fits_answer hunits q) hleaders')

/-- **Events only accumulate.**  Whichever entry points are called, and in whichever order:

* no unit loses health or shield, and one that gains health has at most its maximum;
* no side loses shares, nor its leader health, likewise up to the maximum;
* the cards of a hand followed by those of the deck stay the same, and a hand is only added to;
* so is the log;
* the counter of draws goes up by the number of draws, hence does not decrease; it starts again at 0
  only where 2^64 draws are counted. -/
theorem events_accumulate (s : Sandbox) (hunits : s.Fits)
    (hleaders : ∀ side, (s.holdings side).Fits) (calls : List Call) :
    let s' := ((Call.inTurn calls).run answer s).2
    let draws := drawsOver ((Call.inTurn calls).moments answer s)
    s.Accumulates s' ∧ (∀ id, s.unit? id = none → s'.unit? id = none) ∧
      s'.dice.draws = s.dice.draws + .ofNat draws ∧
      (s.dice.draws.toNat + draws < UInt64.size → s.dice.draws ≤ s'.dice.draws) := by
  intro s' draws
  refine ⟨accumulates_run hunits hleaders _, ?_, draws_run _ s, ?_⟩
  · intro id hnone
    -- nobody comes while events are answered
    have hidentity : (s'.unit? id).map BoardUnit.identity = (s.unit? id).map BoardUnit.identity :=
      identity_run _ s id
    rw [hnone] at hidentity
    exact Option.map_eq_none_iff.1 hidentity
  · intro hroom
    have hcount := toNat_draws_run _ s hroom
    rw [UInt64.le_iff_toNat_le, hcount]
    exact Nat.le_add_right _ _

/-- A card that supplies its side and stuns whom it hits. -/
def bailiff : Card :=
  { id := "bailiff", name := "Bailiff", kind := .unit .back ⟨2, 3⟩
    triggers := [{ event := .turnStart, actions := [.drawCard 2, .gainShares 3, .heal .leader 4] },
      { event := .hit, actions := [.applyStatus .hitTarget .stun 1] }] }

/-- A card that no stun touches. -/
def statue : Card :=
  { id := "statue", name := "Statue", kind := .unit .front ⟨0, 4⟩
    specials := [.resistance (some 1.0) none none] }

def court : Engine := { catalog := ⟨[bailiff, statue], by decide +kernel⟩ }

/-- A bailiff with three cards to draw, whose leader is hurt, faces a statue. -/
def courtroom : Sandbox :=
  let bailiffIn := ((start {}).summon court.catalog "bailiff" .player).2
  let statueIn := (bailiffIn.summon court.catalog "statue" .enemy).2
  (statueIn.setDeck .player ["first", "second", "third"]).setLeader .player 18

/-- A turn of the bailiff begins, and it hits the statue. -/
def session : List Call :=
  [⟨court, ⟨.player, ⟨1⟩, 1⟩, .turnStart⟩,
    ⟨court, ⟨.player, ⟨1⟩, 1⟩, .combat { target := some ⟨2⟩ }⟩]

theorem events_accumulate_courtroom :
    let s' := ((Call.inTurn session).run answer courtroom).2
    courtroom.Fits ∧ (∀ side, (courtroom.holdings side).Fits) ∧ courtroom.Accumulates s' ∧
      s'.player = { leader := 20, leaderMax := 20, shares := 3, deck := ["third"],
                    hand := ["first", "second"] } ∧
      courtroom.dice.draws ≤ s'.dice.draws ∧ s'.dice.draws = 1 := by
  have hstart : Reached court.catalog {} (start {}) := .start
  have hbailiff := hstart.step (.summon _ "bailiff" .player)
  have hstatue := hbailiff.step (.summon _ "statue" .enemy)
  have hdeck := hstatue.step (.deck _ .player ["first", "second", "third"])
  have hreached : Reached court.catalog {} courtroom :=
    hdeck.step (.leader _ .player 18 (by decide))
  have hsound := WellFormed.of_reached (by decide) hreached
  have hunits : courtroom.Fits := fun id u hu => (hsound.unit id u hu).fits
  have hleaders (side : Side) : (courtroom.holdings side).Fits := (hsound.holdings side).fits
  obtain ⟨haccumulates, -, -, hdraws⟩ := events_accumulate courtroom hunits hleaders session
  have hroom : courtroom.dice.draws.toNat +
      drawsOver ((Call.inTurn session).moments answer courtroom) < UInt64.size := by
    decide +kernel
  exact ⟨hunits, hleaders, haccumulates, by decide +kernel, hdraws hroom, by decide +kernel⟩

end Sandbox

end CardDuel
