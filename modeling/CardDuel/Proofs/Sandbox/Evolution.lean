import CardDuel.Proofs.Sandbox.Changes

/-!
# What one request can make of the sandbox

Whatever is asked, a unit keeps its identity, its attack goes where `modifyAttack` can bring it and
its health where a heal can, and the same holds of the leaders.  So a property of units that these
two steps keep is kept by all requests.

* `evolves_answer` — one request, whatever it is.
* `identity_answer`, `identity_run` — nobody comes, goes or changes name.
* `inRange_answer` — the differences that the sandbox computes stay signed words.
-/

set_option autoImplicit false

namespace CardDuel

/-! ## Units and holdings -/

/-- What one request can make of a unit. -/
structure BoardUnit.Evolves (u u' : BoardUnit) : Prop where
  identity : u'.identity = u.identity
  attack : u'.attack = u.attack ∨ ∃ delta, u'.attack = u.raised delta
  health : u'.health = u.health ∨ ∃ amount, u'.health = u.health + (u.healed amount).toInt32

namespace Holdings

/-- What a heal restores to a leader. -/
def healed (holdings : Holdings) (amount : UInt32) : UInt32 :=
  min amount (Word.missing holdings.leader holdings.leaderMax)

/-- The distance from the health of the leader to its maximum is a signed word. -/
def Fits (holdings : Holdings) : Prop :=
  -2147483648 ≤ holdings.leaderMax.toInt - holdings.leader.toInt ∧
    holdings.leaderMax.toInt - holdings.leader.toInt < 2147483648

/-- What one request can make of the holdings of a side, as far as the leader is concerned. -/
structure Evolves (holdings holdings' : Holdings) : Prop where
  leaderMax : holdings'.leaderMax = holdings.leaderMax
  leader : holdings'.leader = holdings.leader ∨
    ∃ amount, holdings'.leader = holdings.leader + (holdings.healed amount).toInt32

theorem Evolves.refl (holdings : Holdings) : holdings.Evolves holdings := ⟨rfl, .inl rfl⟩

variable {holdings holdings' : Holdings} (hfits : holdings.Fits)

include hfits

theorem toNat_healed (amount : UInt32) : (holdings.healed amount).toNat =
    min amount.toNat (holdings.leaderMax.toInt - holdings.leader.toInt).toNat :=
  Word.toNat_restored hfits.1 hfits.2 amount

theorem toInt_healed (amount : UInt32) :
    (holdings.leader + (holdings.healed amount).toInt32).toInt =
      holdings.leader.toInt + (holdings.healed amount).toNat :=
  Word.toInt_add_restored hfits.1 hfits.2 amount

theorem Evolves.fits (h : holdings.Evolves holdings') : holdings'.Fits := by
  rcases h.leader with hleader | ⟨amount, hleader⟩
  · rwa [Fits, hleader, h.leaderMax]
  · have hhealed := toNat_healed hfits amount
    obtain ⟨hlo, hhi⟩ := hfits
    rw [Fits, hleader, h.leaderMax, toInt_healed ⟨hlo, hhi⟩]
    omega

end Holdings

namespace BoardUnit

theorem Evolves.refl (u : BoardUnit) : u.Evolves u := ⟨rfl, .inl rfl, .inl rfl⟩

/-- A change of anything else. -/
theorem Evolves.of_eq {u u' : BoardUnit} (hidentity : u'.identity = u.identity)
    (hattack : u'.attack = u.attack) (hhealth : u'.health = u.health) : u.Evolves u' :=
  ⟨hidentity, .inl hattack, .inl hhealth⟩

theorem stats_cleanse (u : BoardUnit) (turn : UInt32) (statuses : List Status) :
    (u.cleanse turn statuses).1.attack = u.attack ∧
      (u.cleanse turn statuses).1.health = u.health :=
  have hbare := u.bare_cleanse turn statuses
  ⟨(congrArg attack hbare :), (congrArg health hbare :)⟩

end BoardUnit

/-! ## Requests -/

namespace Sandbox

variable {s s' : Sandbox}

/-- What one request can make of the board and of the leaders. -/
structure Evolves (s s' : Sandbox) : Prop where
  unit : ∀ id u', s'.unit? id = some u' → ∃ u, s.unit? id = some u ∧ u.Evolves u'
  holdings : ∀ side, (s.holdings side).Evolves (s'.holdings side)

theorem Evolves.refl (s : Sandbox) : s.Evolves s :=
  ⟨fun _ u' hu' => ⟨u', hu', .refl u'⟩, fun side => .refl (s.holdings side)⟩

theorem evolves_put {id : UnitId} {u u' : BoardUnit} (hu : s.unit? id = some u)
    (h : u.Evolves u') : s.Evolves (s.put id u') where
  unit id' v' hv' := by
    rw [unit?_put] at hv'
    split at hv'
    · rename_i hid
      cases hv'
      exact ⟨u, hid ▸ hu, h⟩
    · exact ⟨v', hv', .refl v'⟩
  holdings side := .refl (s.holdings side)

theorem evolves_setHoldings {side : Side} {holdings : Holdings}
    (h : (s.holdings side).Evolves holdings) : s.Evolves (s.setHoldings side holdings) where
  unit id u' hu' := by
    have hunits : (s.setHoldings side holdings).unit? id = s.unit? id := by cases side <;> rfl
    exact ⟨u', hunits ▸ hu', .refl u'⟩
  holdings side' := by
    rw [holdings_setHoldings]
    split
    · rename_i hside
      exact hside ▸ h
    · exact .refl _

theorem evolves_afflict (s : Sandbox) (id : UnitId) (status : Status) (source : String)
    {change : BoardUnit → BoardUnit} (hchange : ∀ u : BoardUnit, u.Evolves (change u)) :
    s.Evolves (s.afflict id status source change).2 := by
  obtain ⟨dice, -, hresisted | ⟨u, hu, hlanded⟩⟩ := s.afflict_cases id status source change
  · rw [hresisted]
    exact ⟨(Evolves.refl s).unit, (Evolves.refl s).holdings⟩
  · rw [hlanded]
    have hput := evolves_put hu (hchange u)
    exact ⟨hput.unit, hput.holdings⟩

/-- **What one request can make of the sandbox.** -/
theorem evolves_answer (q : Request) (s : Sandbox) : s.Evolves (answer q s).2 := by
  cases q with
  | unitIds | unit | pickLowestHealth => exact .refl s
  | pickRandom | log => exact ⟨(Evolves.refl s).unit, (Evolves.refl s).holdings⟩
  | healUnit id amount =>
    cases hu : s.unit? id with
    | none => simpa only [answer, healUnit, hu] using .refl s
    | some u =>
      rw [answer, healUnit_of_unit? hu]
      exact evolves_put hu ⟨rfl, .inl rfl, .inr ⟨amount, rfl⟩⟩
  | addShield id amount =>
    simp only [answer, addShield, edit]
    split
    · rename_i u hu
      exact evolves_put hu (.of_eq rfl rfl rfl)
    · exact .refl s
  | cleanse id statuses =>
    cases hu : s.unit? id with
    | none => simpa only [answer, cleanse, hu] using .refl s
    | some u =>
      rw [answer, cleanse_of_unit? hu]
      obtain ⟨hattack, hhealth⟩ := u.stats_cleanse s.turn statuses
      have hput := evolves_put hu (.of_eq (identity_cleanse u s.turn statuses) hattack hhealth)
      exact ⟨hput.unit, hput.holdings⟩
  | applyStun | applyExposed | applyAttackPenalty =>
    exact s.evolves_afflict _ _ _ fun _ => BoardUnit.Evolves.of_eq rfl rfl rfl
  | modifyAttack id delta =>
    simp only [answer, modifyAttack]
    split
    · exact .refl s
    · rename_i u hu
      exact evolves_put hu ⟨rfl, .inr ⟨delta, rfl⟩, .inl rfl⟩
  | gainShares => exact evolves_setHoldings ⟨rfl, .inl rfl⟩
  | healLeader side amount => exact evolves_setHoldings ⟨rfl, .inr ⟨amount, rfl⟩⟩
  | drawCard side =>
    simp only [answer, drawCard]
    split
    · exact .refl s
    · exact evolves_setHoldings ⟨rfl, .inl rfl⟩

theorem frame_any (q : Request) (s : Sandbox) :
    Frame (q.side?.getD .player) (fun _ => True) s (answer q s).2 :=
  frame_answer ⟨fun _ _ => trivial, fun side hside => by rw [hside]; rfl⟩

/-- **Nobody comes, goes or becomes somebody else.** -/
theorem identity_answer (q : Request) (s : Sandbox) (id : UnitId) :
    ((answer q s).2.unit? id).map BoardUnit.identity = (s.unit? id).map BoardUnit.identity :=
  (frame_any q s).identity id

theorem identity_run {α : Type} (x : Script α) (s : Sandbox) (id : UnitId) :
    ((x.run answer s).2.unit? id).map BoardUnit.identity = (s.unit? id).map BoardUnit.identity :=
  Script.host_of_run
    (I := fun t => (t.unit? id).map BoardUnit.identity = (s.unit? id).map BoardUnit.identity)
    (fun q t ht => (identity_answer q t id).trans ht) rfl

theorem keyed_answer (hs : s.Keyed) (q : Request) : (answer q s).2.Keyed :=
  keyed_of_frame hs (frame_any q s)

/-! ## Ranges -/

/-- The differences that the sandbox computes are signed words. -/
structure InRange (s : Sandbox) : Prop where
  health : s.Fits
  attack : ∀ id u, s.unit? id = some u → -2147483648 < u.attack.toInt
  leader : ∀ side, (s.holdings side).Fits

theorem inRange_start (setup : Setup) : (start setup).InRange where
  health := fits_start setup
  attack id u hu := by simp [start, unit?] at hu
  leader side := by cases side <;> simp [start, holdings, Holdings.Fits]

theorem inRange_place (hs : s.InRange) {u : BoardUnit} (hfits : u.Fits)
    (hattack : -2147483648 < u.attack.toInt) : (s.place u).InRange where
  health := fits_place hs.health hfits
  attack id v hv := by
    rw [unit?_place] at hv
    split at hv
    · cases hv
      exact hattack
    · exact hs.attack id v hv
  leader side := hs.leader side

theorem inRange_answer (hs : s.InRange) (q : Request) : (answer q s).2.InRange where
  health := fits_answer hs.health q
  attack id u' hu' := by
    obtain ⟨u, hu, hevolves⟩ := (evolves_answer q s).unit id u' hu'
    rcases hevolves.attack with hattack | ⟨delta, hattack⟩
    · rw [hattack]
      exact hs.attack id u hu
    · rw [hattack, BoardUnit.toInt_raised]
      omega
  leader side := ((evolves_answer q s).holdings side).fits (hs.leader side)

end Sandbox

end CardDuel
