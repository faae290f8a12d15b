import CardDuel.Proofs.Engine.CallProtocol
import CardDuel.Proofs.Sandbox.Search

/-!
# Who is offered, and who is chosen

An ally that is not remembered is chosen among candidates.  On the sandbox the candidates are the
living units of the acting side that the action wants, from the lowest id to the highest, and what
is chosen among them is decided by health and id or by one draw.

* `pairwise_allies`, `mem_allies_iff_offers` — the list of candidates: its order and its members.
* `BoardUnit.atMost_of_weakest?`, `atMost_of_lowestHealth?` — the choice by health takes the least
  pair of health and id.
* `candidates_exact` — a search for an ally, from the list of candidates to the unit chosen.
-/

set_option autoImplicit false

namespace CardDuel

/-! ## The weakest unit -/

namespace BoardUnit

/-- The pair of health and id of a unit is at most that of another one. -/
def AtMost (u v : BoardUnit) : Prop :=
  u.health < v.health ∨ u.health = v.health ∧ u.id.raw ≤ v.id.raw

variable {u v w : BoardUnit}

theorem atMost_iff : u.AtMost v ↔ u.health.toInt < v.health.toInt ∨
    u.health.toInt = v.health.toInt ∧ u.id.raw.toNat ≤ v.id.raw.toNat := by
  rw [AtMost, Int32.lt_iff_toInt_lt, Int32.toInt_inj, UInt32.le_iff_toNat_le]

theorem AtMost.refl (u : BoardUnit) : u.AtMost u := .inr ⟨rfl, UInt32.le_refl _⟩

theorem AtMost.trans (h : u.AtMost v) (h' : v.AtMost w) : u.AtMost w := by
  rw [atMost_iff] at h h' ⊢
  omega

theorem atMost_of_weaker (h : u.weaker v = true) : u.AtMost v := by
  simp only [weaker, Bool.or_eq_true, Bool.and_eq_true, decide_eq_true_eq, beq_iff_eq] at h
  exact h.imp_right fun h => ⟨h.1, UInt32.le_of_lt h.2⟩

theorem atMost_of_not_weaker (h : ¬ u.weaker v = true) : v.AtMost u := by
  simp only [weaker, Bool.or_eq_true, Bool.and_eq_true, decide_eq_true_eq, beq_iff_eq,
    Int32.lt_iff_toInt_lt, ← Int32.toInt_inj, UInt32.lt_iff_toNat_lt] at h
  rw [atMost_iff]
  omega

/-- **The weakest unit has the least pair of health and id.** -/
theorem atMost_of_weakest? {us : List BoardUnit} (h : weakest? us = some u) :
    ∀ v ∈ us, u.AtMost v := by
  induction us generalizing u with
  | nil => cases h
  | cons first us ih =>
    rw [weakest?] at h
    cases hrest : weakest? us with
    | none =>
      have hnone : us = [] := by
        by_contra hne
        have hsome := Sandbox.isSome_weakest? hne
        rw [hrest] at hsome
        cases hsome
      rw [hrest] at h
      cases h
      rw [hnone]
      exact List.forall_mem_cons.2 ⟨.refl first, List.forall_mem_nil _⟩
    | some w =>
      have hleast := ih hrest
      rw [hrest] at h
      simp only [Option.some.injEq] at h
      split at h
      · -- the weakest of the others is weaker than the first unit
        rename_i hweaker
        cases h
        exact List.forall_mem_cons.2 ⟨atMost_of_weaker hweaker, hleast⟩
      · rename_i hweaker
        cases h
        have hfirst := atMost_of_not_weaker hweaker
        exact List.forall_mem_cons.2 ⟨.refl first, fun v hv => hfirst.trans (hleast v hv)⟩

end BoardUnit

/-! ## Candidates -/

/-- What an action asks of an ally, beyond being a living unit of the acting side. -/
def Firing.Wants (f : Firing) (action : Action) (u : BoardUnit) : Prop :=
  match action with
  | .heal .. => u.health < u.maxHealth
  | .cleanse _ statuses => statuses.getD [] = [] ∨
      ∃ status ∈ statuses.getD [], u.hasStatus status f.turn = true
  | .gainShield .. => u.id ≠ f.source
  | .gainShares _ | .modifyAttack .. | .applyStatus .. | .drawCard _ => True

theorem Firing.suits_iff (f : Firing) (action : Action) (u : BoardUnit) :
    f.suits action u = true ↔ f.Wants action u := by
  cases action with
  | heal => exact decide_eq_true_iff
  | cleanse target statuses =>
    simp [suits, Wants, BoardUnit.matchesFilter, Action.statusFilter]
  | gainShield => exact bne_iff_ne
  | _ => exact iff_true_intro rfl

namespace Sandbox

variable {s : Sandbox} {f : Firing} {action : Action}

/-- A unit is offered for an action: it is alive, on the acting side, and wanted. -/
def Offers (s : Sandbox) (f : Firing) (action : Action) (id : UnitId) : Prop :=
  ∃ u, s.unit? id = some u ∧ u.side = f.side ∧ 0 < u.health ∧ f.Wants action u

theorem mem_allies_iff_offers (hs : s.Keyed) {id : UnitId} :
    id ∈ s.allies f action ↔ s.Offers f action id := by
  rw [mem_allies_iff hs, Offers]
  simp only [f.suits_iff, BoardUnit.alive, decide_eq_true_eq]

/-- The board is listed from the lowest id to the highest. -/
theorem pairwise_board (hs : s.Keyed) : s.board.Pairwise fun u v => u.id.raw < v.id.raw := by
  rw [board, List.pairwise_map]
  refine Std.ExtTreeMap.ordered_keys_toList.imp_of_mem ?_
  rintro ⟨id, u⟩ ⟨id', v⟩ hu hv hlt
  have hid := hs id u (Std.ExtTreeMap.mem_toList_iff_getElem?_eq_some.1 hu)
  have hid' := hs id' v (Std.ExtTreeMap.mem_toList_iff_getElem?_eq_some.1 hv)
  rw [hid, hid']
  exact UnitId.compare_eq_lt.1 hlt

theorem pairwise_unitIds (hs : s.Keyed) (side : Side) (lane : Option Lane) :
    (s.unitIds side lane).Pairwise fun id id' => id.raw < id'.raw := by
  rw [unitIds, List.pairwise_map]
  exact (pairwise_board hs).filter _

/-- **The candidates ascend strictly**, so none of them is listed twice. -/
theorem pairwise_allies (hs : s.Keyed) (f : Firing) (action : Action) :
    (s.allies f action).Pairwise fun id id' => id.raw < id'.raw := by
  have hunits : ((s.unitIds f.side none).filterMap s.unit?).Pairwise
      fun u v => u.id.raw < v.id.raw := by
    rw [List.pairwise_filterMap]
    refine (pairwise_unitIds hs f.side none).imp ?_
    intro id id' hlt u hu v hv
    rw [hs id u hu, hs id' v hv]
    exact hlt
  rw [allies, Firing.candidates, List.pairwise_map]
  exact hunits.filter _

/-! ## Choices -/

/-- **The choice by health takes the least pair of health and id.** -/
theorem atMost_of_lowestHealth? (hs : s.Keyed) {candidates : List UnitId} {id : UnitId}
    (h : s.lowestHealth? candidates = some id) :
    ∃ u, s.unit? id = some u ∧
      ∀ id' ∈ candidates, ∀ v, s.unit? id' = some v → u.AtMost v := by
  obtain ⟨u, hu, rfl⟩ := Option.map_eq_some_iff.1 h
  obtain ⟨id, -, hunit⟩ := List.mem_filterMap.1 (mem_of_weakest? hu)
  refine ⟨u, by rwa [hs id u hunit], fun id' hid' v hv => ?_⟩
  exact BoardUnit.atMost_of_weakest? hu v (List.mem_filterMap.2 ⟨id', hid', hv⟩)

theorem choose_of_heal {ids : List UnitId} (hne : ids ≠ []) (hheal : action.kind = .heal) :
    f.choose action ids = Script.request (.pickLowestHealth ids) := by
  unfold Firing.choose
  rw [if_neg (by simpa using hne)]
  cases action with
  | heal => rfl
  | _ => cases hheal

theorem choose_of_not_heal {ids : List UnitId} (hne : ids ≠ []) (hheal : action.kind ≠ .heal) :
    f.choose action ids =
      Script.request (.pickRandom ids (f.allyLabel (some action.kind))) := by
  unfold Firing.choose
  rw [if_neg (by simpa using hne)]
  cases action with
  | heal => exact absurd rfl hheal
  | _ => rfl

/-- The exchanges of a search for an ally that is not remembered, reads apart, are those of the
choice among the candidates. -/
theorem nonReads_ally (f : Firing) (memory : Memory) (action : Action)
    (hk : ((f.remembered memory action).run answer s).1 = none) :
    nonReads ((f.ally memory action).transcript answer s) =
      nonReads ((f.choose action (s.allies f action)).transcript answer s) := by
  rw [f.nonReads_ally_of_given_up answer memory action s hk, run_remembered,
    f.nonReads_pickAlly_eq answer action s]
  show nonReads ((f.choose action (f.candidates action
    ((Firing.knownUnits (s.unitIds f.side none)).run answer s).1)).transcript answer
      ((Firing.knownUnits (s.unitIds f.side none)).run answer s).2) = _
  rw [run_knownUnits]
  rfl

/-- A search for an ally that is not remembered ends with the choice among the candidates. -/
theorem run_ally (f : Firing) (memory : Memory) (action : Action)
    (hk : ((f.remembered memory action).run answer s).1 = none) :
    (f.ally memory action).run answer s =
      let chosen := (f.choose action (s.allies f action)).run answer s
      ((chosen.1, chosen.1.elim memory fun id => { ally := some id }), chosen.2) := by
  rw [f.ally_of_given_up answer memory action s hk, run_remembered, run_pickAlly]

/-- A remembered ally that the action gives up does not serve. -/
theorem remembered_eq_none {memory : Memory}
    (h : ∀ id u, memory.ally = some id → s.unit? id = some u → f.GivesUp action (some u)) :
    ((f.remembered memory action).run answer s).1 = none := by
  rw [run_remembered, Option.filter_eq_none_iff]
  intro id hid
  cases hu : s.unit? id with
  | none => exact Bool.false_ne_true
  | some u =>
    have hserves := (f.stillServes_eq_false_iff action u).2 (h id u hid hu)
    rw [Option.any_some, hserves]
    exact Bool.false_ne_true

theorem chosen_by_health (hs : s.Keyed) (hheal : action.kind = .heal)
    (hne : s.allies f action ≠ []) :
    ∃ id ∈ s.allies f action,
      (f.choose action (s.allies f action)).run answer s = (some id, s) ∧
      (f.choose action (s.allies f action)).transcript answer s =
        [⟨.pickLowestHealth (s.allies f action), some id⟩] ∧
      ∃ u, s.unit? id = some u ∧
        ∀ id' ∈ s.allies f action, ∀ v, s.unit? id' = some v → u.AtMost v := by
  have hboard (id : UnitId) (hid : id ∈ s.allies f action) : (s.unit? id).isSome = true := by
    obtain ⟨u, hu, -⟩ := (mem_allies_iff hs).1 hid
    rw [hu]
    rfl
  obtain ⟨id, hid, hlow⟩ := exists_of_lowestHealth? hs hne hboard
  have hpicked : answer (.pickLowestHealth (s.allies f action)) s = (some id, s) :=
    congrArg (·, s) hlow
  rw [choose_of_heal hne hheal, Script.request, Script.run_ask, Script.transcript_ask, hpicked]
  exact ⟨id, hid, rfl, rfl, atMost_of_lowestHealth? hs hlow⟩

theorem chosen_by_draw (hheal : action.kind ≠ .heal) (hne : s.allies f action ≠ []) :
    ∃ id ∈ s.allies f action,
      (f.choose action (s.allies f action)).run answer s =
        (some id, { s with dice := s.dice.drawn }) ∧
      (f.choose action (s.allies f action)).transcript answer s =
        [⟨.pickRandom (s.allies f action) (f.allyLabel (some action.kind)), some id⟩] ∧
      s.dice.pick (f.allyLabel (some action.kind)) (s.allies f action) =
        (some id, s.dice.drawn) := by
  have hsize : (s.allies f action).length < UInt64.size :=
    Nat.lt_of_le_of_lt length_allies_le (by decide)
  obtain ⟨id, hid⟩ := Option.isSome_iff_exists.1
    (s.dice.isSome_pick (f.allyLabel (some action.kind)) hne hsize)
  have hpick : s.dice.pick (f.allyLabel (some action.kind)) (s.allies f action) =
      (some id, s.dice.drawn) := Prod.ext hid (Dice.draws_pick _ _ hne)
  have hpicked : answer (.pickRandom (s.allies f action) (f.allyLabel (some action.kind))) s =
      (some id, { s with dice := s.dice.drawn }) := by
    simp only [answer, pickRandom, hpick]
  rw [choose_of_not_heal hne hheal, Script.request, Script.run_ask, Script.transcript_ask, hpicked]
  exact ⟨id, Dice.mem_of_pick hid, rfl, rfl, hpick⟩

/-- **Candidates are exact.**  An action on an ally looks for it on a sandbox whose units are stored
under their own ids, and the remembered ally, if there is one on the board, is given up.  Then the
candidates are, in strictly ascending order of ids, the living units of the acting side that the
action wants.

* Without a candidate nothing is chosen, the sandbox stays as it is, and the search fails.
* Otherwise one of the candidates is chosen and remembered: for a heal the one with the least pair
  of health and id, without a draw; else by one draw, whose label names the card, the event and the
  class of the choice. -/
theorem candidates_exact (hs : s.Keyed) (f : Firing) (memory : Memory)
    (ha : action.target? = some .ally)
    (hgiven : ∀ id u, memory.ally = some id → s.unit? id = some u →
      f.GivesUp action (some u)) :
    let choices := nonReads ((f.target memory action).transcript answer s)
    let run := (f.target memory action).run answer s
    let label := f.cardId ++ ":" ++ f.event.spelling ++ Firing.choiceClass (some action.kind) ++
      ":ally"
    ∃ ids : List UnitId, ids.Pairwise (fun id id' => id.raw < id'.raw) ∧
      (∀ id, id ∈ ids ↔ s.Offers f action id) ∧
      (ids = [] → choices = [] ∧ run = ((none, memory), s)) ∧
      (ids ≠ [] → ∃ id ∈ ids, run.1 = (some id, { ally := some id }) ∧
        (action.kind = .heal → choices = [⟨.pickLowestHealth ids, some id⟩] ∧ run.2 = s ∧
          ∃ u, s.unit? id = some u ∧ ∀ id' ∈ ids, ∀ v, s.unit? id' = some v → u.AtMost v) ∧
        (action.kind ≠ .heal → choices = [⟨.pickRandom ids label, some id⟩] ∧
          s.dice.pick label ids = (some id, s.dice.drawn) ∧
          run.2 = { s with dice := s.dice.drawn })) := by
  intro choices run label
  have hk := remembered_eq_none hgiven
  have hchoices : choices =
      nonReads ((f.choose action (s.allies f action)).transcript answer s) := by
    simp only [choices, f.target_of_ally memory action ha, nonReads_ally f memory action hk]
  have hrun : run =
      let chosen := (f.choose action (s.allies f action)).run answer s
      ((chosen.1, chosen.1.elim memory fun id => { ally := some id }), chosen.2) := by
    simp only [run, f.target_of_ally memory action ha, run_ally f memory action hk]
  refine ⟨s.allies f action, pairwise_allies hs f action, fun _ => mem_allies_iff_offers hs, ?_, ?_⟩
  · intro hempty
    rw [hchoices, hrun, hempty]
    exact ⟨rfl, rfl⟩
  · intro hne
    by_cases hheal : action.kind = .heal
    · obtain ⟨id, hid, hchosen, hasked, hleast⟩ := chosen_by_health hs hheal hne
      rw [hchoices, hrun, hchosen, hasked]
      exact ⟨id, hid, rfl, fun _ => ⟨rfl, rfl, hleast⟩, fun hother => absurd hheal hother⟩
    · obtain ⟨id, hid, hchosen, hasked, hpick⟩ := chosen_by_draw hheal hne
      rw [hchoices, hrun, hchosen, hasked]
      exact ⟨id, hid, rfl, fun hother => absurd hother hheal, fun _ => ⟨rfl, hpick, rfl⟩⟩

def wounded (id : UnitId) : BoardUnit :=
  { BoardUnit.fresh id "guard" "Guard" .player .front 2 5 with health := 1 }

/-- Two guards beside a healthy medic are wounded alike, and a third one is dead. -/
def triage : Sandbox :=
  ((((start {}).place (.fresh ⟨1⟩ "medic" "Medic" .player .back 1 3)).place (wounded ⟨5⟩)).place
    (wounded ⟨2⟩)).place { wounded ⟨3⟩ with health := 0 }

def medicsTurn : Firing :=
  { cardId := "medic", event := .turnStart, side := .player, source := ⟨1⟩, sourceName := "Medic",
    turn := 1, combat := none, settings := {} }

/-- A heal goes to the guard with the lower id, although it came later; a shield goes to one of the
guards by one draw.  The dead guard, which is remembered, is given up. -/
theorem candidates_exact_triage :
    let remembered : Memory := { ally := some ⟨3⟩ }
    triage.Keyed ∧ (Action.heal .ally 2).target? = some .ally ∧
      (Action.gainShield .ally 1).target? = some .ally ∧
      (∀ action id u, remembered.ally = some id → triage.unit? id = some u →
        medicsTurn.GivesUp action (some u)) ∧
      (∃ ids, ⟨5⟩ ∈ ids ∧
        nonReads ((medicsTurn.target remembered (.heal .ally 2)).transcript answer triage) =
          [⟨.pickLowestHealth ids, some ⟨2⟩⟩]) ∧
      ∃ ids id, ⟨1⟩ ∉ ids ∧ ⟨2⟩ ∈ ids ∧ ⟨3⟩ ∉ ids ∧
        nonReads ((medicsTurn.target remembered (.gainShield .ally 1)).transcript answer triage) =
          [⟨.pickRandom ids "medic:turn_start:shield:ally", some id⟩] := by
  intro remembered
  have hkeyed : triage.Keyed :=
    keyed_place (keyed_place (keyed_place (keyed_place (keyed_start {}) _) _) _) _
  have hmedic : triage.unit? ⟨1⟩ = some (.fresh ⟨1⟩ "medic" "Medic" .player .back 1 3) := by
    decide +kernel
  have hguard : triage.unit? ⟨2⟩ = some (wounded ⟨2⟩) := by decide +kernel
  have hguard' : triage.unit? ⟨5⟩ = some (wounded ⟨5⟩) := by decide +kernel
  have hdead : triage.unit? ⟨3⟩ = some { wounded ⟨3⟩ with health := 0 } := by decide +kernel
  have hgiven (action : Action) (id : UnitId) (u : BoardUnit) (hid : remembered.ally = some id)
      (hu : triage.unit? id = some u) : medicsTurn.GivesUp action (some u) := by
    cases hid
    cases hdead.symm.trans hu
    exact .inl (by decide)
  have hheals : (Action.heal .ally 2).target? = some .ally := rfl
  have hshields : (Action.gainShield .ally 1).target? = some .ally := rfl
  refine ⟨hkeyed, hheals, hshields, hgiven, ?_, ?_⟩
  · obtain ⟨ids, -, hoffers, -, hsome⟩ :=
      candidates_exact hkeyed medicsTurn remembered hheals (hgiven _)
    have hfive : (⟨5⟩ : UnitId) ∈ ids :=
      (hoffers _).2 ⟨_, hguard', rfl, by decide, (medicsTurn.suits_iff _ _).1 (by decide)⟩
    obtain ⟨id, -, hrun, hheal, -⟩ := hsome (List.ne_nil_of_mem hfive)
    have hid : ((medicsTurn.target remembered (.heal .ally 2)).run answer triage).1.1 =
        some ⟨2⟩ := by decide +kernel
    obtain rfl : id = ⟨2⟩ := by
      rw [hrun] at hid
      exact Option.some.inj hid
    exact ⟨ids, hfive, (hheal rfl).1⟩
  · obtain ⟨ids, -, hoffers, -, hsome⟩ :=
      candidates_exact hkeyed medicsTurn remembered hshields (hgiven _)
    have htwo : (⟨2⟩ : UnitId) ∈ ids :=
      (hoffers _).2 ⟨_, hguard, rfl, by decide, (medicsTurn.suits_iff _ _).1 (by decide)⟩
    obtain ⟨id, hid, -, -, hdraw⟩ := hsome (List.ne_nil_of_mem htwo)
    refine ⟨ids, id, ?_, htwo, ?_, (hdraw nofun).1⟩
    · rw [hoffers]
      rintro ⟨u, hu, -, -, hwants⟩
      cases hmedic.symm.trans hu
      exact hwants rfl
    · rw [hoffers]
      rintro ⟨u, hu, -, halive, -⟩
      cases hdead.symm.trans hu
      exact absurd halive (by decide)

end Sandbox

end CardDuel
