import CardDuel.Proofs.Engine.Behaviour
import CardDuel.Proofs.Engine.Visits

/-!
# Conditions

The conditions of a trigger are looked at when the engine comes to it, after whatever earlier
triggers have changed, and they decide about all of its actions.

* `Condition.Met` — what a condition asks of the acting unit, the combat and the units shown.
* `Arrival.Clear` — the host knows the acting unit, and all conditions of the trigger are met.
* `Arrival.map_action_visits`, `Arrival.visits_of_not_clear` — all actions or none.
* `Arrival.not_clear_of_targetSurvived` — no trigger is clear that asks for a target that died.
* `conditions_gate` — this for every trigger that an occasion comes to.
-/

set_option autoImplicit false

namespace CardDuel

/-- What a condition asks.  The acting unit is shown alive, and it did not die in the combat if
there is one; or there is a combat with a target that did not die and is shown alive. -/
def Condition.Met (source : BoardUnit) (combat : Option CombatOutcome)
    (shown : UnitId → Option BoardUnit) : Condition → Prop
  | .sourceSurvived =>
    0 < source.health ∧ ∀ outcome, combat = some outcome → outcome.sourceDied = false
  | .targetSurvived => ∃ outcome x u, combat = some outcome ∧ outcome.target = some x ∧
      outcome.targetDied = false ∧ shown x = some u ∧ 0 < u.health

/-- A condition holds of the target as it is shown exactly if it is met. -/
theorem Condition.holds_iff_met (c : Condition) (source : BoardUnit)
    (combat : Option CombatOutcome) (shown : UnitId → Option BoardUnit) :
    c.holds source combat ((combat.bind (·.target)).bind shown) = true ↔
      c.Met source combat shown := by
  cases c with
  | sourceSurvived => cases combat <;> simp [holds, Met, BoardUnit.alive]
  | targetSurvived =>
    rcases combat with _ | ⟨_ | x, targetDied, sourceDied⟩
    · simp [holds, Met]
    · simp [holds, Met]
    · simp [holds, Met, BoardUnit.alive, Option.any_eq_true]

section

variable {σ : Type} (h : Handler σ)

/-- Where there is a condition, the engine looks at the target of the combat. -/
theorem Engine.run_hitUnit {t : Trigger} (hne : t.conditions ≠ []) (combat : Option CombatOutcome)
    (s : σ) : ((hitUnit t combat).run h s).1 =
      (combat.bind (·.target)).bind fun x => (h (.unit x) s).1 := by
  rw [hitUnit, if_neg (by simpa using hne)]
  cases combat.bind (·.target) <;> rfl

/-- **The conditions hold exactly if they are met** by what the host shows next. -/
theorem Engine.all_holds_iff (t : Trigger) (combat : Option CombatOutcome) (source : BoardUnit)
    (s : σ) :
    t.conditions.all (Condition.holds source combat ((hitUnit t combat).run h s).1) = true ↔
      ∀ c ∈ t.conditions, c.Met source combat fun x => (h (.unit x) s).1 := by
  rw [List.all_eq_true]
  refine forall₂_congr fun c hc => ?_
  rw [run_hitUnit h (List.ne_nil_of_mem hc)]
  exact c.holds_iff_met source combat _

namespace Arrival

variable (e : Engine) (a : Actor) (w : Arrival σ)

/-- The host knows the acting unit when the trigger is reached, and what it shows meets every
condition. -/
def Clear : Prop :=
  ∃ source, (h (.unit a.unit) w.host).1 = some source ∧
    ∀ c ∈ w.trigger.conditions, c.Met source w.combat fun x =>
      (h (.unit x) (h (.unit a.unit) w.host).2).1

variable {h a w}

/-- **A clear trigger has all its actions carried out**, in order. -/
theorem map_action_visits (hclear : w.Clear h a) :
    (w.visits h e a).map (·.action) = w.trigger.actions := by
  obtain ⟨source, hsource, hmet⟩ := hclear
  unfold visits
  rcases hlook : h (.unit a.unit) w.host with ⟨source?, s⟩
  rw [hlook] at hsource hmet
  obtain rfl : source? = some source := hsource
  simp only [(Engine.all_holds_iff h w.trigger w.combat source s).2 hmet, if_true]
  exact Firing.map_action_visits h _ _ _ _

/-- **Of any other no action is carried out.** -/
theorem visits_of_not_clear (hclear : ¬ w.Clear h a) : w.visits h e a = [] := by
  unfold visits
  rcases hlook : h (.unit a.unit) w.host with ⟨_ | source, s⟩
  · rfl
  · refine if_neg fun hholds => hclear ⟨source, by rw [hlook], ?_⟩
    rw [hlook]
    exact (Engine.all_holds_iff h w.trigger w.combat source s).1 hholds

/-- Nothing is clear that asks for a target to survive outside of combat, or where it died. -/
theorem not_clear_of_targetSurvived (hasks : .targetSurvived ∈ w.trigger.conditions)
    (hdied : ∀ outcome, w.combat = some outcome → outcome.targetDied = true) :
    ¬ w.Clear h a := by
  rintro ⟨source, -, hmet⟩
  obtain ⟨outcome, x, u, hcombat, -, hlives, -⟩ := hmet _ hasks
  exact Bool.false_ne_true (hlives.symm.trans (hdied outcome hcombat))

end Arrival

/-- A trigger for a summon or the start of a turn is on the agenda of no combat, and one for a kill
only where the target died. -/
theorem Occasion.targetDied_of_mem_agenda {o : Occasion} {card : Card} {t : Trigger}
    (ht : t ∈ o.agenda card) (hevent : t.event ∈ [Event.summon, .turnStart, .kill])
    {outcome : CombatOutcome} (hcombat : o.combat? = some outcome) : outcome.targetDied = true := by
  have hreaches := reaches_of_mem_agenda ht
  cases o with
  | summon | turnStart => cases hcombat
  | combat =>
    cases hcombat
    simp only [List.mem_cons, List.not_mem_nil, or_false] at hevent
    rcases hevent with hevent | hevent | hevent <;> rw [hevent] at hreaches
    · cases hreaches
    · cases hreaches
    · exact hreaches

end

/-- **Conditions decide about all actions.**  For every host and every occasion:

* once the card of the acting unit is known, the engine comes to the triggers of all phases that are
  reached, in order;
* at each it looks, first at the acting unit, and then asks only what the actions ask that are
  carried out;
* these are all actions of the trigger, in order, if the acting unit and the target of the combat,
  as the host shows them just then, meet every condition, and none if not or if the host does not
  know the acting unit;
* they are none where a target is to survive outside of combat, hence on a summon and at the start
  of a turn, and none where it is to survive a kill;
* nothing depends on the order and the repetition of conditions. -/
theorem conditions_gate {σ : Type} (h : Handler σ) (e : Engine) (a : Actor) (o : Occasion)
    (s : σ) :
    let arrivals := o.arrivals h e a s
    arrivals.map (·.trigger) = ((e.cardOf a).run h s).1.elim [] o.agenda ∧
    (o.script e a).moments h s = ⟨.unit a.unit, s⟩ :: arrivals.flatMap (fun w =>
      w.looks h a ++ (w.visits h e a).flatMap (·.moments h)) ∧
    (∀ w ∈ arrivals, w.combat = o.combat? ∧
      (w.Clear h a → (w.visits h e a).map (·.action) = w.trigger.actions) ∧
      (¬ w.Clear h a → w.visits h e a = [])) ∧
    (∀ w : Arrival σ, w.combat = none → .targetSurvived ∈ w.trigger.conditions →
      w.visits h e a = []) ∧
    (∀ w ∈ arrivals, w.trigger.event ∈ [Event.summon, .turnStart, .kill] →
      .targetSurvived ∈ w.trigger.conditions → w.visits h e a = []) ∧
    ∀ c, e.catalog.Alike c → o.script e a = o.script ⟨c, e.settings⟩ a := by
  intro arrivals
  refine ⟨o.map_trigger_arrivals h e a s, ?_, fun w hw => ?_, fun w hcombat hasks => ?_,
    fun w hw hevent hasks => ?_, fun c halike => Occasion.script_eq_of_alike halike _ o a⟩
  · simp only [o.moments_eq_arrivals h e a s, Arrival.moments_eq_visits]
    rfl
  · obtain ⟨-, hcombat, -⟩ := Occasion.mem_arrivals hw
    exact ⟨hcombat, Arrival.map_action_visits e, Arrival.visits_of_not_clear e⟩
  · refine Arrival.visits_of_not_clear e (Arrival.not_clear_of_targetSurvived hasks ?_)
    simp [hcombat]
  · obtain ⟨-, hcombat, ht⟩ := Occasion.mem_arrivals hw
    refine Arrival.visits_of_not_clear e (Arrival.not_clear_of_targetSurvived hasks ?_)
    intro outcome houtcome
    exact Occasion.targetDied_of_mem_agenda ht hevent (hcombat.symm.trans houtcome)

/-- A card that presses on while its target lives. -/
def challenger (conditions : List Condition) : Card :=
  { id := "duelist", name := "Challenger", kind := .unit .front ⟨2, 3⟩
    triggers := [{ event := .hit, actions := [.modifyAttack .self 1, .gainShares 2], conditions },
      { event := .kill, actions := [.drawCard 1], conditions }] }

theorem conditions_challenger {cs : List Condition} {t : Trigger}
    (ht : t ∈ (challenger cs).triggers) : t.conditions = cs := by
  simp only [challenger, List.mem_cons, List.not_mem_nil, or_false] at ht
  rcases ht with rfl | rfl <;> rfl

theorem challenger_alike {cs cs' : List Condition} (h : ∀ c, c ∈ cs ↔ c ∈ cs') :
    (challenger cs).Alike (challenger cs') :=
  Card.alike_of_triggers (.cons ⟨rfl, rfl, h⟩ (.cons ⟨rfl, rfl, h⟩ .nil))

def challengers : Catalog :=
  ⟨[challenger [.targetSurvived, .sourceSurvived]], by decide +kernel⟩

/-- The same with the conditions in another order, one of them twice. -/
def challengersAgain : Catalog :=
  ⟨[challenger [.sourceSurvived, .targetSurvived, .sourceSurvived]], by decide +kernel⟩

theorem conditions_gate_challenger :
    let actor : Actor := ⟨.player, ⟨1⟩, 1⟩
    let hit : Occasion := .combat { target := some ⟨2⟩ }
    let kill : Occasion := .combat { target := some ⟨2⟩, targetDied := true }
    challengers.Alike challengersAgain ∧
    hit.script ⟨challengers, {}⟩ actor = hit.script ⟨challengersAgain, {}⟩ actor ∧
    (hit.visits Sandbox.answer ⟨challengers, {}⟩ actor arena).map (·.action) =
      [.modifyAttack .self 1, .gainShares 2] ∧
    (kill.arrivals Sandbox.answer ⟨challengers, {}⟩ actor arena).map (·.trigger.event) =
      [.hit, .kill] ∧
    kill.visits Sandbox.answer ⟨challengers, {}⟩ actor arena = [] := by
  intro actor hit kill
  have halike : challengers.Alike challengersAgain := by
    intro id
    rw [getUnit?_singleton (c := challengers) rfl rfl,
      getUnit?_singleton (c := challengersAgain) rfl rfl]
    show Option.Rel _ (if "duelist" = id then _ else _) (if "duelist" = id then _ else _)
    split
    · exact .some (challenger_alike fun c => by cases c <;> decide)
    · exact .none
  obtain ⟨-, -, hhit, -, -, hsame⟩ :=
    conditions_gate Sandbox.answer ⟨challengers, {}⟩ actor hit arena
  obtain ⟨-, -, hkill, -⟩ := conditions_gate Sandbox.answer ⟨challengers, {}⟩ actor kill arena
  refine ⟨halike, hsame _ halike, ?_, by rfl, ?_⟩
  · obtain ⟨w, harrivals, hw, hactions⟩ : ∃ w : Arrival Sandbox,
        hit.arrivals Sandbox.answer ⟨challengers, {}⟩ actor arena = [w] ∧
        w.Clear Sandbox.answer actor ∧
        w.trigger.actions = [.modifyAttack .self 1, .gainShares 2] := by
      refine ⟨_, rfl, ⟨_, rfl, fun c hc => ?_⟩, rfl⟩
      cases c with
      | sourceSurvived => exact ⟨by decide +kernel, by rintro outcome ⟨⟩; rfl⟩
      | targetSurvived => exact ⟨_, _, _, rfl, rfl, rfl, rfl, by decide +kernel⟩
    have hmem : w ∈ hit.arrivals Sandbox.answer ⟨challengers, {}⟩ actor arena := by
      rw [harrivals]
      exact List.mem_singleton_self w
    rw [Occasion.visits, harrivals, List.flatMap_singleton, (hhit w hmem).2.1 hw, hactions]
  · rw [Occasion.visits, List.flatMap_eq_nil_iff]
    intro w hw
    refine (hkill w hw).2.2 (Arrival.not_clear_of_targetSurvived ?_ ?_)
    · obtain ⟨hcard, -, ht⟩ := Occasion.mem_arrivals hw
      have htrigger := Occasion.mem_triggers_of_mem_agenda ht
      rw [List.mem_singleton.1 hcard] at htrigger
      rw [conditions_challenger htrigger]
      exact List.mem_cons_self
    · intro outcome houtcome
      cases (hkill w hw).1.symm.trans houtcome
      rfl

end CardDuel
