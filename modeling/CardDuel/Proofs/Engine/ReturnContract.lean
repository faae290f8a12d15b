import CardDuel.Proofs.Engine.Behaviour
import CardDuel.Proofs.Validation.Schema

/-!
# What the engine answers

A host asks the engine whether a unit has an ability for an event, and the answer is settled by the
first look at the unit.  Conditions, the phases that a combat reaches and whatever becomes of the
actions have no part in it.

* `Engine.Reacts` — the unit that is shown has a card with a trigger for one of some events.
* `Occasion.answer_iff` — the engine says so, and nothing else.
* `Occasion.transcript_of_false` — where it says no, it has only looked at the unit.
* `return_contract` — both for each entry point.
-/

set_option autoImplicit false

namespace CardDuel

/-- The catalog has a unit card under the card id of the unit that is shown, with a trigger for one
of the events. -/
def Engine.Reacts (e : Engine) (shown : Option BoardUnit) (events : List Event) : Prop :=
  ∃ u card, shown = some u ∧ card ∈ e.catalog.cards ∧ card.id = u.cardId ∧ card.isUnit = true ∧
    ∃ t ∈ card.triggers, t.event ∈ events

/-- Whether a card has a trigger for one of some events. -/
theorem Card.any_hasTrigger_iff (card : Card) (events : List Event) :
    events.any card.hasTrigger = true ↔ ∃ t ∈ card.triggers, t.event ∈ events := by
  simp only [List.any_eq_true, hasTrigger, beq_iff_eq]
  constructor
  · rintro ⟨event, hevent, t, ht, rfl⟩
    exact ⟨t, ht, hevent⟩
  · rintro ⟨t, ht, hevent⟩
    exact ⟨t.event, hevent, t, ht, rfl⟩

theorem Engine.reacts_iff (e : Engine) (shown : Option BoardUnit) (events : List Event) :
    e.Reacts shown events ↔ ∃ card, (shown.bind fun u => e.catalog.getUnit? u.cardId) = some card ∧
      events.any card.hasTrigger = true := by
  simp only [Reacts, Option.bind_eq_some_iff, Catalog.getUnit?_eq_some_iff,
    Card.any_hasTrigger_iff]
  constructor
  · rintro ⟨u, card, hshown, hcard, hid, hunit, htrigger⟩
    exact ⟨card, ⟨u, hshown, hcard, hid, hunit⟩, htrigger⟩
  · rintro ⟨card, ⟨u, hshown, hcard, hid, hunit⟩, htrigger⟩
    exact ⟨u, card, hshown, hcard, hid, hunit, htrigger⟩

section

variable {σ : Type} (h : Handler σ) (e : Engine) (a : Actor) (s : σ)

theorem Engine.run_cardOf : ((e.cardOf a).run h s).1 =
    (h (.unit a.unit) s).1.bind fun u => e.catalog.getUnit? u.cardId := rfl

namespace Occasion

variable (o : Occasion)

/-- The answer is settled once the card is looked up. -/
theorem run_script : ((o.script e a).run h s).1 =
    ((e.cardOf a).run h s).1.any fun card => o.phases.any card.hasTrigger := by
  rw [script_eq, Script.run_bind]
  cases ((e.cardOf a).run h s).1 with
  | none => rfl
  | some card =>
    simp only [respond, Script.run_bind]
    rfl

/-- **The answer is whether the unit reacts** to a phase of the occasion. -/
theorem answer_iff :
    ((o.script e a).run h s).1 = true ↔ e.Reacts (h (.unit a.unit) s).1 o.phases := by
  rw [run_script, Option.any_eq_true, Engine.reacts_iff, Engine.run_cardOf]

/-- **A unit that does not react is only looked at**, once. -/
theorem transcript_of_false (hno : ((o.script e a).run h s).1 = false) :
    (o.script e a).transcript h s = [⟨.unit a.unit, (h (.unit a.unit) s).1⟩] := by
  have hlook : (e.cardOf a).transcript h s = [⟨.unit a.unit, (h (.unit a.unit) s).1⟩] := rfl
  rw [run_script] at hno
  rw [script_eq, Script.transcript_bind, hlook]
  cases hcard : ((e.cardOf a).run h s).1 with
  | none => rfl
  | some card =>
    rw [hcard, Option.any_some] at hno
    simp only [respond, agenda_eq_nil hno]
    rfl

end Occasion

end

/-- **The contract of the answers.**  Whatever the host does:

* on a summon and at the start of a turn the answer is yes exactly if the host, asked for the acting
  unit to begin with, shows a unit whose card is a unit card of the catalog with a trigger for that
  event;
* on a combat, whatever its outcome, exactly if there is such a card with a trigger for any of the
  three combat events;
* where the answer is no, the engine has asked for nothing but the acting unit. -/
theorem return_contract {σ : Type} (h : Handler σ) (e : Engine) (a : Actor) (s : σ) :
    let shown := (h (.unit a.unit) s).1
    (((e.onSummon a).run h s).1 = true ↔ e.Reacts shown [.summon]) ∧
    (((e.onTurnStart a).run h s).1 = true ↔ e.Reacts shown [.turnStart]) ∧
    (∀ outcome, ((e.onCombat a outcome).run h s).1 = true ↔
      e.Reacts shown [.hit, .kill, .survival]) ∧
    ∀ o : Occasion, ((o.script e a).run h s).1 = false →
      (o.script e a).transcript h s = [⟨.unit a.unit, shown⟩] := by
  intro shown
  exact ⟨Occasion.summon.answer_iff h e a s, Occasion.turnStart.answer_iff h e a s,
    fun outcome => (Occasion.combat outcome).answer_iff h e a s,
    fun o hno => o.transcript_of_false h e a s hno⟩

/-- A duelist reacts to a combat in which nothing was hit and it died, and not to its summon. -/
theorem return_contract_duelist :
    let e : Engine := ⟨duelists, {}⟩
    let a : Actor := ⟨.player, ⟨1⟩, 1⟩
    ((e.onCombat a { sourceDied := true }).run Sandbox.answer arena).1 = true ∧
    ((e.onSummon a).run Sandbox.answer arena).1 = false ∧
    (e.onSummon a).transcript Sandbox.answer arena = [⟨.unit ⟨1⟩, arena.unit? ⟨1⟩⟩] := by
  intro e a
  obtain ⟨hsummon, -, hcombat, hquiet⟩ := return_contract Sandbox.answer e a arena
  have hreacts : e.Reacts (arena.unit? ⟨1⟩) [.hit, .kill, .survival] := by
    refine ⟨_, duelist, rfl, List.mem_singleton_self _, rfl, rfl, _, List.mem_cons_self, ?_⟩
    decide
  have hno : ((e.onSummon a).run Sandbox.answer arena).1 = false := by
    rw [← Bool.not_eq_true, hsummon]
    rintro ⟨u, card, -, hcard, -, -, t, ht, hevent⟩
    rw [List.mem_singleton.1 hcard] at ht
    have hnone : ∀ t ∈ duelist.triggers, t.event ∉ [Event.summon] := by decide
    exact hnone t ht hevent
  exact ⟨(hcombat _).2 hreacts, hno, hquiet .summon hno⟩

end CardDuel
