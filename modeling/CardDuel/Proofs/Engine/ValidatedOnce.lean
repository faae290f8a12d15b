import CardDuel.Proofs.Engine.Visits
import CardDuel.Proofs.Firing.Barren
import CardDuel.Proofs.Validation.Schema

/-!
# Validated once

Cards are checked when the catalog is made and never again.  The rules still guard every action
against an amount that says nothing, a target that cannot be, a combat that is not there.
`validated_once` says that these guards never stop an action of an accepted catalog: an action
without an effect is one whose change the host answered with nothing.

Each guard is answered by one rule of the checker: `plan_ne_idle`, `not_leader_of_plan`,
`lt_expiry_of_change?` for a single action; `triggerWellFormed_of_mem_arrivals` brings the rules
from the catalog to the triggers that fire.
-/

set_option autoImplicit false

namespace CardDuel

open Validation (ActionWellFormed TriggerWellFormed)

/-- The amount passes the check that the rules make. -/
def Action.Meaningful : Action → Prop
  | .gainShield _ n | .heal _ n | .gainShares n | .drawCard n => (Firing.positive? n).isSome = true
  | .modifyAttack _ n => n ≠ 0
  | .cleanse .. | .applyStatus .. => True

namespace Firing

/-! ## What a rule of the checker is good for -/

variable {f : Firing} {event : Event} {action : Action}

/-- An amount that means something is not skipped. -/
theorem plan_ne_idle (hw : ActionWellFormed event action) : f.plan action ≠ .idle := by
  have ha := hw.amount
  intro hidle
  cases action with
  | gainShield t n | gainShares n | drawCard n =>
    rw [plan, if_pos (show 0 < n from ha)] at hidle
    cases hidle
  | heal t n =>
    cases t <;> simp only [plan, if_pos (show 0 < n from ha)] at hidle <;> cases hidle
  | modifyAttack t n =>
    rw [plan, if_neg (show n ≠ 0 from ha)] at hidle
    cases hidle
  | cleanse t statuses | applyStatus t status turns => cases hidle

theorem meaningful_of_wellFormed (hw : ActionWellFormed event action) : action.Meaningful := by
  have ha := hw.amount
  cases action with
  | gainShield t n | heal t n | gainShares n | drawCard n =>
    simp only [Action.Meaningful, positive?, if_pos (show 0 < n from ha), Option.isSome_some]
  | modifyAttack t n => exact ha
  | cleanse t statuses | applyStatus t status turns => trivial

/-- The leader is no target that is looked for. -/
theorem not_leader_of_plan (hw : ActionWellFormed event action)
    {effect : UnitId → Script Resolution} (hp : f.plan action = .unit effect) :
    action.target? ≠ some .leader := by
  intro hl
  exact plan_leader hp (hw.leader hl) hl

theorem lt_expiry_of_change? (hw : ActionWellFormed event action) {id : UnitId} {q : Request}
    (hq : f.change? id action = some q) {limit : UInt32} (he : q.expiry? = some limit)
    (hturn : f.turn.toNat < Word.maxNat) : f.turn < limit := by
  have hlater (turns : Int32) (ht : 0 < turns) : f.turn < f.expiry turns := by
    have hpos := toNat_toUInt32_pos ht
    rw [UInt32.lt_iff_toNat_lt, expiry, positive?, if_pos ht, Option.getD_some, Word.toNat_add]
    omega
  have ha := hw.amount
  cases action with
  | applyStatus t status turns =>
    cases status <;> cases hq <;> cases he <;> exact hlater turns ha
  | _ => cases hq <;> cases he

end Firing

/-! ## Actions of an accepted catalog -/

section Accepted

variable {σ : Type} {h : Handler σ} {e : Engine} {a : Actor} {o : Occasion} {s : σ}

theorem triggerWellFormed_of_mem_arrivals {w : Arrival σ} (hw : w ∈ o.arrivals h e a s) :
    TriggerWellFormed w.trigger := by
  obtain ⟨hcard, _, ht⟩ := Occasion.mem_arrivals hw
  have hschema := (Validation.errors_eq_nil_iff _).1 e.catalog.accepted
  exact (hschema.cards _ hcard).triggers _ (Occasion.mem_triggers_of_mem_agenda ht)

/-- A trigger for a combat event is reached in a combat only. -/
theorem combat_of_mem_arrivals {w : Arrival σ} (hw : w ∈ o.arrivals h e a s)
    (hevent : w.trigger.event ∈ Event.combatPhases) : o.combat?.isSome = true := by
  obtain ⟨_, _, ht⟩ := Occasion.mem_arrivals hw
  exact Occasion.combat_of_mem_agenda ht hevent

/-- Every action that is carried out is well formed for the event of its firing, and the firing has
what the event promises. -/
theorem wellFormed_of_mem_visits {v : Visit σ} (hv : v ∈ o.visits h e a s) :
    ActionWellFormed v.firing.event v.action ∧ v.firing.turn = a.turn ∧
      (v.firing.event ∈ Event.combatPhases → v.firing.combat.isSome = true) := by
  obtain ⟨w, hw, haction, source, hf⟩ := Occasion.mem_visits hv
  obtain ⟨_, hcombat, _⟩ := Occasion.mem_arrivals hw
  rw [hf, hcombat]
  exact ⟨(triggerWellFormed_of_mem_arrivals hw).actions _ haction, rfl, combat_of_mem_arrivals hw⟩

/-- **No effect means an answer of nothing**: it is the last exchange of the action. -/
theorem Visit.barren_of_noEffect {event : Event} {v : Visit σ}
    (hw : ActionWellFormed event v.action) (hres : v.result h = .noEffect) :
    EndsBarren (v.transcript h) := by
  cases hp : v.firing.plan v.action with
  | idle => exact absurd hp (Firing.plan_ne_idle hw)
  | side effect =>
    rw [result, script, Firing.resolve_eq, hp, Script.run_bind] at hres
    rw [transcript, script, Firing.resolve_eq, hp, Script.transcript_bind, Script.pure_eq,
      Script.transcript_done, List.append_nil]
    rcases Firing.yields_of_side (h := h) (s := v.host) hp with happlied | ⟨-, hfruitless⟩
    · cases happlied.symm.trans hres
    · exact hfruitless.endsBarren
  | unit effect =>
    rw [v.result_of_unit h hp] at hres
    rw [v.transcript_of_unit h hp]
    cases hy : v.resolved h with
    | none => rw [hy] at hres; cases hres
    | some y =>
      rw [hy] at hres
      obtain ⟨x, hx, hbarren⟩ : EndsBarren ((effect y).transcript h _) := by
        rcases Firing.yields_of_unit hp y with happlied | ⟨-, hfruitless⟩
        · cases happlied.symm.trans hres
        · exact hfruitless.endsBarren
      refine ⟨x, ?_, hbarren⟩
      rw [List.getLast?_append, Option.elim_some, hx, Option.some_or]

/-- What is put on a unit runs out later than now, as long as there is a later turn. -/
theorem Visit.lt_expiry {event : Event} {v : Visit σ} (hw : ActionWellFormed event v.action)
    {x : Exchange} (hx : x ∈ v.transcript h) {limit : UInt32} (he : x.request.expiry? = some limit)
    (hturn : v.firing.turn.toNat < Word.maxNat) : v.firing.turn < limit := by
  obtain ⟨id, hid⟩ := Request.subject?_of_expiry? he
  obtain ⟨_, hchange⟩ := v.change_of_subject h hx hid
  exact Firing.lt_expiry_of_change? hw hchange he hturn

end Accepted

/-- **Validated once.**  For every engine, whose catalog was accepted, every host and every
occasion, the actions that are carried out are the visits of the occasion, and

* a trigger with conditions is reached in a combat only;
* the amount of every action passes its check, no action looks for the leader, the hit target is
  looked for in a combat only, and an action without effect ends with an answer of nothing;
* every status is put on a unit until a turn after this one, unless this is the last. -/
theorem validated_once {σ : Type} (h : Handler σ) (e : Engine) (a : Actor) (o : Occasion) (s : σ) :
    (((o.report? e a).run h s).1.getD []).flatMap (·.verdict.deeds) =
      (o.visits h e a s).map (·.deed h) ∧
    nonReads ((o.script e a).transcript h s) =
      (o.visits h e a s).flatMap (fun v => nonReads (v.transcript h)) ∧
    (∀ r ∈ ((o.report? e a).run h s).1.getD [],
      r.trigger.conditions ≠ [] → o.combat?.isSome = true) ∧
    (∀ v ∈ o.visits h e a s,
      v.action.Meaningful ∧
      (∀ effect, v.firing.plan v.action = .unit effect → v.action.target? ≠ some .leader) ∧
      (v.action.target? = some .hitTarget → v.firing.combat.isSome = true) ∧
      (v.result h = .noEffect → EndsBarren (v.transcript h))) ∧
    (∀ x ∈ (o.script e a).transcript h s, ∀ limit, x.request.expiry? = some limit →
      a.turn.toNat < Word.maxNat → a.turn < limit) := by
  refine ⟨o.deeds_eq_visits h e a s, o.nonReads_eq_visits h e a s, ?_, ?_, ?_⟩
  · intro r hr hne
    rw [o.reports_eq_arrivals h e a s] at hr
    obtain ⟨w, hw, rfl⟩ := List.mem_map.1 hr
    exact combat_of_mem_arrivals hw ((triggerWellFormed_of_mem_arrivals hw).conditions hne)
  · intro v hv
    obtain ⟨hwf, _, hcombat⟩ := wellFormed_of_mem_visits hv
    exact ⟨Firing.meaningful_of_wellFormed hwf, fun effect hp => Firing.not_leader_of_plan hwf hp,
      fun ht => hcombat (hwf.hitTarget ht), Visit.barren_of_noEffect hwf⟩
  · intro x hx limit hlimit hturn
    have hnotRead : x.request.isRead = false := by
      obtain ⟨id, hid⟩ := Request.subject?_of_expiry? hlimit
      by_contra hread
      rw [Request.subject?_of_isRead (by simpa using hread)] at hid
      cases hid
    have hmem : x ∈ nonReads ((o.script e a).transcript h s) :=
      List.mem_filter.2 ⟨hx, by rw [hnotRead]; rfl⟩
    rw [o.nonReads_eq_visits h e a s] at hmem
    obtain ⟨v, hv, hxv⟩ := List.mem_flatMap.1 hmem
    obtain ⟨hwf, hvturn, _⟩ := wellFormed_of_mem_visits hv
    rw [← hvturn] at hturn ⊢
    exact Visit.lt_expiry hwf (List.mem_filter.1 hxv).1 hlimit hturn

end CardDuel
