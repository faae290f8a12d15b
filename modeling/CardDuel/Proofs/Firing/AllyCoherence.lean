import CardDuel.Proofs.Firing.Visits

/-!
# Coherence of the remembered ally

The actions of one firing share a memory of the ally that was chosen last, so that they reach one
unit.  `ally_coherence` says what that memory is worth against a host that may answer anything: an
ally is replaced only after the host reported a reason, the memory follows the resolutions of ally
targets and nothing else, and a shield for an ally reaches the acting unit only through it.

The invariant behind the last statement is `resolved_of_remembered`: what is remembered at a visit
was resolved at an earlier one.
-/

set_option autoImplicit false

namespace CardDuel.Firing

variable {σ : Type} (h : Handler σ) (f : Firing)

/-- **What is remembered was resolved**: at an earlier visit, or before the run. -/
theorem resolved_of_remembered {memory : Memory} {actions : List Action} {s : σ}
    {earlier later : List (Visit σ)} {v : Visit σ}
    (hv : f.visits h memory actions s = earlier ++ v :: later) {x : UnitId}
    (hx : v.memory.ally = some x) :
    memory.ally = some x ∨
      ∃ w ∈ earlier, w.action.target? = some .ally ∧ w.resolved h = some x := by
  induction actions generalizing memory s earlier with
  | nil => simp [visits] at hv
  | cons action actions ih =>
    cases earlier with
    | nil =>
      cases (List.cons.inj hv).1
      exact .inl hx
    | cons w earlier =>
      obtain ⟨hw, hv⟩ := List.cons.inj hv
      rcases ih hv with hx' | ⟨w', hw', hres⟩
      · -- remembered after the first visit: resolved there, or remembered before it
        have ha : (w.after h).ally = some x := by rw [← hw]; exact hx'
        have hm : w.memory = memory := by rw [← hw]
        rw [w.after_eq h, hm] at ha
        split at ha
        · rename_i hally
          cases hy : w.resolved h with
          | none => rw [hy] at ha; exact .inl ha
          | some y =>
            rw [hy] at ha
            cases ha
            exact .inr ⟨w, List.mem_cons_self, hally, hy⟩
        · exact .inl ha
      · exact .inr ⟨w', List.mem_cons_of_mem _ hw', hres⟩

/-- An ally is replaced only after a report that gives it up; the report opens the action. -/
theorem givesUp_of_replaced {v : Visit σ} {x y : UnitId} (ha : v.action.target? = some .ally)
    (hx : v.memory.ally = some x) (hy : v.resolved h = some y) (hne : x ≠ y) :
    ∃ (report : Option BoardUnit) (rest : List Exchange),
      v.transcript h = ⟨.unit x, report⟩ :: rest ∧ v.firing.GivesUp v.action report := by
  obtain ⟨effect, hp⟩ := v.plan_of_resolved h hy
  obtain ⟨rest, ht, hg⟩ := v.firing.report_of_replaced h v.memory v.action v.host ha hx
    ((v.resolved_of_unit h hp).symm.trans hy) hne
  exact ⟨_, _, by rw [v.transcript_of_unit h hp, ht]; rfl, hg⟩

/-- A shield for an ally that reaches the acting unit found it in memory. -/
theorem remembered_of_shielded (hpick : h.PicksOffered) {v : Visit σ} {n : Int32}
    (ha : v.action = .gainShield .ally n) (hy : v.resolved h = some v.firing.source) :
    v.memory.ally = some v.firing.source := by
  obtain ⟨effect, hp⟩ := v.plan_of_resolved h hy
  have hally : v.action.target? = some .ally := by rw [ha]; rfl
  rcases v.firing.mem_candidates_of_ally h v.memory v.action v.host hpick hally
    ((v.resolved_of_unit h hp).symm.trans hy) with hm | ⟨units, hc⟩
  · exact hm
  · rw [ha] at hc
    exact absurd hc (v.firing.source_not_mem_candidates _ _ _)

/-- **Ally coherence.**  For every host and every list of actions of one firing, whose visits are
the results and the exchanges of the run:

* an action on an ally that resolves to another unit than the remembered one begins with the host's
  report on the remembered one, and the report is that the unit is unknown, has no health, or shows
  none of the statuses that a cleanse lists;
* a resolution to no unit leaves the memory, a resolution of an ally becomes the memory, and actions
  on anything but an ally leave it;
* when choices are answered from the candidates, a shield for an ally lands on the acting unit only
  after an earlier action of the firing resolved its ally to the acting unit. -/
theorem ally_coherence (actions : List Action) (s : σ) :
    ((f.resolveAll {} actions).run h s).1 = (f.visits h {} actions s).map (·.deed h) ∧
    (f.resolveAll {} actions).transcript h s =
      (f.visits h {} actions s).flatMap (·.transcript h) ∧
    (∀ v ∈ f.visits h {} actions s,
      (∀ x y, v.action.target? = some .ally → v.memory.ally = some x →
        v.resolved h = some y → x ≠ y →
        ∃ (report : Option BoardUnit) (rest : List Exchange),
          v.transcript h = ⟨.unit x, report⟩ :: rest ∧ f.GivesUp v.action report) ∧
      (v.resolved h = none → v.after h = v.memory) ∧
      (∀ y, v.action.target? = some .ally → v.resolved h = some y →
        (v.after h).ally = some y) ∧
      (v.action.target? ≠ some .ally → v.after h = v.memory)) ∧
    (h.PicksOffered → ∀ earlier v later,
      f.visits h {} actions s = earlier ++ v :: later → ∀ amount charges,
      v.action = .gainShield .ally amount →
      (∃ e ∈ v.transcript h, e.request = .addShield f.source charges) →
      ∃ w ∈ earlier, w.action.target? = some .ally ∧ w.resolved h = some f.source) := by
  refine ⟨f.deeds_eq_visits h {} actions s, f.transcript_eq_visits h {} actions s, ?_, ?_⟩
  · intro v hv
    obtain ⟨hf, _⟩ := f.firing_of_mem_visits h hv
    refine ⟨?_, ?_, ?_, ?_⟩
    · intro x y ha hx hy hne
      rw [← hf]
      exact givesUp_of_replaced h ha hx hy hne
    · intro hn
      rw [v.after_eq h, hn]
      exact ite_self _
    · intro y ha hy
      rw [v.after_eq h, if_pos ha, hy]
      rfl
    · intro ha
      rw [v.after_eq h, if_neg ha]
  · rintro hpick earlier v later hv amount charges ha ⟨e, he, hreq⟩
    have hmem : v ∈ f.visits h {} actions s := by rw [hv]; simp
    have hf : v.firing = f := (f.firing_of_mem_visits h hmem).1
    have hy : v.resolved h = some f.source := (v.change_of_subject h he (by rw [hreq]; rfl)).1
    have hm : v.memory.ally = some f.source := by
      rw [← hf]
      exact remembered_of_shielded h hpick ha (hf ▸ hy)
    rcases f.resolved_of_remembered h hv hm with hx | hw
    · cases hx
    · exact hw

/-- A host that shows two units of any side until a shield is granted, and from then on only the
second of them. -/
def fadingHost : Handler Bool
  | .unitIds .., faded => ([⟨1⟩, ⟨2⟩], faded)
  | .unit id, faded =>
    (if faded && id == ⟨1⟩ then none
      else some (.fresh id "medic" "Medic" .player .front 1 3), faded)
  | .pickRandom candidates _, faded => (candidates.head?, faded)
  | .pickLowestHealth candidates, faded => (candidates.head?, faded)
  | .addShield .., _ => ((), true)
  | .healUnit .., faded => (0, faded)
  | .cleanse .., faded => (0, faded)
  | .applyStun .., faded => (false, faded)
  | .applyExposed .., faded => (false, faded)
  | .applyAttackPenalty .., faded => ((), faded)
  | .modifyAttack _ delta, faded => (delta, faded)
  | .gainShares .., faded => ((), faded)
  | .healLeader .., faded => (0, faded)
  | .drawCard _, faded => (none, faded)
  | .log _, faded => ((), faded)

theorem picksOffered_fadingHost : fadingHost.PicksOffered :=
  fun _ _ _ => ⟨fun _ hid => List.mem_of_mem_head? hid, fun hid => List.mem_of_mem_head? hid⟩

def fadingFiring : Firing :=
  { cardId := "medic", event := .summon, side := .player, source := ⟨1⟩, sourceName := "Medic",
    turn := 1, combat := none, settings := {} }

/-- The first action finds the acting unit, the second shields it and makes it fade, and the third
turns to the other unit. -/
def fadingActions : List Action :=
  [.modifyAttack .ally 1, .gainShield .ally 1, .gainShield .ally 2]

theorem ally_coherence_fadingHost :
    (∃ v ∈ fadingFiring.visits fadingHost {} fadingActions false,
      v.memory.ally = some ⟨1⟩ ∧ v.resolved fadingHost = some ⟨2⟩ ∧
      ∃ (report : Option BoardUnit) (rest : List Exchange),
        v.transcript fadingHost = ⟨.unit ⟨1⟩, report⟩ :: rest ∧
          fadingFiring.GivesUp v.action report) ∧
    (⟨fadingFiring, {}, .modifyAttack .ally 1, false⟩ : Visit Bool).resolved fadingHost =
      some fadingFiring.source := by
  obtain ⟨_, _, hvisit, hshield⟩ := ally_coherence fadingHost fadingFiring fadingActions false
  refine ⟨⟨⟨fadingFiring, ⟨some ⟨1⟩⟩, .gainShield .ally 2, true⟩, ?_, rfl, rfl, ?_⟩, ?_⟩
  · exact .tail _ (.tail _ (.head _))
  · exact (hvisit _ (.tail _ (.tail _ (.head _)))).1 ⟨1⟩ ⟨2⟩ rfl rfl rfl (by decide)
  · obtain ⟨w, hw, _, hres⟩ := hshield picksOffered_fadingHost
      [⟨fadingFiring, {}, .modifyAttack .ally 1, false⟩]
      ⟨fadingFiring, ⟨some ⟨1⟩⟩, .gainShield .ally 1, false⟩ _ rfl 1 1 rfl
      ⟨⟨.addShield ⟨1⟩ 1, ()⟩, .tail _ (.head _), rfl⟩
    rw [List.mem_singleton.1 hw] at hres
    exact hres

end CardDuel.Firing
