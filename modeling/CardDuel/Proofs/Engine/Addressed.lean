import CardDuel.Proofs.Engine.Visits
import CardDuel.Proofs.Firing.Change

/-!
# Units that are addressed

The rules look before they act: an opponent is taken if the host knows it, an ally is chosen among
the units that the host shows, and a trigger is skipped if the host no longer knows the acting unit.
Between two actions of one trigger nobody looks at the acting unit again, so an action on the unit
itself may address one that has left since.  `known_of_addressed` says that this is the only way to
address an unknown unit, as long as units come and go with the lines of the log alone and are shown
under their own ids; `unknown_addressed` shows the way.

* `Firing.known_of_target` — what a search finds is known, the acting unit apart.
* `Visit.sameIds_moments` — a line is the last request of an action, so the units that are known do
  not change under it.
* `Firing.sameIds_or_logged` — between the first action of a firing and a later one the known units
  stay, unless a line was shown.
-/

set_option autoImplicit false

namespace CardDuel

open Script (Asks Keeps)

namespace Request

variable {q : Request}

theorem isLog_of_isRead (hq : q.isRead = true) : q.isLog = false := by
  cases q <;> first | rfl | cases hq

theorem isLog_of_isChoice (hq : q.isChoice = true) : q.isLog = false := by
  cases q <;> first | rfl | cases hq

theorem isLog_of_subject? {id : UnitId} (hq : q.subject? = some id) : q.isLog = false := by
  cases q <;> first | rfl | cases hq

theorem isLog_of_side? {side : Side} (hq : q.side? = some side) : q.isLog = false := by
  cases q <;> first | rfl | cases hq

end Request

/-! ## What a host knows -/

namespace Handler

variable {σ : Type} (h : Handler σ)

/-- The host shows a unit under the id. -/
def Knows (s : σ) (id : UnitId) : Prop := (h (.unit id) s).1.isSome = true

/-- The units of the same ids are known in two states. -/
def SameIds (s s' : σ) : Prop := ∀ id, h.Knows s' id ↔ h.Knows s id

/-- Units come and go only when a line is shown. -/
def Steady : Prop := ∀ (q : Request) (s : σ), q.isLog = false → h.SameIds s (h q s).2

/-- In some state the host shows a unit of the id `id` under another one. -/
def Misnames (id : UnitId) : Prop :=
  ∃ (s : σ) (other : UnitId) (u : BoardUnit), other ≠ id ∧
    (h (.unit other) s).1 = some u ∧ u.id = id

variable {h}

theorem SameIds.refl (s : σ) : h.SameIds s s := fun _ => Iff.rfl

theorem SameIds.trans {s s' s'' : σ} (hs : h.SameIds s s') (hs' : h.SameIds s' s'') :
    h.SameIds s s'' := fun id => (hs' id).trans (hs id)

/-- A unit that is shown is known under its own id, unless it is misnamed. -/
theorem known_of_shown {s s' : σ} (hs : h.SameIds s s') {id : UnitId} {u : BoardUnit}
    (hu : (h (.unit id) s').1 = some u) : h.Knows s u.id ∨ h.Misnames u.id := by
  by_cases hid : id = u.id
  · refine .inl ((hs u.id).1 ?_)
    rw [Knows, ← hid, hu]
    rfl
  · exact .inr ⟨s', id, u, hid, hu, rfl⟩

end Handler

section

variable {α β σ : Type} {h : Handler σ} (hsteady : h.Steady)

include hsteady

/-- While no line is shown the known units stay. -/
theorem sameIds_of_moments {x : Script α} {s : σ}
    (hx : ∀ m ∈ x.moments h s, m.request.isLog = false) :
    (∀ m ∈ x.moments h s, h.SameIds s m.host) ∧ h.SameIds s (x.run h s).2 :=
  Script.related_of_moments .refl (fun _ _ _ => .trans) hsteady hx

theorem sameIds_of_asks {x : Script α} (hx : x.Asks fun q => q.isLog = false) (s : σ) :
    (∀ m ∈ x.moments h s, h.SameIds s m.host) ∧ h.SameIds s (x.run h s).2 :=
  sameIds_of_moments hsteady (hx.moments s)

/-- Known units stay through a script without a line, and through what keeps them after it. -/
theorem sameIds_bind {x : Script α} {f : α → Script β} {s : σ}
    (hx : x.Asks fun q => q.isLog = false)
    (hf : ∀ m ∈ (f (x.run h s).1).moments h (x.run h s).2, h.SameIds (x.run h s).2 m.host) :
    ∀ m ∈ (x >>= f).moments h s, h.SameIds s m.host := by
  obtain ⟨hmoments, hend⟩ := sameIds_of_asks hsteady hx s
  intro m hm
  rw [Script.moments_bind] at hm
  rcases List.mem_append.1 hm with hm | hm
  · exact hmoments m hm
  · exact hend.trans (hf m hm)

end

/-! ## Lines come last -/

namespace Firing

variable {σ : Type} {h : Handler σ} (f : Firing) (s : σ)

theorem sameIds_say (rest : String) : ∀ m ∈ (f.say rest).moments h s, h.SameIds s m.host :=
  fun _ hm => List.mem_singleton.1 hm ▸ .refl s

variable (hsteady : h.Steady)

include hsteady

theorem sameIds_conclude (x : Exchange) :
    ∀ m ∈ (f.conclude x).moments h s, h.SameIds s m.host := by
  cases hx : x.told with
  | false =>
    have hnone := f.transcript_conclude_of_untold h x s hx
    rw [Script.transcript_eq_moments, List.map_eq_nil_iff] at hnone
    rw [hnone]
    exact List.forall_mem_nil _
  | true =>
    have htell : ∀ m ∈ (f.tell x).moments h s, h.SameIds s m.host := by
      unfold tell
      split
      · exact f.sameIds_say s _
      · exact sameIds_bind hsteady (asks_nameOf f _ rfl) (f.sameIds_say _ _)
    rw [f.conclude_of_told x hx, Script.moments_bind]
    intro m hm
    exact htell m ((List.append_nil _).subst hm)

theorem sameIds_change {q : Request} (hq : q.isLog = false) :
    ∀ m ∈ (Script.ask q fun r => f.conclude ⟨q, r⟩).moments h s, h.SameIds s m.host :=
  sameIds_bind (x := Script.request q) hsteady ((Script.asks_request q).2 hq)
    (f.sameIds_conclude _ hsteady _)

theorem sameIds_drawCards (n : UInt32) :
    ∀ m ∈ (f.drawCards n).moments h s, h.SameIds s m.host := by
  refine sameIds_bind hsteady (asks_drawUpTo f.side _ rfl) ?_
  unfold reportIf
  split
  · rw [Script.moments_bind]
    exact fun m hm => f.sameIds_say _ _ m ((List.append_nil _).subst hm)
  · exact List.forall_mem_nil _

end Firing

namespace Visit

variable {σ : Type} {h : Handler σ} (hsteady : h.Steady) (v : Visit σ)

include hsteady

/-- **The known units stay from the start of an action to its last request.** -/
theorem sameIds_moments : ∀ m ∈ v.moments h, h.SameIds v.host m.host := by
  rw [moments, script, Firing.resolve_eq]
  cases hp : v.firing.plan v.action with
  | idle =>
    intro m hm
    cases hm
  | side effect =>
    have heffect : ∀ m ∈ effect.moments h v.host, h.SameIds v.host m.host := by
      rcases v.firing.side_plan_eq hp with ⟨n, -, -, rfl⟩ | ⟨q, hq, rfl⟩
      · exact v.firing.sameIds_drawCards v.host hsteady _
      · exact v.firing.sameIds_change v.host hsteady
          (Request.isLog_of_side? (v.firing.side?_of_sideChange? hq))
    simp only [Script.moments_bind]
    exact fun m hm => heffect m ((List.append_nil _).subst hm)
  | unit effect =>
    have hsilent := (v.firing.asks_target v.memory v.action).mono fun _ hq =>
      hq.elim Request.isLog_of_isRead Request.isLog_of_isChoice
    refine sameIds_bind hsteady hsilent ?_
    rcases ((v.firing.target v.memory v.action).run h v.host).1 with ⟨_ | id, memory⟩
    · intro m hm
      cases hm
    · obtain ⟨q, hq, heffect⟩ := v.firing.unit_plan_eq hp id
      simp only [heffect, Script.moments_bind]
      have hsubject := Firing.subject?_of_change? hq
      exact fun m hm => v.firing.sameIds_change _ hsteady (Request.isLog_of_subject? hsubject) m
        ((List.append_nil _).subst hm)

/-- An action without a line leaves the known units. -/
theorem sameIds_hostAfter (hsilent : ∀ x ∈ v.transcript h, x.request.isLog = false) :
    h.SameIds v.host (v.hostAfter h) := by
  refine (sameIds_of_moments hsteady (x := v.script) fun m hm => ?_).2
  refine hsilent (m.exchange h) ?_
  rw [v.transcript_eq_moments]
  exact List.mem_map_of_mem hm

end Visit

/-- **Between the first action of a firing and a later one the known units stay, unless a line was
shown.** -/
theorem Firing.sameIds_or_logged {σ : Type} {h : Handler σ} (hsteady : h.Steady) (f : Firing)
    {memory : Memory} {actions : List Action} {s : σ} {earlier later : List (Visit σ)}
    {v : Visit σ} (hv : f.visits h memory actions s = earlier ++ v :: later) :
    h.SameIds s v.host ∨ ∃ w ∈ earlier, ∃ x ∈ w.transcript h, x.request.isLog = true := by
  induction actions generalizing memory s earlier with
  | nil => cases earlier <;> cases hv
  | cons action actions ih =>
    cases earlier with
    | nil =>
      cases hv
      exact .inl (.refl s)
    | cons first earlier =>
      obtain ⟨rfl, hrest⟩ := List.cons.inj hv
      -- an action that shows no line hands on the units that it found
      let first : Visit σ := ⟨f, memory, action, s⟩
      by_cases hlogged : ∃ x ∈ first.transcript h, x.request.isLog = true
      · exact .inr ⟨first, List.mem_cons_self, hlogged⟩
      · have hfirst := first.sameIds_hostAfter hsteady
          fun x hx => Bool.eq_false_iff.2 fun hlog => hlogged ⟨x, hx, hlog⟩
        rcases ih hrest with hsame | ⟨w, hw, hlog⟩
        · exact .inl (hfirst.trans hsame)
        · exact .inr ⟨w, List.mem_cons_of_mem _ hw, hlog⟩

/-! ## What a search finds -/

namespace Firing

variable {σ : Type} {h : Handler σ} {f : Firing} {memory : Memory} {action : Action} {s : σ}
  {id : UnitId}

theorem known_of_remembered (hid : ((f.remembered memory action).run h s).1 = some id) :
    h.Knows s id := by
  unfold remembered at hid
  split at hid
  · cases hid
  · rename_i x _
    have hkept :
        (if (h (.unit x) s).1.any (f.stillServes action) then some x else none) = some id := hid
    split at hkept
    · rename_i hserves
      cases hkept
      exact Option.isSome_of_any hserves
    · cases hkept

theorem known_of_opponent (hid : (f.opponent.run h s).1 = some id) : h.Knows s id := by
  unfold opponent at hid
  split at hid
  · cases hid
  · rename_i x _
    have hthere : (if (h (.unit x) s).1.isSome then some x else none) = some id := hid
    split at hthere
    · rename_i hsome
      cases hthere
      exact hsome
    · cases hthere

theorem keeps_knownUnits_known (hsteady : h.Steady) (ids : List UnitId) :
    Keeps h (h.SameIds s) (knownUnits ids) fun us =>
      ∀ u ∈ us, h.Knows s u.id ∨ h.Misnames u.id := by
  induction ids with
  | nil => exact .done (by simp)
  | cons id ids ih =>
    have hlook : Keeps h (h.SameIds s) (Script.request (.unit id)) fun u? =>
        ∀ u, u? = some u → h.Knows s u.id ∨ h.Misnames u.id :=
      fun s' hs => ⟨hs.trans (hsteady _ _ rfl), fun u hu => Handler.known_of_shown hs hu⟩
    refine hlook.bind fun u? hu? => ih.bind fun us hus => .done fun u hu => ?_
    rcases List.mem_append.1 hu with hu | hu
    · exact hu? u (Option.mem_toList.1 hu)
    · exact hus u hu

theorem known_of_pickAlly (hpick : h.PicksOffered) (hsteady : h.Steady)
    (hid : ((f.pickAlly action).run h s).1 = some id) : h.Knows s id ∨ h.Misnames id := by
  have hlisted : h.SameIds s (h (.unitIds f.side none) s).2 := hsteady _ s rfl
  rw [pickAlly, Script.run_bind, Script.run_bind] at hid
  obtain ⟨u, hu, rfl⟩ := List.mem_map.1 (f.mem_of_choose h action _ hpick hid)
  exact (keeps_knownUnits_known hsteady _ _ hlisted).2 u (List.mem_filter.1 hu).1

/-- **What a search finds is known**, or it is the acting unit, or an ally that is misnamed. -/
theorem known_of_target (hpick : h.PicksOffered) (hsteady : h.Steady)
    (hid : ((f.target memory action).run h s).1.1 = some id) :
    h.Knows s id ∨ h.Misnames id ∨ action.target? = some .self ∧ id = f.source := by
  by_cases hally : action.target? = some .ally
  · rw [f.target_of_ally memory action hally] at hid
    cases hk : ((f.remembered memory action).run h s).1 with
    | some x =>
      rw [f.ally_of_kept h memory action s hk] at hid
      cases hid
      exact .inl (known_of_remembered hk)
    | none =>
      rw [f.ally_of_given_up h memory action s hk] at hid
      have hsame : h.SameIds s ((f.remembered memory action).run h s).2 :=
        (sameIds_of_asks hsteady
          (f.asks_remembered memory action fun _ => Request.isLog_of_isRead) s).2
      rcases known_of_pickAlly hpick hsteady hid with hknown | hmisnamed
      · exact .inl ((hsame id).1 hknown)
      · exact .inr (.inl hmisnamed)
  · unfold target at hid
    split at hid
    · cases hid
    · rename_i hself
      cases hid
      exact .inr (.inr ⟨hself, rfl⟩)
    · rw [Script.run_bind] at hid
      exact .inl (known_of_opponent hid)
    · cases hid
    · rename_i h'
      exact absurd h' hally

end Firing

/-! ## Triggers -/

/-- The actions of a trigger, if any are carried out, begin when the host knows the acting unit. -/
theorem Arrival.exists_ready {σ : Type} {h : Handler σ} (hsteady : h.Steady) {e : Engine}
    {a : Actor} {w : Arrival σ} (hne : w.visits h e a ≠ []) :
    ∃ source s, h.Knows s a.unit ∧ w.visits h e a =
      (e.firing a w.card w.trigger.event w.combat source).visits h {} w.trigger.actions s := by
  rcases w.visits_cases h e a with hnone | ⟨source, hsource, hvisits⟩
  · exact absurd hnone hne
  · have hread : h.SameIds w.host (h (.unit a.unit) w.host).2 := hsteady _ _ rfl
    have hhit := (sameIds_of_asks hsteady ((Engine.asks_hitUnit w.trigger w.combat).mono
      fun _ => Request.isLog_of_isRead) (h (.unit a.unit) w.host).2).2
    refine ⟨source, _, (hhit a.unit).2 ((hread a.unit).2 ?_), hvisits⟩
    rw [Handler.Knows, hsource]
    rfl

/-- The action is on the acting unit itself, and a line was shown since its trigger was reached. -/
def Visit.Unchecked {σ : Type} (h : Handler σ) (v : Visit σ) (earlier : List (Visit σ)) : Prop :=
  v.action.target? = some .self ∧ ∃ w ∈ earlier, ∃ x ∈ w.transcript h, x.request.isLog = true

/-- **Known units are addressed.**  For every host that answers a choice with a candidate, and whose
units come and go only when a line is shown:

* whatever an occasion asks beyond reads, it asks in the actions of its triggers;
* whenever such an action changes a unit or shows a line about it, the host knows the unit, with two
  exceptions: the unit is the acting one, which the action names itself, and an earlier action of
  the same trigger has shown a line; or the unit is one that the host shows under another id. -/
theorem known_of_addressed {σ : Type} (h : Handler σ) (hpick : h.PicksOffered) (hsteady : h.Steady)
    (e : Engine) (a : Actor) (o : Occasion) (s : σ) :
    nonReadMoments ((o.script e a).moments h s) =
      (o.arrivals h e a s).flatMap (fun w => (w.visits h e a).flatMap fun v =>
        nonReadMoments (v.moments h)) ∧
    ∀ w ∈ o.arrivals h e a s, ∀ earlier v later,
      w.visits h e a = earlier ++ v :: later → ∀ m ∈ v.moments h, ∀ id,
        m.request.subject? = some id ∨ m.request.isLog = true ∧ v.resolved h = some id →
        h.Knows m.host id ∨ id = a.unit ∧ v.Unchecked h earlier ∨ h.Misnames id := by
  refine ⟨?_, fun w _ earlier v later hv m hm id hid => ?_⟩
  · rw [o.nonReadMoments_eq_visits h e a s, Occasion.visits, List.flatMap_assoc]
  · have hresolved : v.resolved h = some id := by
      rcases hid with hid | ⟨-, hid⟩
      · refine (v.change_of_subject h (e := m.exchange h) ?_ hid).1
        rw [v.transcript_eq_moments]
        exact List.mem_map_of_mem hm
      · exact hid
    obtain ⟨source, s', hsource, hvisits⟩ :=
      Arrival.exists_ready hsteady (w := w) (by rw [hv]; simp)
    rw [hvisits] at hv
    have hfiring := (Firing.firing_of_mem_visits h _ (v := v) (by rw [hv]; simp)).1
    have hsame := v.sameIds_moments hsteady m hm id
    obtain ⟨effect, hp⟩ := v.plan_of_resolved h hresolved
    rw [v.resolved_of_unit h hp] at hresolved
    rcases Firing.known_of_target hpick hsteady hresolved with hknown | hmisnamed | ⟨hself, rfl⟩
    · exact .inl (hsame.2 hknown)
    · exact .inr (.inr hmisnamed)
    · rw [hfiring] at hsame ⊢
      rcases Firing.sameIds_or_logged hsteady _ hv with hstay | hlogged
      · exact .inl (hsame.2 ((hstay a.unit).2 hsource))
      · exact .inr (.inl ⟨rfl, hself, hlogged⟩)

/-! ## A unit that leaves -/

/-- A host whose only unit leaves with the first line of the log. -/
def leavingHost : Handler Bool
  | .unitIds .., left => (if left then [] else [⟨1⟩], left)
  | .unit id, left =>
    (if left || id != ⟨1⟩ then none
      else some (.fresh ⟨1⟩ "hermit" "Hermit" .player .front 1 2), left)
  | .pickRandom candidates _, left => (candidates.head?, left)
  | .pickLowestHealth candidates, left => (candidates.head?, left)
  | .addShield .., left => ((), left)
  | .healUnit .., left => (0, left)
  | .cleanse .., left => (0, left)
  | .applyStun .., left => (false, left)
  | .applyExposed .., left => (false, left)
  | .applyAttackPenalty .., left => ((), left)
  | .modifyAttack .., left => (0, left)
  | .gainShares .., left => ((), left)
  | .healLeader .., left => (0, left)
  | .drawCard _, left => (none, left)
  | .log _, _ => ((), true)

theorem picksOffered_leavingHost : leavingHost.PicksOffered :=
  fun _ _ _ => ⟨fun _ hid => List.mem_of_mem_head? hid, fun hid => List.mem_of_mem_head? hid⟩

theorem steady_leavingHost : leavingHost.Steady := by
  intro q left hq
  cases q <;> first | exact .refl left | cases hq

theorem not_misnames_leavingHost (id : UnitId) : ¬ leavingHost.Misnames id := by
  rintro ⟨left, other, u, hne, hu, rfl⟩
  have hshown : (if left || other != ⟨1⟩ then none
      else some (.fresh ⟨1⟩ "hermit" "Hermit" .player .front 1 2)) = some u := hu
  split at hshown
  · cases hshown
  · rename_i hother
    cases hshown
    have hsame : other = ⟨1⟩ := by simpa using (not_or.1 (mt Bool.or_eq_true_iff.2 hother)).2
    exact hne hsame

/-- A card that shields itself twice when it enters the board. -/
def hermit : Card :=
  { id := "hermit", name := "Hermit", kind := .unit .front ⟨1, 2⟩
    triggers := [{ event := .summon, actions := [.gainShield .self 1, .gainShield .self 2] }] }

def hermitage : Engine := { catalog := ⟨[hermit], by decide⟩ }

def hermitActor : Actor := { side := .player, unit := ⟨1⟩, turn := 1 }

/-- The first shield goes to a unit that is there; for the second the exception applies. -/
theorem known_of_addressed_leavingHost :
    leavingHost.PicksOffered ∧ leavingHost.Steady ∧
      ∀ w ∈ Occasion.summon.arrivals leavingHost hermitage hermitActor false,
        ∃ first second, w.visits leavingHost hermitage hermitActor = [first, second] ∧
          second.Unchecked leavingHost [first] ∧
          ∀ m ∈ first.moments leavingHost, m.request.subject? = some ⟨1⟩ →
            leavingHost.Knows m.host ⟨1⟩ := by
  refine ⟨picksOffered_leavingHost, steady_leavingHost, fun w hw => ?_⟩
  have hknown := (known_of_addressed leavingHost picksOffered_leavingHost steady_leavingHost
    hermitage hermitActor .summon false).2 w hw
  obtain rfl : w = ⟨hermit, none, hermit.triggers.head (by decide), false⟩ :=
    List.mem_singleton.1 hw
  refine ⟨_, _, rfl, ⟨rfl, _, List.mem_singleton_self _, ⟨.log _, ()⟩, .tail _ (.head _), rfl⟩, ?_⟩
  intro m hm hsubject
  rcases hknown [] _ _ rfl m hm ⟨1⟩ (.inl hsubject) with hthere | ⟨-, -, w, hw, -⟩ | hmisnamed
  · exact hthere
  · cases hw
  · exact absurd hmisnamed (not_misnames_leavingHost _)

/-- **A unit that is unknown is addressed**: the second shield goes to a unit that has left, and a
line tells of it. -/
theorem unknown_addressed :
    ¬ ∀ (h : Handler Bool), h.PicksOffered → h.Steady → (∀ id, ¬ h.Misnames id) →
      ∀ (e : Engine) (a : Actor) (o : Occasion) (s : Bool),
        ∀ m ∈ (o.script e a).moments h s, ∀ id, m.request.subject? = some id →
          h.Knows m.host id := by
  intro hall
  have hknown := hall leavingHost picksOffered_leavingHost steady_leavingHost
    not_misnames_leavingHost hermitage hermitActor .summon false
    ⟨.addShield ⟨1⟩ 2, true⟩ (by decide +kernel) ⟨1⟩ rfl
  exact Bool.false_ne_true hknown

end CardDuel
