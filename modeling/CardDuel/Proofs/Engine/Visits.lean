import CardDuel.Proofs.Engine.Occasion
import CardDuel.Proofs.Firing.Visits

/-!
# The actions of an occasion

An occasion comes to the triggers of its agenda one after the other, and each that fires comes to
its actions.  An `Arrival` is a trigger as the engine finds it; `Arrival.visits` and
`Occasion.visits` are the actions carried out there and in all.

* `reports_eq_arrivals`, `deeds_eq_visits` — the engine reports on these triggers and on what became
  of these actions.
* `moments_eq_arrivals`, `moments_eq_visits` — what the engine asks, and when, is told by them.
* `nonReadMoments_eq_visits`, `nonReads_eq_visits` — apart from reads the engine asks nothing but
  what these actions ask, when they ask it.
* `mem_arrivals`, `mem_visits` — where the triggers and the actions come from.
* `host_of_mem_arrivals`, `host_of_mem_visits` — what all requests keep holds where they are met.
-/

set_option autoImplicit false

namespace CardDuel

/-- The exchanges that are not mere reads. -/
def nonReads (exchanges : List Exchange) : List Exchange :=
  exchanges.filter fun x => !x.request.isRead

@[simp]
theorem nonReads_append (xs ys : List Exchange) :
    nonReads (xs ++ ys) = nonReads xs ++ nonReads ys :=
  List.filter_append ..

/-- A script that only reads has nothing but reads in its transcript. -/
theorem nonReads_of_asks {α σ : Type} {x : Script α} (hx : x.Asks fun q => q.isRead = true)
    (h : Handler σ) (s : σ) : nonReads (x.transcript h s) = [] := by
  rw [nonReads, List.filter_eq_nil_iff]
  intro e he
  simp [hx.transcript h s e he]

/-- The moments at which more than a mere read is asked. -/
def nonReadMoments {σ : Type} (moments : List (Moment σ)) : List (Moment σ) :=
  moments.filter fun m => !m.request.isRead

@[simp]
theorem nonReadMoments_append {σ : Type} (ms ms' : List (Moment σ)) :
    nonReadMoments (ms ++ ms') = nonReadMoments ms ++ nonReadMoments ms' :=
  List.filter_append ..

theorem nonReadMoments_flatMap {α σ : Type} (l : List α) (f : α → List (Moment σ)) :
    nonReadMoments (l.flatMap f) = l.flatMap fun x => nonReadMoments (f x) :=
  List.filter_flatMap ..

/-- A script that only reads has no other moments. -/
theorem nonReadMoments_of_asks {α σ : Type} {x : Script α} (hx : x.Asks fun q => q.isRead = true)
    (h : Handler σ) (s : σ) : nonReadMoments (x.moments h s) = [] := by
  rw [nonReadMoments, List.filter_eq_nil_iff]
  intro m hm
  simp [hx.moments s m hm]

theorem nonReads_exchange {σ : Type} (h : Handler σ) (moments : List (Moment σ)) :
    nonReads (moments.map (·.exchange h)) = (nonReadMoments moments).map (·.exchange h) :=
  List.filter_map

/-- The actions that were carried out, and what became of them. -/
def Verdict.deeds : Verdict → List Deed
  | .fired _ _ deeds => deeds
  | .unknownSource | .refused .. => []

/-! ## Triggers -/

/-- A trigger as the engine comes to it. -/
structure Arrival (σ : Type) where
  card : Card
  combat : Option CombatOutcome
  trigger : Trigger
  host : σ

theorem Engine.asks_hitUnit (t : Trigger) (combat : Option CombatOutcome) :
    (hitUnit t combat).Asks fun q => q.isRead = true := by
  unfold hitUnit
  split
  · trivial
  · split
    · trivial
    · exact (Script.asks_request _).2 rfl

/-- What happens to a trigger whose acting unit the host knows. -/
def Engine.fireSeen (e : Engine) (a : Actor) (card : Card) (event : Event)
    (combat : Option CombatOutcome) (t : Trigger) (source : BoardUnit) : Script Verdict := do
  let hit ← hitUnit t combat
  if t.conditions.all (Condition.holds source combat hit) then
    let deeds ← (e.firing a card event combat source).resolveAll {} t.actions
    return .fired source hit deeds
  else return .refused source hit

theorem Engine.fireTrigger_eq (e : Engine) (a : Actor) (card : Card) (event : Event)
    (combat : Option CombatOutcome) (t : Trigger) :
    e.fireTrigger a card event combat t = .ask (.unit a.unit) fun u : Option BoardUnit =>
      u.elim (return .unknownSource) (e.fireSeen a card event combat t) := by
  refine congrArg (Script.ask _) (funext fun u : Option BoardUnit => ?_)
  cases u <;> rfl

namespace Arrival

variable {σ : Type} (h : Handler σ) (e : Engine) (a : Actor) (w : Arrival σ)

def script : Script Verdict := e.fireTrigger a w.card w.trigger.event w.combat w.trigger

def report : TriggerReport := ⟨w.trigger.event, w.trigger, ((w.script e a).run h w.host).1⟩

/-- The actions that are carried out: none unless the host knows the acting unit and the conditions
hold. -/
def visits : List (Visit σ) :=
  match h (.unit a.unit) w.host with
  | (none, _) => []
  | (some source, s) =>
    let (hit, s) := (Engine.hitUnit w.trigger w.combat).run h s
    if w.trigger.conditions.all (Condition.holds source w.combat hit) then
      (e.firing a w.card w.trigger.event w.combat source).visits h {} w.trigger.actions s
    else []

theorem deeds_eq_visits :
    ((w.script e a).run h w.host).1.deeds = (w.visits h e a).map (·.deed h) := by
  rw [script, Engine.fireTrigger_eq, Script.run_ask, visits]
  rcases h (.unit a.unit) w.host with ⟨_ | source, s⟩
  · rfl
  · simp only [Option.elim, Engine.fireSeen, Script.run_bind]
    split
    · rw [Script.run_bind, ← Firing.deeds_eq_visits]
      rfl
    · rfl

/-- The looks at the acting unit and, for the sake of a condition, at the unit that was hit. -/
def looks : List (Moment σ) :=
  ⟨.unit a.unit, w.host⟩ :: (h (.unit a.unit) w.host).1.elim [] fun _ =>
    (Engine.hitUnit w.trigger w.combat).moments h (h (.unit a.unit) w.host).2

/-- **At a trigger the engine looks, then it carries out the actions.** -/
theorem moments_eq_visits :
    (w.script e a).moments h w.host =
      w.looks h a ++ (w.visits h e a).flatMap (·.moments h) := by
  rw [script, Engine.fireTrigger_eq, Script.moments_ask, visits, looks]
  rcases h (.unit a.unit) w.host with ⟨_ | source, s⟩
  · rfl
  · simp only [Option.elim, Engine.fireSeen, Script.moments_bind, List.cons_append]
    split
    · rw [Script.moments_bind, Firing.moments_eq_visits]
      exact congrArg _ (congrArg _ (List.append_nil _))
    · rfl

theorem nonReadMoments_looks : nonReadMoments (w.looks h a) = [] := by
  rw [looks, ← List.singleton_append, nonReadMoments_append]
  cases (h (.unit a.unit) w.host).1 with
  | none => rfl
  | some source => exact nonReadMoments_of_asks (Engine.asks_hitUnit _ _) h _

theorem nonReadMoments_eq_visits :
    nonReadMoments ((w.script e a).moments h w.host) =
      (w.visits h e a).flatMap fun v => nonReadMoments (v.moments h) := by
  rw [moments_eq_visits, nonReadMoments_append, nonReadMoments_looks, nonReadMoments_flatMap,
    List.nil_append]

/-- The actions that are carried out, if any, begin with the acting unit as the host shows it. -/
theorem visits_cases :
    w.visits h e a = [] ∨ ∃ source, (h (.unit a.unit) w.host).1 = some source ∧
      w.visits h e a = (e.firing a w.card w.trigger.event w.combat source).visits h {}
        w.trigger.actions
        ((Engine.hitUnit w.trigger w.combat).run h (h (.unit a.unit) w.host).2).2 := by
  unfold visits
  rcases h (.unit a.unit) w.host with ⟨_ | source, s⟩
  · exact .inl rfl
  · simp only
    split
    · exact .inr ⟨source, rfl, rfl⟩
    · exact .inl rfl

variable {h e a w}

theorem mem_visits {v : Visit σ} (hv : v ∈ w.visits h e a) :
    v.action ∈ w.trigger.actions ∧
      ∃ source, v.firing = e.firing a w.card w.trigger.event w.combat source := by
  unfold visits at hv
  split at hv
  · cases hv
  · rename_i source s _
    split at hv
    split at hv
    · obtain ⟨hf, ha⟩ := Firing.firing_of_mem_visits _ _ hv
      exact ⟨ha, source, hf⟩
    · cases hv

/-- **What all requests keep holds at the actions of a trigger**, and their firing has the acting
unit as the host showed it. -/
theorem host_of_mem_visits {I : σ → Prop} (hstep : ∀ q s, I s → I (h q s).2) (hw : I w.host)
    {v : Visit σ} (hv : v ∈ w.visits h e a) :
    I v.host ∧ ∃ source, (h (.unit a.unit) w.host).1 = some source ∧
      v.firing = e.firing a w.card w.trigger.event w.combat source := by
  rcases w.visits_cases h e a with hnone | ⟨source, hsource, hvisits⟩
  · rw [hnone] at hv
    cases hv
  · rw [hvisits] at hv
    refine ⟨Firing.host_of_mem_visits h _ hstep ?_ hv, source, hsource, ?_⟩
    · exact Script.host_of_run hstep (hstep _ _ hw)
    · exact (Firing.firing_of_mem_visits h _ hv).1

end Arrival

/-! ## Occasions -/

variable {σ : Type} (h : Handler σ) (e : Engine) (a : Actor)

/-- The triggers of an agenda as the engine comes to them. -/
def Engine.arrivals (card : Card) (combat : Option CombatOutcome) :
    List Trigger → σ → List (Arrival σ)
  | [], _ => []
  | t :: ts, s =>
    ⟨card, combat, t, s⟩ ::
      arrivals card combat ts ((e.fireTrigger a card t.event combat t).run h s).2

theorem Engine.mem_arrivals {card : Card} {combat : Option CombatOutcome} {ts : List Trigger}
    {s : σ} {w : Arrival σ} (hw : w ∈ e.arrivals h a card combat ts s) :
    w.card = card ∧ w.combat = combat ∧ w.trigger ∈ ts := by
  induction ts generalizing s with
  | nil => cases hw
  | cons t ts ih =>
    rcases List.mem_cons.1 hw with rfl | hw
    · exact ⟨rfl, rfl, List.mem_cons_self⟩
    · obtain ⟨hcard, hcombat, ht⟩ := ih hw
      exact ⟨hcard, hcombat, List.mem_cons_of_mem _ ht⟩

theorem Engine.host_of_mem_arrivals {I : σ → Prop} (hstep : ∀ q s, I s → I (h q s).2) {card : Card}
    {combat : Option CombatOutcome} {ts : List Trigger} {s : σ} (hs : I s) {w : Arrival σ}
    (hw : w ∈ e.arrivals h a card combat ts s) : I w.host := by
  induction ts generalizing s with
  | nil => cases hw
  | cons t ts ih =>
    rcases List.mem_cons.1 hw with rfl | hw
    · exact hs
    · exact ih (Script.host_of_run hstep hs) hw

theorem Engine.reports_eq_arrivals (card : Card) (combat : Option CombatOutcome)
    (ts : List Trigger) (s : σ) :
    ((e.fireAgenda a card combat ts).run h s).1 =
      (e.arrivals h a card combat ts s).map (·.report h e a) := by
  induction ts generalizing s with
  | nil => rfl
  | cons t ts ih =>
    simp only [fireAgenda, arrivals, Script.run_bind, Script.pure_eq, Script.run_done,
      List.map_cons, ih]
    rfl

theorem Engine.moments_eq_arrivals (card : Card) (combat : Option CombatOutcome)
    (ts : List Trigger) (s : σ) :
    (e.fireAgenda a card combat ts).moments h s =
      (e.arrivals h a card combat ts s).flatMap fun w => (w.script e a).moments h w.host := by
  induction ts generalizing s with
  | nil => rfl
  | cons t ts ih =>
    simp only [fireAgenda, arrivals, Script.moments_bind, List.flatMap_cons, ih]
    exact congrArg _ (List.append_nil _)

theorem Engine.map_trigger_arrivals (card : Card) (combat : Option CombatOutcome)
    (ts : List Trigger) (s : σ) : (e.arrivals h a card combat ts s).map (·.trigger) = ts := by
  induction ts generalizing s with
  | nil => rfl
  | cons t ts ih => rw [arrivals, List.map_cons, ih]

namespace Occasion

variable (o : Occasion) (s : σ)

/-- The triggers that the engine comes to on an occasion. -/
def arrivals : List (Arrival σ) :=
  match (e.cardOf a).run h s with
  | (none, _) => []
  | (some card, s) => e.arrivals h a card o.combat? (o.agenda card) s

/-- The actions that the engine carries out on an occasion. -/
def visits : List (Visit σ) := (o.arrivals h e a s).flatMap (·.visits h e a)

/-- **The engine reports on every trigger that it comes to.** -/
theorem reports_eq_arrivals :
    ((o.report? e a).run h s).1.getD [] = (o.arrivals h e a s).map (·.report h e a) := by
  rcases hc : (e.cardOf a).run h s with ⟨_ | card, s'⟩
  · simp only [report?_eq, arrivals, Script.run_bind, hc]
    rfl
  · simp only [report?_eq, arrivals, Script.run_bind, hc, ← Engine.reports_eq_arrivals]
    cases hany : o.phases.any card.hasTrigger with
    | true => rfl
    | false => rw [agenda_eq_nil hany]; rfl

/-- **What is reported about actions is what became of those that were carried out.** -/
theorem deeds_eq_visits :
    (((o.report? e a).run h s).1.getD []).flatMap (·.verdict.deeds) =
      (o.visits h e a s).map (·.deed h) := by
  simp only [reports_eq_arrivals, visits, List.flatMap_map, List.map_flatMap, Arrival.report,
    Arrival.deeds_eq_visits]

/-- **The engine comes to every trigger on the agenda of the card**, in order. -/
theorem map_trigger_arrivals :
    (o.arrivals h e a s).map (·.trigger) = ((e.cardOf a).run h s).1.elim [] o.agenda := by
  unfold arrivals
  rcases (e.cardOf a).run h s with ⟨_ | card, s'⟩
  · rfl
  · exact Engine.map_trigger_arrivals h e a card o.combat? (o.agenda card) s'

/-- **After a look at the acting unit there is no moment but those at its triggers**, in order. -/
theorem moments_eq_arrivals :
    (o.script e a).moments h s = ⟨.unit a.unit, s⟩ ::
      (o.arrivals h e a s).flatMap fun w => (w.script e a).moments h w.host := by
  have hcard : (e.cardOf a).moments h s = [⟨.unit a.unit, s⟩] := rfl
  rw [script_eq_report?, Script.moments_bind, report?_eq, Script.moments_bind, hcard, arrivals]
  rcases (e.cardOf a).run h s with ⟨_ | card, s'⟩
  · rfl
  · simp only [Script.moments_bind, Engine.moments_eq_arrivals]
    exact congrArg _ ((List.append_nil _).trans (List.append_nil _))

/-- **Apart from reads there is no moment but those of the actions**, in order. -/
theorem nonReadMoments_eq_visits :
    nonReadMoments ((o.script e a).moments h s) =
      (o.visits h e a s).flatMap fun v => nonReadMoments (v.moments h) := by
  have hlook : nonReadMoments [(⟨.unit a.unit, s⟩ : Moment σ)] = [] := rfl
  rw [moments_eq_arrivals, ← List.singleton_append, nonReadMoments_append, hlook, List.nil_append,
    nonReadMoments_flatMap, visits, List.flatMap_assoc]
  simp only [Arrival.nonReadMoments_eq_visits]

/-- **Apart from reads the engine asks for nothing but what its actions ask for**, in order. -/
theorem nonReads_eq_visits :
    nonReads ((o.script e a).transcript h s) =
      (o.visits h e a s).flatMap fun v => nonReads (v.transcript h) := by
  simp only [Script.transcript_eq_moments, Visit.transcript_eq_moments, nonReads_exchange,
    nonReadMoments_eq_visits, List.map_flatMap]

variable {h e a o s}

theorem mem_arrivals {w : Arrival σ} (hw : w ∈ o.arrivals h e a s) :
    w.card ∈ e.catalog.cards ∧ w.combat = o.combat? ∧ w.trigger ∈ o.agenda w.card := by
  unfold arrivals at hw
  split at hw
  · cases hw
  · rename_i card s' hc
    obtain ⟨rfl, hcombat, ht⟩ := Engine.mem_arrivals h e a hw
    refine ⟨?_, hcombat, ht⟩
    -- looking up the card keeps the trivial invariant, so only its result matters
    have hmem := (Engine.keeps_cardOf (e := e) (a := a) (h := h) (I := fun _ => True)
      fun _ _ => trivial) s trivial
    exact hmem.2 w.card (by rw [hc])

/-- What all requests keep holds at the triggers of an occasion. -/
theorem host_of_mem_arrivals {I : σ → Prop} (hstep : ∀ q s, I s → I (h q s).2) (hs : I s)
    {w : Arrival σ} (hw : w ∈ o.arrivals h e a s) : I w.host := by
  unfold arrivals at hw
  split at hw
  · cases hw
  · rename_i card s' hcard
    refine Engine.host_of_mem_arrivals h e a hstep ?_ hw
    have hlook := Script.host_of_run hstep (x := e.cardOf a) hs
    rwa [hcard] at hlook

theorem mem_visits {v : Visit σ} (hv : v ∈ o.visits h e a s) :
    ∃ w ∈ o.arrivals h e a s, v.action ∈ w.trigger.actions ∧
      ∃ source, v.firing = e.firing a w.card w.trigger.event w.combat source := by
  obtain ⟨w, hw, hv⟩ := List.mem_flatMap.1 hv
  exact ⟨w, hw, Arrival.mem_visits hv⟩

end Occasion

end CardDuel
