import CardDuel.Engine
import CardDuel.Proofs.Script.Logic

/-!
# Occasions

The engine is told about a summon, the start of a turn or a combat.  The three entry points do the
same: they look up the card of the acting unit and fire its agenda, the triggers of the phases that
the occasion reaches, in order.

* `Occasion.report?_eq` — the entry points in that form; `script_eq_report?` ties them to
  the answers of the engine.
* `Occasion.keeps_of_looks` — an occasion keeps what the looks of the engine keep and
  what every action of its firings keeps; `Occasion.keeps` asks it of every read.
-/

set_option autoImplicit false

namespace CardDuel

/-! ## Agendas -/

namespace Occasion

/-- The combat that the occasion is. -/
def combat? : Occasion → Option CombatOutcome
  | .summon | .turnStart => none
  | .combat outcome => some outcome

/-- The events that the occasion is about. -/
def phases : Occasion → List Event
  | .summon => [.summon]
  | .turnStart => [.turnStart]
  | .combat _ => Event.combatPhases

/-- Whether a phase is reached. -/
def reaches : Occasion → Event → Bool
  | .summon, _ | .turnStart, _ => true
  | .combat outcome, event => outcome.fires event

/-- The triggers of a card that the engine comes to, in order. -/
def agenda (o : Occasion) (card : Card) : List Trigger :=
  (o.phases.filter o.reaches).flatMap card.triggersFor

/-- The report of the engine on an occasion. -/
def report? (e : Engine) (a : Actor) : Occasion → Script (Option (List TriggerReport))
  | .summon => e.event? a .summon
  | .turnStart => e.event? a .turnStart
  | .combat outcome => e.combat? a outcome

variable {o : Occasion} {card : Card} {t : Trigger}

theorem mem_triggers_of_mem_agenda (ht : t ∈ o.agenda card) : t ∈ card.triggers := by
  obtain ⟨event, _, ht⟩ := List.mem_flatMap.1 ht
  exact (List.mem_filter.1 ht).1

theorem event_of_mem_agenda (ht : t ∈ o.agenda card) : t.event ∈ o.phases := by
  obtain ⟨event, hevent, ht⟩ := List.mem_flatMap.1 ht
  have : t.event = event := by simpa using (List.mem_filter.1 ht).2
  exact this ▸ (List.mem_filter.1 hevent).1

theorem reaches_of_mem_agenda (ht : t ∈ o.agenda card) : o.reaches t.event = true := by
  obtain ⟨event, hevent, ht⟩ := List.mem_flatMap.1 ht
  have : t.event = event := by simpa using (List.mem_filter.1 ht).2
  exact this ▸ (List.mem_filter.1 hevent).2

/-- A trigger for a combat event is on the agenda of combats only. -/
theorem combat_of_mem_agenda (ht : t ∈ o.agenda card) (hc : t.event ∈ Event.combatPhases) :
    o.combat?.isSome = true := by
  have hphase := event_of_mem_agenda ht
  cases o with
  | combat outcome => rfl
  | summon | turnStart =>
    simp only [phases, List.mem_singleton] at hphase
    rw [hphase] at hc
    revert hc
    decide

theorem agenda_summon (card : Card) : Occasion.summon.agenda card = card.triggersFor .summon :=
  List.append_nil _

theorem agenda_turnStart (card : Card) :
    Occasion.turnStart.agenda card = card.triggersFor .turnStart :=
  List.append_nil _

/-- Without a trigger for any phase there is nothing on the agenda. -/
theorem agenda_eq_nil (h : o.phases.any card.hasTrigger = false) : o.agenda card = [] := by
  rw [List.eq_nil_iff_forall_not_mem]
  intro t ht
  rw [List.any_eq_false] at h
  refine h t.event (event_of_mem_agenda ht) ((card.hasTrigger_iff _).2 ?_)
  exact List.ne_nil_of_mem (List.mem_filter.2 ⟨mem_triggers_of_mem_agenda ht, by simp⟩)

end Occasion

/-! ## The entry points -/

namespace Engine

variable (e : Engine) (a : Actor) (card : Card)

/-- Fires triggers in order, each for its event. -/
def fireAgenda (combat : Option CombatOutcome) : List Trigger → Script (List TriggerReport)
  | [] => return []
  | t :: ts => do
    let verdict ← e.fireTrigger a card t.event combat t
    let reports ← fireAgenda combat ts
    return ⟨t.event, t, verdict⟩ :: reports

theorem fireAgenda_append (combat : Option CombatOutcome) (ts ts' : List Trigger) :
    e.fireAgenda a card combat (ts ++ ts') = do
      let first ← e.fireAgenda a card combat ts
      let others ← e.fireAgenda a card combat ts'
      return first ++ others := by
  induction ts with
  | nil => exact (bind_pure _).symm
  | cons t ts ih =>
    simp only [List.cons_append, fireAgenda, ih, bind_assoc, pure_bind]

theorem fireTriggers_eq {event : Event} (combat : Option CombatOutcome) {ts : List Trigger}
    (hts : ∀ t ∈ ts, t.event = event) :
    e.fireTriggers a card event combat ts = e.fireAgenda a card combat ts := by
  induction ts with
  | nil => rfl
  | cons t ts ih =>
    obtain ⟨rfl, hts⟩ := List.forall_mem_cons.1 hts
    simp only [fireTriggers, fireAgenda, ih hts]

theorem fireEvent_eq (combat : Option CombatOutcome) (event : Event) :
    e.fireEvent a card combat event = e.fireAgenda a card combat (card.triggersFor event) :=
  e.fireTriggers_eq a card combat fun t ht => by simpa using (List.mem_filter.1 ht).2

theorem firePhases_eq (outcome : CombatOutcome) (events : List Event) :
    e.firePhases a card outcome events = e.fireAgenda a card (some outcome)
      ((events.filter outcome.fires).flatMap card.triggersFor) := by
  induction events with
  | nil => rfl
  | cons event events ih =>
    rw [firePhases]
    split
    · rename_i hfires
      rw [List.filter_cons_of_pos hfires, List.flatMap_cons, fireAgenda_append, ← ih, fireEvent_eq]
    · rename_i hfires
      rw [List.filter_cons_of_neg hfires, ih]

end Engine

namespace Occasion

theorem script_eq_report? (o : Occasion) (e : Engine) (a : Actor) :
    o.script e a = do return (← o.report? e a).isSome := by
  cases o <;> rfl

/-- Firing an empty agenda is as good as not firing at all. -/
theorem fire_or_not (o : Occasion) (e : Engine) (a : Actor) (card : Card) :
    (if o.phases.any card.hasTrigger then do
      return some (← e.fireAgenda a card o.combat? (o.agenda card))
    else return none) = do
      let reports ← e.fireAgenda a card o.combat? (o.agenda card)
      return if o.phases.any card.hasTrigger then some reports else none := by
  cases hany : o.phases.any card.hasTrigger with
  | true => rfl
  | false =>
    rw [agenda_eq_nil hany]
    rfl

/-- **The entry points in one form**: look up the card, fire its agenda, and report if it has a
trigger for any phase. -/
theorem report?_eq (o : Occasion) (e : Engine) (a : Actor) :
    o.report? e a = do
      match ← e.cardOf a with
      | none => return none
      | some card =>
        let reports ← e.fireAgenda a card o.combat? (o.agenda card)
        return if o.phases.any card.hasTrigger then some reports else none := by
  simp only [← fire_or_not]
  cases o <;> refine bind_congr fun card? => ?_ <;> cases card?
  case summon.some card =>
    simp only [agenda_summon, phases, combat?, List.any_cons, List.any_nil, Bool.or_false,
      Engine.fireEvent_eq]
  case turnStart.some card =>
    simp only [agenda_turnStart, phases, combat?, List.any_cons, List.any_nil, Bool.or_false,
      Engine.fireEvent_eq]
  case combat.some outcome card =>
    simp only [Engine.firePhases_eq]
    rfl
  all_goals rfl

end Occasion

/-! ## Calls -/

/-- One call of an entry point of an engine. -/
structure Call where
  engine : Engine
  actor : Actor
  occasion : Occasion

namespace Call

def script (c : Call) : Script Bool := c.occasion.script c.engine c.actor

/-- One call after the other, with the answers of all of them. -/
def inTurn : List Call → Script (List Bool)
  | [] => return []
  | c :: cs => do
    let b ← c.script
    let bs ← inTurn cs
    return b :: bs

end Call

/-! ## Invariants -/

section Invariants

open Script (Keeps)

variable {σ : Type} {h : Handler σ} {I : σ → Prop} {M : Memory → Prop}

theorem Firing.keeps_resolveAll {f : Firing} {actions : List Action} {memory : Memory}
    (hstep : ∀ action ∈ actions, ∀ memory, M memory →
      Keeps h I (f.resolve memory action) fun r => M r.2) (hm : M memory) :
    Keeps h I (f.resolveAll memory actions) fun _ => True := by
  induction actions generalizing memory with
  | nil => exact .done trivial
  | cons action actions ih =>
    obtain ⟨hhead, htail⟩ := List.forall_mem_cons.1 hstep
    exact (hhead memory hm).bind fun r hr => (ih htail hr).bind fun _ _ => .done trivial

/-- The units that the engine itself looks at: the acting unit and, for a condition, the unit that
was hit. -/
def Engine.LooksAt (a : Actor) (combat : Option CombatOutcome) (id : UnitId) : Prop :=
  id = a.unit ∨ combat.bind (·.target) = some id

variable {e : Engine} {a : Actor} {o : Occasion}

theorem Engine.keeps_cardOf (hunit : ∀ s, I s → I (h (.unit a.unit) s).2) :
    Keeps h I (e.cardOf a) fun card? => ∀ card, card? = some card → card ∈ e.catalog.cards := by
  refine .ask_any hunit fun u => .done ?_
  intro card hcard
  obtain ⟨u, _, hu⟩ := Option.bind_eq_some_iff.1 hcard
  exact (Catalog.mem_of_getUnit? hu).1

theorem Engine.keeps_fireTrigger {card : Card} {event : Event} {combat : Option CombatOutcome}
    {t : Trigger} (hlook : ∀ id s, Engine.LooksAt a combat id → I s → I (h (.unit id) s).2)
    (hM : M {})
    (hstep : ∀ source, ∀ action ∈ t.actions, ∀ memory, M memory →
      Keeps h I ((e.firing a card event combat source).resolve memory action) fun r => M r.2) :
    Keeps h I (e.fireTrigger a card event combat t) fun _ => True := by
  refine .ask_any (fun s hs => hlook _ s (.inl rfl) hs) fun source => ?_
  cases source with
  | none => exact .done trivial
  | some source =>
    have hhit : Keeps h I (hitUnit t combat) fun _ => True := by
      unfold hitUnit
      split
      · exact .done trivial
      · split
        · exact .done trivial
        · rename_i id hid
          exact .ask_any (fun s hs => hlook id s (.inr hid) hs) fun _ => .done trivial
    refine hhit.bind fun hit _ => ?_
    split
    · exact (Firing.keeps_resolveAll (hstep source) hM).bind fun _ _ => .done trivial
    · exact .done trivial

theorem Engine.keeps_fireAgenda {card : Card} {combat : Option CombatOutcome} {ts : List Trigger}
    (hlook : ∀ id s, Engine.LooksAt a combat id → I s → I (h (.unit id) s).2) (hM : M {})
    (hstep : ∀ t ∈ ts, ∀ source, ∀ action ∈ t.actions, ∀ memory, M memory →
      Keeps h I ((e.firing a card t.event combat source).resolve memory action) fun r => M r.2) :
    Keeps h I (e.fireAgenda a card combat ts) fun _ => True := by
  induction ts with
  | nil => exact .done trivial
  | cons t ts ih =>
    obtain ⟨hhead, htail⟩ := List.forall_mem_cons.1 hstep
    exact (Engine.keeps_fireTrigger hlook hM hhead).bind fun _ _ =>
      (ih htail).bind fun _ _ => .done trivial

/-- **An occasion keeps what its parts keep**: every look of the engine, and every action of its
firings. -/
theorem Occasion.keeps_of_looks
    (hlook : ∀ id s, Engine.LooksAt a o.combat? id → I s → I (h (.unit id) s).2) (hM : M {})
    (hstep : ∀ card ∈ e.catalog.cards, ∀ t ∈ o.agenda card, ∀ source, ∀ action ∈ t.actions,
      ∀ memory, M memory →
        Keeps h I ((e.firing a card t.event o.combat? source).resolve memory action)
          fun r => M r.2) :
    Keeps h I (o.script e a) fun _ => True := by
  rw [script_eq_report?, report?_eq]
  refine Keeps.bind (Q := fun _ => True) ?_ fun _ _ => .done trivial
  refine (Engine.keeps_cardOf fun s hs => hlook _ s (.inl rfl) hs).bind fun card? hcard => ?_
  cases card? with
  | none => exact .done trivial
  | some card =>
    exact (Engine.keeps_fireAgenda hlook hM (hstep card (hcard card rfl))).bind
      fun _ _ => .done trivial

/-- An occasion keeps what every read and every action of its firings keeps. -/
theorem Occasion.keeps (hread : ∀ q s, q.isRead = true → I s → I (h q s).2) (hM : M {})
    (hstep : ∀ card ∈ e.catalog.cards, ∀ t ∈ o.agenda card, ∀ source, ∀ action ∈ t.actions,
      ∀ memory, M memory →
        Keeps h I ((e.firing a card t.event o.combat? source).resolve memory action)
          fun r => M r.2) :
    Keeps h I (o.script e a) fun _ => True :=
  keeps_of_looks (fun _ s _ hs => hread _ s rfl hs) hM hstep

end Invariants

end CardDuel
