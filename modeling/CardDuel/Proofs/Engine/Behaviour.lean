import CardDuel.Proofs.Engine.Occasion
import CardDuel.Proofs.Validation.Schema
import CardDuel.Sandbox.Host
import Mathlib.Data.List.Forall2

/-!
# What a card does

All that the engine takes from a card are, for each event, the conditions and the actions of the
triggers for it, in order.  `Card.behaviour` is that part of a card.  Two catalogs with the same
unit cards up to behaviour make the same engine, and no host can tell them apart.

* `Trigger.Alike`, `Card.Alike`, `Catalog.Alike` — the same up to the order and the repetition of
  conditions, which is as far as an engine can tell; `Catalog.SameBehaviour.alike`.
* `Engine.fireTrigger_congr`, `Engine.verdicts_congr` — one trigger, and triggers in order.
* `Occasion.script_eq_of_alike` — an occasion is the same script for alike catalogs;
  `Occasion.script_congr` — hence for catalogs of the same behaviour.
* `onCombat_eq` — a combat goes through hits, kills and survivals, each in the order of the card.
* `behaviour_determined` — any sequence of calls, on a host that may change in between.
-/

set_option autoImplicit false

namespace CardDuel

/-! ## Behaviour -/

/-- What the engine takes from a trigger that it comes to. -/
def Trigger.effect (t : Trigger) : List Condition × List Action := (t.conditions, t.actions)

/-- What a card does on an event. -/
def Card.behaviour (c : Card) (event : Event) : List (List Condition × List Action) :=
  (c.triggersFor event).map Trigger.effect

/-- Two catalogs with unit cards under the same ids, which do the same on every event. -/
structure Catalog.SameBehaviour (c c' : Catalog) : Prop where
  units : ∀ id, (c.getUnit? id).isSome = (c'.getUnit? id).isSome
  behaviour : ∀ id card card', c.getUnit? id = some card → c'.getUnit? id = some card' →
    ∀ event, card.behaviour event = card'.behaviour event

/-! ## Likeness -/

/-- Triggers for the same event with the same actions and the same conditions, in whatever order the
conditions stand and however often. -/
structure Trigger.Alike (t t' : Trigger) : Prop where
  event : t.event = t'.event
  actions : t.actions = t'.actions
  conditions : ∀ c, c ∈ t.conditions ↔ c ∈ t'.conditions

/-- Cards whose triggers for every event are alike, one by one. -/
def Card.Alike (c c' : Card) : Prop :=
  ∀ event, List.Forall₂ Trigger.Alike (c.triggersFor event) (c'.triggersFor event)

/-- Two catalogs with unit cards under the same ids, which are alike. -/
def Catalog.Alike (c c' : Catalog) : Prop :=
  ∀ id, Option.Rel Card.Alike (c.getUnit? id) (c'.getUnit? id)

/-- Effects, each with its event, tell alike triggers. -/
theorem Trigger.alike_of_eq {t t' : Trigger} (h : (t.event, t.effect) = (t'.event, t'.effect)) :
    t.Alike t' := by
  obtain ⟨hevent, heffect⟩ := Prod.mk.inj h
  obtain ⟨hconditions, hactions⟩ := Prod.mk.inj heffect
  exact ⟨hevent, hactions, fun c => by rw [hconditions]⟩

/-- The effects of the triggers for an event, each with that event, are part of the behaviour. -/
theorem Card.effects_triggersFor (c : Card) (event : Event) :
    (c.triggersFor event).map (fun t => (t.event, t.effect)) =
      (c.behaviour event).map fun effect => (event, effect) := by
  rw [Card.behaviour, List.map_map]
  refine List.map_congr_left fun t ht => ?_
  have hevent : t.event = event := by simpa using (List.mem_filter.1 ht).2
  rw [hevent]
  rfl

theorem Card.alike_of_behaviour {c c' : Card} (h : c.behaviour = c'.behaviour) : c.Alike c' := by
  intro event
  have heffects : (c.triggersFor event).map (fun t => (t.event, t.effect)) =
      (c'.triggersFor event).map fun t => (t.event, t.effect) := by
    rw [effects_triggersFor, effects_triggersFor, h]
  rw [← List.forall₂_eq_eq_eq, List.forall₂_map_left_iff, List.forall₂_map_right_iff] at heffects
  exact heffects.imp fun _ _ => Trigger.alike_of_eq

/-- **Catalogs of the same behaviour are alike.** -/
theorem Catalog.SameBehaviour.alike {c c' : Catalog} (hsame : c.SameBehaviour c') : c.Alike c' := by
  intro id
  have hunits := hsame.units id
  cases hcard : c.getUnit? id with
  | none =>
    rw [hcard, Option.isSome_none] at hunits
    rw [Option.not_isSome_iff_eq_none.1 (Bool.eq_false_iff.1 hunits.symm)]
    exact .none
  | some card =>
    rw [hcard, Option.isSome_some] at hunits
    obtain ⟨card', hcard'⟩ := Option.isSome_iff_exists.1 hunits.symm
    rw [hcard']
    exact .some (Card.alike_of_behaviour (funext (hsame.behaviour id card card' hcard hcard')))

/-- Cards are alike if their triggers are, one by one. -/
theorem Card.alike_of_triggers {c c' : Card}
    (h : List.Forall₂ Trigger.Alike c.triggers c'.triggers) : c.Alike c' := by
  intro event
  refine List.rel_filter ?_ h
  intro t t' ht
  simp only [ht.event]

theorem Card.Alike.hasTrigger {c c' : Card} (h : c.Alike c') : c.hasTrigger = c'.hasTrigger := by
  funext event
  have hlength := (h event).length_eq
  rw [Bool.eq_iff_iff, hasTrigger_iff, hasTrigger_iff, ← List.length_pos_iff, hlength,
    List.length_pos_iff]

/-- Alike cards have alike agendas. -/
theorem Card.Alike.agenda {c c' : Card} (h : c.Alike c') (o : Occasion) :
    List.Forall₂ Trigger.Alike (o.agenda c) (o.agenda c') :=
  List.rel_flatMap (List.forall₂_same.2 fun _ _ => rfl) fun event event' hevent => by
    subst hevent
    exact h event

/-! ## Triggers -/

namespace Engine

variable {e e' : Engine} {card card' : Card}

/-- Only whether there are conditions matters for what the engine looks at. -/
theorem hitUnit_congr {t t' : Trigger} (h : t.Alike t') (combat : Option CombatOutcome) :
    hitUnit t combat = hitUnit t' combat := by
  have hempty : t.conditions.isEmpty = t'.conditions.isEmpty := by
    rw [Bool.eq_iff_iff, List.isEmpty_iff, List.isEmpty_iff, List.eq_nil_iff_forall_not_mem,
      List.eq_nil_iff_forall_not_mem]
    simp only [h.conditions]
  rw [hitUnit, hitUnit, hempty]

/-- **Alike triggers are fired alike.** -/
theorem fireTrigger_congr (hsettings : e.settings = e'.settings) (hid : card.id = card'.id)
    (a : Actor) (combat : Option CombatOutcome) {t t' : Trigger} (ht : t.Alike t') :
    e.fireTrigger a card t.event combat t = e'.fireTrigger a card' t'.event combat t' := by
  have hfiring (source : BoardUnit) :
      e.firing a card t.event combat source = e'.firing a card' t'.event combat source := by
    unfold firing
    rw [hsettings, hid, ht.event]
  unfold fireTrigger
  simp only [hitUnit_congr ht, hfiring, Condition.all_holds_congr ht.conditions, ht.actions]

/-- The verdicts on triggers that are fired in order. -/
def verdicts (e : Engine) (a : Actor) (card : Card) (combat : Option CombatOutcome)
    (ts : List Trigger) : Script (List Verdict) := do
  return (← e.fireAgenda a card combat ts).map (·.verdict)

theorem verdicts_cons (e : Engine) (a : Actor) (card : Card) (combat : Option CombatOutcome)
    (t : Trigger) (ts : List Trigger) :
    e.verdicts a card combat (t :: ts) = do
      let verdict ← e.fireTrigger a card t.event combat t
      let verdicts ← e.verdicts a card combat ts
      return verdict :: verdicts := by
  simp only [verdicts, fireAgenda, bind_assoc, pure_bind, List.map_cons]

/-- **So are lists of them.** -/
theorem verdicts_congr (hsettings : e.settings = e'.settings) (hid : card.id = card'.id)
    (a : Actor) (combat : Option CombatOutcome) {ts ts' : List Trigger}
    (hts : List.Forall₂ Trigger.Alike ts ts') :
    e.verdicts a card combat ts = e'.verdicts a card' combat ts' := by
  induction hts with
  | nil => rfl
  | cons ht _ ih =>
    rw [verdicts_cons, verdicts_cons, ih, fireTrigger_congr hsettings hid a combat ht]

end Engine

/-! ## Occasions -/

namespace Occasion

/-- What follows once the card of the acting unit is known: its agenda is fired, and the answer is
whether it has a trigger for any phase. -/
def respond (o : Occasion) (e : Engine) (a : Actor) : Option Card → Script Bool
  | none => return false
  | some card => do
    let _ ← e.verdicts a card o.combat? (o.agenda card)
    return o.phases.any card.hasTrigger

theorem script_eq (o : Occasion) (e : Engine) (a : Actor) :
    o.script e a = e.cardOf a >>= o.respond e a := by
  rw [script_eq_report?, report?_eq, bind_assoc]
  refine bind_congr fun card? => ?_
  cases card? with
  | none => rfl
  | some card =>
    simp only [respond, Engine.verdicts, bind_assoc, pure_bind]
    refine bind_congr fun reports => ?_
    split
    · rename_i hany
      rw [hany]
      rfl
    · rename_i hnone
      rw [Bool.eq_false_iff.2 hnone]
      rfl

/-- Alike cards under one id are responded to alike. -/
theorem respond_congr {e e' : Engine} (hsettings : e.settings = e'.settings) {card card' : Card}
    (hid : card.id = card'.id) (halike : card.Alike card') (o : Occasion) (a : Actor) :
    o.respond e a (some card) = o.respond e' a (some card') := by
  simp only [respond, Engine.verdicts_congr hsettings hid a o.combat? (halike.agenda o),
    halike.hasTrigger]

/-- **An occasion is the same script for alike catalogs.** -/
theorem script_eq_of_alike {c c' : Catalog} (halike : c.Alike c') (settings : Settings)
    (o : Occasion) (a : Actor) : o.script ⟨c, settings⟩ a = o.script ⟨c', settings⟩ a := by
  rw [script_eq, script_eq]
  -- both scripts look at the acting unit; what follows depends on the card that it is of
  refine congrArg (Script.ask (.unit a.unit)) (funext fun u : Option BoardUnit => ?_)
  show o.respond ⟨c, settings⟩ a (u.bind fun u => c.getUnit? u.cardId) =
    o.respond ⟨c', settings⟩ a (u.bind fun u => c'.getUnit? u.cardId)
  cases u with
  | none => rfl
  | some u =>
    rw [Option.bind_some, Option.bind_some]
    have hcards := halike u.cardId
    generalize hcard : c.getUnit? u.cardId = card?, hcard' : c'.getUnit? u.cardId = card?'
      at hcards ⊢
    cases hcards with
    | none => rfl
    | some hlike =>
      have hid := (Catalog.mem_of_getUnit? hcard).2.trans (Catalog.mem_of_getUnit? hcard').2.symm
      have hsettings : (⟨c, settings⟩ : Engine).settings = (⟨c', settings⟩ : Engine).settings := rfl
      exact respond_congr hsettings hid hlike o a

/-- **An occasion is the same script for catalogs of the same behaviour.** -/
theorem script_congr {c c' : Catalog} (hsame : c.SameBehaviour c') (settings : Settings)
    (o : Occasion) (a : Actor) : o.script ⟨c, settings⟩ a = o.script ⟨c', settings⟩ a :=
  script_eq_of_alike hsame.alike settings o a

end Occasion

/-! ## Calls -/

namespace Call

variable {σ : Type}

/-- Calls that a host makes one after the other, before each of which it may change by itself: what
each of them answers and asks. -/
def session (h : Handler σ) : List ((σ → σ) × Call) → σ → List (Bool × List Exchange) × σ
  | [], s => ([], s)
  | (meanwhile, c) :: calls, s =>
    let first := c.script.run h (meanwhile s)
    let rest := session h calls first.2
    ((first.1, c.script.transcript h (meanwhile s)) :: rest.1, rest.2)

/-- A session depends on the scripts of its calls alone. -/
theorem session_congr (h : Handler σ) {α : Type} {f g : α → Call}
    (hscript : ∀ x, (f x).script = (g x).script) (calls : List ((σ → σ) × α)) (s : σ) :
    session h (calls.map fun p => (p.1, f p.2)) s =
      session h (calls.map fun p => (p.1, g p.2)) s := by
  induction calls generalizing s with
  | nil => rfl
  | cons p calls ih =>
    simp only [List.map_cons, session, hscript, ih]

end Call

namespace Engine

/-- Fires the triggers of a card for a phase of a combat, in the order of the card. -/
def runPhase (e : Engine) (a : Actor) (card : Card) (outcome : CombatOutcome) (event : Event) :
    Script Unit := do
  let _ ← e.fireAgenda a card (some outcome) (card.triggersFor event)

/-- A combat phase by phase: the triggers for a hit, then those for a kill if the target died, then
those for survival if the acting unit lived. -/
def runPhases (e : Engine) (a : Actor) (outcome : CombatOutcome) : Script Bool := do
  match ← e.cardOf a with
  | none => return false
  | some card =>
    e.runPhase a card outcome .hit
    if outcome.targetDied then e.runPhase a card outcome .kill
    if !outcome.sourceDied then e.runPhase a card outcome .survival
    return Event.combatPhases.any card.hasTrigger

/-- **A combat goes through its phases in order**, however their triggers are mixed on the card. -/
theorem onCombat_eq (e : Engine) (a : Actor) (outcome : CombatOutcome) :
    e.onCombat a outcome = e.runPhases a outcome := by
  have hscript : e.onCombat a outcome =
      e.cardOf a >>= (Occasion.combat outcome).respond e a :=
    (Occasion.combat outcome).script_eq e a
  rw [hscript]
  refine bind_congr fun card? => ?_
  cases card? with
  | none => rfl
  | some card =>
    have hagenda : (Occasion.combat outcome).agenda card = card.triggersFor .hit ++
        ((if outcome.targetDied then card.triggersFor .kill else []) ++
          if !outcome.sourceDied then card.triggersFor .survival else []) := by
      obtain ⟨target, targetDied, sourceDied⟩ := outcome
      cases targetDied <;> cases sourceDied <;>
        simp [Occasion.agenda, Occasion.phases, Occasion.reaches, Event.combatPhases,
          CombatOutcome.fires, List.filter_cons]
    simp only [Occasion.respond, Occasion.combat?, Occasion.phases, verdicts, hagenda,
      fireAgenda_append, runPhase, bind_assoc, pure_bind]
    refine bind_congr fun hits => ?_
    cases outcome.targetDied <;> cases outcome.sourceDied <;>
      simp [fireAgenda]

end Engine

/-- **What a card does on each event determines all that a host sees of it.**  Two catalogs with
unit cards under the same ids, whose triggers for each event have the same conditions and actions in
the same order, make engines that answer the same and ask the same in every session with every host.
In particular a combat runs its phases in order, each in the order of the card. -/
theorem behaviour_determined {c c' : Catalog} (hsame : c.SameBehaviour c') (settings : Settings) :
    (∀ (σ : Type) (h : Handler σ) (calls : List ((σ → σ) × Actor × Occasion)) (s : σ),
      Call.session h (calls.map fun p => (p.1, ⟨⟨c, settings⟩, p.2.1, p.2.2⟩)) s =
        Call.session h (calls.map fun p => (p.1, ⟨⟨c', settings⟩, p.2.1, p.2.2⟩)) s) ∧
      ∀ (e : Engine) (a : Actor) (outcome : CombatOutcome),
        e.onCombat a outcome = e.runPhases a outcome := by
  refine ⟨fun σ h calls s => ?_, fun e a outcome => e.onCombat_eq a outcome⟩
  refine Call.session_congr h (f := fun p => ⟨⟨c, settings⟩, p.1, p.2⟩)
    (g := fun p => ⟨⟨c', settings⟩, p.1, p.2⟩) (fun p => ?_) calls s
  exact p.2.script_congr hsame settings p.1

/-- A card whose triggers for the phases of a combat are mixed. -/
def duelist : Card :=
  { id := "duelist", name := "Duelist", kind := .unit .front ⟨2, 3⟩
    triggers := [{ event := .survival, actions := [.gainShield .self 1] },
      { event := .hit, actions := [.applyStatus .hitTarget .exposed 1] },
      { event := .kill, actions := [.gainShares 2] },
      { event := .hit, actions := [.modifyAttack .self 1], conditions := [.targetSurvived] }] }

/-- Another card that does the same. -/
def veteran : Card :=
  { id := "duelist", name := "Veteran", faction := "Guild", role := "Guard", cost := 4
    kind := .unit .back ⟨0, 9⟩, dirtyPower := some 7, keywords := ["Old"]
    specials := [.shieldOnSummon 2]
    triggers := [{ event := .hit, actions := [.applyStatus .hitTarget .exposed 1] },
      { event := .hit, actions := [.modifyAttack .self 1], conditions := [.targetSurvived],
        note := some "first blood" },
      { event := .kill, actions := [.gainShares 2] },
      { event := .survival, actions := [.gainShield .self 1] }] }

def duelists : Catalog := ⟨[duelist], by decide +kernel⟩

def veterans : Catalog := ⟨[veteran], by decide +kernel⟩

/-- A duelist faces a thug. -/
def arena : Sandbox :=
  ((Sandbox.start {}).place (.fresh ⟨1⟩ "duelist" "Duelist" .player .front 2 3)).place
    (.fresh ⟨2⟩ "thug" "Thug" .enemy .front 2 5)

/-- The duelist hits the thug, then kills it in the next turn. -/
def bout : List ((Sandbox → Sandbox) × Actor × Occasion) :=
  [(id, ⟨.player, ⟨1⟩, 1⟩, .combat { target := some ⟨2⟩ }),
    (Sandbox.advance, ⟨.player, ⟨1⟩, 2⟩, .combat { target := some ⟨2⟩, targetDied := true })]

theorem getUnit?_singleton {c : Catalog} {card : Card} (hcards : c.cards = [card])
    (hunit : card.isUnit = true) (id : String) :
    c.getUnit? id = if card.id = id then some card else none := by
  by_cases hid : card.id = id
  · rw [if_pos hid, Catalog.getUnit?_eq_some_iff, hcards]
    exact ⟨List.mem_singleton_self card, hid, hunit⟩
  · rw [if_neg hid, Catalog.getUnit?_eq_none_iff, hcards]
    intro found hfound hfoundId
    exact absurd (List.mem_singleton.1 hfound ▸ hfoundId) hid

theorem behaviour_determined_bout :
    let played := Call.session Sandbox.answer
      (bout.map fun p => (p.1, ⟨⟨veterans, {}⟩, p.2.1, p.2.2⟩)) arena
    duelists.SameBehaviour veterans ∧ played.1.map (·.1) = [true, true] ∧
      played.2.log = ["Duelist exposes Thug until turn 2.", "Duelist gives itself +1 attack.",
        "Duelist grants itself 1 shield.", "Duelist exposes Thug until turn 3.",
        "Duelist earns 2 shares.", "Duelist grants itself 1 shield."] := by
  intro played
  have hduelist (id : String) :
      duelists.getUnit? id = if duelist.id = id then some duelist else none :=
    getUnit?_singleton rfl rfl id
  have hveteran (id : String) :
      veterans.getUnit? id = if veteran.id = id then some veteran else none :=
    getUnit?_singleton rfl rfl id
  have hsame : duelists.SameBehaviour veterans := by
    refine ⟨fun id => ?_, fun id card card' hcard hcard' event => ?_⟩
    · rw [hduelist, hveteran, show veteran.id = duelist.id from rfl]
      split <;> rfl
    · rw [hduelist] at hcard
      rw [hveteran] at hcard'
      obtain ⟨-, hduelist⟩ := Option.ite_none_right_eq_some.1 hcard
      obtain ⟨-, hveteran⟩ := Option.ite_none_right_eq_some.1 hcard'
      cases hduelist
      cases hveteran
      cases event <;> rfl
  obtain ⟨hsession, -⟩ := behaviour_determined hsame {}
  have hplayed : played = _ := (hsession Sandbox Sandbox.answer bout arena).symm
  rw [hplayed]
  exact ⟨hsame, by decide +kernel, by decide +kernel⟩

end CardDuel
