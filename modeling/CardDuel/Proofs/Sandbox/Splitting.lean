import CardDuel.Proofs.Catalog.Lookup
import CardDuel.Proofs.Engine.Behaviour
import CardDuel.Proofs.Firing.Memory
import CardDuel.Proofs.Sandbox.EventFrame
import CardDuel.Proofs.Sandbox.Evolution

/-!
# Splitting a trigger

A trigger without conditions may be split in two: one fires the first actions, the other, right
after it, the rest.  A sandbox can tell by the memory of the firing alone.

* `Trigger.Split` — a trigger as two.
* `SameEffect` — triggers that leave the same sandbox; `SameEffect.append`, `SameEffect.flatMap`.
* `host_unconditional` — what a trigger without conditions does.
* `host_split` — the second trigger goes on where the first one stopped, but remembers nothing.
* `split_unnoticed` — hence, unless both lists of actions look for an ally, every call answers the
  same and leaves the same sandbox.
-/

set_option autoImplicit false

namespace CardDuel

/-- A trigger without conditions as two, one for the first actions and one for the rest. -/
structure Trigger.Split (t first second : Trigger) : Prop where
  first_event : first.event = t.event
  second_event : second.event = t.event
  conditions : t.conditions = []
  first_conditions : first.conditions = []
  second_conditions : second.conditions = []
  actions : t.actions = first.actions ++ second.actions
  first_actions_ne_nil : first.actions ≠ []
  second_actions_ne_nil : second.actions ≠ []

/-- A card with other triggers. -/
def Card.withTriggers (c : Card) (ts : List Trigger) : Card := { c with triggers := ts }

/-! ## Card lists -/

namespace Validation

variable {t first second : Trigger}

theorem wellFormed_split (hsplit : t.Split first second) :
    TriggerWellFormed t ↔ TriggerWellFormed first ∧ TriggerWellFormed second := by
  have hactions : (∀ a ∈ t.actions, ActionWellFormed t.event a) ↔
      (∀ a ∈ first.actions, ActionWellFormed t.event a) ∧
        ∀ a ∈ second.actions, ActionWellFormed t.event a := by
    rw [hsplit.actions, List.forall_mem_append]
  constructor
  · intro h
    obtain ⟨hfirst, hsecond⟩ := hactions.1 h.actions
    exact ⟨⟨hsplit.first_actions_ne_nil, absurd hsplit.first_conditions,
        by rwa [hsplit.first_event]⟩,
      ⟨hsplit.second_actions_ne_nil, absurd hsplit.second_conditions,
        by rwa [hsplit.second_event]⟩⟩
  · rintro ⟨hfirst, hsecond⟩
    have hne : t.actions ≠ [] := by
      rw [hsplit.actions]
      exact List.append_ne_nil_of_left_ne_nil hsplit.first_actions_ne_nil _
    refine ⟨hne, absurd hsplit.conditions, hactions.2 ⟨?_, ?_⟩⟩
    · exact hsplit.first_event ▸ hfirst.actions
    · exact hsplit.second_event ▸ hsecond.actions

theorem CardWellFormed.withTriggers {c : Card} (h : CardWellFormed c) {ts : List Trigger}
    (hts : ∀ t ∈ ts, TriggerWellFormed t) : CardWellFormed (c.withTriggers ts) :=
  { h with triggers := hts }

/-- A card may be replaced by one with the same id. -/
theorem Schema.replace {earlier later : List Card} {c c' : Card}
    (h : Schema (earlier ++ c :: later)) (hid : c'.id = c.id) (hc : CardWellFormed c') :
    Schema (earlier ++ c' :: later) where
  ids := by
    rw [List.map_append, List.map_cons, hid, ← List.map_cons, ← List.map_append]
    exact h.ids
  cards := by
    have hcards := h.cards
    rw [List.forall_mem_append, List.forall_mem_cons] at hcards ⊢
    exact ⟨hcards.1, hc, hcards.2.2⟩

/-- **A list with the trigger is accepted exactly if one with its parts is.** -/
theorem accepted_split_iff (hsplit : t.Split first second) (earlier later : List Card) (card : Card)
    (before after : List Trigger) :
    (∃ c, Catalog.ofCards (earlier ++ card.withTriggers (before ++ t :: after) :: later) = .ok c) ↔
      ∃ c, Catalog.ofCards
        (earlier ++ card.withTriggers (before ++ first :: second :: after) :: later) = .ok c := by
  have hts : (∀ u ∈ before ++ t :: after, TriggerWellFormed u) ↔
      ∀ u ∈ before ++ first :: second :: after, TriggerWellFormed u := by
    simp only [List.forall_mem_append, List.forall_mem_cons, wellFormed_split hsplit, and_assoc]
  rw [(accepted_iff_schema _).2, (accepted_iff_schema _).2]
  constructor
  · intro h
    have hcard := h.cards _ (List.mem_append_right _ List.mem_cons_self)
    exact h.replace rfl (hcard.withTriggers (hts.1 hcard.triggers))
  · intro h
    have hcard := h.cards _ (List.mem_append_right _ List.mem_cons_self)
    exact h.replace rfl (hcard.withTriggers (hts.2 hcard.triggers))

end Validation

namespace Sandbox

/-! ## Triggers with the same effect -/

/-- The sandbox after some triggers, fired in order. -/
def afterTriggers (e : Engine) (a : Actor) (card : Card) (combat : Option CombatOutcome)
    (ts : List Trigger) (s : Sandbox) : Sandbox :=
  ((e.fireAgenda a card combat ts).run answer s).2

section Effect

variable (e : Engine) (a : Actor) (card : Card) (combat : Option CombatOutcome)

theorem afterTriggers_append (ts ts' : List Trigger) (s : Sandbox) :
    afterTriggers e a card combat (ts ++ ts') s =
      afterTriggers e a card combat ts' (afterTriggers e a card combat ts s) := by
  rw [afterTriggers, Engine.fireAgenda_append, Script.run_bind, Script.run_bind]
  rfl

/-- Some triggers of a card do to every sandbox what others do. -/
def SameEffect (ts ts' : List Trigger) : Prop :=
  ∀ s, afterTriggers e a card combat ts s = afterTriggers e a card combat ts' s

variable {e a card combat} {ts ts' us us' : List Trigger}

theorem SameEffect.refl (ts : List Trigger) : SameEffect e a card combat ts ts := fun _ => rfl

theorem SameEffect.append (hts : SameEffect e a card combat ts ts')
    (hus : SameEffect e a card combat us us') :
    SameEffect e a card combat (ts ++ us) (ts' ++ us') := fun s => by
  rw [afterTriggers_append, afterTriggers_append, hts s, hus]

theorem SameEffect.flatMap {α : Type} {f g : α → List Trigger}
    (h : ∀ x, SameEffect e a card combat (f x) (g x)) (l : List α) :
    SameEffect e a card combat (l.flatMap f) (l.flatMap g) := by
  induction l with
  | nil => exact .refl []
  | cons x l ih => exact (h x).append ih

end Effect

/-! ## A trigger as two -/

section Split

variable (e : Engine) (a : Actor) (card : Card) (combat : Option CombatOutcome)

/-- **What a trigger without conditions does**: nothing if the acting unit is unknown. -/
theorem host_unconditional {t : Trigger} (hcond : t.conditions = []) (s : Sandbox) :
    afterTriggers e a card combat [t] s = (s.unit? a.unit).elim s fun source =>
      (((e.firing a card t.event combat source).resolveAll {} t.actions).run answer s).2 := by
  have hrun : afterTriggers e a card combat [t] s =
      ((e.fireTrigger a card t.event combat t).run answer s).2 := by
    simp only [afterTriggers, Engine.fireAgenda, Script.run_bind]
    rfl
  have hlook : answer (.unit a.unit) s = (s.unit? a.unit, s) := rfl
  rw [hrun, Engine.fireTrigger, Script.request_bind, Script.run_ask, hlook]
  cases s.unit? a.unit with
  | none => rfl
  | some source =>
    simp only [Engine.hitUnit, hcond, List.isEmpty_nil, List.all_nil, if_true, pure_bind,
      Script.run_bind]
    rfl

/-- A firing does not depend on what happened to the acting unit before. -/
theorem firing_of_run {α : Type} (x : Script α) (event : Event) {s : Sandbox} {source : BoardUnit}
    (hsource : s.unit? a.unit = some source) :
    ∃ later, (x.run answer s).2.unit? a.unit = some later ∧
      e.firing a card event combat later = e.firing a card event combat source := by
  have hidentity := identity_run x s a.unit
  rw [hsource, Option.map_some] at hidentity
  obtain ⟨later, hlater, hsame⟩ := Option.map_eq_some_iff.1 hidentity
  refine ⟨later, hlater, ?_⟩
  have hname : later.name = source.name := congrArg Identity.name hsame
  unfold Engine.firing
  rw [hname]

variable {t first second : Trigger}

/-- **A trigger and its parts go on alike**, but for the memory. -/
theorem host_split (hsplit : t.Split first second) {s : Sandbox} {source : BoardUnit}
    (hsource : s.unit? a.unit = some source) :
    let f := e.firing a card t.event combat source
    let start := (f.resolveAll {} first.actions).run answer s
    afterTriggers e a card combat [t] s =
        ((f.resolveAll (Memory.following {} start.1) second.actions).run answer start.2).2 ∧
      afterTriggers e a card combat [first, second] s =
        ((f.resolveAll {} second.actions).run answer start.2).2 := by
  intro f start
  constructor
  · rw [host_unconditional e a card combat hsplit.conditions, hsource, hsplit.actions]
    simp only [Option.elim_some, Firing.resolveAll_append, Script.run_bind]
    rfl
  · have hfirst : afterTriggers e a card combat [first] s = start.2 := by
      rw [host_unconditional e a card combat hsplit.first_conditions, hsource, hsplit.first_event]
      rfl
    obtain ⟨later, hlater, hfiring⟩ := firing_of_run e a card combat
      (f.resolveAll {} first.actions) t.event hsource
    rw [← List.singleton_append, afterTriggers_append, hfirst,
      host_unconditional e a card combat hsplit.second_conditions, hlater, hsplit.second_event]
    show (((e.firing a card t.event combat later).resolveAll {} second.actions).run answer _).2 = _
    rw [hfiring]

/-- **Unless both lists look for an ally, the parts have the same effect.** -/
theorem sameEffect_split (hsplit : t.Split first second)
    (hnone : Firing.NoAlly first.actions ∨ Firing.NoAlly second.actions) :
    SameEffect e a card combat [t] [first, second] := by
  intro s
  cases hsource : s.unit? a.unit with
  | none =>
    have hnothing {u : Trigger} (hcond : u.conditions = []) :
        afterTriggers e a card combat [u] s = s := by
      rw [host_unconditional e a card combat hcond, hsource, Option.elim_none]
    rw [← List.singleton_append (l := [second]), afterTriggers_append,
      hnothing hsplit.conditions, hnothing hsplit.first_conditions,
      hnothing hsplit.second_conditions]
  | some source =>
    obtain ⟨hwhole, hparts⟩ := host_split e a card combat hsplit hsource
    rw [hwhole, hparts]
    rcases hnone with hnone | hnone
    · rw [Firing.following_of_no_ally _ _ hnone]
    · exact Firing.host_of_no_ally _ _ hnone _ _ _

end Split

/-! ## Cards -/

section Cards

variable {t first second : Trigger} (hsplit : t.Split first second) (card : Card)
  (before after : List Trigger)

include hsplit

theorem hasTrigger_split :
    (card.withTriggers (before ++ t :: after)).hasTrigger =
      (card.withTriggers (before ++ first :: second :: after)).hasTrigger := by
  funext event
  simp only [Card.hasTrigger, Card.withTriggers, List.any_append, List.any_cons,
    hsplit.first_event, hsplit.second_event, ← Bool.or_assoc, Bool.or_self]

/-- The agendas have the same effect, whatever card and engine they are fired for. -/
theorem sameEffect_agenda (hnone : Firing.NoAlly first.actions ∨ Firing.NoAlly second.actions)
    (e : Engine) (a : Actor) (owner : Card) (o : Occasion) :
    SameEffect e a owner o.combat? (o.agenda (card.withTriggers (before ++ t :: after)))
      (o.agenda (card.withTriggers (before ++ first :: second :: after))) := by
  refine SameEffect.flatMap (fun event => ?_) _
  have htriggers (middle : List Trigger) :
      (card.withTriggers (before ++ (middle ++ after))).triggersFor event =
        before.filter (·.event == event) ++
          (middle.filter (·.event == event) ++ after.filter (·.event == event)) := by
    simp only [Card.triggersFor, Card.withTriggers, List.filter_append]
  have hmiddle : SameEffect e a owner o.combat? ([t].filter (·.event == event))
      ([first, second].filter (·.event == event)) := by
    by_cases hevent : t.event = event
    · simpa [hsplit.first_event, hsplit.second_event, hevent] using
        sameEffect_split e a owner o.combat? hsplit hnone
    · simpa [hsplit.first_event, hsplit.second_event, hevent] using .refl []
  rw [show before ++ t :: after = before ++ ([t] ++ after) from rfl,
    show before ++ first :: second :: after = before ++ ([first, second] ++ after) from rfl,
    htriggers, htriggers]
  exact (SameEffect.refl _).append (hmiddle.append (.refl _))

end Cards

end Sandbox

/-! ## Calls -/

theorem Engine.fireAgenda_congr {e e' : Engine} {card card' : Card}
    (hsettings : e.settings = e'.settings) (hid : card.id = card'.id) (a : Actor)
    (combat : Option CombatOutcome) (ts : List Trigger) :
    e.fireAgenda a card combat ts = e'.fireAgenda a card' combat ts := by
  induction ts with
  | nil => rfl
  | cons t ts ih =>
    rw [fireAgenda, fireAgenda, ih,
      fireTrigger_congr hsettings hid a combat ⟨rfl, rfl, fun _ => Iff.rfl⟩]

namespace Sandbox

/-- Of the engine and the card only the settings and the id matter. -/
theorem afterTriggers_congr {e e' : Engine} {card card' : Card}
    (hsettings : e.settings = e'.settings) (hid : card.id = card'.id) (a : Actor)
    (combat : Option CombatOutcome) (ts : List Trigger) (s : Sandbox) :
    afterTriggers e a card combat ts s = afterTriggers e' a card' combat ts s := by
  rw [afterTriggers, afterTriggers, Engine.fireAgenda_congr hsettings hid]

/-- A call looks up the card of the acting unit and fires its agenda. -/
theorem run_occasion (o : Occasion) (e : Engine) (a : Actor) (s : Sandbox) :
    (o.script e a).run answer s =
      ((s.unit? a.unit).bind fun u => e.catalog.getUnit? u.cardId).elim (false, s) fun card =>
        (o.phases.any card.hasTrigger,
          afterTriggers e a card o.combat? (o.agenda card) s) := by
  have hcard : (e.cardOf a).run answer s =
      ((s.unit? a.unit).bind fun u => e.catalog.getUnit? u.cardId, s) := rfl
  rw [o.script_eq, Script.run_bind, hcard]
  cases (s.unit? a.unit).bind fun u => e.catalog.getUnit? u.cardId with
  | none => rfl
  | some card =>
    simp only [Occasion.respond, Engine.verdicts, Script.run_bind, bind_assoc, pure_bind]
    rfl

/-- A card that is replaced is found under its id, and every other card as before. -/
theorem getUnit?_replace {c c' : Catalog} {earlier later : List Card} {card card' : Card}
    (hcards : c.cards = earlier ++ card :: later) (hcards' : c'.cards = earlier ++ card' :: later)
    (hid : card'.id = card.id) (hunit : card'.isUnit = card.isUnit) (id : String) :
    Option.Rel (fun d d' => d = d' ∨ (d = card ∧ d' = card')) (c.getUnit? id) (c'.getUnit? id) := by
  have hsame (found : Option Card) : Option.Rel (fun d d' => d = d' ∨ (d = card ∧ d' = card'))
      (found.filter (·.isUnit)) (found.filter (·.isUnit)) := by
    cases found.filter (·.isUnit) with
    | none => exact .none
    | some d => exact .some (.inl rfl)
  rw [Catalog.getUnit?, Catalog.getUnit?, Catalog.get?_eq_find?, Catalog.get?_eq_find?, hcards,
    hcards', List.find?_append, List.find?_append]
  cases earlier.find? fun d => d.id == id with
  | some d => exact hsame (some d)
  | none =>
    rw [Option.none_or, Option.none_or, List.find?_cons, List.find?_cons, hid]
    split
    · rw [Option.filter_some, Option.filter_some, hunit]
      split
      · exact .some (.inr ⟨rfl, rfl⟩)
      · exact .none
    · exact hsame _

/-- **Splitting a trigger goes unnoticed.**  A trigger without conditions of a card is split in two.
The list with the parts is accepted if and only if the one with the whole is; and unless both parts
look for an ally, every call of an entry point answers the same and leaves the same sandbox.  For it
is the memory alone that tells one firing from two: they do the same first actions and go on with
the same actions in the same sandbox, the one with what it remembers, the other afresh. -/
theorem split_unnoticed {t first second : Trigger} (hsplit : t.Split first second)
    (earlier later : List Card) (card : Card) (before after : List Trigger) :
    let whole := earlier ++ card.withTriggers (before ++ t :: after) :: later
    let parted := earlier ++ card.withTriggers (before ++ first :: second :: after) :: later
    ((∃ c, Catalog.ofCards whole = .ok c) ↔ ∃ c', Catalog.ofCards parted = .ok c') ∧
      (Firing.NoAlly first.actions ∨ Firing.NoAlly second.actions →
        ∀ c c', Catalog.ofCards whole = .ok c → Catalog.ofCards parted = .ok c' →
          ∀ (settings : Settings) (a : Actor) (o : Occasion) (s : Sandbox),
            (o.script ⟨c', settings⟩ a).run answer s = (o.script ⟨c, settings⟩ a).run answer s) ∧
      ∀ (e : Engine) (a : Actor) (combat : Option CombatOutcome) (s : Sandbox) (source : BoardUnit),
        s.unit? a.unit = some source →
          let f := e.firing a card t.event combat source
          let start := (f.resolveAll {} first.actions).run answer s
          afterTriggers e a card combat [t] s =
              ((f.resolveAll (Memory.following {} start.1) second.actions).run answer start.2).2 ∧
            afterTriggers e a card combat [first, second] s =
              ((f.resolveAll {} second.actions).run answer start.2).2 := by
  intro whole parted
  refine ⟨Validation.accepted_split_iff hsplit earlier later card before after, ?_, ?_⟩
  · intro hnone c c' hc hc' settings a o s
    rw [run_occasion, run_occasion]
    cases hactor : s.unit? a.unit with
    | none => rfl
    | some u =>
      simp only [Option.bind_some]
      have hfound := getUnit?_replace (Catalog.ofCards_eq_ok_iff.1 hc)
        (Catalog.ofCards_eq_ok_iff.1 hc') rfl rfl u.cardId
      generalize c.getUnit? u.cardId = found, c'.getUnit? u.cardId = found' at hfound ⊢
      have hsettings : (⟨c', settings⟩ : Engine).settings = (⟨c, settings⟩ : Engine).settings := rfl
      cases hfound with
      | none => rfl
      | some hpair =>
        rcases hpair with rfl | ⟨rfl, rfl⟩
        · exact Prod.ext rfl (afterTriggers_congr hsettings rfl a _ _ s)
        · simp only [Option.elim_some, hasTrigger_split hsplit card before after]
          have heffect := sameEffect_agenda hsplit card before after hnone ⟨c, settings⟩ a
            (card.withTriggers (before ++ t :: after)) o s
          have hid : (card.withTriggers (before ++ first :: second :: after)).id =
              (card.withTriggers (before ++ t :: after)).id := rfl
          exact congrArg (Prod.mk _) ((afterTriggers_congr hsettings hid a _ _ s).trans heffect.symm)
  · intro e a combat s source hsource
    exact host_split e a card combat hsplit hsource

/-- The trigger of the medic, and its parts. -/
def treatment : Trigger :=
  { event := .summon, actions := [.heal .ally 2, .gainShield .self 1] }

def dressing : Trigger := { event := .summon, actions := [.heal .ally 2] }

def cover : Trigger := { event := .summon, actions := [.gainShield .self 1] }

def surgery : Catalog := ⟨[medic.withTriggers [dressing, cover]], by decide⟩

theorem split_unnoticed_ward :
    treatment.Split dressing cover ∧ Firing.NoAlly cover.actions ∧
      Catalog.ofCards [medic] = .ok infirmary.catalog ∧
      Catalog.ofCards [medic.withTriggers [dressing, cover]] = .ok surgery ∧
      ((Occasion.summon.script ⟨surgery, {}⟩ arrival).run answer ward).2.log =
        ["Medic heals Guard for 2.", "Medic grants itself 1 shield."] := by
  have hsplit : treatment.Split dressing cover :=
    ⟨rfl, rfl, rfl, rfl, rfl, rfl, List.cons_ne_nil _ _, List.cons_ne_nil _ _⟩
  have hnone : Firing.NoAlly cover.actions := by decide
  have hwhole : Catalog.ofCards [medic] = .ok infirmary.catalog :=
    Catalog.ofCards_eq_ok_iff.2 rfl
  have hparted : Catalog.ofCards [medic.withTriggers [dressing, cover]] = .ok surgery :=
    Catalog.ofCards_eq_ok_iff.2 rfl
  refine ⟨hsplit, hnone, hwhole, hparted, ?_⟩
  rw [(split_unnoticed hsplit [] [] medic [] []).2.1 (.inr hnone) _ _ hwhole hparted {} arrival
    .summon ward]
  decide +kernel

/-- With an ally in both parts the memory tells: the second heal follows the first one, or goes to
whoever is weakest by then. -/
example :
    let heal : Action := .heal .ally 2
    let crowd := ward.place
      { BoardUnit.fresh ⟨4⟩ "clerk" "Clerk" .player .back 1 4 with health := 1 }
    (afterTriggers infirmary arrival medic none
        [{ event := .summon, actions := [heal, heal] }] crowd).log =
          ["Medic heals Guard for 2.", "Medic heals Guard for 2."] ∧
      (afterTriggers infirmary arrival medic none
        [{ event := .summon, actions := [heal] }, { event := .summon, actions := [heal] }] crowd).log =
          ["Medic heals Guard for 2.", "Medic heals Clerk for 2."] := by
  decide +kernel

end Sandbox

end CardDuel
