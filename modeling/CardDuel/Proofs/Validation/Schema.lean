import CardDuel.Catalog
import CardDuel.Proofs.Dice.Probability
import Mathlib.Data.List.DropRight
import Mathlib.Data.List.Enum
import Mathlib.Data.List.Nodup
import Mathlib.Data.List.TakeWhile

/-!
# The schema of card lists

What a card list has to satisfy to become a catalog, said about the cards themselves: no walk over
them, no counters, no findings.

* `Schema` — ids are distinct and every card is well formed; `CardWellFormed`, `TriggerWellFormed`
  and `ActionWellFormed` list the conditions.
* `errors_eq_nil_iff` — the checker finds no error exactly in the card lists of the schema; one
  `clean_` lemma for each of its parts leads there.
* `accepted_iff_schema` — hence a card list becomes a catalog exactly when it is in the schema.
* `Catalog.get?_eq_some_iff`, `Catalog.getUnit?_eq_some_iff` — hence a catalog has one card under an
  id.
-/

set_option autoImplicit false

namespace CardDuel.Validation

/-! ## The schema -/

/-- A text without the blank characters at its ends. -/
def trimmed (s : String) : List Char := (s.toList.dropWhile Text.isBlank).rdropWhile Text.isBlank

/-- A number from 0 to 1. -/
def Fraction (x : Float) : Prop := x.isNaN = false ∧ 0.0 ≤ x ∧ x ≤ 1.0

/-- The amount of an action says something. -/
def AmountWellFormed : Action → Prop
  | .gainShield _ n | .heal _ n | .gainShares n | .drawCard n => 0 < n
  | .modifyAttack _ n => n ≠ 0
  | .applyStatus _ _ turns => 0 < turns
  | .cleanse _ _ => True

/-- An action of a trigger for an event. -/
structure ActionWellFormed (event : Event) (a : Action) : Prop where
  hitTarget : a.target? = some .hitTarget → event ∈ Event.combatPhases
  leader : a.target? = some .leader → a.kind = .heal
  amount : AmountWellFormed a

structure TriggerWellFormed (t : Trigger) : Prop where
  actions_ne_nil : t.actions ≠ []
  conditions : t.conditions ≠ [] → t.event ∈ Event.combatPhases
  actions : ∀ a ∈ t.actions, ActionWellFormed t.event a

/-- A special of a card. -/
def SpecialWellFormed (c : Card) : Special → Prop
  | .taunt => c.lane? = some .front
  | .shieldOnSummon amount => 0 < amount
  | .resistance stun exposed attackDown =>
    ∀ chance, some chance ∈ [stun, exposed, attackDown] → Fraction chance

structure CardWellFormed (c : Card) : Prop where
  id : trimmed c.id ≠ []
  name : trimmed c.name ≠ []
  health : ∀ stats, c.stats? = some stats → 0 < stats.health
  attack : ∀ stats, c.stats? = some stats → 0 ≤ stats.attack
  taunt_unique : c.specials.countP (· == .taunt) ≤ 1
  resistance_unique : c.specials.countP isResistance ≤ 1
  specials : ∀ s ∈ c.specials, SpecialWellFormed c s
  triggers : ∀ t ∈ c.triggers, TriggerWellFormed t

structure Schema (cards : List Card) : Prop where
  ids : (cards.map (·.id)).Nodup
  cards : ∀ c ∈ cards, CardWellFormed c

/-! ## Texts, chances and repetitions -/

theorem blank_eq_false_iff (s : String) : Text.blank s = false ↔ trimmed s ≠ [] := by
  rw [← Bool.not_eq_true, not_iff_not, Text.blank, List.all_eq_true, trimmed,
    List.rdropWhile_eq_nil_iff]
  constructor
  · intro h c hc
    exact h c ((List.dropWhile_sublist _).subset hc)
  · intro h
    rw [← List.dropWhile_eq_nil_iff]
    by_contra hne
    have hhead := List.head_dropWhile_not Text.isBlank hne
    rw [h _ (List.head_mem hne)] at hhead
    cases hhead

theorem inRange_iff (x : Float) : inRange x = true ↔ Fraction x := by
  simp only [inRange, Fraction, Bool.and_eq_true, decide_eq_true_eq]
  exact ⟨fun h => ⟨(Dice.isNaN_of_le h.1).2, h⟩, fun h => h.2⟩

theorem pairwise_iff_countP_le_one {α : Type} (p : α → Bool) (l : List α) :
    l.Pairwise (fun x y => p x = true → p y = false) ↔ l.countP p ≤ 1 := by
  induction l with
  | nil => simp
  | cons x l ih =>
    rw [List.pairwise_cons, ih, List.countP_cons]
    by_cases hx : p x = true
    · have hnone : (∀ y ∈ l, p x = true → p y = false) ↔ l.countP p = 0 := by
        simp [List.countP_eq_zero, hx]
      rw [hnone, if_pos hx]
      omega
    · simp [hx]

/-- At most one element is in `p` exactly when none of them has an earlier one. -/
theorem countP_le_one_iff {α : Type} (p : α → Bool) (l : List α) :
    (∀ i (hi : i < l.length), p l[i] = true → (l.take i).any p = false) ↔ l.countP p ≤ 1 := by
  rw [← pairwise_iff_countP_le_one, List.pairwise_iff_getElem]
  constructor
  · intro h i j hi hj hij hpi
    by_contra hpj
    have hnone := h j hj (by simpa using hpj)
    rw [List.any_eq_false] at hnone
    exact hnone l[i] (List.mem_take_iff_getElem.2 ⟨i, by omega, rfl⟩) hpi
  · intro h j hj hpj
    rw [List.any_eq_false]
    intro x hx hpx
    obtain ⟨i, hi, rfl⟩ := List.mem_take_iff_getElem.1 hx
    have hnone := h i j (by omega) hj (by omega) hpx
    rw [hpj] at hnone
    cases hnone

/-! ## Findings without errors -/

/-- None of the findings is an error. -/
def Clean {α : Type} (findings : List (α × Problem)) : Prop :=
  ∀ f ∈ findings, f.2.severity ≠ .error

section Clean

variable {α β γ : Type}

@[simp]
theorem clean_nil : Clean ([] : List (α × Problem)) := by
  simp [Clean]

@[simp]
theorem clean_append (l l' : List (α × Problem)) : Clean (l ++ l') ↔ Clean l ∧ Clean l' := by
  simp only [Clean, List.forall_mem_append]

@[simp]
theorem clean_whenever (broken : Bool) (place : α) (problem : Problem) :
    Clean (whenever broken (place, problem)) ↔ problem.severity = .error → broken = false := by
  cases broken <;> simp [Clean, whenever]

@[simp]
theorem clean_flatMap (l : List γ) (g : γ → List (α × Problem)) :
    Clean (l.flatMap g) ↔ ∀ x ∈ l, Clean (g x) := by
  simp only [Clean, List.mem_flatMap]
  exact ⟨fun h x hx f hf => h f ⟨x, hx, hf⟩, fun h f ⟨x, hx, hf⟩ => h x hx f hf⟩

/-- Naming a place more exactly changes no problem. -/
@[simp]
theorem clean_map (l : List (α × Problem)) (g : α → β) :
    Clean (l.map fun (part, problem) => (g part, problem)) ↔ Clean l := by
  simp only [Clean, List.mem_map]
  constructor
  · intro h f hf
    exact h _ ⟨f, hf, rfl⟩
  · rintro h _ ⟨f, hf, rfl⟩
    exact h f hf

end Clean

/-! ## Parts of a card -/

theorem clean_identityFindings (c : Card) :
    Clean (identityFindings c) ↔ trimmed c.id ≠ [] ∧ trimmed c.name ≠ [] := by
  simp [identityFindings, Problem.severity, blank_eq_false_iff]

theorem clean_statFindings (c : Card) :
    Clean (statFindings c) ↔
      ∀ stats, c.stats? = some stats → 0 < stats.health ∧ 0 ≤ stats.attack := by
  unfold statFindings
  split
  · rename_i hnone
    simp [hnone]
  · rename_i stats hstats
    simp [hstats, Problem.severity]

/-- A keyword that is listed again is tolerated. -/
theorem clean_keywordFindings (c : Card) : Clean (keywordFindings c) := by
  simp [keywordFindings, Problem.severity]

theorem tauntProblem?_eq_none_iff (c : Card) :
    tauntProblem? c = none ↔ c.lane? = some .front := by
  unfold tauntProblem?
  split <;> simp_all

theorem clean_chanceFindings (status : Status) (chance : Option Float) :
    Clean (chanceFindings status chance) ↔ ∀ x, chance = some x → Fraction x := by
  unfold chanceFindings
  split
  · simp
  · simp [Problem.severity, inRange_iff]

theorem clean_tauntProblem? (c : Card) :
    Clean ((tauntProblem? c).toList.map ((SpecialPart.whole, ·))) ↔ c.lane? = some .front := by
  rw [← tauntProblem?_eq_none_iff]
  cases h : tauntProblem? c with
  | none => simp
  | some problem => simp [Clean, severity_of_tauntProblem? h]

theorem clean_specialFindings (c : Card) (earlier : List Special) (s : Special) :
    Clean (specialFindings c earlier s) ↔
      ((s == .taunt) = true → earlier.any (· == .taunt) = false) ∧
        (isResistance s = true → earlier.any isResistance = false) ∧ SpecialWellFormed c s := by
  cases s with
  | taunt =>
    have hres : isResistance .taunt = false := rfl
    have hany : earlier.contains .taunt = earlier.any (· == .taunt) := by
      rw [List.contains_eq_any_beq]
      exact congrArg earlier.any (funext fun s => Bool.beq_comm)
    simp only [specialFindings, clean_append, clean_whenever, clean_tauntProblem?, hany, hres,
      SpecialWellFormed, Problem.severity, forall_const, beq_self_eq_true, Bool.false_eq_true,
      IsEmpty.forall_iff, true_and]
  | shieldOnSummon amount =>
    have hres : isResistance (.shieldOnSummon amount) = false := rfl
    simp [specialFindings, SpecialWellFormed, Problem.severity, hres]
  | resistance stun exposed attackDown =>
    have hres : isResistance (.resistance stun exposed attackDown) = true := rfl
    have htaunt : (Special.resistance stun exposed attackDown == .taunt) = false := rfl
    simp only [specialFindings, clean_append, clean_whenever, clean_chanceFindings, hres, htaunt,
      SpecialWellFormed, Problem.severity, forall_const, List.mem_cons, List.not_mem_nil, or_false,
      Bool.false_eq_true, IsEmpty.forall_iff, true_and]
    constructor
    · rintro ⟨⟨⟨hearlier, hstun⟩, hexposed⟩, hdown⟩
      refine ⟨hearlier, ?_⟩
      rintro chance (h | h | h)
      · exact hstun chance h.symm
      · exact hexposed chance h.symm
      · exact hdown chance h.symm
    · rintro ⟨hearlier, hall⟩
      exact ⟨⟨⟨hearlier, fun x h => hall x (.inl h.symm)⟩, fun x h => hall x (.inr (.inl h.symm))⟩,
        fun x h => hall x (.inr (.inr h.symm))⟩

theorem clean_specialsFindings (c : Card) :
    Clean (specialsFindings c) ↔
      c.specials.countP (· == .taunt) ≤ 1 ∧ c.specials.countP isResistance ≤ 1 ∧
        ∀ s ∈ c.specials, SpecialWellFormed c s := by
  rw [← countP_le_one_iff, ← countP_le_one_iff, List.forall_mem_iff_getElem]
  simp only [specialsFindings, clean_flatMap, clean_map, List.forall_mem_zipIdx',
    clean_specialFindings]
  constructor
  · intro h
    exact ⟨fun i hi => (h i hi).1, fun i hi => (h i hi).2.1, fun i hi => (h i hi).2.2⟩
  · rintro ⟨htaunt, hres, hwf⟩ i hi
    exact ⟨htaunt i hi, hres i hi, hwf i hi⟩

/-! ## Triggers -/

theorem clean_targetFindings (event : Event) (a : Action) :
    Clean (targetFindings event.isCombat a) ↔
      (a.target? = some .hitTarget → event ∈ Event.combatPhases) ∧
        (a.target? = some .leader → a.kind = .heal) := by
  rw [← Event.isCombat_iff]
  unfold targetFindings
  split
  · rename_i htarget
    simp [htarget, Problem.severity]
  · rename_i htarget
    simp [htarget, Problem.severity]
  · rename_i hhit hleader
    exact ⟨fun _ => ⟨fun h => (hhit h).elim, fun h => (hleader h).elim⟩, fun _ => clean_nil⟩

theorem clean_amountFindings (a : Action) : Clean (amountFindings a) ↔ AmountWellFormed a := by
  cases a <;> simp [amountFindings, AmountWellFormed, Problem.severity]

theorem clean_actionFindings (event : Event) (a : Action) :
    Clean (actionFindings event.isCombat a) ↔ ActionWellFormed event a := by
  simp only [actionFindings, clean_append, clean_targetFindings, clean_amountFindings]
  constructor
  · rintro ⟨⟨hhit, hleader⟩, hamount⟩
    exact ⟨hhit, hleader, hamount⟩
  · intro h
    exact ⟨⟨h.hitTarget, h.leader⟩, h.amount⟩

theorem clean_triggerFindings (t : Trigger) : Clean (triggerFindings t) ↔ TriggerWellFormed t := by
  have hactions : t.actions.isEmpty = false ↔ t.actions ≠ [] := by
    rw [← Bool.not_eq_true, List.isEmpty_iff]
  have hconditions : (!t.conditions.isEmpty && !t.event.isCombat) = false ↔
      (t.conditions ≠ [] → t.event ∈ Event.combatPhases) := by
    rw [← Event.isCombat_iff]
    cases t.conditions <;> simp
  simp only [triggerFindings, clean_append, clean_whenever, clean_flatMap, clean_map,
    Problem.severity, hactions, hconditions, clean_actionFindings, forall_const]
  constructor
  · rintro ⟨⟨hne, hcond⟩, hacts⟩
    refine ⟨hne, hcond, ?_⟩
    rwa [List.forall_mem_zipIdx', ← List.forall_mem_iff_getElem] at hacts
  · intro h
    refine ⟨⟨h.actions_ne_nil, h.conditions⟩, ?_⟩
    rw [List.forall_mem_zipIdx', ← List.forall_mem_iff_getElem]
    exact h.actions

/-- Triggers of a card that is no unit are tolerated. -/
theorem clean_triggersFindings (c : Card) :
    Clean (triggersFindings c) ↔ ∀ t ∈ c.triggers, TriggerWellFormed t := by
  simp only [triggersFindings, clean_append, clean_whenever, clean_flatMap, clean_map,
    clean_triggerFindings, List.forall_mem_zipIdx', ← List.forall_mem_iff_getElem]
  exact ⟨fun h => h.2, fun h => ⟨fun hsev => (by cases hsev), h⟩⟩

/-! ## Cards -/

theorem clean_cardFindings (c : Card) : Clean (cardFindings c) ↔ CardWellFormed c := by
  simp only [cardFindings, clean_append, clean_identityFindings, clean_statFindings,
    clean_specialsFindings, clean_triggersFindings, clean_keywordFindings, and_true]
  constructor
  · rintro ⟨⟨⟨⟨hid, hname⟩, hstats⟩, htaunt, hres, hspecials⟩, htriggers⟩
    exact ⟨hid, hname, fun s h => (hstats s h).1, fun s h => (hstats s h).2, htaunt, hres,
      hspecials, htriggers⟩
  · intro h
    exact ⟨⟨⟨⟨h.id, h.name⟩, fun s hs => ⟨h.health s hs, h.attack s hs⟩⟩,
      h.taunt_unique, h.resistance_unique, h.specials⟩, h.triggers⟩

/-- A card is not reported as a duplicate exactly when its id is new at its index. -/
theorem duplicateIssues_eq_nil_iff {cards : List Card} {i : Nat} (hi : i < cards.length) :
    duplicateIssues cards cards[i] i = [] ↔
      ∀ j (hj : j < cards.length), j < i → cards[j].id ≠ cards[i].id := by
  unfold duplicateIssues
  split
  · rename_i first hfirst
    obtain ⟨hlt, hid, hmin⟩ := List.findIdx?_eq_some_iff_getElem.1 hfirst
    simp only [beq_iff_eq] at hid hmin
    by_cases h : first < i
    · simp only [whenever, h, decide_true, if_true, List.cons_ne_nil, false_iff, not_forall]
      exact ⟨first, hlt, h, not_not.2 hid⟩
    · simp only [whenever, h, decide_false, Bool.false_eq_true, if_false, true_iff]
      intro j hj hji
      exact hmin j (by omega)
  · rename_i hnone
    have := List.findIdx?_eq_none_iff.1 hnone cards[i] (List.getElem_mem hi)
    simp at this

theorem isError_of_mem_duplicateIssues {cards : List Card} {c : Card} {index : Nat} {i : Issue}
    (h : i ∈ duplicateIssues cards c index) : i.isError = true := by
  unfold duplicateIssues whenever at h
  split at h
  · split at h
    · rw [List.mem_singleton.1 h]
      rfl
    · cases h
  · cases h

theorem duplicateIssues_harmless_iff (cards : List Card) (c : Card) (index : Nat) :
    (∀ i ∈ duplicateIssues cards c index, i.isError = false) ↔
      duplicateIssues cards c index = [] := by
  constructor
  · intro h
    rw [List.eq_nil_iff_forall_not_mem]
    intro i hi
    have := h i hi
    rw [isError_of_mem_duplicateIssues hi] at this
    cases this
  · intro h
    simp [h]

theorem cardIssues_harmless_iff (c : Card) :
    (∀ i ∈ cardIssues c, i.isError = false) ↔ Clean (cardFindings c) := by
  simp only [cardIssues, List.forall_mem_map, Clean, Issue.isError, Issue.severity,
    beq_eq_false_iff_ne]

/-- Ids are distinct exactly when each is new at its index. -/
theorem nodup_ids_iff (cards : List Card) :
    (cards.map (·.id)).Nodup ↔
      ∀ i (hi : i < cards.length) j (hj : j < cards.length), j < i → cards[j].id ≠ cards[i].id := by
  rw [List.nodup_iff_pairwise_ne, List.pairwise_map, List.pairwise_iff_getElem]
  exact ⟨fun h i hi j hj hlt => h j i hj hi hlt, fun h i j hi hj hlt => h j hj i hi hlt⟩

theorem errors_eq_nil_iff (cards : List Card) : (report cards).errors = [] ↔ Schema cards := by
  have hparts : (report cards).errors = [] ↔ ∀ i (hi : i < cards.length),
      duplicateIssues cards cards[i] i = [] ∧ CardWellFormed cards[i] := by
    simp only [report, List.filter_eq_nil_iff, Bool.not_eq_true, issues, List.forall_mem_flatMap,
      List.forall_mem_append, List.forall_mem_zipIdx', duplicateIssues_harmless_iff,
      cardIssues_harmless_iff, clean_cardFindings]
  rw [hparts]
  constructor
  · intro h
    refine ⟨(nodup_ids_iff cards).2 fun i hi => (duplicateIssues_eq_nil_iff hi).1 (h i hi).1, ?_⟩
    exact List.forall_mem_iff_getElem.2 fun i hi => (h i hi).2
  · intro h i hi
    exact ⟨(duplicateIssues_eq_nil_iff hi).2 ((nodup_ids_iff cards).1 h.ids i hi),
      h.cards _ (List.getElem_mem hi)⟩

/-- **Acceptance is the schema.** -/
theorem accepted_iff_schema (cards : List Card) :
    ((report cards).valid = true ↔ Schema cards) ∧
      ((∃ catalog, Catalog.ofCards cards = .ok catalog) ↔ Schema cards) := by
  rw [← errors_eq_nil_iff]
  refine ⟨by rw [Report.valid, List.isEmpty_iff], ?_, fun h => ⟨⟨cards, h⟩, ?_⟩⟩
  · rintro ⟨catalog, h⟩
    rw [← Catalog.ofCards_eq_ok_iff.1 h]
    exact catalog.accepted
  · exact Catalog.ofCards_eq_ok_iff.2 rfl

end CardDuel.Validation

namespace CardDuel.Catalog

variable {c : Catalog} {id : String} {card : Card}

/-- **The index has every card at its position**: ids are distinct. -/
theorem getElem?_index {i : Nat} (hi : i < c.cards.length) : c.index[c.cards[i].id]? = some i := by
  have hids := ((Validation.errors_eq_nil_iff _).1 c.accepted).ids
  have hkeys : (c.cards.zipIdx.map fun p => (p.1.id, p.2)).Pairwise
      fun p q => ¬ compare p.1 q.1 = .eq := by
    have hpairs := List.nodup_iff_pairwise_ne.1 hids
    rw [← List.zipIdx_map_fst 0 c.cards, List.map_map, List.pairwise_map] at hpairs
    rw [List.pairwise_map]
    exact hpairs.imp fun hne heq => hne (Std.LawfulEqOrd.eq_of_compare heq)
  refine Std.ExtTreeMap.getElem?_ofList_of_mem Std.ReflCmp.compare_self hkeys ?_
  exact List.mem_map.2 ⟨(c.cards[i], i), List.mk_mem_zipIdx_iff_getElem?.2
    (List.getElem?_eq_getElem hi), rfl⟩

/-- **A lookup finds the card with the id.** -/
theorem get?_eq_some_iff : c.get? id = some card ↔ card ∈ c.cards ∧ card.id = id := by
  refine ⟨get?_eq_some, ?_⟩
  rintro ⟨hcard, rfl⟩
  obtain ⟨i, hi, rfl⟩ := List.getElem_of_mem hcard
  exact Option.pmap_eq_some_iff.2 ⟨i, hi, getElem?_index hi, rfl⟩

theorem getUnit?_eq_some_iff :
    c.getUnit? id = some card ↔ card ∈ c.cards ∧ card.id = id ∧ card.isUnit = true := by
  rw [getUnit?, Option.filter_eq_some_iff, get?_eq_some_iff, and_assoc]

theorem getUnit?_eq_none_iff :
    c.getUnit? id = none ↔ ∀ card ∈ c.cards, card.id = id → card.isUnit = false := by
  simp only [Option.eq_none_iff_forall_ne_some, ne_eq, getUnit?_eq_some_iff, not_and,
    Bool.not_eq_true]

end CardDuel.Catalog
