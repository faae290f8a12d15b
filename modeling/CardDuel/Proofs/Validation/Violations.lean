import CardDuel.Proofs.Validation.Schema
import Mathlib.Order.Bounds.Defs

/-!
# Violations

Which rule a part of a card breaks, said about the part itself.

* `ActionViolation`, `SpecialViolation`, `TriggerViolation`, `Violation` — a rule that is broken, at
  the place where it is broken; an element is named by its index.
* `mem_cardFindings_iff` — the findings on a card are its violations; one `mem_` lemma for each of
  its parts leads there.
* `duplicateIssues_eq` — a card is reported as a duplicate in one issue, which names the first card
  with its id, if that is an earlier one.
-/

set_option autoImplicit false

namespace CardDuel

/-- The groups of places, in the order in which a card is checked. -/
inductive PlaceGroup where
  | identity
  | stats
  | keywords
  | specials
  | triggers
  deriving DecidableEq

namespace PlaceGroup

def all : List PlaceGroup := [.identity, .stats, .keywords, .specials, .triggers]

theorem mem_all (group : PlaceGroup) : group ∈ all := by
  cases group <;> decide

end PlaceGroup

/-- The group of a place. -/
def Place.group : Place → PlaceGroup
  | .id | .name => .identity
  | .health | .attack => .stats
  | .keyword _ => .keywords
  | .special .. => .specials
  | .triggers | .trigger .. => .triggers

namespace Validation

/-! ## Broken rules -/

/-- A rule that an action of a trigger for an event breaks. -/
inductive ActionViolation (event : Event) : Action → ActionPart → Problem → Prop
  | hitTarget {a : Action} : a.target? = some .hitTarget → event ∉ Event.combatPhases →
      ActionViolation event a .target .hitTargetOutsideCombat
  | leader {a : Action} : a.target? = some .leader → a.kind ≠ .heal →
      ActionViolation event a .target (.leaderWithoutHeal a.kind)
  | gainShield {target : Target} {n : Int32} : n ≤ 0 →
      ActionViolation event (.gainShield target n) .amount .notPositive
  | heal {target : Target} {n : Int32} : n ≤ 0 →
      ActionViolation event (.heal target n) .amount .notPositive
  | gainShares {n : Int32} : n ≤ 0 → ActionViolation event (.gainShares n) .amount .notPositive
  | drawCard {n : Int32} : n ≤ 0 → ActionViolation event (.drawCard n) .amount .notPositive
  | modifyAttack {target : Target} : ActionViolation event (.modifyAttack target 0) .amount .zero
  | applyStatus {target : Target} {status : Status} {turns : Int32} : turns ≤ 0 →
      ActionViolation event (.applyStatus target status turns) .turns .notPositive
  | cleanse {target : Target} :
      ActionViolation event (.cleanse target (some [])) .statuses .emptyStatusList

/-- A rule that a trigger breaks, in itself or by its action at an index. -/
inductive TriggerViolation (t : Trigger) : TriggerPart → Problem → Prop
  | noAction : t.actions = [] → TriggerViolation t .actions .noAction
  | conditions : t.conditions ≠ [] → t.event ∉ Event.combatPhases →
      TriggerViolation t .conditions (.conditionsOutsideCombat t.event)
  | action {j : Nat} {a : Action} {part : ActionPart} {problem : Problem} :
      t.actions[j]? = some a → ActionViolation t.event a part problem →
      TriggerViolation t (.action j part) problem

/-- A rule that the special at an index of a card breaks. -/
inductive SpecialViolation (c : Card) (i : Nat) : Special → SpecialPart → Problem → Prop
  | secondTaunt {j : Nat} : j < i → c.specials[j]? = some .taunt →
      SpecialViolation c i .taunt .whole .secondTaunt
  | tauntWithoutUnit : c.lane? = none → SpecialViolation c i .taunt .whole .tauntWithoutUnit
  | tauntInLane {lane : Lane} : c.lane? = some lane → lane ≠ .front →
      SpecialViolation c i .taunt .whole (.tauntInLane lane)
  | shieldOnSummon {n : Int32} : n ≤ 0 →
      SpecialViolation c i (.shieldOnSummon n) .amount .notPositive
  | secondResistance {stun exposed attackDown : Option Float} {j : Nat} {s : Special} :
      j < i → c.specials[j]? = some s → isResistance s = true →
      SpecialViolation c i (.resistance stun exposed attackDown) .whole .secondResistance
  | stun {x : Float} {exposed attackDown : Option Float} : ¬ Fraction x →
      SpecialViolation c i (.resistance (some x) exposed attackDown) (.chance .stun)
        (.chanceOutOfRange x)
  | exposed {x : Float} {stun attackDown : Option Float} : ¬ Fraction x →
      SpecialViolation c i (.resistance stun (some x) attackDown) (.chance .exposed)
        (.chanceOutOfRange x)
  | attackDown {x : Float} {stun exposed : Option Float} : ¬ Fraction x →
      SpecialViolation c i (.resistance stun exposed (some x)) (.chance .attackDown)
        (.chanceOutOfRange x)

/-- A rule that a card breaks on its own. -/
inductive Violation (c : Card) : Place → Problem → Prop
  | id : trimmed c.id = [] → Violation c .id .missingId
  | name : trimmed c.name = [] → Violation c .name .missingName
  | health {stats : Stats} : c.stats? = some stats → stats.health ≤ 0 →
      Violation c .health .notPositive
  | attack {stats : Stats} : c.stats? = some stats → stats.attack < 0 →
      Violation c .attack .negative
  | keyword {i j : Nat} {k : String} : c.keywords[i]? = some k → j < i → c.keywords[j]? = some k →
      Violation c (.keyword i) (.duplicateKeyword k)
  | special {i : Nat} {s : Special} {part : SpecialPart} {problem : Problem} :
      c.specials[i]? = some s → SpecialViolation c i s part problem →
      Violation c (.special i part) problem
  | triggers : c.isUnit = false → c.triggers ≠ [] → Violation c .triggers .triggersNeverFire
  | trigger {i : Nat} {t : Trigger} {part : TriggerPart} {problem : Problem} :
      c.triggers[i]? = some t → TriggerViolation t part problem →
      Violation c (.trigger i part) problem

/-! ## Findings -/

@[simp]
theorem mem_whenever {α : Type} {broken : Bool} {finding x : α} :
    x ∈ whenever broken finding ↔ broken = true ∧ x = finding := by
  cases broken <;> simp [whenever]

/-- An element is in what stands before an index if it has a smaller one. -/
theorem mem_take_iff {α : Type} {l : List α} {i : Nat} {x : α} :
    x ∈ l.take i ↔ ∃ j < i, l[j]? = some x := by
  rw [List.mem_take_iff_getElem]
  constructor
  · rintro ⟨j, hj, rfl⟩
    exact ⟨j, by omega, List.getElem?_eq_getElem _⟩
  · rintro ⟨j, hj, hx⟩
    obtain ⟨hlen, rfl⟩ := List.getElem?_eq_some_iff.1 hx
    exact ⟨j, by omega, rfl⟩

/-- The findings on the elements of a list, each with the index of its element. -/
theorem mem_flatMap_zipIdx_iff {α β : Type} {l : List α} {g : α × Nat → List β} {x : β} :
    x ∈ l.zipIdx.flatMap g ↔ ∃ i a, l[i]? = some a ∧ x ∈ g (a, i) := by
  simp only [List.mem_flatMap, Prod.exists, List.mk_mem_zipIdx_iff_getElem?]
  exact exists_comm

/-- The findings on the parts of the elements of a list, each at the place of its part. -/
theorem mem_elements_iff {α β γ : Type} {l : List γ} {g : γ × Nat → List (β × Problem)}
    (place : Nat → β → α) {f : α × Problem} :
    f ∈ (l.zipIdx.flatMap fun p => (g p).map fun x => (place p.2 x.1, x.2)) ↔
      ∃ i a part, l[i]? = some a ∧ (part, f.2) ∈ g (a, i) ∧ place i part = f.1 := by
  rw [mem_flatMap_zipIdx_iff]
  constructor
  · rintro ⟨i, a, ha, hf⟩
    obtain ⟨x, hx, rfl⟩ := List.mem_map.1 hf
    exact ⟨i, a, x.1, ha, hx, rfl⟩
  · rintro ⟨i, a, part, ha, hx, hplace⟩
    exact ⟨i, a, ha, List.mem_map.2 ⟨_, hx, Prod.ext hplace rfl⟩⟩

section Parts

variable {c : Card} {place : Place} {problem : Problem}

theorem blank_eq_true_iff (s : String) : Text.blank s = true ↔ trimmed s = [] := by
  rw [← not_iff_not, Bool.not_eq_true, blank_eq_false_iff]

theorem inRange_eq_false_iff (x : Float) : inRange x = false ↔ ¬ Fraction x := by
  rw [← inRange_iff, Bool.not_eq_true]

theorem isCombat_eq_false_iff (event : Event) :
    event.isCombat = false ↔ event ∉ Event.combatPhases := by
  rw [← Event.isCombat_iff, Bool.not_eq_true]

/-! ### Identity, stats and keywords -/

theorem mem_identityFindings_iff :
    (place, problem) ∈ identityFindings c ↔
      Violation c place problem ∧ place.group = .identity := by
  simp only [identityFindings, List.mem_append, mem_whenever, blank_eq_true_iff]
  constructor
  · rintro (⟨hid, h⟩ | ⟨hname, h⟩)
    · cases h
      exact ⟨.id hid, rfl⟩
    · cases h
      exact ⟨.name hname, rfl⟩
  · rintro ⟨h, hgroup⟩
    cases h with
    | id hid => exact .inl ⟨hid, rfl⟩
    | name hname => exact .inr ⟨hname, rfl⟩
    | _ => cases hgroup

theorem mem_statFindings_iff :
    (place, problem) ∈ statFindings c ↔ Violation c place problem ∧ place.group = .stats := by
  unfold statFindings
  constructor
  · intro h
    split at h
    · cases h
    · rename_i stats hstats
      simp only [List.mem_append, mem_whenever, decide_eq_true_eq] at h
      rcases h with ⟨hn, h⟩ | ⟨hn, h⟩
      · cases h
        exact ⟨.health hstats hn, rfl⟩
      · cases h
        exact ⟨.attack hstats hn, rfl⟩
  · rintro ⟨h, hgroup⟩
    cases h with
    | health hstats hn => simp [hstats, hn]
    | attack hstats hn => simp [hstats, hn]
    | _ => cases hgroup

theorem mem_keywordFindings_iff :
    (place, problem) ∈ keywordFindings c ↔
      Violation c place problem ∧ place.group = .keywords := by
  simp only [keywordFindings, mem_flatMap_zipIdx_iff, mem_whenever, List.contains_iff_mem,
    mem_take_iff]
  constructor
  · rintro ⟨i, k, hk, ⟨j, hj, hj'⟩, h⟩
    cases h
    exact ⟨.keyword hk hj hj', rfl⟩
  · rintro ⟨h, hgroup⟩
    cases h with
    | keyword hk hj hj' => exact ⟨_, _, hk, ⟨_, hj, hj'⟩, rfl⟩
    | _ => cases hgroup

/-! ### Specials -/

theorem mem_tauntProblem?_iff {part : SpecialPart} {i : Nat} :
    (part, problem) ∈ (tauntProblem? c).toList.map ((SpecialPart.whole, ·)) ↔
      SpecialViolation c i .taunt part problem ∧ problem ≠ .secondTaunt := by
  unfold tauntProblem?
  constructor
  · intro h
    split at h
    · rename_i hlane
      cases List.mem_singleton.1 h
      exact ⟨.tauntWithoutUnit hlane, by simp⟩
    · cases h
    · rename_i lane hne hlane
      cases List.mem_singleton.1 h
      exact ⟨.tauntInLane hlane hne, by simp⟩
  · rintro ⟨h, hne⟩
    cases h with
    | secondTaunt => exact absurd rfl hne
    | tauntWithoutUnit hlane => simp [hlane]
    | @tauntInLane lane hlane hfront => cases lane <;> simp_all

theorem mem_chanceFindings_iff {part : SpecialPart} {status : Status} {chance : Option Float} :
    (part, problem) ∈ chanceFindings status chance ↔
      ∃ x, chance = some x ∧ ¬ Fraction x ∧ part = .chance status ∧
        problem = .chanceOutOfRange x := by
  unfold chanceFindings
  split
  · simp
  · simp only [mem_whenever, Bool.not_eq_true', inRange_eq_false_iff, Prod.mk.injEq,
      Option.some.injEq, exists_eq_left']

theorem mem_specialFindings_iff {i : Nat} {s : Special} {part : SpecialPart} :
    (part, problem) ∈ specialFindings c (c.specials.take i) s ↔
      SpecialViolation c i s part problem := by
  cases s with
  | taunt =>
    rw [specialFindings, List.mem_append, mem_whenever, List.contains_iff_mem, mem_take_iff,
      mem_tauntProblem?_iff]
    constructor
    · rintro (⟨⟨j, hj, htaunt⟩, h⟩ | ⟨h, -⟩)
      · cases h
        exact .secondTaunt hj htaunt
      · exact h
    · intro h
      cases h with
      | secondTaunt hj htaunt => exact .inl ⟨⟨_, hj, htaunt⟩, rfl⟩
      | tauntWithoutUnit hlane => exact .inr ⟨.tauntWithoutUnit hlane, by simp⟩
      | tauntInLane hlane hne => exact .inr ⟨.tauntInLane hlane hne, by simp⟩
  | shieldOnSummon n =>
    rw [specialFindings, mem_whenever, decide_eq_true_eq]
    constructor
    · rintro ⟨hn, h⟩
      cases h
      exact .shieldOnSummon hn
    · intro h
      cases h with
      | shieldOnSummon hn => exact ⟨hn, rfl⟩
  | resistance stun exposed attackDown =>
    simp only [specialFindings, List.mem_append, mem_whenever, List.any_eq_true, mem_take_iff,
      mem_chanceFindings_iff]
    constructor
    · rintro (((⟨⟨s, ⟨j, hj, hs⟩, hres⟩, h⟩ | ⟨x, rfl, hx, rfl, rfl⟩) | ⟨x, rfl, hx, rfl, rfl⟩) |
        ⟨x, rfl, hx, rfl, rfl⟩)
      · cases h
        exact .secondResistance hj hs hres
      · exact .stun hx
      · exact .exposed hx
      · exact .attackDown hx
    · intro h
      cases h with
      | secondResistance hj hs hres => exact .inl (.inl (.inl ⟨⟨_, ⟨_, hj, hs⟩, hres⟩, rfl⟩))
      | stun hx => exact .inl (.inl (.inr ⟨_, rfl, hx, rfl, rfl⟩))
      | exposed hx => exact .inl (.inr ⟨_, rfl, hx, rfl, rfl⟩)
      | attackDown hx => exact .inr ⟨_, rfl, hx, rfl, rfl⟩

/-! ### Triggers -/

theorem mem_targetFindings_iff {event : Event} {a : Action} {part : ActionPart} :
    (part, problem) ∈ targetFindings event.isCombat a ↔
      ActionViolation event a part problem ∧ part = .target := by
  have hcombat : (!event.isCombat) = true ↔ event ∉ Event.combatPhases := by
    rw [Bool.not_eq_true', isCombat_eq_false_iff]
  unfold targetFindings
  constructor
  · intro h
    split at h
    · rename_i htarget
      obtain ⟨hevent, h⟩ := mem_whenever.1 h
      cases h
      exact ⟨.hitTarget htarget (hcombat.1 hevent), rfl⟩
    · rename_i htarget
      obtain ⟨hkind, h⟩ := mem_whenever.1 h
      cases h
      exact ⟨.leader htarget (bne_iff_ne.1 hkind), rfl⟩
    · cases h
  · rintro ⟨h, rfl⟩
    cases h with
    | hitTarget htarget hevent =>
      rw [htarget]
      exact mem_whenever.2 ⟨hcombat.2 hevent, rfl⟩
    | leader htarget hkind =>
      rw [htarget]
      exact mem_whenever.2 ⟨bne_iff_ne.2 hkind, rfl⟩

theorem mem_amountFindings_iff (event : Event) {a : Action} {part : ActionPart} :
    (part, problem) ∈ amountFindings a ↔
      ActionViolation event a part problem ∧ part ≠ .target := by
  constructor
  · intro h
    cases a with
    | gainShield target n | heal target n | gainShares n | drawCard n | applyStatus target status n =>
      obtain ⟨hn, h⟩ := mem_whenever.1 h
      cases h
      exact ⟨by constructor; exact of_decide_eq_true hn, by simp⟩
    | modifyAttack target n =>
      obtain ⟨hn, h⟩ := mem_whenever.1 h
      cases h
      cases beq_iff_eq.1 hn
      exact ⟨.modifyAttack, by simp⟩
    | cleanse target statuses =>
      obtain ⟨hn, h⟩ := mem_whenever.1 h
      cases h
      cases beq_iff_eq.1 hn
      exact ⟨.cleanse, by simp⟩
  · rintro ⟨h, hpart⟩
    cases h with
    | hitTarget | leader => exact absurd rfl hpart
    | modifyAttack | cleanse => exact mem_whenever.2 ⟨rfl, rfl⟩
    | gainShield hn | heal hn | gainShares hn | drawCard hn | applyStatus hn =>
      exact mem_whenever.2 ⟨decide_eq_true hn, rfl⟩

theorem mem_actionFindings_iff {event : Event} {a : Action} {part : ActionPart} :
    (part, problem) ∈ actionFindings event.isCombat a ↔ ActionViolation event a part problem := by
  rw [actionFindings, List.mem_append, mem_targetFindings_iff, mem_amountFindings_iff event,
    ← and_or_left]
  exact and_iff_left (eq_or_ne part .target)

theorem mem_triggerFindings_iff {t : Trigger} {part : TriggerPart} :
    (part, problem) ∈ triggerFindings t ↔ TriggerViolation t part problem := by
  have hactions := @mem_elements_iff _ _ _ t.actions
    (fun p => actionFindings t.event.isCombat p.1) TriggerPart.action (part, problem)
  simp only [triggerFindings, List.mem_append, mem_whenever, hactions, List.isEmpty_iff,
    Bool.and_eq_true, Bool.not_eq_true', List.isEmpty_eq_false_iff, isCombat_eq_false_iff]
  constructor
  · rintro ((⟨hempty, h⟩ | ⟨⟨hcond, hevent⟩, h⟩) | ⟨j, a, part, ha, h, rfl⟩)
    · cases h
      exact .noAction hempty
    · cases h
      exact .conditions hcond hevent
    · exact .action ha (mem_actionFindings_iff.1 h)
  · intro h
    cases h with
    | noAction hempty => exact .inl (.inl ⟨hempty, rfl⟩)
    | conditions hcond hevent => exact .inl (.inr ⟨⟨hcond, hevent⟩, rfl⟩)
    | action ha h => exact .inr ⟨_, _, _, ha, mem_actionFindings_iff.2 h, rfl⟩

/-! ### Cards -/

theorem mem_specialsFindings_iff :
    (place, problem) ∈ specialsFindings c ↔
      Violation c place problem ∧ place.group = .specials := by
  refine (mem_elements_iff Place.special).trans ?_
  constructor
  · rintro ⟨i, s, part, hs, h, rfl⟩
    exact ⟨.special hs (mem_specialFindings_iff.1 h), rfl⟩
  · rintro ⟨h, hgroup⟩
    cases h with
    | special hs h => exact ⟨_, _, _, hs, mem_specialFindings_iff.2 h, rfl⟩
    | _ => cases hgroup

theorem mem_triggersFindings_iff :
    (place, problem) ∈ triggersFindings c ↔
      Violation c place problem ∧ place.group = .triggers := by
  have htriggers := @mem_elements_iff _ _ _ c.triggers (fun p => triggerFindings p.1)
    Place.trigger (place, problem)
  simp only [triggersFindings, List.mem_append, mem_whenever, htriggers, Bool.and_eq_true,
    Bool.not_eq_true', List.isEmpty_eq_false_iff]
  constructor
  · rintro (⟨⟨hunit, hne⟩, h⟩ | ⟨i, t, part, ht, h, rfl⟩)
    · cases h
      exact ⟨.triggers hunit hne, rfl⟩
    · exact ⟨.trigger ht (mem_triggerFindings_iff.1 h), rfl⟩
  · rintro ⟨h, hgroup⟩
    cases h with
    | triggers hunit hne => exact .inl ⟨⟨hunit, hne⟩, rfl⟩
    | trigger ht h => exact .inr ⟨_, _, _, ht, mem_triggerFindings_iff.2 h, rfl⟩
    | _ => cases hgroup

end Parts

/-- The findings on a card in a group of places. -/
def findingsIn (c : Card) : PlaceGroup → List (Place × Problem)
  | .identity => identityFindings c
  | .stats => statFindings c
  | .keywords => keywordFindings c
  | .specials => specialsFindings c
  | .triggers => triggersFindings c

theorem cardFindings_eq (c : Card) : cardFindings c = PlaceGroup.all.flatMap (findingsIn c) := by
  simp [cardFindings, PlaceGroup.all, findingsIn]

theorem mem_findingsIn_iff {c : Card} {group : PlaceGroup} {place : Place} {problem : Problem} :
    (place, problem) ∈ findingsIn c group ↔
      Violation c place problem ∧ place.group = group := by
  cases group with
  | identity => exact mem_identityFindings_iff
  | stats => exact mem_statFindings_iff
  | keywords => exact mem_keywordFindings_iff
  | specials => exact mem_specialsFindings_iff
  | triggers => exact mem_triggersFindings_iff

/-- **The findings on a card are the rules that it breaks.** -/
theorem mem_cardFindings_iff {c : Card} {place : Place} {problem : Problem} :
    (place, problem) ∈ cardFindings c ↔ Violation c place problem := by
  simp only [cardFindings_eq, List.mem_flatMap, mem_findingsIn_iff, PlaceGroup.mem_all, true_and,
    exists_and_left, exists_eq', and_true]

/-! ## Duplicates -/

/-- The indices of the cards with an id. -/
def indicesOf (cards : List Card) (id : String) : Set Nat :=
  {i | ∃ c, cards[i]? = some c ∧ c.id = id}

theorem isLeast_indicesOf_iff {cards : List Card} {id : String} {first : Nat} :
    IsLeast (indicesOf cards id) first ↔
      cards.findIdx? (fun c => c.id == id) = some first := by
  rw [List.findIdx?_eq_some_iff_getElem]
  simp only [beq_iff_eq]
  constructor
  · rintro ⟨⟨c, hc, hid⟩, hleast⟩
    obtain ⟨hlen, rfl⟩ := List.getElem?_eq_some_iff.1 hc
    refine ⟨hlen, hid, fun j hj hother => ?_⟩
    exact hj.not_ge (hleast ⟨_, List.getElem?_eq_getElem (hj.trans hlen), hother⟩)
  · rintro ⟨hlen, hid, hmin⟩
    refine ⟨⟨_, List.getElem?_eq_getElem hlen, hid⟩, ?_⟩
    rintro j ⟨c, hc, hother⟩
    obtain ⟨hj, rfl⟩ := List.getElem?_eq_some_iff.1 hc
    by_contra hlt
    exact hmin j (Nat.lt_of_not_ge hlt) hother

theorem exists_isLeast_indicesOf {cards : List Card} {c : Card} (h : c ∈ cards) :
    ∃ first, IsLeast (indicesOf cards c.id) first := by
  simp only [isLeast_indicesOf_iff, ← Option.isSome_iff_exists, List.findIdx?_isSome,
    List.any_eq_true]
  exact ⟨c, h, beq_self_eq_true c.id⟩

/-- **A card is reported as a duplicate in one issue**, which names the first card with its id, if
that is an earlier one. -/
theorem duplicateIssues_eq {cards : List Card} {c : Card} {first : Nat}
    (h : IsLeast (indicesOf cards c.id) first) (i : Nat) :
    duplicateIssues cards c i = if first < i then [⟨c.id, .id, .duplicateId first⟩] else [] := by
  simp only [duplicateIssues, isLeast_indicesOf_iff.1 h, whenever, decide_eq_true_eq]

end Validation

end CardDuel
