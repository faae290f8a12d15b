import CardDuel.Proofs.Validation.Violations
import Mathlib.Data.List.Nodup

/-!
# Where issues are

What is reported about one card of a list: every violation once, at the place where it is.

* `Place.path_injective` — the text of a path tells the place, its indices included.
* `Place.InRange` — the indices of a place are those of elements of the card; `Violation.inRange`.
* `Distinct` — no two findings at one place have the same message; `distinct_cardFindings` puts this
  together from the groups of places.
* `reports_violations_once` — the issues of a card are its violations, each of them once.
-/

set_option autoImplicit false

namespace CardDuel

/-! ## Paths -/

/-- A number can be read off a text that goes on with something else than a digit. -/
theorem repr_append_inj {i j : Nat} {stop : Char} {rest rest' : List Char}
    (hstop : stop.isDigit = false)
    (h : i.repr.toList ++ stop :: rest = j.repr.toList ++ stop :: rest') : i = j ∧ rest = rest' := by
  have hdigits (n : Nat) (tail : List Char) :
      (n.repr.toList ++ stop :: tail).takeWhile Char.isDigit = Nat.toDigits 10 n := by
    rw [Nat.toList_repr, List.takeWhile_append_of_pos fun c hc =>
      Nat.isDigit_of_mem_toDigits (by decide) (by decide) hc,
      List.takeWhile_cons_of_neg (by simp [hstop]), List.append_nil]
  have hij : i = j := by
    rw [← Nat.ofDigitChars_ten_toDigits (n := i), ← hdigits i rest, h, hdigits,
      Nat.ofDigitChars_ten_toDigits]
  subst hij
  exact ⟨rfl, (List.cons.inj (List.append_cancel_left h)).2⟩

theorem toString_text (s : String) : toString s = s := rfl

theorem ActionPart.path_injective : Function.Injective ActionPart.path := by
  intro p q
  cases p <;> cases q <;> decide

theorem TriggerPart.path_injective : Function.Injective TriggerPart.path := by
  intro p q h
  replace h := congrArg String.toList h
  cases p <;> cases q
  case action.action j part j' part' =>
    have hindex : j.repr.toList ++ ']' :: ('.' :: part.path.toList) =
        j'.repr.toList ++ ']' :: ('.' :: part'.path.toList) := by
      simpa [TriggerPart.path, toString_text] using h
    obtain ⟨rfl, hrest⟩ := repr_append_inj (by decide) hindex
    rw [ActionPart.path_injective (String.toList_inj.1 (List.cons.inj hrest).2)]
  all_goals simp [TriggerPart.path, toString_text] at h ⊢

theorem SpecialPart.path_injective : Function.Injective SpecialPart.path := by
  rintro (_ | _ | ⟨_ | _ | _⟩) (_ | _ | ⟨_ | _ | _⟩) <;> decide

/-- **The text of a path tells the place.** -/
theorem Place.path_injective : Function.Injective Place.path := by
  intro p q h
  replace h := congrArg String.toList h
  cases p <;> cases q
  case keyword.keyword i i' =>
    have hindex : i.repr.toList ++ ']' :: [] = i'.repr.toList ++ ']' :: [] := by
      simpa [Place.path, toString_text] using h
    rw [(repr_append_inj (by decide) hindex).1]
  case special.special i part i' part' =>
    have hindex : i.repr.toList ++ ']' :: part.path.toList =
        i'.repr.toList ++ ']' :: part'.path.toList := by
      simpa [Place.path, toString_text] using h
    obtain ⟨rfl, hrest⟩ := repr_append_inj (by decide) hindex
    rw [SpecialPart.path_injective (String.toList_inj.1 hrest)]
  case trigger.trigger i part i' part' =>
    have hindex : i.repr.toList ++ ']' :: ('.' :: part.path.toList) =
        i'.repr.toList ++ ']' :: ('.' :: part'.path.toList) := by
      simpa [Place.path, toString_text] using h
    obtain ⟨rfl, hrest⟩ := repr_append_inj (by decide) hindex
    rw [TriggerPart.path_injective (String.toList_inj.1 (List.cons.inj hrest).2)]
  -- of different kinds, which the letters before the index tell
  all_goals simp [Place.path, toString_text] at h ⊢

/-- Where an issue is and what it says, as its line in a report shows it. -/
def Issue.shown (x : Issue) : String × String := (x.place.path, x.problem.message)

/-- The indices of a place are those of elements of the card. -/
def Place.InRange (c : Card) : Place → Prop
  | .keyword i => i < c.keywords.length
  | .special i _ => i < c.specials.length
  | .trigger i (.action j _) => ∃ hi : i < c.triggers.length, j < c.triggers[i].actions.length
  | .trigger i _ => i < c.triggers.length
  | .id | .name | .health | .attack | .triggers => True

namespace Validation

theorem Violation.inRange {c : Card} {place : Place} {problem : Problem}
    (h : Violation c place problem) : place.InRange c := by
  cases h with
  | id | name | health | attack | triggers => trivial
  | keyword hk => exact (List.getElem?_eq_some_iff.1 hk).1
  | special hs => exact (List.getElem?_eq_some_iff.1 hs).1
  | trigger ht h =>
    obtain ⟨hi, rfl⟩ := List.getElem?_eq_some_iff.1 ht
    cases h with
    | noAction | conditions => exact hi
    | action ha => exact ⟨hi, (List.getElem?_eq_some_iff.1 ha).1⟩

/-! ## Findings at one place -/

/-- No two findings at one place have the same message. -/
def Distinct {α : Type} (findings : List (α × Problem)) : Prop :=
  findings.Pairwise fun f g => f.1 = g.1 → f.2.message ≠ g.2.message

section Distinct

variable {α β γ : Type}

theorem pairwise_whenever (R : α → α → Prop) (broken : Bool) (finding : α) :
    (whenever broken finding).Pairwise R := by
  cases broken
  · exact .nil
  · exact List.pairwise_singleton _ _

theorem distinct_whenever (broken : Bool) (finding : α × Problem) :
    Distinct (whenever broken finding) := pairwise_whenever _ broken finding

theorem Distinct.append {l l' : List (α × Problem)} (h : Distinct l) (h' : Distinct l')
    (hplaces : ∀ f ∈ l, ∀ g ∈ l', f.1 = g.1 → f.2.message ≠ g.2.message) : Distinct (l ++ l') :=
  List.pairwise_append.2 ⟨h, h', hplaces⟩

theorem Distinct.map {l : List (α × Problem)} (h : Distinct l) {place : α → β}
    (hplace : Function.Injective place) :
    Distinct (l.map fun (part, problem) => (place part, problem)) :=
  List.pairwise_map.2 (h.imp fun hne heq => hne (hplace heq))

/-- Findings at distinct places are distinct. -/
theorem Distinct.append_of_ne {l l' : List (α × Problem)} (h : Distinct l) (h' : Distinct l')
    (hplaces : ∀ f ∈ l, ∀ g ∈ l', f.1 ≠ g.1) : Distinct (l ++ l') :=
  h.append h' fun f hf g hg heq => absurd heq (hplaces f hf g hg)

/-- A finding may stand before those at other places. -/
theorem Distinct.whenever_append {l : List (α × Problem)} (h : Distinct l) (broken : Bool)
    {finding : α × Problem} (hplaces : ∀ g ∈ l, finding.1 ≠ g.1) :
    Distinct (whenever broken finding ++ l) :=
  (distinct_whenever broken finding).append_of_ne h fun _ hf => (mem_whenever.1 hf).2 ▸ hplaces

/-- The findings on the elements of a list are distinct if those on each element are and a place
tells the index of its element. -/
theorem Distinct.flatMap_zipIdx {l : List γ} {g : γ × Nat → List (α × Problem)}
    (h : ∀ p, Distinct (g p))
    (hindex : ∀ p q, ∀ x ∈ g p, ∀ y ∈ g q, x.1 = y.1 → p.2 = q.2) :
    Distinct (l.zipIdx.flatMap g) := by
  have hindices : l.zipIdx.Pairwise fun p q => p.2 ≠ q.2 := by
    rw [← List.pairwise_map, ← List.nodup_iff_pairwise_ne, List.zipIdx_map_snd]
    exact List.nodup_range'
  refine List.pairwise_flatMap.2 ⟨fun p _ => h p, hindices.imp ?_⟩
  intro p q hne x hx y hy heq
  exact absurd (hindex p q x hx y hy heq) hne

/-- The same for elements with parts. -/
theorem Distinct.elements {l : List γ} {g : γ × Nat → List (β × Problem)} (place : Nat → β → α)
    (hplace : ∀ i j part part', place i part = place j part' → i = j ∧ part = part')
    (h : ∀ p, Distinct (g p)) :
    Distinct (l.zipIdx.flatMap fun p => (g p).map fun x => (place p.2 x.1, x.2)) := by
  refine .flatMap_zipIdx (fun p => (h p).map fun _ _ heq => (hplace _ _ _ _ heq).2) ?_
  intro p q x hx y hy heq
  obtain ⟨x, -, rfl⟩ := List.mem_map.1 hx
  obtain ⟨y, -, rfl⟩ := List.mem_map.1 hy
  exact (hplace _ _ _ _ heq).1

end Distinct

/-! ## The findings on a card -/

theorem distinct_identityFindings (c : Card) : Distinct (identityFindings c) := by
  refine (distinct_whenever _ _).whenever_append _ fun g hg => ?_
  rw [(mem_whenever.1 hg).2]
  simp

theorem distinct_statFindings (c : Card) : Distinct (statFindings c) := by
  unfold statFindings
  split
  · exact .nil
  · refine (distinct_whenever _ _).whenever_append _ fun g hg => ?_
    rw [(mem_whenever.1 hg).2]
    simp

theorem distinct_keywordFindings (c : Card) : Distinct (keywordFindings c) := by
  refine .flatMap_zipIdx (fun _ => distinct_whenever _ _) ?_
  intro p q x hx y hy heq
  rw [(mem_whenever.1 hx).2, (mem_whenever.1 hy).2] at heq
  exact Place.keyword.inj heq

theorem distinct_chanceFindings (status : Status) (chance : Option Float) :
    Distinct (chanceFindings status chance) := by
  unfold chanceFindings
  split
  · exact .nil
  · exact distinct_whenever _ _

theorem part_of_mem_chanceFindings {status : Status} {chance : Option Float}
    {f : SpecialPart × Problem} (h : f ∈ chanceFindings status chance) : f.1 = .chance status := by
  obtain ⟨x, -, -, hpart, -⟩ := mem_chanceFindings_iff.1 h
  exact hpart

theorem message_ne_of_tauntProblem? {c : Card} {problem : Problem}
    (h : tauntProblem? c = some problem) : Problem.secondTaunt.message ≠ problem.message := by
  unfold tauntProblem? at h
  split at h
  · cases h
    decide
  · cases h
  · rename_i lane _ _
    cases h
    cases lane <;> decide

/-- A taunt can have two problems as a whole, which read differently. -/
theorem distinct_specialFindings (c : Card) (earlier : List Special) (s : Special) :
    Distinct (specialFindings c earlier s) := by
  cases s with
  | taunt =>
    unfold specialFindings
    cases h : tauntProblem? c with
    | none =>
      rw [Option.toList_none, List.map_nil, List.append_nil]
      exact distinct_whenever _ _
    | some problem =>
      refine (distinct_whenever _ _).append (List.pairwise_singleton _ _) ?_
      intro f hf g hg _
      rw [(mem_whenever.1 hf).2, List.mem_singleton.1 hg]
      exact message_ne_of_tauntProblem? h
  | shieldOnSummon n => exact distinct_whenever _ _
  | resistance stun exposed attackDown =>
    have hchances : Distinct (chanceFindings .stun stun ++ (chanceFindings .exposed exposed ++
        chanceFindings .attackDown attackDown)) := by
      refine (distinct_chanceFindings _ _).append_of_ne
        ((distinct_chanceFindings _ _).append_of_ne (distinct_chanceFindings _ _) ?_) ?_
      · intro f hf g hg
        rw [part_of_mem_chanceFindings hf, part_of_mem_chanceFindings hg]
        simp
      · intro f hf g hg
        rw [part_of_mem_chanceFindings hf]
        rcases List.mem_append.1 hg with hg | hg
        all_goals
          rw [part_of_mem_chanceFindings hg]
          simp
    rw [specialFindings, List.append_assoc, List.append_assoc]
    refine hchances.whenever_append _ fun g hg => ?_
    simp only [List.mem_append] at hg
    rcases hg with hg | hg | hg
    all_goals
      rw [part_of_mem_chanceFindings hg]
      simp

theorem distinct_specialsFindings (c : Card) : Distinct (specialsFindings c) :=
  .elements Place.special (fun _ _ _ _ heq => Place.special.inj heq)
    fun p => distinct_specialFindings c (c.specials.take p.2) p.1

theorem distinct_actionFindings (event : Event) (a : Action) :
    Distinct (actionFindings event.isCombat a) := by
  have htarget : Distinct (targetFindings event.isCombat a) := by
    unfold targetFindings
    split
    · exact distinct_whenever _ _
    · exact distinct_whenever _ _
    · exact .nil
  have hamount : Distinct (amountFindings a) := by
    cases a <;> exact distinct_whenever _ _
  refine htarget.append_of_ne hamount fun f hf g hg heq => ?_
  exact ((mem_amountFindings_iff event).1 hg).2 (heq ▸ (mem_targetFindings_iff.1 hf).2)

theorem distinct_triggerFindings (t : Trigger) : Distinct (triggerFindings t) := by
  have hactions := Distinct.elements TriggerPart.action
    (fun _ _ _ _ heq => TriggerPart.action.inj heq) (l := t.actions)
    fun p => distinct_actionFindings t.event p.1
  rw [triggerFindings, List.append_assoc]
  refine (hactions.whenever_append _ fun g hg => ?_).whenever_append _ fun g hg => ?_
  · obtain ⟨j, a, part, -, -, hplace⟩ := (mem_elements_iff TriggerPart.action).1 hg
    simp [← hplace]
  · rcases List.mem_append.1 hg with hg | hg
    · rw [(mem_whenever.1 hg).2]
      simp
    · obtain ⟨j, a, part, -, -, hplace⟩ := (mem_elements_iff TriggerPart.action).1 hg
      simp [← hplace]

theorem distinct_triggersFindings (c : Card) : Distinct (triggersFindings c) := by
  have htriggers := Distinct.elements Place.trigger
    (fun _ _ _ _ heq => Place.trigger.inj heq) (l := c.triggers)
    fun p => distinct_triggerFindings p.1
  refine htriggers.whenever_append _ fun g hg => ?_
  obtain ⟨i, t, part, -, -, hplace⟩ := (mem_elements_iff Place.trigger).1 hg
  simp [← hplace]

/-- **No two findings on a card have one place and one message.** -/
theorem distinct_cardFindings (c : Card) : Distinct (cardFindings c) := by
  have hgroup (group : PlaceGroup) : Distinct (findingsIn c group) := by
    cases group with
    | identity => exact distinct_identityFindings c
    | stats => exact distinct_statFindings c
    | keywords => exact distinct_keywordFindings c
    | specials => exact distinct_specialsFindings c
    | triggers => exact distinct_triggersFindings c
  have hall : PlaceGroup.all.Pairwise (· ≠ ·) := by decide
  rw [cardFindings_eq]
  refine List.pairwise_flatMap.2 ⟨fun group _ => hgroup group, hall.imp ?_⟩
  intro group group' hne f hf g hg heq
  exact absurd ((mem_findingsIn_iff.1 hf).2.symm.trans
    ((congrArg Place.group heq).trans (mem_findingsIn_iff.1 hg).2)) hne

/-! ## The issues of a card -/

/-- What is reported about a card at an index of a list. -/
def issuesAt (cards : List Card) (c : Card) (i : Nat) : List Issue :=
  duplicateIssues cards c i ++ cardIssues c

/-- A rule that a card at an index of a list breaks, on its own or by an id that was used before. -/
inductive ViolationAt (cards : List Card) (c : Card) (i : Nat) : Place → Problem → Prop
  | own {place : Place} {problem : Problem} : Violation c place problem →
      ViolationAt cards c i place problem
  | duplicate {first : Nat} : IsLeast (indicesOf cards c.id) first → first < i →
      ViolationAt cards c i .id (.duplicateId first)

section IssuesAt

variable {cards : List Card} {c : Card} {i : Nat}

theorem mem_duplicateIssues_iff {x : Issue} :
    x ∈ duplicateIssues cards c i ↔
      ∃ first < i, IsLeast (indicesOf cards c.id) first ∧ x = ⟨c.id, .id, .duplicateId first⟩ := by
  unfold duplicateIssues
  simp only [isLeast_indicesOf_iff]
  split
  · rename_i first hfirst
    simp [hfirst]
  · rename_i hnone
    simp [hnone]

theorem mem_issuesAt_iff {place : Place} {problem : Problem} :
    ⟨c.id, place, problem⟩ ∈ issuesAt cards c i ↔ ViolationAt cards c i place problem := by
  rw [issuesAt, List.mem_append, mem_duplicateIssues_iff]
  constructor
  · rintro (⟨first, hlt, hfirst, h⟩ | h)
    · cases h
      exact .duplicate hfirst hlt
    · obtain ⟨f, hf, h⟩ := List.mem_map.1 h
      cases h
      exact .own (mem_cardFindings_iff.1 hf)
  · intro h
    cases h with
    | own h => exact .inr (List.mem_map.2 ⟨_, mem_cardFindings_iff.2 h, rfl⟩)
    | duplicate hfirst hlt => exact .inl ⟨_, hlt, hfirst, rfl⟩

theorem ViolationAt.inRange {place : Place} {problem : Problem}
    (h : ViolationAt cards c i place problem) : place.InRange c := by
  cases h with
  | own h => exact h.inRange
  | duplicate => trivial

/-- What an id can have wrong on its own reads differently from a duplicate. -/
theorem message_duplicateId_ne {problem : Problem} (h : Violation c .id problem) (first : Nat) :
    (Problem.duplicateId first).message ≠ problem.message := by
  cases h
  refine ne_of_apply_ne String.toList ?_
  show (s!"duplicate card id (first defined at index {first})").toList ≠
    "card id is required".toList
  simp [toString_text]

theorem nodup_shown_issuesAt : ((issuesAt cards c i).map (·.shown)).Nodup := by
  have hduplicates : (duplicateIssues cards c i).Pairwise fun x y => x.shown ≠ y.shown := by
    unfold duplicateIssues
    split
    · exact pairwise_whenever _ _ _
    · exact .nil
  have hown : (cardIssues c).Pairwise fun x y => x.shown ≠ y.shown := by
    refine List.pairwise_map.2 ((distinct_cardFindings c).imp fun hne heq => ?_)
    obtain ⟨hpath, hmessage⟩ := Prod.mk.inj heq
    exact hne (Place.path_injective hpath) hmessage
  rw [List.nodup_iff_pairwise_ne, List.pairwise_map, issuesAt, List.pairwise_append]
  refine ⟨hduplicates, hown, fun x hx y hy heq => ?_⟩
  obtain ⟨first, -, -, rfl⟩ := mem_duplicateIssues_iff.1 hx
  obtain ⟨⟨place, problem⟩, hf, rfl⟩ := List.mem_map.1 hy
  obtain ⟨hpath, hmessage⟩ := Prod.mk.inj heq
  cases Place.path_injective hpath
  exact message_duplicateId_ne (mem_cardFindings_iff.1 hf) first hmessage

theorem cardId_of_mem_issuesAt {x : Issue} (h : x ∈ issuesAt cards c i) : x.cardId = c.id := by
  rcases List.mem_append.1 h with h | h
  · exact cardId_of_mem_duplicateIssues h
  · exact cardId_of_mem_cardIssues h

end IssuesAt

/-- **Every violation is reported once, at the place where it is**: errors and warnings are those of
the cards in order, and those of one card differ in path or message, are its violations, and name
elements that the card has. -/
theorem reports_violations_once (cards : List Card) :
    (∀ v : Validator, ((Validator.validate cards).run v).1 =
      { errors := cards.zipIdx.flatMap fun (c, i) => (issuesAt cards c i).filter (·.isError)
        warnings := cards.zipIdx.flatMap fun (c, i) => (issuesAt cards c i).filter (!·.isError) }) ∧
      ∀ c i, cards[i]? = some c →
        ((issuesAt cards c i).map fun x => (x.place.path, x.problem.message)).Nodup ∧
        (∀ place problem, ⟨c.id, place, problem⟩ ∈ issuesAt cards c i ↔
          ViolationAt cards c i place problem) ∧
        ∀ x ∈ issuesAt cards c i, x.cardId = c.id ∧ x.place.InRange c ∧
          ∀ place : Place, place.path = x.place.path → place = x.place := by
  refine ⟨fun v => ?_, fun c i _ => ⟨nodup_shown_issuesAt, fun _ _ => mem_issuesAt_iff, ?_⟩⟩
  · rw [Validator.run_validate]
    simp only [report, issues, List.filter_flatMap, issuesAt]
  · intro x hx
    have hid := cardId_of_mem_issuesAt hx
    obtain ⟨cardId, place, problem⟩ := x
    cases hid
    exact ⟨rfl, (mem_issuesAt_iff.1 hx).inRange, fun _ h => Place.path_injective h⟩

/-- A card with a taunt that stands nowhere, twice. -/
def injunction : Card :=
  { id := "injunction", name := "Injunction", kind := .nonUnit, specials := [.taunt, .taunt],
    triggers := [{ event := .turnStart, actions := [.heal .hitTarget 0] }] }

/-- The second of two such cards has seven issues, two of them on its second taunt. -/
theorem reports_violations_once_injunction :
    [injunction, injunction][1]? = some injunction ∧
      ((issuesAt [injunction, injunction] injunction 1).map
        fun x => (x.place.path, x.problem.message)).Nodup ∧
      (issuesAt [injunction, injunction] injunction 1).length = 7 := by
  exact ⟨rfl, ((reports_violations_once [injunction, injunction]).2 injunction 1 rfl).1, by decide⟩

end Validation

end CardDuel
