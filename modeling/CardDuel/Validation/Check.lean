import CardDuel.Card
import CardDuel.Text.Blank
import CardDuel.Validation.Issue

/-!
# Checking cards

`issues` lists everything that is wrong with a card list, so that a designer sees every broken card
at once: for each card in order whether its id was used before, then the issues of the card alone.
Within a card the order is that of its fields; within a special, trigger or action that of the
rules below.

Principal statements: `cardId_of_mem_cardIssues`, `cardId_of_mem_duplicateIssues` (every issue
names its card), `cardId_of_mem_issues` (and so names a card of the list).
-/

set_option autoImplicit false

namespace CardDuel.Validation

/-! ## Single rules -/

/-- A finding that is made when a rule is broken. -/
def whenever {α : Type} (broken : Bool) (finding : α) : List α :=
  if broken then [finding] else []

/-- The problems of an id and a name. -/
def identityFindings (c : Card) : List (Place × Problem) :=
  whenever (Text.blank c.id) (.id, .missingId) ++
    whenever (Text.blank c.name) (.name, .missingName)

/-- Health must be positive and attack must not be negative. -/
def statFindings (c : Card) : List (Place × Problem) :=
  match c.stats? with
  | none => []
  | some s =>
    whenever (s.health ≤ 0) (.health, .notPositive) ++ whenever (s.attack < 0) (.attack, .negative)

/-- A keyword is worth listing once. -/
def keywordFindings (c : Card) : List (Place × Problem) :=
  c.keywords.zipIdx.flatMap fun (k, i) =>
    whenever ((c.keywords.take i).contains k) (.keyword i, .duplicateKeyword k)

/-! ## Specials -/

/-- What is wrong with where a taunt stands: it needs a unit in the front lane. -/
def tauntProblem? (c : Card) : Option Problem :=
  match c.lane? with
  | none => some .tauntWithoutUnit
  | some .front => none
  | some lane => some (.tauntInLane lane)

/-- Whether a chance lies between 0 and 1, which nothing that is not a number does. -/
def inRange (chance : Float) : Bool := 0.0 ≤ chance && chance ≤ 1.0

/-- The problem of one chance of a resistance. -/
def chanceFindings (status : Status) (chance : Option Float) : List (SpecialPart × Problem) :=
  match chance with
  | none => []
  | some x => whenever (!inRange x) (.chance status, .chanceOutOfRange x)

/-- Whether a special is a resistance. -/
def isResistance (s : Special) : Bool := s.resistance?.isSome

/-- The problems of one special, given those before it. -/
def specialFindings (c : Card) (earlier : List Special) : Special → List (SpecialPart × Problem)
  | .taunt =>
    whenever (earlier.contains .taunt) (.whole, .secondTaunt) ++
      (tauntProblem? c).toList.map ((.whole, ·))
  | .shieldOnSummon amount => whenever (amount ≤ 0) (.amount, .notPositive)
  | .resistance stun exposed attackDown =>
    whenever (earlier.any isResistance) (.whole, .secondResistance) ++
      chanceFindings .stun stun ++ chanceFindings .exposed exposed ++
      chanceFindings .attackDown attackDown

/-- The problems of the specials of a card. -/
def specialsFindings (c : Card) : List (Place × Problem) :=
  c.specials.zipIdx.flatMap fun (s, i) =>
    (specialFindings c (c.specials.take i) s).map fun (part, problem) => (.special i part, problem)

/-! ## Triggers -/

/-- The hit target exists in a combat only, and only a heal reaches the leader. -/
def targetFindings (combat : Bool) (a : Action) : List (ActionPart × Problem) :=
  match a.target? with
  | some .hitTarget => whenever (!combat) (.target, .hitTargetOutsideCombat)
  | some .leader => whenever (a.kind != .heal) (.target, .leaderWithoutHeal a.kind)
  | _ => []

/-- The numbers of an action must mean something, and so must a list of statuses. -/
def amountFindings : Action → List (ActionPart × Problem)
  | .gainShield _ n | .heal _ n | .gainShares n | .drawCard n =>
    whenever (n ≤ 0) (.amount, .notPositive)
  | .modifyAttack _ n => whenever (n == 0) (.amount, .zero)
  | .applyStatus _ _ n => whenever (n ≤ 0) (.turns, .notPositive)
  | .cleanse _ statuses => whenever (statuses == some []) (.statuses, .emptyStatusList)

/-- The problems of one action. -/
def actionFindings (combat : Bool) (a : Action) : List (ActionPart × Problem) :=
  targetFindings combat a ++ amountFindings a

/-- The problems of one trigger. -/
def triggerFindings (t : Trigger) : List (TriggerPart × Problem) :=
  whenever t.actions.isEmpty (.actions, .noAction) ++
    whenever (!t.conditions.isEmpty && !t.event.isCombat)
      (.conditions, .conditionsOutsideCombat t.event) ++
    t.actions.zipIdx.flatMap fun (a, j) =>
      (actionFindings t.event.isCombat a).map fun (part, problem) => (.action j part, problem)

/-- The problems of the triggers of a card; on a card that is no unit they never fire. -/
def triggersFindings (c : Card) : List (Place × Problem) :=
  whenever (!c.isUnit && !c.triggers.isEmpty) (.triggers, .triggersNeverFire) ++
    c.triggers.zipIdx.flatMap fun (t, i) =>
      (triggerFindings t).map fun (part, problem) => (.trigger i part, problem)

/-! ## Cards -/

/-- The problems of a card on its own. -/
def cardFindings (c : Card) : List (Place × Problem) :=
  identityFindings c ++ statFindings c ++ keywordFindings c ++ specialsFindings c ++
    triggersFindings c

/-- The issues of a card on its own. -/
def cardIssues (c : Card) : List Issue :=
  (cardFindings c).map fun (place, problem) => ⟨c.id, place, problem⟩

/-- The issue of a card at an index whose id an earlier card has, which names the first of them. -/
def duplicateIssues (cards : List Card) (c : Card) (index : Nat) : List Issue :=
  match cards.findIdx? fun d => d.id == c.id with
  | some first => whenever (first < index) ⟨c.id, .id, .duplicateId first⟩
  | none => []

/-- The issues of a card list. -/
def issues (cards : List Card) : List Issue :=
  cards.zipIdx.flatMap fun (c, i) => duplicateIssues cards c i ++ cardIssues c

/-- The issues of a card list by severity. -/
structure Report where
  errors : List Issue
  warnings : List Issue
  deriving DecidableEq, Repr

/-- The report on a card list. -/
def report (cards : List Card) : Report :=
  { errors := (issues cards).filter (·.isError)
    warnings := (issues cards).filter (!·.isError) }

/-- Whether a report has no error. -/
def Report.valid (r : Report) : Bool := r.errors.isEmpty

/-! ## Laws -/

/-- Naming the place of a finding more exactly. -/
theorem map_whenever {α β : Type} (broken : Bool) (finding : α) (f : α → β) :
    (whenever broken finding).map f = whenever broken (f finding) := by
  cases broken <;> rfl

theorem severity_of_tauntProblem? {c : Card} {problem : Problem}
    (h : tauntProblem? c = some problem) : problem.severity = .error := by
  unfold tauntProblem? at h
  split at h <;> cases h <;> rfl

theorem cardId_of_mem_cardIssues {c : Card} {i : Issue} (h : i ∈ cardIssues c) :
    i.cardId = c.id := by
  simp only [cardIssues, List.mem_map] at h
  obtain ⟨_, _, rfl⟩ := h
  rfl

theorem cardId_of_mem_duplicateIssues {cards : List Card} {c : Card} {index : Nat} {i : Issue}
    (h : i ∈ duplicateIssues cards c index) : i.cardId = c.id := by
  unfold duplicateIssues whenever at h
  split at h
  · split at h
    · rw [List.mem_singleton.1 h]
    · cases h
  · cases h

theorem cardId_of_mem_issues {cards : List Card} {i : Issue} (h : i ∈ issues cards) :
    ∃ c ∈ cards, i.cardId = c.id := by
  obtain ⟨⟨c, index⟩, hc, hi⟩ := List.mem_flatMap.1 h
  refine ⟨c, (List.mem_zipIdx' hc).2 ▸ List.getElem_mem _, ?_⟩
  rcases List.mem_append.1 hi with hi | hi
  · exact cardId_of_mem_duplicateIssues hi
  · exact cardId_of_mem_cardIssues hi

end CardDuel.Validation
