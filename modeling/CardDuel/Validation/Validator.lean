import CardDuel.Validation.Check
import Std.Data.ExtTreeMap

/-!
# The validator

A validator goes through a card list once and keeps what it finds, errors apart from warnings.  It
counts the taunts and resistances of a card as it meets them, and it remembers where it first saw an
id.  It can be used for one list after the other.

Principal statement: `run_validate`, whatever a validator was used for before, it returns the report
on the list and is as good as new.  `Finds` says what a part of a run adds to the issues found so
far, and there is one `finds_` lemma for each part.
-/

set_option autoImplicit false

namespace CardDuel

/-- A validator with the issues of the run it is in. -/
structure Validator where
  errors : Array Issue := #[]
  warnings : Array Issue := #[]
  deriving DecidableEq, Repr

namespace Validator

open Validation

/-- A part of a run. -/
abbrev Pass := StateM Validator Unit

def addError (c : Card) (place : Place) (problem : Problem) : Pass :=
  modify fun v => { v with errors := v.errors.push ⟨c.id, place, problem⟩ }

def addWarning (c : Card) (place : Place) (problem : Problem) : Pass :=
  modify fun v => { v with warnings := v.warnings.push ⟨c.id, place, problem⟩ }

def errorIf (broken : Bool) (c : Card) (place : Place) (problem : Problem) : Pass :=
  if broken then addError c place problem else return

def warningIf (broken : Bool) (c : Card) (place : Place) (problem : Problem) : Pass :=
  if broken then addWarning c place problem else return

/-! ## Cards -/

def checkIdentity (c : Card) : Pass := do
  errorIf (Text.blank c.id) c .id .missingId
  errorIf (Text.blank c.name) c .name .missingName

def checkStats (c : Card) : Pass :=
  match c.stats? with
  | none => return
  | some s => do
    errorIf (s.health ≤ 0) c .health .notPositive
    errorIf (s.attack < 0) c .attack .negative

def checkKeyword (c : Card) (k : String) (i : Nat) : Pass :=
  warningIf ((c.keywords.take i).contains k) c (.keyword i) (.duplicateKeyword k)

/-- Checks where a taunt stands. -/
def checkTaunt (c : Card) (i : Nat) : Pass :=
  match tauntProblem? c with
  | none => return
  | some problem => addError c (.special i .whole) problem

/-- Checks one chance of a resistance. -/
def checkChance (c : Card) (i : Nat) (status : Status) (chance : Option Float) : Pass :=
  match chance with
  | none => return
  | some x => errorIf (!inRange x) c (.special i (.chance status)) (.chanceOutOfRange x)

/-- Checks a special, with the numbers of taunts and resistances before it. -/
def checkSpecial (c : Card) (taunts resistances i : Nat) : Special → Pass
  | .taunt => do
    errorIf (0 < taunts) c (.special i .whole) .secondTaunt
    checkTaunt c i
  | .shieldOnSummon amount => errorIf (amount ≤ 0) c (.special i .amount) .notPositive
  | .resistance stun exposed attackDown => do
    errorIf (0 < resistances) c (.special i .whole) .secondResistance
    checkChance c i .stun stun
    checkChance c i .exposed exposed
    checkChance c i .attackDown attackDown

/-- Checks the specials from an index on. -/
def checkSpecials (c : Card) (taunts resistances i : Nat) : List Special → Pass
  | [] => return
  | s :: specials => do
    checkSpecial c taunts resistances i s
    checkSpecials c (taunts + if s == .taunt then 1 else 0)
      (resistances + if isResistance s then 1 else 0) (i + 1) specials

def checkTarget (c : Card) (place : ActionPart → Place) (combat : Bool) (a : Action) : Pass :=
  match a.target? with
  | some .hitTarget => errorIf (!combat) c (place .target) .hitTargetOutsideCombat
  | some .leader => errorIf (a.kind != .heal) c (place .target) (.leaderWithoutHeal a.kind)
  | _ => return

def checkAmount (c : Card) (place : ActionPart → Place) : Action → Pass
  | .gainShield _ n | .heal _ n | .gainShares n | .drawCard n =>
    errorIf (n ≤ 0) c (place .amount) .notPositive
  | .modifyAttack _ n => errorIf (n == 0) c (place .amount) .zero
  | .applyStatus _ _ n => errorIf (n ≤ 0) c (place .turns) .notPositive
  | .cleanse _ statuses => warningIf (statuses == some []) c (place .statuses) .emptyStatusList

def checkAction (c : Card) (place : ActionPart → Place) (combat : Bool) (a : Action) : Pass := do
  checkTarget c place combat a
  checkAmount c place a

def checkTrigger (c : Card) (i : Nat) (t : Trigger) : Pass := do
  errorIf t.actions.isEmpty c (.trigger i .actions) .noAction
  errorIf (!t.conditions.isEmpty && !t.event.isCombat) c (.trigger i .conditions)
    (.conditionsOutsideCombat t.event)
  t.actions.zipIdx.forM fun (a, j) =>
    checkAction c (fun part => .trigger i (.action j part)) t.event.isCombat a

/-- Checks a card on its own. -/
def checkCard (c : Card) : Pass := do
  checkIdentity c
  checkStats c
  c.keywords.zipIdx.forM fun (k, i) => checkKeyword c k i
  checkSpecials c 0 0 0 c.specials
  warningIf (!c.isUnit && !c.triggers.isEmpty) c .triggers .triggersNeverFire
  c.triggers.zipIdx.forM fun (t, i) => checkTrigger c i t

/-! ## Card lists -/

/-- Where each id was seen first. -/
abbrev FirstSeen := Std.ExtTreeMap String Nat

/-- Reports the card at an index if its id was seen before, and else notes where it is. -/
def checkId (firstSeen : FirstSeen) (i : Nat) (c : Card) : StateM Validator FirstSeen :=
  match firstSeen[c.id]? with
  | some first => do
    addError c .id (.duplicateId first)
    return firstSeen
  | none => return firstSeen.insert c.id i

/-- Checks the cards from an index on. -/
def checkCards (firstSeen : FirstSeen) (i : Nat) : List Card → Pass
  | [] => return
  | c :: cards => do
    let firstSeen ← checkId firstSeen i c
    checkCard c
    checkCards firstSeen (i + 1) cards

/-- Checks a card list from a clean start, and hands out what was found. -/
def validate (cards : List Card) : StateM Validator Report := do
  set ({} : Validator)
  checkCards ∅ 0 cards
  let found ← get
  set ({} : Validator)
  return { errors := found.errors.toList, warnings := found.warnings.toList }

/-- The report of a new validator. -/
def check (cards : List Card) : Report := ((validate cards).run {}).1

/-! ## What a part of a run finds -/

/-- The validator after some more issues, errors and warnings each in order. -/
def record (v : Validator) (found : List Issue) : Validator where
  errors := v.errors ++ (found.filter (·.isError)).toArray
  warnings := v.warnings ++ (found.filter (!·.isError)).toArray

theorem record_nil (v : Validator) : v.record [] = v := by
  simp [record]

theorem record_append (v : Validator) (found found' : List Issue) :
    v.record (found ++ found') = (v.record found).record found' := by
  simp [record]

/-- The issues that a part of a run adds to those found so far. -/
def Finds (x : Pass) (found : List Issue) : Prop := ∀ v : Validator, (x.run v).2 = v.record found

/-- The issues of a card with some findings. -/
def issuesOf (c : Card) (findings : List (Place × Problem)) : List Issue :=
  findings.map fun (place, problem) => ⟨c.id, place, problem⟩

theorem issuesOf_append (c : Card) (fs gs : List (Place × Problem)) :
    issuesOf c (fs ++ gs) = issuesOf c fs ++ issuesOf c gs := List.map_append

theorem issuesOf_flatMap {α : Type} (c : Card) (l : List α) (g : α → List (Place × Problem)) :
    issuesOf c (l.flatMap g) = l.flatMap fun a => issuesOf c (g a) := List.map_flatMap

section Parts

variable {x y : Pass} {found found' : List Issue}

theorem finds_nothing : Finds (pure ()) [] := fun v => (record_nil v).symm

theorem Finds.append (hx : Finds x found) (hy : Finds y found') :
    Finds (x >>= fun _ => y) (found ++ found') := fun v => by
  rw [record_append, ← hx v]
  exact hy _

theorem Finds.forM {α : Type} {l : List α} {f : α → Pass} {g : α → List Issue}
    (h : ∀ a ∈ l, Finds (f a) (g a)) : Finds (l.forM f) (l.flatMap g) := by
  induction l with
  | nil => exact finds_nothing
  | cons a l ih =>
    obtain ⟨hhead, htail⟩ := List.forall_mem_cons.1 h
    exact hhead.append (ih htail)

variable (c : Card) (place : Place) {problem : Problem}

theorem finds_addError (h : problem.severity = .error) :
    Finds (addError c place problem) (issuesOf c [(place, problem)]) := fun v => by
  have herror : (⟨c.id, place, problem⟩ : Issue).isError = true := beq_iff_eq.2 h
  show { v with errors := v.errors.push ⟨c.id, place, problem⟩ } = _
  simp [record, issuesOf, herror]

theorem finds_addWarning (h : problem.severity = .warning) :
    Finds (addWarning c place problem) (issuesOf c [(place, problem)]) := fun v => by
  have hwarning : (⟨c.id, place, problem⟩ : Issue).isError = false := by
    rw [Issue.isError, Issue.severity, h]
    rfl
  show { v with warnings := v.warnings.push ⟨c.id, place, problem⟩ } = _
  simp [record, issuesOf, hwarning]

theorem finds_errorIf (broken : Bool) (h : problem.severity = .error) :
    Finds (errorIf broken c place problem) (issuesOf c (whenever broken (place, problem))) := by
  cases broken with
  | true => exact finds_addError c place h
  | false => exact finds_nothing

theorem finds_warningIf (broken : Bool) (h : problem.severity = .warning) :
    Finds (warningIf broken c place problem) (issuesOf c (whenever broken (place, problem))) := by
  cases broken with
  | true => exact finds_addWarning c place h
  | false => exact finds_nothing

end Parts

/-! ## The parts of a card -/

section Cards

variable (c : Card)

theorem finds_checkIdentity : Finds (checkIdentity c) (issuesOf c (identityFindings c)) := by
  rw [identityFindings, issuesOf_append]
  exact (finds_errorIf c _ _ rfl).append (finds_errorIf c _ _ rfl)

theorem finds_checkStats : Finds (checkStats c) (issuesOf c (statFindings c)) := by
  unfold checkStats statFindings
  cases c.stats? with
  | none => exact finds_nothing
  | some s =>
    rw [issuesOf_append]
    exact (finds_errorIf c _ _ rfl).append (finds_errorIf c _ _ rfl)

theorem finds_checkKeywords :
    Finds (c.keywords.zipIdx.forM fun (k, i) => checkKeyword c k i)
      (issuesOf c (keywordFindings c)) := by
  rw [keywordFindings, issuesOf_flatMap]
  exact .forM fun _ _ => finds_warningIf c _ _ rfl

theorem finds_checkTaunt (i : Nat) :
    Finds (checkTaunt c i)
      (issuesOf c ((tauntProblem? c).toList.map fun problem => (.special i .whole, problem))) := by
  unfold checkTaunt
  cases h : tauntProblem? c with
  | none => exact finds_nothing
  | some problem => exact finds_addError c _ (severity_of_tauntProblem? h)

theorem finds_checkChance (i : Nat) (status : Status) (chance : Option Float) :
    Finds (checkChance c i status chance)
      (issuesOf c ((chanceFindings status chance).map fun (part, problem) =>
        (.special i part, problem))) := by
  unfold checkChance chanceFindings
  cases chance with
  | none => exact finds_nothing
  | some x =>
    rw [map_whenever]
    exact finds_errorIf c _ _ rfl

/-- Counting tells whether there is an earlier one. -/
theorem decide_countP_pos {α : Type} (p : α → Bool) (l : List α) :
    decide (0 < l.countP p) = l.any p := by
  rw [Bool.eq_iff_iff, decide_eq_true_iff, List.countP_pos_iff, List.any_eq_true]

theorem finds_checkSpecial (earlier : List Special) (i : Nat) (s : Special) :
    Finds (checkSpecial c (earlier.countP (· == .taunt)) (earlier.countP isResistance) i s)
      (issuesOf c ((specialFindings c earlier s).map fun (part, problem) =>
        (.special i part, problem))) := by
  cases s with
  | taunt =>
    have hearlier : earlier.contains .taunt = earlier.any (· == .taunt) := by
      rw [List.contains_eq_any_beq]
      exact congrArg earlier.any (funext fun s => Bool.beq_comm)
    rw [specialFindings, hearlier, ← decide_countP_pos, List.map_append, List.map_map, map_whenever,
      issuesOf_append]
    exact (finds_errorIf c _ _ rfl).append (finds_checkTaunt c i)
  | shieldOnSummon amount =>
    rw [specialFindings, map_whenever]
    exact finds_errorIf c _ _ rfl
  | resistance stun exposed attackDown =>
    simp only [specialFindings, ← decide_countP_pos, List.map_append, map_whenever, issuesOf_append,
      List.append_assoc]
    exact (finds_errorIf c _ _ rfl).append ((finds_checkChance c i _ _).append
      ((finds_checkChance c i _ _).append (finds_checkChance c i _ _)))

/-- The specials of a card from the end of `earlier` on. -/
theorem finds_checkSpecials {earlier specials : List Special}
    (h : c.specials = earlier ++ specials) :
    Finds (checkSpecials c (earlier.countP (· == .taunt)) (earlier.countP isResistance)
        earlier.length specials)
      (issuesOf c ((specials.zipIdx earlier.length).flatMap fun (s, i) =>
        (specialFindings c (c.specials.take i) s).map fun (part, problem) =>
          (.special i part, problem))) := by
  induction specials generalizing earlier with
  | nil => exact finds_nothing
  | cons s specials ih =>
    have htake : c.specials.take earlier.length = earlier := by
      rw [h, List.take_left]
    have hsplit : c.specials = (earlier ++ [s]) ++ specials := by
      rw [h, List.append_assoc]
      rfl
    have hrest := ih hsplit
    simp only [List.countP_append, List.countP_singleton, List.length_append, List.length_singleton]
      at hrest
    rw [List.zipIdx_cons, List.flatMap_cons, issuesOf_append]
    refine Finds.append ?_ hrest
    show Finds _ (issuesOf c ((specialFindings c (c.specials.take earlier.length) s).map _))
    rw [htake]
    exact finds_checkSpecial c earlier earlier.length s

theorem finds_checkTarget (place : ActionPart → Place) (combat : Bool) (a : Action) :
    Finds (checkTarget c place combat a) (issuesOf c ((targetFindings combat a).map
      fun (part, problem) => (place part, problem))) := by
  unfold checkTarget targetFindings
  cases a.target? with
  | none => exact finds_nothing
  | some target =>
    cases target with
    | hitTarget | leader =>
      rw [map_whenever]
      exact finds_errorIf c _ _ rfl
    | self | ally => exact finds_nothing

theorem finds_checkAmount (place : ActionPart → Place) (a : Action) :
    Finds (checkAmount c place a) (issuesOf c ((amountFindings a).map
      fun (part, problem) => (place part, problem))) := by
  cases a with
  | cleanse =>
    rw [amountFindings, map_whenever]
    exact finds_warningIf c _ _ rfl
  | _ =>
    rw [amountFindings, map_whenever]
    exact finds_errorIf c _ _ rfl

theorem finds_checkAction (place : ActionPart → Place) (combat : Bool) (a : Action) :
    Finds (checkAction c place combat a) (issuesOf c ((actionFindings combat a).map
      fun (part, problem) => (place part, problem))) := by
  rw [actionFindings, List.map_append, issuesOf_append]
  exact (finds_checkTarget c place combat a).append (finds_checkAmount c place a)

theorem finds_checkTrigger (i : Nat) (t : Trigger) :
    Finds (checkTrigger c i t) (issuesOf c ((triggerFindings t).map
      fun (part, problem) => (.trigger i part, problem))) := by
  rw [triggerFindings, List.map_append, List.map_append, map_whenever, map_whenever,
    List.map_flatMap, issuesOf_append, issuesOf_append, issuesOf_flatMap, List.append_assoc]
  refine (finds_errorIf c _ _ rfl).append ((finds_errorIf c _ _ rfl).append (.forM ?_))
  rintro ⟨a, j⟩ -
  rw [List.map_map]
  exact finds_checkAction c (fun part => .trigger i (.action j part)) t.event.isCombat a

/-- **What a card is found to have wrong on its own.** -/
theorem finds_checkCard : Finds (checkCard c) (cardIssues c) := by
  have hspecials := finds_checkSpecials c (List.nil_append c.specials).symm
  have htriggers : Finds (c.triggers.zipIdx.forM fun (t, i) => checkTrigger c i t)
      (issuesOf c (c.triggers.zipIdx.flatMap fun (t, i) =>
        (triggerFindings t).map fun (part, problem) => (.trigger i part, problem))) := by
    rw [issuesOf_flatMap]
    exact .forM fun p _ => finds_checkTrigger c p.2 p.1
  show Finds (checkCard c) (issuesOf c (cardFindings c))
  simp only [cardFindings, triggersFindings, issuesOf_append, List.append_assoc]
  exact (finds_checkIdentity c).append ((finds_checkStats c).append ((finds_checkKeywords c).append
    (hspecials.append ((finds_warningIf c _ _ rfl).append htriggers))))

end Cards

/-! ## Card lists -/

/-- The card at an index is a duplicate if an earlier card has its id. -/
theorem duplicateIssues_append_cons (earlier : List Card) (c : Card) (cards : List Card) :
    duplicateIssues (earlier ++ c :: cards) c earlier.length =
      match earlier.findIdx? fun d => d.id == c.id with
      | some first => [⟨c.id, .id, .duplicateId first⟩]
      | none => [] := by
  have hself : (c :: cards).findIdx? (fun d => d.id == c.id) = some 0 := by
    simp [List.findIdx?_cons]
  rw [duplicateIssues, List.findIdx?_append, hself]
  cases hfirst : earlier.findIdx? fun d => d.id == c.id with
  | none => simp [whenever]
  | some first =>
    obtain ⟨hlt, -⟩ := List.findIdx?_eq_some_iff_getElem.1 hfirst
    simp [whenever, hlt]

/-- The ids of the cards were noted, each where it is first. -/
def FirstSeen.Notes (firstSeen : FirstSeen) (cards : List Card) : Prop :=
  ∀ id, firstSeen[id]? = cards.findIdx? fun d => d.id == id

theorem run_checkId {firstSeen : FirstSeen} {earlier : List Card} (h : firstSeen.Notes earlier)
    (c : Card) (cards : List Card) (v : Validator) :
    ∃ next : FirstSeen, next.Notes (earlier ++ [c]) ∧
      (checkId firstSeen earlier.length c).run v =
        (next, v.record (duplicateIssues (earlier ++ c :: cards) c earlier.length)) := by
  rw [duplicateIssues_append_cons, checkId, h c.id]
  have hnotes (id : String) : (earlier ++ [c]).findIdx? (fun d => d.id == id) =
      (firstSeen[id]?).or (if c.id = id then some earlier.length else none) := by
    rw [h id, List.findIdx?_append]
    by_cases hid : c.id = id <;> simp [List.findIdx?_cons, hid]
  cases hfirst : earlier.findIdx? fun d => d.id == c.id with
  | some first =>
    refine ⟨firstSeen, fun id => ?_, congrArg (Prod.mk firstSeen) (finds_addError c _ rfl v)⟩
    rw [hnotes]
    by_cases hid : c.id = id
    · rw [← hid, h c.id, hfirst]
      rfl
    · rw [if_neg hid, Option.or_none]
  | none =>
    refine ⟨firstSeen.insert c.id earlier.length, fun id => ?_,
      congrArg (Prod.mk _) (finds_nothing v)⟩
    rw [hnotes, Std.ExtTreeMap.getElem?_insert]
    by_cases hid : c.id = id
    · rw [if_pos (hid ▸ Std.ReflCmp.compare_self), if_pos hid, ← hid, h c.id, hfirst]
      rfl
    · rw [if_neg fun heq => hid (Std.LawfulEqOrd.eq_of_compare heq), if_neg hid, Option.or_none]

/-- The cards from the end of `earlier` on. -/
theorem finds_checkCards {firstSeen : FirstSeen} {all earlier cards : List Card}
    (hall : all = earlier ++ cards) (h : firstSeen.Notes earlier) :
    Finds (checkCards firstSeen earlier.length cards)
      ((cards.zipIdx earlier.length).flatMap fun (c, i) =>
        duplicateIssues all c i ++ cardIssues c) := by
  induction cards generalizing firstSeen earlier with
  | nil => exact finds_nothing
  | cons c cards ih =>
    intro v
    obtain ⟨next, hnext, hrun⟩ := run_checkId h c cards v
    have hsplit : all = (earlier ++ [c]) ++ cards := by
      rw [hall, List.append_assoc]
      rfl
    have hrest := ih hsplit hnext
    rw [List.length_append] at hrest
    have hcard := (finds_checkCard c).append hrest (v.record (duplicateIssues all c earlier.length))
    rw [← hall] at hrun
    rw [checkCards, StateT.run_bind, hrun, List.zipIdx_cons, List.flatMap_cons, List.append_assoc,
      record_append]
    exact hcard

/-- **A run returns the report on the list and leaves nothing behind.** -/
theorem run_validate (cards : List Card) (v : Validator) :
    (validate cards).run v = (report cards, {}) := by
  have hnone : FirstSeen.Notes ∅ [] := fun _ => Std.ExtTreeMap.getElem?_empty
  have hfound := finds_checkCards (List.nil_append cards).symm hnone {}
  have hreport : report cards = ⟨(record {} (issues cards)).errors.toList,
      (record {} (issues cards)).warnings.toList⟩ := by
    simp [record, report]
  rw [hreport, issues, ← List.length_nil (α := Card), ← hfound]
  rfl

theorem check_eq_report (cards : List Card) : check cards = report cards := by
  rw [check, run_validate]

end Validator

end CardDuel
