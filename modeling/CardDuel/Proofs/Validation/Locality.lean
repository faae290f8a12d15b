import CardDuel.Proofs.Validation.Violations
import Mathlib.Data.Finset.Card

/-!
# Reports are local

The report on a card list is put together from the reports on its cards, each on its own, and an
error for every card whose id was used before.

* `issues_append` — what is reported about the first cards of a list does not depend on the cards
  after them.
* `issues_append_of_fresh` — cards with new ids are reported as if they were a list of their own.
* `duplicates_add_distinct` — one error for every card beyond the first with its id.
* `validate_local` — whatever a validator was used for before.
-/

set_option autoImplicit false

namespace CardDuel

/-- Whether the issue is an id that was used before. -/
def Issue.isDuplicate (x : Issue) : Bool :=
  match x.problem with
  | .duplicateId _ => true
  | _ => false

namespace Validation

theorem severity_of_isError_eq_false {x : Issue} (h : x.isError = false) :
    x.severity = .warning := by
  unfold Issue.isError at h
  cases hsev : x.severity with
  | error =>
    rw [hsev] at h
    cases h
  | warning => rfl

/-! ## Cards on their own -/

theorem isDuplicate_of_mem_cardIssues {c : Card} {x : Issue} (h : x ∈ cardIssues c) :
    x.isDuplicate = false := by
  obtain ⟨⟨place, problem⟩, hf, rfl⟩ := List.mem_map.1 h
  cases mem_cardFindings_iff.1 hf with
  | special hs h => cases h <;> rfl
  | trigger ht h =>
    cases h with
    | action ha h => cases h <;> rfl
    | _ => rfl
  | _ => rfl

/-- A card is no duplicate of itself. -/
theorem duplicateIssues_zero (cards : List Card) (c : Card) : duplicateIssues cards c 0 = [] := by
  unfold duplicateIssues
  split <;> rfl

theorem report_singleton (c : Card) :
    report [c] = { errors := (cardIssues c).filter (·.isError)
                   warnings := (cardIssues c).filter (!·.isError) } := by
  simp [report, issues, duplicateIssues_zero]

/-! ## Cards one by one -/

theorem filter_duplicateIssues (cards : List Card) (c : Card) (i : Nat) :
    (duplicateIssues cards c i).filter (·.isError) = duplicateIssues cards c i :=
  List.filter_eq_self.2 fun _ => isError_of_mem_duplicateIssues

theorem filter_not_duplicateIssues (cards : List Card) (c : Card) (i : Nat) :
    (duplicateIssues cards c i).filter (!·.isError) = [] := by
  refine List.filter_eq_nil_iff.2 fun x hx => ?_
  simp [isError_of_mem_duplicateIssues hx]

theorem report_errors (cards : List Card) :
    (report cards).errors = cards.zipIdx.flatMap fun (c, i) =>
      duplicateIssues cards c i ++ (report [c]).errors := by
  simp only [report_singleton]
  simp only [report, issues, List.filter_flatMap, List.filter_append, filter_duplicateIssues]

theorem report_warnings (cards : List Card) :
    (report cards).warnings = cards.flatMap fun c => (report [c]).warnings := by
  simp only [report_singleton]
  simp only [report, issues, List.filter_flatMap, List.filter_append, filter_not_duplicateIssues,
    List.nil_append]
  conv_rhs => rw [← List.zipIdx_map_fst 0 cards, List.flatMap_map]

/-! ## Lists one after the other -/

theorem duplicateIssues_append {xs : List Card} {c : Card} (h : c ∈ xs) (ys : List Card) (i : Nat) :
    duplicateIssues (xs ++ ys) c i = duplicateIssues xs c i := by
  obtain ⟨first, hfirst⟩ := exists_isLeast_indicesOf h
  rw [duplicateIssues, duplicateIssues, List.findIdx?_append, isLeast_indicesOf_iff.1 hfirst,
    Option.some_or]

/-- **What is reported about the first cards does not depend on the cards after them.** -/
theorem issues_append (xs ys : List Card) :
    issues (xs ++ ys) = issues xs ++ (ys.zipIdx xs.length).flatMap fun (c, i) =>
      duplicateIssues (xs ++ ys) c i ++ cardIssues c := by
  have hfirst : (xs.zipIdx.flatMap fun (c, i) => duplicateIssues (xs ++ ys) c i ++ cardIssues c) =
      issues xs := by
    refine List.flatMap_congr fun ⟨c, i⟩ hp => ?_
    simp only [duplicateIssues_append (List.fst_mem_of_mem_zipIdx hp)]
  rw [issues, List.zipIdx_append, List.flatMap_append, Nat.zero_add, hfirst]

section Fresh

variable {xs ys : List Card} (hnodup : (ys.map (·.id)).Nodup)
  (hfresh : ∀ y ∈ ys, ∀ x ∈ xs, y.id ≠ x.id)

include hnodup hfresh

theorem duplicateIssues_of_fresh {c : Card} {i : Nat} (h : (c, i) ∈ ys.zipIdx xs.length) :
    duplicateIssues (xs ++ ys) c i = [] := by
  obtain ⟨hle, hlt, hc⟩ := List.mem_zipIdx h
  have hlen : i < (xs ++ ys).length := by
    rw [List.length_append]
    omega
  have hget : (xs ++ ys)[i] = ys[i - xs.length] := List.getElem_append_right hle
  rw [hc, ← hget, duplicateIssues_eq_nil_iff hlen, hget]
  intro j hj hji
  by_cases hxs : j < xs.length
  · rw [List.getElem_append_left hxs]
    exact (hfresh _ (List.getElem_mem _) _ (List.getElem_mem _)).symm
  · rw [List.getElem_append_right (by omega)]
    exact (nodup_ids_iff ys).1 hnodup _ _ _ _ (by omega)

theorem issues_append_eq_flatMap : issues (xs ++ ys) = issues xs ++ ys.flatMap cardIssues := by
  have hown : ((ys.zipIdx xs.length).flatMap fun (c, i) =>
      duplicateIssues (xs ++ ys) c i ++ cardIssues c) =
        (ys.zipIdx xs.length).flatMap fun p => cardIssues p.1 := by
    refine List.flatMap_congr fun ⟨c, i⟩ hp => ?_
    simp only [duplicateIssues_of_fresh hnodup hfresh hp, List.nil_append]
  rw [issues_append, hown, ← List.flatMap_map, List.zipIdx_map_fst]

/-- **Cards with new ids are reported as if they were a list of their own.** -/
theorem issues_append_of_fresh : issues (xs ++ ys) = issues xs ++ issues ys := by
  have hys : issues ys = ys.flatMap cardIssues :=
    @issues_append_eq_flatMap [] ys hnodup fun _ _ _ hx => absurd hx List.not_mem_nil
  rw [issues_append_eq_flatMap hnodup hfresh, hys]

end Fresh

/-! ## Counting -/

/-- The card at the end of a list is a duplicate if its id is among those before. -/
theorem countP_duplicateIssues (cards : List Card) (c : Card) :
    (duplicateIssues (cards ++ [c]) c cards.length).countP (·.isDuplicate) =
      if c.id ∈ cards.map (·.id) then 1 else 0 := by
  have hmem : c.id ∈ cards.map (·.id) ↔ (cards.findIdx? fun d => d.id == c.id).isSome = true := by
    simp [List.findIdx?_isSome]
  rw [Validator.duplicateIssues_append_cons]
  by_cases hid : c.id ∈ cards.map (·.id)
  · obtain ⟨first, hfirst⟩ := Option.isSome_iff_exists.1 (hmem.1 hid)
    rw [hfirst, if_pos hid]
    rfl
  · rw [Option.not_isSome_iff_eq_none.1 fun hsome => hid (hmem.2 hsome), if_neg hid]
    rfl

/-- **There is one duplicate for every card beyond those that are first with their id.** -/
theorem duplicates_add_distinct (cards : List Card) :
    (report cards).errors.countP (·.isDuplicate) + (cards.map (·.id)).toFinset.card =
      cards.length := by
  induction cards using List.reverseRecOn with
  | nil => rfl
  | append_singleton cards c ih =>
    have hown : ((cardIssues c).filter (·.isError)).countP (·.isDuplicate) = 0 := by
      refine List.countP_eq_zero.2 fun x hx => ?_
      simp [isDuplicate_of_mem_cardIssues (List.mem_of_mem_filter hx)]
    have herrors : (report (cards ++ [c])).errors.countP (·.isDuplicate) =
        (report cards).errors.countP (·.isDuplicate) + if c.id ∈ cards.map (·.id) then 1 else 0 := by
      simp only [report, issues_append, List.zipIdx_singleton, List.flatMap_singleton,
        List.filter_append, List.countP_append, filter_duplicateIssues, hown,
        countP_duplicateIssues, Nat.add_zero]
    have hids : ((cards ++ [c]).map (·.id)).toFinset =
        insert c.id (cards.map (·.id)).toFinset := by
      rw [List.map_append, List.toFinset_append, Finset.union_comm, Finset.insert_eq]
      rfl
    rw [herrors, hids, List.length_append, List.length_singleton, ← ih]
    by_cases hid : c.id ∈ cards.map (·.id)
    · rw [if_pos hid, Finset.insert_eq_of_mem (List.mem_toFinset.2 hid)]
      omega
    · rw [if_neg hid, Finset.card_insert_of_notMem (fun h => hid (List.mem_toFinset.1 h))]
      omega

/-! ## The validator -/

/-- **Reports are local, and a validator forgets what it was used for before.**  The report is that
on each card alone, in order, with one error before it for a card whose id was used before; so there
is such an error for every card beyond the number of ids, and cards with new ids are reported as if
they were a list of their own. -/
theorem validate_local (cards : List Card) :
    (∀ v : Validator, (Validator.validate cards).run v = (Validator.check cards, {})) ∧
      (Validator.check cards).errors = (cards.zipIdx.flatMap fun (c, i) =>
        duplicateIssues cards c i ++ (Validator.check [c]).errors) ∧
      (Validator.check cards).warnings = (cards.flatMap fun c => (Validator.check [c]).warnings) ∧
      (∀ c ∈ cards, ∃ first, IsLeast (indicesOf cards c.id) first ∧ ∀ i, duplicateIssues cards c i =
        if first < i then [⟨c.id, .id, .duplicateId first⟩] else []) ∧
      (Validator.check cards).errors.countP (·.isDuplicate) + (cards.map (·.id)).toFinset.card =
        cards.length ∧
      (∀ more : List Card, (more.map (·.id)).Nodup → (∀ y ∈ more, ∀ x ∈ cards, y.id ≠ x.id) →
        Validator.check (cards ++ more) =
          { errors := (Validator.check cards).errors ++ (Validator.check more).errors
            warnings := (Validator.check cards).warnings ++ (Validator.check more).warnings }) ∧
      (∀ x ∈ (Validator.check cards).errors, x.severity = .error) ∧
      (∀ x ∈ (Validator.check cards).warnings, x.severity = .warning) ∧
      ∀ c, ∀ x ∈ (Validator.check [c]).errors ++ (Validator.check [c]).warnings,
        x.cardId = c.id ∧ x.isDuplicate = false := by
  simp only [Validator.check_eq_report]
  refine ⟨fun v => Validator.run_validate cards v, report_errors cards, report_warnings cards, ?_,
    duplicates_add_distinct cards, ?_, ?_, ?_, ?_⟩
  · intro c hc
    obtain ⟨first, hfirst⟩ := exists_isLeast_indicesOf hc
    exact ⟨first, hfirst, duplicateIssues_eq hfirst⟩
  · intro more hnodup hfresh
    simp only [report, issues_append_of_fresh hnodup hfresh, List.filter_append]
  · intro x hx
    exact beq_iff_eq.1 (List.mem_filter.1 hx).2
  · intro x hx
    exact severity_of_isError_eq_false (by simpa using (List.mem_filter.1 hx).2)
  · intro c x hx
    rw [report_singleton, List.mem_append, List.mem_filter, List.mem_filter] at hx
    have hmem : x ∈ cardIssues c := hx.elim And.left And.left
    exact ⟨cardId_of_mem_cardIssues hmem, isDuplicate_of_mem_cardIssues hmem⟩

/-- A card that no catalog would take twice. -/
def affidavit : Card := { id := "affidavit", name := "Affidavit", kind := .nonUnit }

/-- A card that speaks out of turn. -/
def hearsay : Card :=
  { id := "hearsay", name := " ", kind := .nonUnit, keywords := ["loud", "loud"],
    triggers := [{ event := .summon, actions := [.heal .self 0] }] }

/-- A list with a duplicate, followed by a card that breaks rules of its own. -/
theorem validate_local_hearing :
    (([hearsay].map (·.id)).Nodup ∧ ∀ y ∈ [hearsay], ∀ x ∈ [affidavit, affidavit], y.id ≠ x.id) ∧
      Validator.check ([affidavit, affidavit] ++ [hearsay]) =
        { errors := (Validator.check [affidavit, affidavit]).errors ++
            (Validator.check [hearsay]).errors
          warnings := (Validator.check [affidavit, affidavit]).warnings ++
            (Validator.check [hearsay]).warnings } := by
  have hids : ([hearsay].map (·.id)).Nodup ∧
      ∀ y ∈ [hearsay], ∀ x ∈ [affidavit, affidavit], y.id ≠ x.id := by decide
  exact ⟨hids, (validate_local [affidavit, affidavit]).2.2.2.2.2.1 [hearsay] hids.1 hids.2⟩

end Validation

end CardDuel
