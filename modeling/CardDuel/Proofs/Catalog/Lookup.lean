import CardDuel.Proofs.Validation.Violations
import Mathlib.Order.Bounds.Basic

/-!
# Looking up cards

What a catalog finds under an id, for every list that is accepted.

* `getElem?_positions_iff` — of cards with one id the index has the last.
* `getElem?_index_iff` — ids are distinct in a catalog, so its index has the position of every card.
* `get?_eq_find?` — a look-up through the index is a search in the list.
* `lookup_exact` — what a catalog made from a list finds, contains and lists.
-/

set_option autoImplicit false

namespace CardDuel.Catalog

open Validation

/-! ## The index of any list -/

theorem positions_append_singleton (cards : List Card) (card : Card) :
    positions (cards ++ [card]) = (positions cards).insert card.id cards.length := by
  simp only [positions, List.zipIdx_append, List.map_append, List.zipIdx_singleton, Nat.zero_add,
    List.map_singleton, Std.ExtTreeMap.ofList_eq_insertMany_empty, Std.ExtTreeMap.insertMany_append,
    Std.ExtTreeMap.insertMany_list_singleton]

theorem lt_length_of_mem_indicesOf {cards : List Card} {id : String} {i : Nat}
    (h : i ∈ indicesOf cards id) : i < cards.length := by
  obtain ⟨c, hc, -⟩ := h
  exact (List.getElem?_eq_some_iff.1 hc).1

theorem mem_indicesOf_append_singleton {cards : List Card} {card : Card} {id : String} {i : Nat} :
    i ∈ indicesOf (cards ++ [card]) id ↔
      i ∈ indicesOf cards id ∨ i = cards.length ∧ card.id = id := by
  constructor
  · rintro ⟨c, hc, hid⟩
    rcases Nat.lt_or_ge i cards.length with hlt | hge
    · exact .inl ⟨c, (List.getElem?_append_left hlt).symm.trans hc, hid⟩
    · rw [List.getElem?_append_right hge, List.getElem?_singleton] at hc
      split at hc
      · cases hc
        exact .inr ⟨by omega, hid⟩
      · cases hc
  · rintro (⟨c, hc, hid⟩ | ⟨rfl, hid⟩)
    · exact ⟨c, (List.getElem?_append_left (lt_length_of_mem_indicesOf ⟨c, hc, hid⟩)).trans hc, hid⟩
    · exact ⟨card, List.getElem?_concat_length, hid⟩

/-- **Of cards with one id the index has the last.** -/
theorem getElem?_positions_iff {cards : List Card} {id : String} {i : Nat} :
    (positions cards)[id]? = some i ↔ IsGreatest (indicesOf cards id) i := by
  induction cards using List.reverseRecOn with
  | nil => simp [positions, indicesOf, IsGreatest]
  | append_singleton cards card ih =>
    rw [positions_append_singleton, Std.ExtTreeMap.getElem?_insert]
    by_cases hid : card.id = id
    · have hlast : IsGreatest (indicesOf (cards ++ [card]) id) cards.length := by
        refine ⟨mem_indicesOf_append_singleton.2 (.inr ⟨rfl, hid⟩), fun j hj => ?_⟩
        rcases mem_indicesOf_append_singleton.1 hj with hj | ⟨rfl, -⟩
        · exact (lt_length_of_mem_indicesOf hj).le
        · exact le_rfl
      rw [if_pos (hid ▸ Std.ReflCmp.compare_self), Option.some_inj]
      exact ⟨fun heq => heq ▸ hlast, fun h => hlast.isGreatest_iff_eq.1 h⟩
    · have hsame : indicesOf (cards ++ [card]) id = indicesOf cards id := by
        ext j
        simp [mem_indicesOf_append_singleton, hid]
      rw [if_neg fun heq => hid (Std.LawfulEqOrd.eq_of_compare heq), ih, hsame]

/-! ## The index of a catalog -/

variable {c : Catalog} {id : String}

theorem ids_nodup (c : Catalog) : (c.cards.map (·.id)).Nodup :=
  ((errors_eq_nil_iff _).1 c.accepted).ids

/-- Ids are distinct, so there is no later card with an id. -/
theorem isGreatest_indicesOf_iff {i : Nat} :
    IsGreatest (indicesOf c.cards id) i ↔ i ∈ indicesOf c.cards id := by
  refine ⟨fun h => h.1, fun h => ⟨h, fun j hj => ?_⟩⟩
  have hid {k : Nat} (hk : k ∈ indicesOf c.cards id) : (c.cards.map (·.id))[k]? = some id := by
    obtain ⟨card, hcard, rfl⟩ := hk
    rw [List.getElem?_map, hcard, Option.map_some]
  have hlt : j < (c.cards.map (·.id)).length := (List.getElem?_eq_some_iff.1 (hid hj)).1
  exact ((List.getElem?_inj hlt c.ids_nodup).1 ((hid hj).trans (hid h).symm)).le

/-- **The index has exactly the positions of the cards.** -/
theorem getElem?_index_iff {i : Nat} :
    c.index[id]? = some i ↔ ∃ card, c.cards[i]? = some card ∧ card.id = id :=
  getElem?_positions_iff.trans isGreatest_indicesOf_iff

theorem get?_eq_none_iff : c.get? id = none ↔ ∀ card ∈ c.cards, card.id ≠ id := by
  simp only [Option.eq_none_iff_forall_ne_some, ne_eq, get?_eq_some_iff, not_and]

/-- **A look-up through the index is a search in the list.** -/
theorem get?_eq_find? : c.get? id = c.cards.find? fun card => card.id == id := by
  cases h : c.cards.find? fun card => card.id == id with
  | none =>
    refine get?_eq_none_iff.2 fun card hcard => ?_
    simpa using List.find?_eq_none.1 h card hcard
  | some card =>
    exact get?_eq_some_iff.2 ⟨List.mem_of_find?_eq_some h, by simpa using List.find?_some h⟩

theorem contains_iff : c.contains id = true ↔ ∃ card ∈ c.cards, card.id = id := by
  rw [contains, Std.ExtTreeMap.contains_eq_isSome_getElem?, Option.isSome_iff_exists]
  constructor
  · rintro ⟨i, hi⟩
    obtain ⟨card, hcard, hid⟩ := getElem?_index_iff.1 hi
    exact ⟨card, List.mem_of_getElem? hcard, hid⟩
  · rintro ⟨card, hcard, hid⟩
    obtain ⟨i, hi⟩ := List.getElem?_of_mem hcard
    exact ⟨i, getElem?_index_iff.2 ⟨card, hi, hid⟩⟩

/-- What is found is the one card with the id. -/
theorem get?_eq_some_iff_unique {card : Card} :
    c.get? id = some card ↔ ∃ before after, c.cards = before ++ card :: after ∧ card.id = id ∧
      ∀ other ∈ before ++ after, other.id ≠ id := by
  rw [get?_eq_some_iff]
  constructor
  · rintro ⟨hcard, rfl⟩
    obtain ⟨before, after, hsplit⟩ := List.append_of_mem hcard
    refine ⟨before, after, hsplit, rfl, fun other hother heq => ?_⟩
    have hids := c.ids_nodup
    rw [hsplit, List.map_append, List.map_cons, List.nodup_middle, List.nodup_cons,
      ← List.map_append] at hids
    exact hids.1 (List.mem_map.2 ⟨other, hother, heq⟩)
  · rintro ⟨before, after, hsplit, hid, -⟩
    exact ⟨by simp [hsplit], hid⟩

/-- **Look-up is exact.**  A catalog made from a list has the cards of the list in their order, and
its index stays within the list.  Under an id it finds the one card of the list with that id, or
nothing if there is none. -/
theorem lookup_exact {cards : List Card} (h : ofCards cards = .ok c) :
    c.cards = cards ∧ c.size = cards.length ∧
      (∀ id i, c.index[id]? = some i → ∃ hi : i < cards.length, c.get? id = some cards[i]) ∧
      (∀ id card, c.get? id = some card ↔
        ∃ before after, cards = before ++ card :: after ∧ card.id = id ∧
          ∀ other ∈ before ++ after, other.id ≠ id) ∧
      (∀ id, c.get? id = none ↔ ∀ card ∈ cards, card.id ≠ id) ∧
      (∀ id, c.contains id = true ↔ ∃ card, c.get? id = some card) ∧
      (∀ id card, c.getUnit? id = some card ↔ c.get? id = some card ∧ card.isUnit = true) ∧
      ∀ card ∈ c.cards, c.get? card.id = some card := by
  cases ofCards_eq_ok_iff.1 h
  refine ⟨rfl, rfl, fun id i hi => ?_, fun _ _ => get?_eq_some_iff_unique,
    fun _ => get?_eq_none_iff, fun id => ?_, fun _ _ => Option.filter_eq_some_iff,
    fun _ hcard => get?_eq_some_iff.2 ⟨hcard, rfl⟩⟩
  · obtain ⟨card, hcard, hid⟩ := getElem?_index_iff.1 hi
    obtain ⟨hlt, rfl⟩ := List.getElem?_eq_some_iff.1 hcard
    exact ⟨hlt, get?_eq_some_iff.2 ⟨List.getElem_mem hlt, hid⟩⟩
  · rw [contains_iff]
    exact exists_congr fun card => get?_eq_some_iff.symm

/-- A unit and a card that is played for its effect. -/
def notary : Card := { id := "notary", name := "Notary", kind := .unit .back ⟨1, 3⟩ }

def pardon : Card := { id := "pardon", name := "Pardon", kind := .nonUnit }

def chancery : Catalog := ⟨[notary, pardon], by decide⟩

theorem lookup_exact_chancery :
    ofCards [notary, pardon] = .ok chancery ∧ chancery.get? "pardon" = some pardon ∧
      chancery.get? "clerk" = none ∧ chancery.getUnit? "pardon" = none := by
  have hmade : ofCards [notary, pardon] = .ok chancery := ofCards_eq_ok_iff.2 rfl
  obtain ⟨-, -, -, hsome, hnone, -, hunit, -⟩ := lookup_exact hmade
  have hpardon : chancery.get? "pardon" = some pardon :=
    (hsome _ _).2 ⟨[notary], [], rfl, rfl, by decide⟩
  refine ⟨hmade, hpardon, (hnone _).2 (by decide), ?_⟩
  refine Option.eq_none_iff_forall_ne_some.2 fun card hcard => ?_
  obtain ⟨hget, hisUnit⟩ := (hunit _ _).1 hcard
  cases hpardon.symm.trans hget
  cases hisUnit

end CardDuel.Catalog
