import CardDuel.Validation.Validator
import Std.Data.ExtTreeMap

/-!
# Catalogs

A catalog is a card list without errors.  It is made once, by `Catalog.ofCards`, and then only
read, so whoever holds a catalog holds cards that keep every rule.

A card is looked up through an index from ids to positions in the list.  Every position in the index
is one of the list (`lt_length_of_index`), so a look-up needs no default.

Principal statements: `ofCards_eq_ok_iff` (a card list becomes a catalog exactly when it has no
error), `get?_eq_some` (what is looked up is a card of the catalog under that id).
-/

set_option autoImplicit false

namespace CardDuel

/-- A card list without errors. -/
structure Catalog where
  cards : List Card
  accepted : (Validation.report cards).errors = []

namespace Catalog

/-- The catalog of a card list, or every error that is found in it. -/
def ofCards (cards : List Card) : Except (List Issue) Catalog :=
  if h : (Validator.check cards).errors = [] then
    .ok ⟨cards, Validator.check_eq_report cards ▸ h⟩
  else .error (Validator.check cards).errors

/-- What was reported and tolerated. -/
def warnings (c : Catalog) : List Issue := (Validator.check c.cards).warnings

/-- The text that lists why a card list is rejected. -/
def rejection (errors : List Issue) : String :=
  s!"card catalog failed validation with {errors.length} issue(s):\n" ++
    "\n".intercalate (errors.map Issue.text)

/-! ## Looking up -/

/-- The id of every card with its position; of cards with one id the last counts. -/
def positions (cards : List Card) : Std.ExtTreeMap String Nat :=
  .ofList (cards.zipIdx.map fun (card, i) => (card.id, i))

/-- An entry of a map that was made from a list is on the list. -/
theorem mem_of_getElem?_insertMany {entries : List (String × Nat)} {m : Std.ExtTreeMap String Nat}
    {id : String} {i : Nat} (h : (m.insertMany entries)[id]? = some i) :
    (id, i) ∈ entries ∨ m[id]? = some i := by
  induction entries generalizing m with
  | nil => exact .inr (by simpa using h)
  | cons entry entries ih =>
    rw [Std.ExtTreeMap.insertMany_cons] at h
    rcases ih h with hmem | hold
    · exact .inl (List.mem_cons_of_mem _ hmem)
    · rw [Std.ExtTreeMap.getElem?_insert] at hold
      split at hold
      · rename_i hid
        cases hold
        cases Std.LawfulEqOrd.eq_of_compare hid
        exact .inl List.mem_cons_self
      · exact .inr hold

/-- What stands under an id is the position of a card with that id. -/
theorem getElem?_of_positions {cards : List Card} {id : String} {i : Nat}
    (h : (positions cards)[id]? = some i) : ∃ card, cards[i]? = some card ∧ card.id = id := by
  rw [positions, Std.ExtTreeMap.ofList_eq_insertMany_empty] at h
  rcases mem_of_getElem?_insertMany h with hmem | hempty
  · obtain ⟨⟨card, j⟩, hcard, hentry⟩ := List.mem_map.1 hmem
    cases hentry
    exact ⟨card, List.mem_zipIdx_iff_getElem?.1 hcard, rfl⟩
  · simp at hempty

/-- Where the cards stand, by id. -/
def index (c : Catalog) : Std.ExtTreeMap String Nat := positions c.cards

/-- **The index stays within the list.** -/
theorem lt_length_of_index {c : Catalog} {id : String} {i : Nat} (h : c.index[id]? = some i) :
    i < c.cards.length := by
  obtain ⟨card, hcard, -⟩ := getElem?_of_positions h
  exact (List.getElem?_eq_some_iff.1 hcard).1

/-- The card with an id. -/
def get? (c : Catalog) (id : String) : Option Card :=
  c.index[id]?.pmap (fun i h => c.cards.get ⟨i, h⟩) fun _ h => lt_length_of_index h

/-- The unit card with an id. -/
def getUnit? (c : Catalog) (id : String) : Option Card := (c.get? id).filter (·.isUnit)

/-- Whether a card has an id. -/
def contains (c : Catalog) (id : String) : Bool := c.index.contains id

/-- The number of cards. -/
def size (c : Catalog) : Nat := c.cards.length

/-- Whether there is no card. -/
def isEmpty (c : Catalog) : Bool := c.cards.isEmpty

theorem ofCards_eq_ok_iff {cards : List Card} {c : Catalog} :
    ofCards cards = .ok c ↔ c.cards = cards := by
  unfold ofCards
  constructor
  · intro h
    split at h
    · cases h; rfl
    · cases h
  · rintro rfl
    rw [dif_pos (Validator.check_eq_report c.cards ▸ c.accepted)]

theorem get?_eq_some {c : Catalog} {id : String} {card : Card} (h : c.get? id = some card) :
    card ∈ c.cards ∧ card.id = id := by
  obtain ⟨i, hi, hindex, rfl⟩ := Option.pmap_eq_some_iff.1 h
  obtain ⟨found, hfound, hid⟩ := getElem?_of_positions hindex
  cases (List.getElem?_eq_getElem hi).symm.trans hfound
  exact ⟨List.get_mem c.cards ⟨i, hi⟩, hid⟩

theorem mem_of_getUnit? {c : Catalog} {id : String} {card : Card}
    (h : c.getUnit? id = some card) : card ∈ c.cards ∧ card.id = id :=
  get?_eq_some (Option.filter_eq_some_iff.1 h).1

theorem isUnit_of_getUnit? {c : Catalog} {id : String} {card : Card}
    (h : c.getUnit? id = some card) : card.isUnit = true := by
  unfold getUnit? at h
  exact (Option.filter_eq_some_iff.1 h).2

end Catalog

end CardDuel
