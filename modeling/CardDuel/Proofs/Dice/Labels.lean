import CardDuel.Firing
import CardDuel.Sandbox.Host
import Mathlib.Data.List.Basic

/-!
# Labels of random requests

A label is made of words that colons part.  The label of a choice among allies starts with the id of
the card, which may be any text and have colons of its own; so it is read from its end, where the
rules have written words without a colon.  The label of a resistance roll is read from its start, up
to the number of the unit.

* `lastWord_inj` — the last word of a text, and what stands before it, can be read off the text.
* `Firing.allyLabel_eq_iff` — a choice is told by its label.
* `Sandbox.resistanceLabel_eq_iff` — so is a roll.
* `labels_unambiguous` — both, and neither has the label of the other.
-/

set_option autoImplicit false

namespace CardDuel

/-- What stands behind the last colon of a text can be read off it, and so can what comes before. -/
theorem lastWord_inj {xs ys word word' : List Char} (hword : ':' ∉ word) (hword' : ':' ∉ word')
    (h : xs ++ ':' :: word = ys ++ ':' :: word') : xs = ys ∧ word = word' := by
  rcases List.append_eq_append_iff.1 h with ⟨between, rfl, hrest⟩ | ⟨between, rfl, hrest⟩
  · cases between with
    | nil =>
      rw [List.nil_append, List.cons.injEq] at hrest
      exact ⟨(List.append_nil _).symm, hrest.2⟩
    | cons c between =>
      -- the later colon would stand inside the word behind the earlier one
      rw [List.cons_append, List.cons.injEq] at hrest
      refine absurd ?_ hword
      rw [hrest.2]
      exact List.mem_append_right _ List.mem_cons_self
  · cases between with
    | nil =>
      rw [List.nil_append, List.cons.injEq] at hrest
      exact ⟨List.append_nil _, hrest.2.symm⟩
    | cons c between =>
      rw [List.cons_append, List.cons.injEq] at hrest
      refine absurd ?_ hword'
      rw [hrest.2]
      exact List.mem_append_right _ List.mem_cons_self

/-! ## Choices -/

theorem Event.colon_notMem_spelling (e : Event) : ':' ∉ e.spelling.toList := by
  cases e <;> decide

theorem Event.spelling_injective : Function.Injective Event.spelling := by
  intro e e' h
  have hread := ofSpelling?_spelling e
  rw [h, ofSpelling?_spelling] at hread
  exact (Option.some.inj hread).symm

namespace Firing

/-- The word for the class of a choice: for a cleanse, for a shield, and none for any other. -/
def classWord : Option ActionKind → Option String
  | some .cleanse => some "cleanse"
  | some .gainShield => some "shield"
  | _ => none

/-- Choices are of one class if both are for a cleanse, both for a shield, or both for neither. -/
theorem classWord_eq_iff (kind kind' : Option ActionKind) :
    classWord kind = classWord kind' ↔
      (kind = some .cleanse ↔ kind' = some .cleanse) ∧
        (kind = some .gainShield ↔ kind' = some .gainShield) := by
  rcases kind with _ | kind <;> rcases kind' with _ | kind'
  · decide
  · cases kind' <;> decide
  · cases kind <;> decide
  · cases kind <;> cases kind' <;> decide

theorem mem_of_classWord {kind : Option ActionKind} {word : String}
    (h : classWord kind = some word) : word ∈ ["cleanse", "shield"] := by
  unfold classWord at h
  split at h <;> cases h <;> decide

theorem colon_notMem_classWord {kind : Option ActionKind} {word : String}
    (h : classWord kind = some word) : ':' ∉ word.toList := by
  have hwords : ∀ word ∈ ["cleanse", "shield"], ':' ∉ word.toList := by decide
  exact hwords word (mem_of_classWord h)

/-- No event has the name of a class. -/
theorem spelling_ne_classWord {kind : Option ActionKind} {word : String}
    (h : classWord kind = some word) (e : Event) : e.spelling ≠ word := by
  have hwords : ∀ word ∈ ["cleanse", "shield"], e.spelling ≠ word := by
    cases e <;> decide
  exact hwords word (mem_of_classWord h)

/-- The characters of a label without its last word. -/
def trunk (f : Firing) (kind : Option ActionKind) : List Char :=
  match classWord kind with
  | none => f.cardId.toList ++ ':' :: f.event.spelling.toList
  | some word => f.cardId.toList ++ ':' :: f.event.spelling.toList ++ ':' :: word.toList

theorem toList_allyLabel (f : Firing) (kind : Option ActionKind) :
    (f.allyLabel kind).toList = f.trunk kind ++ ":ally".toList := by
  unfold trunk classWord
  split <;> rename_i heq <;> split at heq <;> cases heq <;> simp_all [allyLabel, choiceClass]

theorem trunk_inj {f f' : Firing} {kind kind' : Option ActionKind}
    (h : f.trunk kind = f'.trunk kind') :
    f.cardId = f'.cardId ∧ f.event = f'.event ∧ classWord kind = classWord kind' := by
  have hevent := f.event.colon_notMem_spelling
  have hevent' := f'.event.colon_notMem_spelling
  unfold trunk at h
  cases hclass : classWord kind with
  | none =>
    cases hclass' : classWord kind' with
    | none =>
      simp only [hclass, hclass'] at h
      obtain ⟨hcard, hspelling⟩ := lastWord_inj hevent hevent' h
      exact ⟨String.toList_inj.1 hcard, Event.spelling_injective (String.toList_inj.1 hspelling),
        rfl⟩
    | some word' =>
      simp only [hclass, hclass'] at h
      obtain ⟨-, hspelling⟩ := lastWord_inj hevent (colon_notMem_classWord hclass') h
      exact absurd (String.toList_inj.1 hspelling) (spelling_ne_classWord hclass' f.event)
  | some word =>
    cases hclass' : classWord kind' with
    | none =>
      simp only [hclass, hclass'] at h
      obtain ⟨-, hspelling⟩ := lastWord_inj (colon_notMem_classWord hclass) hevent' h
      exact absurd (String.toList_inj.1 hspelling).symm (spelling_ne_classWord hclass f'.event)
    | some word' =>
      simp only [hclass, hclass'] at h
      obtain ⟨hbefore, hword⟩ :=
        lastWord_inj (colon_notMem_classWord hclass) (colon_notMem_classWord hclass') h
      obtain ⟨hcard, hspelling⟩ := lastWord_inj hevent hevent' hbefore
      exact ⟨String.toList_inj.1 hcard, Event.spelling_injective (String.toList_inj.1 hspelling),
        congrArg some (String.toList_inj.1 hword)⟩

/-- **A choice is told by its label**: the card, the event and the class of the choice. -/
theorem allyLabel_eq_iff (f f' : Firing) (kind kind' : Option ActionKind) :
    f.allyLabel kind = f'.allyLabel kind' ↔
      f.cardId = f'.cardId ∧ f.event = f'.event ∧ classWord kind = classWord kind' := by
  rw [← String.toList_inj, toList_allyLabel, toList_allyLabel, List.append_left_inj]
  constructor
  · exact trunk_inj
  · rintro ⟨hcard, hevent, hclass⟩
    rw [trunk, trunk, hcard, hevent, hclass]

theorem getLast?_allyLabel (f : Firing) (kind : Option ActionKind) :
    (f.allyLabel kind).toList.getLast? = some 'y' := by
  rw [toList_allyLabel, List.getLast?_append_of_ne_nil _ (by decide)]
  decide

end Firing

/-! ## Rolls -/

namespace Sandbox

/-- What stands before the number of the unit in the label of a roll. -/
def beginning (status : Status) : List Char := ("resist:" ++ status.spelling ++ ":").toList

theorem toList_resistanceLabel (id : UnitId) (status : Status) :
    (resistanceLabel id status).toList = beginning status ++ Nat.toDigits 10 id.raw.toNat := by
  rw [← Nat.toList_repr, beginning, ← String.toList_append]
  rfl

/-- No beginning is the start of another one. -/
theorem beginning_apart {s s' : Status} (h : beginning s <+: beginning s') : s = s' := by
  revert h
  cases s <;> cases s' <;> decide +kernel

/-- **A roll is told by its label**: the unit and the status. -/
theorem resistanceLabel_eq_iff (id id' : UnitId) (status status' : Status) :
    resistanceLabel id status = resistanceLabel id' status' ↔ id = id' ∧ status = status' := by
  constructor
  · intro h
    have hlist := congrArg String.toList h
    rw [toList_resistanceLabel, toList_resistanceLabel] at hlist
    have hstart := List.prefix_append (beginning status) (Nat.toDigits 10 id.raw.toNat)
    have hstart' : beginning status' <+: beginning status ++ Nat.toDigits 10 id.raw.toNat := by
      rw [hlist]
      exact List.prefix_append _ _
    have hstatus : status = status' := by
      rcases List.prefix_or_prefix_of_prefix hstart hstart' with hprefix | hprefix
      · exact beginning_apart hprefix
      · exact (beginning_apart hprefix).symm
    subst hstatus
    have hnumber : id.raw.toNat = id'.raw.toNat := by
      rw [← Nat.ofDigitChars_ten_toDigits (n := id.raw.toNat), List.append_cancel_left hlist,
        Nat.ofDigitChars_ten_toDigits]
    cases id
    cases id'
    exact ⟨congrArg UnitId.mk (UInt32.toNat_inj.1 hnumber), rfl⟩
  · rintro ⟨rfl, rfl⟩
    rfl

/-- The label of a roll ends in a digit. -/
theorem isDigit_of_getLast?_resistanceLabel {id : UnitId} {status : Status} {c : Char}
    (hc : (resistanceLabel id status).toList.getLast? = some c) : c.isDigit = true := by
  rw [toList_resistanceLabel, List.getLast?_append_of_ne_nil _ Nat.toDigits_ne_nil] at hc
  exact Nat.isDigit_of_mem_toDigits (by decide) (by decide) (List.mem_of_getLast? hc)

end Sandbox

/-- A choice has a label that ends in a letter, and so not that of a roll. -/
theorem allyLabel_ne_resistanceLabel (f : Firing) (kind : Option ActionKind) (id : UnitId)
    (status : Status) : f.allyLabel kind ≠ Sandbox.resistanceLabel id status := by
  intro h
  have hlast := f.getLast?_allyLabel kind
  rw [h] at hlast
  exact absurd (Sandbox.isDigit_of_getLast?_resistanceLabel hlast) (by decide)

/-- **The labels of random requests are unambiguous.**  Two choices among allies have one label
exactly if card, event and class of the choice are the same, whatever text the ids of the cards are;
two resistance rolls have one label exactly if unit and status are the same; and no choice has the
label of a roll. -/
theorem labels_unambiguous :
    (∀ (f f' : Firing) (kind kind' : Option ActionKind),
      f.allyLabel kind = f'.allyLabel kind' ↔
        f.cardId = f'.cardId ∧ f.event = f'.event ∧
          (kind = some .cleanse ↔ kind' = some .cleanse) ∧
          (kind = some .gainShield ↔ kind' = some .gainShield)) ∧
    (∀ (id id' : UnitId) (status status' : Status),
      Sandbox.resistanceLabel id status = Sandbox.resistanceLabel id' status' ↔
        id = id' ∧ status = status') ∧
    ∀ (f : Firing) (kind : Option ActionKind) (id : UnitId) (status : Status),
      f.allyLabel kind ≠ Sandbox.resistanceLabel id status := by
  refine ⟨?_, Sandbox.resistanceLabel_eq_iff, allyLabel_ne_resistanceLabel⟩
  intro f f' kind kind'
  rw [Firing.allyLabel_eq_iff, Firing.classWord_eq_iff]

end CardDuel
