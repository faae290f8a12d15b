import CardDuel.Proofs.Validation.Schema
import CardDuel.Sandbox.Basic
import Mathlib

/-!
# Specials in any order

The validator counts the taunts and the resistances of a card while it goes through its specials,
and the first resistance is the one that counts.  An accepted card has at most one of each, so the
order of its specials says nothing.

* `eq_of_perm_of_length_le_one` — why uniqueness is enough.
* `hasTaunt_withSpecials`, `resistance_withSpecials`, `summonShield_withSpecials` — what the specials
  give is the same in every order.
* `CardWellFormed.withSpecials` — so is whether the card is accepted.
* `resistance_cases`, `kind_of_hasTaunt` — what an accepted card has of resistances and taunts.
* `specials_order_irrelevant` — all of it together, up to the unit that is summoned.
-/

set_option autoImplicit false

namespace CardDuel

open Validation (CardWellFormed SpecialWellFormed isResistance)

/-- A card with other specials. -/
def Card.withSpecials (c : Card) (specials : List Special) : Card := { c with specials }

/-- The shield charges that a special declares. -/
def Special.shieldAmount : Special → ℤ
  | .shieldOnSummon amount => amount.toInt
  | .taunt | .resistance .. => 0

/-- The shield charges that a card declares. -/
def Card.shieldTotal (c : Card) : ℤ := (c.specials.map Special.shieldAmount).sum

/-- A list of at most one element has one order. -/
theorem eq_of_perm_of_length_le_one {α : Type} {l l' : List α} (h : l.Perm l')
    (hl : l'.length ≤ 1) : l = l' := by
  match l' with
  | [] => exact List.perm_nil.1 h
  | [x] => exact List.perm_singleton.1 h
  | _ :: _ :: _ => simp at hl

/-! ## Shield charges -/

theorem Special.toNat_charges {s : Special} (h : 0 ≤ s.shieldAmount) :
    (s.charges.toNat : ℤ) = s.shieldAmount := by
  cases s with
  | taunt | resistance => rfl
  | shieldOnSummon amount =>
    have hamount : 0 ≤ amount := Word.nonneg_iff.2 h
    rw [charges, if_pos hamount]
    exact Word.toInt_toUInt32 hamount

/-- Sums of charges are exact as long as the total fits. -/
theorem toNat_foldr_charges {specials : List Special} (hpos : ∀ s ∈ specials, 0 ≤ s.shieldAmount)
    (hfits : (specials.map Special.shieldAmount).sum ≤ Word.maxNat) :
    ((specials.foldr (fun (s : Special) charges => s.charges + charges) 0).toNat : ℤ) =
      (specials.map Special.shieldAmount).sum := by
  induction specials with
  | nil => rfl
  | cons s specials ih =>
    rw [List.forall_mem_cons] at hpos
    rw [List.map_cons, List.sum_cons, Word.maxNat] at hfits
    have hs := Special.toNat_charges hpos.1
    have hrest := ih hpos.2 (by rw [Word.maxNat]; omega)
    rw [List.foldr_cons, List.map_cons, List.sum_cons, UInt32.toNat_add]
    omega

namespace Card

variable {c : Card} {specials : List Special}

theorem shieldAmount_nonneg (hc : CardWellFormed c) {s : Special} (hs : s ∈ c.specials) :
    0 ≤ s.shieldAmount := by
  have hwellFormed := hc.specials s hs
  cases s with
  | taunt | resistance => exact Int.le_refl 0
  | shieldOnSummon amount => exact Int.le_of_lt (Word.pos_iff.1 hwellFormed)

/-- **The shield of an accepted card is all that it declares**, if that fits. -/
theorem toNat_summonShield (hc : CardWellFormed c) (hfits : c.shieldTotal ≤ Word.maxNat) :
    (c.summonShield.toNat : ℤ) = c.shieldTotal :=
  toNat_foldr_charges (fun _ => shieldAmount_nonneg hc) hfits

/-! ## Resistances and taunts -/

/-- An accepted card declares at most one resistance. -/
theorem length_filterMap_resistance? (hc : CardWellFormed c) :
    (c.specials.filterMap Special.resistance?).length ≤ 1 := by
  rw [List.length_filterMap_eq_countP]
  exact hc.resistance_unique

/-- **The resistance of an accepted card** is that of its only resistance special, or none. -/
theorem resistance_cases (hc : CardWellFormed c) :
    (c.specials.filter isResistance = [] ∧ c.resistance = ⟨0, 0, 0⟩) ∨
      ∃ stun exposed attackDown,
        c.specials.filter isResistance = [.resistance stun exposed attackDown] ∧
          c.resistance = ⟨stun.getD 0, exposed.getD 0, attackDown.getD 0⟩ := by
  unfold resistance
  cases hfound : c.specials.findSome? Special.resistance? with
  | none =>
    rw [List.findSome?_eq_none_iff] at hfound
    refine .inl ⟨List.filter_eq_nil_iff.2 fun s hs => ?_, rfl⟩
    rw [isResistance, hfound s hs]
    decide
  | some r =>
    obtain ⟨special, hspecial, hr⟩ := List.exists_of_findSome?_eq_some hfound
    have hmem : special ∈ c.specials.filter isResistance :=
      List.mem_filter.2 ⟨hspecial, by rw [isResistance, hr]; rfl⟩
    have hunique := hc.resistance_unique
    rw [List.countP_eq_length_filter] at hunique
    have honly := (List.singleton_sublist.2 hmem).eq_of_length_le hunique
    cases special with
    | taunt | shieldOnSummon => cases hr
    | resistance stun exposed attackDown =>
      cases hr
      exact .inr ⟨stun, exposed, attackDown, honly.symm, rfl⟩

/-- **A taunt stands in the front lane.** -/
theorem kind_of_hasTaunt (hc : CardWellFormed c) (h : c.hasTaunt = true) :
    ∃ stats, c.kind = .unit .front stats := by
  obtain ⟨s, hs, htaunt⟩ := List.any_eq_true.1 h
  cases beq_iff_eq.1 htaunt
  have hlane : c.lane? = some .front := hc.specials _ hs
  unfold lane? at hlane
  split at hlane
  · rename_i lane stats hkind
    cases hlane
    exact ⟨stats, hkind⟩
  · cases hlane

end Card

/-! ## Another order -/

variable {c : Card} {specials : List Special}

namespace Validation

theorem SpecialWellFormed.withSpecials {s : Special} (h : SpecialWellFormed c s) :
    SpecialWellFormed (c.withSpecials specials) s := by
  cases s <;> exact h

/-- **An accepted card is accepted with its specials in any order.** -/
theorem CardWellFormed.withSpecials (hc : CardWellFormed c) (h : specials.Perm c.specials) :
    CardWellFormed (c.withSpecials specials) :=
  { hc with
    taunt_unique := (h.countP_eq _).trans_le hc.taunt_unique
    resistance_unique := (h.countP_eq _).trans_le hc.resistance_unique
    specials := fun s hs => (hc.specials s (h.subset hs)).withSpecials }

theorem accepted_singleton_iff (c : Card) :
    (∃ catalog, Catalog.ofCards [c] = .ok catalog) ↔ CardWellFormed c := by
  rw [(accepted_iff_schema [c]).2]
  exact ⟨fun h => h.cards c (List.mem_singleton_self c),
    fun h => ⟨List.nodup_singleton _, List.forall_mem_singleton.2 h⟩⟩

end Validation

namespace Card

theorem hasTaunt_withSpecials (h : specials.Perm c.specials) :
    (c.withSpecials specials).hasTaunt = c.hasTaunt :=
  h.any_eq

theorem resistance_withSpecials (hc : CardWellFormed c) (h : specials.Perm c.specials) :
    (c.withSpecials specials).resistance = c.resistance := by
  have hsame : specials.filterMap Special.resistance? = c.specials.filterMap Special.resistance? :=
    eq_of_perm_of_length_le_one (h.filterMap _) (length_filterMap_resistance? hc)
  show (specials.findSome? Special.resistance?).getD {} = _
  rw [resistance, ← List.head?_filterMap, ← List.head?_filterMap, hsame]

theorem shieldTotal_withSpecials (h : specials.Perm c.specials) :
    (c.withSpecials specials).shieldTotal = c.shieldTotal :=
  (h.map _).sum_eq

theorem summonShield_withSpecials (hc : CardWellFormed c) (h : specials.Perm c.specials)
    (hfits : c.shieldTotal ≤ Word.maxNat) :
    (c.withSpecials specials).summonShield = c.summonShield := by
  have hsame := shieldTotal_withSpecials h
  have hpermuted := toNat_summonShield (hc.withSpecials h) (hsame ▸ hfits)
  rw [hsame, ← toNat_summonShield hc hfits] at hpermuted
  exact UInt32.toNat_inj.1 (Int.ofNat_inj.1 hpermuted)

end Card

/-! ## Summoning -/

theorem Catalog.getUnit?_of_mem {k : Catalog} (hc : c ∈ k.cards) :
    k.getUnit? c.id = if c.isUnit then some c else none := by
  rw [getUnit?, get?_eq_some_iff.2 ⟨hc, rfl⟩, Option.filter_some]

/-- **A card summons the same unit with its specials in any order**, whatever catalogs the two cards
are taken from. -/
theorem Sandbox.summon_withSpecials {k k' : Catalog} (hc : c ∈ k.cards)
    (hc' : c.withSpecials specials ∈ k'.cards) (h : specials.Perm c.specials)
    (hfits : c.shieldTotal ≤ Word.maxNat) (s : Sandbox) (side : Side) :
    s.summon k' c.id side = s.summon k c.id side := by
  have hwellFormed := ((Validation.errors_eq_nil_iff _).1 k.accepted).cards c hc
  have hget := Catalog.getUnit?_of_mem hc
  have hget' : k'.getUnit? c.id = if c.isUnit then some (c.withSpecials specials) else none :=
    Catalog.getUnit?_of_mem hc'
  unfold summon
  rw [hget, hget']
  cases hkind : c.kind with
  | nonUnit =>
    have hunit : c.isUnit = false := by rw [Card.isUnit, hkind]
    rw [hunit]
    rfl
  | unit lane stats =>
    have hunit : c.isUnit = true := by rw [Card.isUnit, hkind]
    have hkind' : (c.withSpecials specials).kind = .unit lane stats := hkind
    have hsame (id : UnitId) :
        summoned (c.withSpecials specials) lane stats side id = summoned c lane stats side id := by
      rw [summoned, summoned, Card.summonShield_withSpecials hwellFormed h hfits]
      rfl
    simp only [hunit, if_true, hkind, hkind', hsame, Card.resistance_withSpecials hwellFormed h]

/-- **The order of specials says nothing.**  If a card is accepted, it is accepted with its specials
in any order, and it has the same taunt, shield and resistance and summons the same unit then, as
long as its shield charges fit.  A taunt stands on a unit of the front lane, and the resistance is
that of the only special that declares one. -/
theorem specials_order_irrelevant {catalog : Catalog} (hc : Catalog.ofCards [c] = .ok catalog) :
    (∀ specials : List Special, specials.Perm c.specials → c.shieldTotal ≤ Word.maxNat →
      (∃ permuted, Catalog.ofCards [c.withSpecials specials] = .ok permuted) ∧
      (c.withSpecials specials).hasTaunt = c.hasTaunt ∧
      (c.withSpecials specials).summonShield = c.summonShield ∧
      (c.summonShield.toNat : ℤ) = c.shieldTotal ∧
      (c.withSpecials specials).resistance = c.resistance ∧
      ∀ k k' : Catalog, c ∈ k.cards → c.withSpecials specials ∈ k'.cards →
        ∀ (s : Sandbox) (side : Side), s.summon k' c.id side = s.summon k c.id side) ∧
    (c.hasTaunt = true → ∃ stats, c.kind = .unit .front stats) ∧
    ((c.specials.filter isResistance = [] ∧ c.resistance = ⟨0, 0, 0⟩) ∨
      ∃ stun exposed attackDown,
        c.specials.filter isResistance = [.resistance stun exposed attackDown] ∧
          c.resistance = ⟨stun.getD 0, exposed.getD 0, attackDown.getD 0⟩) := by
  have hwellFormed := (Validation.accepted_singleton_iff c).1 ⟨catalog, hc⟩
  refine ⟨fun specials hperm hfits => ?_, Card.kind_of_hasTaunt hwellFormed,
    Card.resistance_cases hwellFormed⟩
  have haccepted := (Validation.accepted_singleton_iff _).2 (hwellFormed.withSpecials hperm)
  exact ⟨haccepted, Card.hasTaunt_withSpecials hperm,
    Card.summonShield_withSpecials hwellFormed hperm hfits,
    Card.toNat_summonShield hwellFormed hfits, Card.resistance_withSpecials hwellFormed hperm,
    fun k k' hk hk' => Sandbox.summon_withSpecials hk hk' hperm hfits⟩

/-- A unit with everything that a card may declare. -/
def bulwark : Card :=
  { id := "bulwark", name := "Bulwark", kind := .unit .front ⟨0, 6⟩
    specials := [.shieldOnSummon 2, .taunt, .resistance (some 0.5) none (some 1.0),
      .shieldOnSummon 1] }

theorem specials_order_irrelevant_bulwark :
    ∃ k k' : Catalog, Catalog.ofCards [bulwark] = .ok k ∧
      Catalog.ofCards [bulwark.withSpecials bulwark.specials.reverse] = .ok k' ∧
      bulwark.hasTaunt = true ∧ bulwark.summonShield = 3 ∧ bulwark.resistance = ⟨0.5, 0, 1.0⟩ ∧
      (Sandbox.start {}).summon k' "bulwark" .player =
        (Sandbox.start {}).summon k "bulwark" .player := by
  have hmade : Catalog.ofCards [bulwark] = .ok ⟨[bulwark], by decide +kernel⟩ :=
    Catalog.ofCards_eq_ok_iff.2 rfl
  have hperm : bulwark.specials.reverse.Perm bulwark.specials := List.reverse_perm _
  obtain ⟨⟨k', hk'⟩, -, -, -, -, hsummon⟩ :=
    (specials_order_irrelevant hmade).1 _ hperm (by decide)
  have hcards := Catalog.ofCards_eq_ok_iff.1 hk'
  refine ⟨_, k', hmade, hk', by decide +kernel, by decide +kernel, by decide +kernel, ?_⟩
  exact hsummon _ _ (List.mem_singleton_self _) (hcards ▸ List.mem_singleton_self _) _ _

end CardDuel
