import CardDuel.Proofs.Codec.Fields
import Mathlib.Data.List.Forall2

/-!
# Members in any order

An object may be written in many ways: its members stand in any order, and members that its reader
does not know stand among them.  `Rearranged` relates the members of two such objects; what is under
a known key may itself be rearranged.  Reading an object comes down to what is found under the known
keys, and that is not changed.

* `member?_of_repeated` — a key that is given twice, in one spelling or in two, is refused.
* `Rearranged.member?` — under a known key the same is found, as far as `inside` relates it.
* `Rearranged.field`, `Rearranged.slots?` — what is read from there is the same.
* `Rearranged.readable` — nothing unreadable comes in or goes away.
* `Rearranged.filter` — part of the members, chosen by their names, are rearranged too.
-/

set_option autoImplicit false

namespace CardDuel.Json

open List (Forall₂)

variable {key : Key} {keys : List Key} {ms ms' : List (String × Json)}

/-- A name that is a spelling of none of the keys. -/
def Unknown (keys : List Key) (name : String) : Prop := ∀ key ∈ keys, name ∉ key

instance (keys : List Key) (name : String) : Decidable (Unknown keys name) :=
  inferInstanceAs (Decidable (∀ key ∈ keys, name ∉ key))

/-- Two members stand under one key, in one spelling or in two. -/
def Repeated (key : Key) (ms : List (String × Json)) : Prop :=
  ∃ m m', [m, m'].Sublist ms ∧ m.1 ∈ key ∧ m'.1 ∈ key

/-- The second members are the first ones, each with a value that `inside` relates to its own, and
further ones that `more` allows, all of them in any order. -/
def Rearranged (inside : String → Json → Json → Prop) (more : String → Json → Prop)
    (ms ms' : List (String × Json)) : Prop :=
  ∃ kept added, Forall₂ (fun m m' => m.1 = m'.1 ∧ inside m.1 m.2 m'.2) ms kept ∧
    (∀ m ∈ added, more m.1 m.2) ∧ ms'.Perm (kept ++ added)

/-! ## Reading one field -/

/-- What is read under a key, wherever it stands. -/
def field {α : Type} (key : Key) (read? : Option Json → Option α) (ms : List (String × Json)) :
    Option α :=
  (member? key ms).bind read?

/-- **A key that is given twice is refused.** -/
theorem member?_of_repeated (h : Repeated key ms) : member? key ms = none := by
  obtain ⟨m, m', hsub, hm, hm'⟩ := h
  have hlength : 2 ≤ (ms.filter fun m => key.contains m.1).length := by
    have hboth := (hsub.filter fun m => key.contains m.1).length_le
    simpa [hm, hm'] using hboth
  unfold member?
  match ms.filter _, hlength with
  | _ :: _ :: _, _ => rfl

theorem field_of_repeated {α : Type} (read? : Option Json → Option α) (h : Repeated key ms) :
    field key read? ms = none := by
  rw [field, member?_of_repeated h]
  rfl

theorem slots?_of_repeated (hkey : key ∈ keys) (h : Repeated key ms) :
    slots? keys (.object ms) = none := by
  induction keys with
  | nil => cases hkey
  | cons key' keys ih =>
    rw [slots?_cons]
    rcases List.mem_cons.1 hkey with rfl | hkey
    · rw [member?_of_repeated h]
      rfl
    · rw [ih hkey]
      exact Option.bind_fun_none _

/-! ## Rearranged members -/

namespace Rearranged

variable {inside : String → Json → Json → Prop} {more : String → Json → Prop}

/-- **Under a known key the same is found**, as far as `inside` relates it. -/
theorem member? (h : Rearranged inside more ms ms') (hmore : ∀ name v, more name v → name ∉ key) :
    Option.Rel (Option.Rel fun v v' => ∃ name ∈ key, inside name v v') (Json.member? key ms)
      (Json.member? key ms') := by
  obtain ⟨kept, added, hkept, hadded, hperm⟩ := h
  have hnone : added.filter (fun m => key.contains m.1) = [] := by
    rw [List.filter_eq_nil_iff]
    intro m hm
    simpa using hmore m.1 m.2 (hadded m hm)
  have hfound : Forall₂ (fun m m' : String × Json => ∃ name ∈ key, inside name m.2 m'.2)
      (ms.filter fun m => key.contains m.1) (kept.filter fun m => key.contains m.1) := by
    clear hperm
    induction hkept with
    | nil => exact .nil
    | @cons m m' _ _ hm _ ih =>
      by_cases hname : m.1 ∈ key
      · rw [List.filter_cons_of_pos (by simpa using hname),
          List.filter_cons_of_pos (by simpa [← hm.1] using hname)]
        exact .cons ⟨m.1, hname, hm.2⟩ ih
      · rw [List.filter_cons_of_neg (by simpa using hname),
          List.filter_cons_of_neg (by simpa [← hm.1] using hname)]
        exact ih
  rw [member?_perm key hperm]
  unfold Json.member?
  rw [List.filter_append, hnone, List.append_nil]
  generalize ms.filter _ = found at hfound
  generalize kept.filter _ = found' at hfound
  cases hfound with
  | nil => exact .some .none
  | cons hm hrest =>
    cases hrest with
    | nil => exact .some (.some hm)
    | cons _ _ => exact .none

/-- **What is read under a known key is the same** if what is inside does not matter. -/
theorem field {α : Type} {read? : Option Json → Option α} (h : Rearranged inside more ms ms')
    (hmore : ∀ name v, more name v → name ∉ key)
    (hread : ∀ name ∈ key, ∀ v v', inside name v v' → read? (some v) = read? (some v')) :
    Json.field key read? ms = Json.field key read? ms' := by
  unfold Json.field
  have hslots := h.member? hmore
  generalize Json.member? key ms = slot at hslots
  generalize Json.member? key ms' = slot' at hslots
  cases hslots with
  | none => rfl
  | some hslot =>
    cases hslot with
    | none => rfl
    | some hv =>
      obtain ⟨name, hname, hv⟩ := hv
      exact hread name hname _ _ hv

/-- **The slots of a record are the same** if nothing inside is rearranged. -/
theorem slots? (h : Rearranged inside more ms ms')
    (hmore : ∀ name v, more name v → Unknown keys name)
    (hinside : ∀ key ∈ keys, ∀ name ∈ key, ∀ v v', inside name v v' → v = v') :
    Json.slots? keys (.object ms) = Json.slots? keys (.object ms') := by
  refine slots?_congr fun key hkey => ?_
  have hslots := h.member? fun name v hm => hmore name v hm key hkey
  generalize Json.member? key ms = slot at hslots
  generalize Json.member? key ms' = slot' at hslots
  cases hslots with
  | none => rfl
  | some hslot =>
    cases hslot with
    | none => rfl
    | some hv =>
      obtain ⟨name, hname, hv⟩ := hv
      rw [hinside key hkey name hname _ _ hv]

/-- **Nothing unreadable comes in or goes away.** -/
theorem readable (h : Rearranged inside more ms ms')
    (hinside : ∀ name v v', inside name v v' → v.readable = v'.readable)
    (hmore : ∀ name v, more name v → v.readable = true) :
    (Json.object ms).readable = (Json.object ms').readable := by
  obtain ⟨kept, added, hkept, hadded, hperm⟩ := h
  have hsame : readableMembers ms = readableMembers kept := by
    clear hperm
    induction hkept with
    | nil => rfl
    | cons hm _ ih => rw [readableMembers, readableMembers, hinside _ _ _ hm.2, ih]
  rw [Json.readable, Json.readable, hsame, Bool.eq_iff_iff]
  simp only [readableMembers_iff, hperm.mem_iff, List.mem_append]
  constructor
  · intro hall m hm
    rcases hm with hm | hm
    · exact hall m hm
    · exact hmore m.1 m.2 (hadded m hm)
  · intro hall m hm
    exact hall m (.inl hm)

/-- **Members that are chosen by their names** are rearranged if all are. -/
theorem filter (h : Rearranged inside more ms ms') (p : String → Bool) :
    Rearranged (fun name v v' => inside name v v' ∧ p name = true)
      (fun name v => more name v ∧ p name = true) (ms.filter fun m => p m.1)
      (ms'.filter fun m => p m.1) := by
  obtain ⟨kept, added, hkept, hadded, hperm⟩ := h
  refine ⟨kept.filter fun m => p m.1, added.filter fun m => p m.1, ?_, ?_, ?_⟩
  · clear hperm
    induction hkept with
    | nil => exact .nil
    | @cons m m' _ _ hm _ ih =>
      by_cases hname : p m.1 = true
      · rw [List.filter_cons_of_pos (by simpa using hname),
          List.filter_cons_of_pos (by simpa [← hm.1] using hname)]
        exact .cons ⟨hm.1, hm.2, hname⟩ ih
      · rw [List.filter_cons_of_neg (by simpa using hname),
          List.filter_cons_of_neg (by simpa [← hm.1] using hname)]
        exact ih
  · intro m hm
    obtain ⟨hm, hname⟩ := List.mem_filter.1 hm
    exact ⟨hadded m hm, hname⟩
  · rw [← List.filter_append]
    exact hperm.filter _

end Rearranged

/-! ## Rearranged values -/

/-- The same value, or two objects with the same members in any order: what is under a known key may
be rearranged as `inside` says, and further members under names that are `known` to the first object
under no key may come in, with values that may be `skipped`. -/
inductive Reordered (known : List (String × Json) → List Key)
    (inside : String → Json → Json → Prop) (skipped : Json → Prop) : Json → Json → Prop where
  | same (v : Json) : Reordered known inside skipped v v
  | object {ms ms' : List (String × Json)}
      (h : Rearranged inside (fun name v => Unknown (known ms) name ∧ skipped v) ms ms') :
      Reordered known inside skipped (.object ms) (.object ms')

/-- The same value, or two arrays with items that are related one by one. -/
inductive Itemwise (Same : Json → Json → Prop) : Json → Json → Prop where
  | same (v : Json) : Itemwise Same v v
  | array {items items' : List Json} (h : Forall₂ Same items items') :
      Itemwise Same (.array items) (.array items')

theorem Reordered.readable {known : List (String × Json) → List Key}
    {inside : String → Json → Json → Prop} {skipped : Json → Prop} {v v' : Json}
    (h : Reordered known inside skipped v v')
    (hinside : ∀ name v v', inside name v v' → v.readable = v'.readable)
    (hskipped : ∀ v, skipped v → v.readable = true) : v.readable = v'.readable := by
  cases h with
  | same => rfl
  | object h => exact h.readable hinside fun _ v hm => hskipped v hm.2

/-- Lists are read alike if their items are. -/
theorem Itemwise.list? {α : Type} {Same : Json → Json → Prop} {read? : Json → Option α}
    (hread : ∀ v v', Same v v' → read? v = read? v') {v v' : Json} (h : Itemwise Same v v') :
    Json.list? read? v = Json.list? read? v' := by
  cases h with
  | same => rfl
  | array h =>
    show List.mapM read? _ = List.mapM read? _
    induction h with
    | nil => rfl
    | cons hv _ ih => rw [List.mapM_cons, List.mapM_cons, hread _ _ hv, ih]

/-- A reader that ignores order and unknown members, and refuses known keys that are given twice. -/
structure IgnoresOrder {α : Type} (read? : Json → Option α)
    (known : List (String × Json) → List Key) (Same : Json → Json → Prop) : Prop where
  agrees : ∀ v v', Same v v' → read? v = read? v'
  refuses : ∀ ms, ∀ key ∈ known ms, Repeated key ms → read? (.object ms) = none

end CardDuel.Json
