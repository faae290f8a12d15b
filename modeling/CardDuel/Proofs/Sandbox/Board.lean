import CardDuel.Proofs.Firing.Confined
import CardDuel.Proofs.Sandbox.Frame

/-!
# Listing and choosing units

What the sandbox lists and which unit it picks, said by the unit under an id.

* `mem_unitIds_iff` — the list of a side holds the ids of its units.
* `unitIds_congr` — the list of a side depends on the units of that side alone.
* `exists_of_lowestHealth?`, `exists_of_pickRandom` — a choice among units of the board succeeds,
  with one of the candidates.  There are never too many candidates for the dice
  (`length_board_le`).
* `confined` — a firing is confined by what the sandbox lists and picks.
-/

set_option autoImplicit false

namespace CardDuel.Sandbox

variable {s s' : Sandbox}

/-! ## Listing -/

theorem mem_board_iff {u : BoardUnit} : u ∈ s.board ↔ ∃ id, s.unit? id = some u := by
  constructor
  · intro hu
    obtain ⟨⟨id, u⟩, hmem, rfl⟩ := List.mem_map.1 hu
    exact ⟨id, Std.ExtTreeMap.mem_toList_iff_getElem?_eq_some.1 hmem⟩
  · rintro ⟨id, hu⟩
    exact List.mem_map.2 ⟨(id, u), Std.ExtTreeMap.mem_toList_iff_getElem?_eq_some.2 hu, rfl⟩

theorem mem_unitIds_iff (hs : s.Keyed) {side : Side} {lane : Option Lane} {id : UnitId} :
    id ∈ s.unitIds side lane ↔
      ∃ u, s.unit? id = some u ∧ u.side = side ∧ lane.all u.lane.accepts = true := by
  simp only [unitIds, List.mem_map, List.mem_filter, mem_board_iff, Bool.and_eq_true, beq_iff_eq]
  constructor
  · rintro ⟨u, ⟨⟨id', hu⟩, hside, hlane⟩, rfl⟩
    rw [hs id' u hu]
    exact ⟨u, hu, hside, hlane⟩
  · rintro ⟨u, hu, hside, hlane⟩
    exact ⟨u, ⟨⟨id, hu⟩, hside, hlane⟩, hs id u hu⟩

theorem unit?_of_mem_unitIds (hs : s.Keyed) {side : Side} {lane : Option Lane} {id : UnitId}
    (h : id ∈ s.unitIds side lane) : ∃ u, s.unit? id = some u ∧ u.side = side := by
  obtain ⟨u, hu, hside, -⟩ := (mem_unitIds_iff hs).1 h
  exact ⟨u, hu, hside⟩

theorem board_filter (p : BoardUnit → Bool) :
    s.board.filter p = (s.units.filter fun _ u => p u).toList.map (·.2) := by
  rw [Std.ExtTreeMap.toList_filter, board, List.filter_map]
  rfl

theorem board_filter_congr {p : BoardUnit → Bool}
    (h : ∀ id, (s.unit? id).filter p = (s'.unit? id).filter p) :
    s.board.filter p = s'.board.filter p := by
  have hget (t : Sandbox) (id : UnitId) :
      (t.units.filter fun _ u => p u)[id]? = (t.unit? id).filter p := by
    rw [Std.ExtTreeMap.getElem?_filter, Option.pfilter_eq_filter]
    rfl
  have hunits : (s.units.filter fun _ u => p u) = s'.units.filter fun _ u => p u := by
    refine Std.ExtTreeMap.ext_getElem? fun id => ?_
    rw [hget, hget, h]
  rw [board_filter, board_filter, hunits]

/-- **What is listed of a side depends on its units alone.** -/
theorem unitIds_congr {side : Side}
    (h : ∀ id u, u.side = side → (s.unit? id = some u ↔ s'.unit? id = some u))
    (lane : Option Lane) : s.unitIds side lane = s'.unitIds side lane := by
  refine congrArg (List.map _) (board_filter_congr fun id => ?_)
  refine Option.ext fun u => ?_
  rw [Option.filter_eq_some_iff, Option.filter_eq_some_iff]
  refine and_congr_left fun hu => h id u ?_
  simpa using (Bool.and_eq_true_iff.1 hu).1

/-- There are no more units than ids. -/
theorem length_board_le (s : Sandbox) : s.board.length ≤ 4294967296 := by
  have hids : (s.units.toList.map Prod.fst).Nodup := by
    rw [Std.ExtTreeMap.map_fst_toList_eq_keys]
    exact Std.ExtTreeMap.nodup_keys
  have hnumbers : ((s.units.toList.map Prod.fst).map fun id => id.raw.toNat).Nodup := by
    refine List.Pairwise.map _ (fun id id' hne heq => hne ?_) hids
    have hraw : id.raw = id'.raw := UInt32.toNat_inj.1 heq
    cases id
    cases id'
    exact congrArg UnitId.mk hraw
  have hsub : (s.units.toList.map Prod.fst).map (fun id => id.raw.toNat) ⊆
      List.range 4294967296 := by
    intro n hn
    obtain ⟨id, -, rfl⟩ := List.mem_map.1 hn
    exact List.mem_range.2 id.raw.toNat_lt
  simpa [board] using hnumbers.length_le_of_subset hsub

/-! ## Choosing -/

theorem mem_of_weakest? {us : List BoardUnit} {u : BoardUnit} (h : BoardUnit.weakest? us = some u) :
    u ∈ us := by
  induction us generalizing u with
  | nil => cases h
  | cons v us ih =>
    rw [BoardUnit.weakest?] at h
    split at h
    · cases h
      exact List.mem_cons_self
    · rename_i w hw
      cases h
      split
      · exact List.mem_cons_of_mem _ (ih hw)
      · exact List.mem_cons_self

theorem isSome_weakest? {us : List BoardUnit} (h : us ≠ []) :
    (BoardUnit.weakest? us).isSome = true := by
  cases us with
  | nil => exact absurd rfl h
  | cons u us =>
    rw [BoardUnit.weakest?]
    split <;> rfl

theorem mem_of_lowestHealth? (hs : s.Keyed) {candidates : List UnitId} {id : UnitId}
    (h : s.lowestHealth? candidates = some id) : id ∈ candidates := by
  obtain ⟨u, hu, rfl⟩ := Option.map_eq_some_iff.1 h
  obtain ⟨id, hid, hu⟩ := List.mem_filterMap.1 (mem_of_weakest? hu)
  rw [hs id u hu]
  exact hid

/-- Among units of the board the lowest health is found. -/
theorem exists_of_lowestHealth? (hs : s.Keyed) {candidates : List UnitId} (hne : candidates ≠ [])
    (hboard : ∀ id ∈ candidates, (s.unit? id).isSome = true) :
    ∃ id ∈ candidates, s.lowestHealth? candidates = some id := by
  have hfound : candidates.filterMap s.unit? ≠ [] := by
    obtain ⟨id, hid⟩ := List.exists_mem_of_ne_nil _ hne
    obtain ⟨u, hu⟩ := Option.isSome_iff_exists.1 (hboard id hid)
    exact List.ne_nil_of_mem (List.mem_filterMap.2 ⟨id, hid, hu⟩)
  obtain ⟨u, hu⟩ := Option.isSome_iff_exists.1 (isSome_weakest? hfound)
  have hlow : s.lowestHealth? candidates = some u.id := by rw [lowestHealth?, hu]; rfl
  exact ⟨u.id, mem_of_lowestHealth? hs hlow, hlow⟩

/-- A random choice among no more candidates than there can be units is one draw. -/
theorem exists_of_pickRandom {candidates : List UnitId} (hne : candidates ≠ [])
    (hlen : candidates.length ≤ 4294967296) (label : String) :
    ∃ id ∈ candidates,
      s.pickRandom candidates label = (some id, { s with dice := s.dice.drawn }) := by
  have hsize : candidates.length < UInt64.size := Nat.lt_of_le_of_lt hlen (by decide)
  obtain ⟨id, hid⟩ := Option.isSome_iff_exists.1 (s.dice.isSome_pick label hne hsize)
  refine ⟨id, Dice.mem_of_pick hid, ?_⟩
  simp only [pickRandom, hid, Dice.draws_pick _ _ hne]

/-! ## Confinement -/

/-- **The sandbox confines a firing** to an invariant that requests within reach keep: what it lists
stands on the side of the firing, and what it picks is a candidate. -/
theorem confined {f : Firing} {I : Sandbox → Prop} {listed ally reach : UnitId → Prop}
    (hsource : reach f.source)
    (hopponent : ∀ id, f.combat.bind (·.target) = some id → reach id)
    (hreach : ∀ id, ally id → reach id)
    (hkeyed : ∀ s, I s → s.Keyed)
    (hlisted : ∀ s id u, I s → s.unit? id = some u → u.side = f.side → listed id)
    (hally : ∀ s id u, I s → listed id → s.unit? id = some u → u.alive = true → ally id)
    (hstep : ∀ s q, I s → q.Within f.side reach → I (answer q s).2) :
    f.Confined answer I listed ally reach where
  source := hsource
  opponent := hopponent
  reach_of_ally := hreach
  list := by
    intro s hs
    refine ⟨hs, fun id hid => ?_⟩
    obtain ⟨u, hu, hside⟩ := unit?_of_mem_unitIds (hkeyed s hs) hid
    exact hlisted s id u hs hu hside
  look := by
    intro id hid s hs
    refine ⟨hs, fun u hu halive => ?_⟩
    rw [hkeyed s hs id u hu]
    exact hally s id u hs hid hu halive
  read _ _ s hs := ⟨hs, trivial⟩
  random ids label hids := by
    intro s hs
    exact ⟨hstep s _ hs (.of_unaddressed rfl rfl), fun id hid => hids id (Dice.mem_of_pick hid)⟩
  lowest ids hids := by
    intro s hs
    exact ⟨hs, fun id hid => hids id (mem_of_lowestHealth? (hkeyed s hs) hid)⟩
  change q _ hq hid s hs := ⟨hstep s q hs (.of_subject hq hid), trivial⟩
  side q hq s hs := ⟨hstep s q hs (.of_side hq), trivial⟩
  log _ s hs := ⟨hstep s _ hs (.of_unaddressed rfl rfl), trivial⟩

end CardDuel.Sandbox
