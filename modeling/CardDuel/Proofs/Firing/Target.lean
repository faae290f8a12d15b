import CardDuel.Proofs.Firing.Plan

/-!
# What a target resolves to

Statements about `Firing.target` against an arbitrary host.

* `asks_target` — looking for a target only reads and lets the host choose.
* `memory_of_target` — the memory afterwards is a function of the memory before and the result: an
  ally that was found is remembered, anything else leaves the memory alone.
* `report_of_replaced` — an ally in memory is given up for another only after the host has reported
  it unknown, dead, or free of the statuses that a cleanse asks for.
* `mem_candidates_of_ally` — an ally that is not the remembered one was offered to the host.
-/

set_option autoImplicit false

namespace CardDuel

open Script (request)

/-- Choices are answered with one of the candidates, or not at all. -/
def Handler.PicksOffered {σ : Type} (h : Handler σ) : Prop :=
  ∀ (candidates : List UnitId) (s : σ) (id : UnitId),
    (∀ label, (h (.pickRandom candidates label) s).1 = some id → id ∈ candidates) ∧
    ((h (.pickLowestHealth candidates) s).1 = some id → id ∈ candidates)

namespace Firing

variable {σ : Type} (h : Handler σ) (f : Firing) (memory : Memory) (action : Action) (s : σ)

/-! ## Requests -/

section Requests

variable {P : Request → Prop}

theorem asks_knownUnits (hunit : ∀ id, P (.unit id)) (ids : List UnitId) :
    (knownUnits ids).Asks P := by
  induction ids with
  | nil => trivial
  | cons id ids ih => exact ⟨hunit id, fun _ => ih.bind fun _ => trivial⟩

theorem asks_choose (hchoice : ∀ q, q.isChoice = true → P q) (ids : List UnitId) :
    (f.choose action ids).Asks P := by
  unfold choose
  split
  · trivial
  · split <;> exact (Script.asks_request _).2 (hchoice _ rfl)

theorem asks_pickAlly (hread : ∀ q, q.isRead = true → P q)
    (hchoice : ∀ q, q.isChoice = true → P q) : (f.pickAlly action).Asks P :=
  ⟨hread _ rfl, fun ids => (asks_knownUnits (fun _ => hread _ rfl) ids).bind fun _ =>
    f.asks_choose action hchoice _⟩

theorem asks_remembered (hread : ∀ q, q.isRead = true → P q) :
    (f.remembered memory action).Asks P := by
  unfold remembered
  split
  · trivial
  · exact ⟨hread _ rfl, fun _ => trivial⟩

theorem asks_ally (hread : ∀ q, q.isRead = true → P q)
    (hchoice : ∀ q, q.isChoice = true → P q) : (f.ally memory action).Asks P := by
  refine (f.asks_remembered memory action hread).bind fun kept => ?_
  cases kept with
  | some id => trivial
  | none =>
    refine (f.asks_pickAlly action hread hchoice).bind fun picked => ?_
    cases picked <;> trivial

theorem asks_opponent (hread : ∀ q, q.isRead = true → P q) : f.opponent.Asks P := by
  unfold opponent
  split
  · trivial
  · exact ⟨hread _ rfl, fun _ => trivial⟩

/-- **Looking for a target only reads and lets the host choose.** -/
theorem asks_target :
    (f.target memory action).Asks fun q => q.isRead = true ∨ q.isChoice = true := by
  unfold target
  split
  · trivial
  · trivial
  · exact (f.asks_opponent fun _ => .inl).bind fun _ => trivial
  · trivial
  · exact f.asks_ally memory action (fun _ => .inl) fun _ => .inr

end Requests

/-! ## The remembered ally -/

/-- What the host has to report of a remembered ally for an action to give it up. -/
def GivesUp : Option BoardUnit → Prop
  | none => True
  | some u => u.health ≤ 0 ∨ ∃ target listed, action = .cleanse target (some listed) ∧
      listed ≠ [] ∧ ∀ status ∈ listed, u.hasStatus status f.turn = false

theorem not_alive_iff (u : BoardUnit) : u.alive = false ↔ u.health ≤ 0 := by
  rw [BoardUnit.alive, decide_eq_false_iff_not, Int32.not_lt]

theorem stillServes_eq_false_iff (u : BoardUnit) :
    f.stillServes action u = false ↔ f.GivesUp action (some u) := by
  unfold stillServes GivesUp
  split
  · rename_i target statuses
    rw [Bool.and_eq_false_iff, not_alive_iff]
    refine or_congr_right ⟨fun hm => ?_, ?_⟩
    · cases statuses with
      | none => simp [BoardUnit.matchesFilter, Action.statusFilter] at hm
      | some listed =>
        simp only [BoardUnit.matchesFilter, Action.statusFilter, Option.getD_some,
          Bool.or_eq_false_iff, List.isEmpty_eq_false_iff, List.any_eq_false] at hm
        exact ⟨target, listed, rfl, hm.1, fun status hs => Bool.eq_false_iff.2 (hm.2 status hs)⟩
    · rintro ⟨_, listed, hc, hne, hall⟩
      cases hc
      simp only [BoardUnit.matchesFilter, Action.statusFilter, Option.getD_some,
        Bool.or_eq_false_iff, List.isEmpty_eq_false_iff, List.any_eq_false]
      exact ⟨hne, fun status hs => Bool.eq_false_iff.1 (hall status hs)⟩
  · rename_i hne
    rw [not_alive_iff]
    refine ⟨.inl, ?_⟩
    rintro (hd | ⟨target, listed, rfl, _⟩)
    · exact hd
    · exact absurd rfl (hne target (some listed))

/-- The remembered ally is asked about first, and kept unless the report gives it up. -/
theorem remembered_of_ally {x : UnitId} (hx : memory.ally = some x) :
    (f.remembered memory action).transcript h s = [⟨.unit x, (h (.unit x) s).1⟩] ∧
      (((f.remembered memory action).run h s).1 = some x ∨
        ((f.remembered memory action).run h s).1 = none ∧
          f.GivesUp action (h (.unit x) s).1) := by
  unfold remembered
  rw [hx]
  refine ⟨rfl, ?_⟩
  show (if (h (.unit x) s).1.any (f.stillServes action) then some x else none) = some x ∨
    (if (h (.unit x) s).1.any (f.stillServes action) then some x else none) = none ∧ _
  split
  · exact .inl rfl
  · rename_i hany
    refine .inr ⟨rfl, ?_⟩
    cases hu : (h (.unit x) s).1 with
    | none => trivial
    | some u =>
      rw [hu, Option.any_some] at hany
      exact (f.stillServes_eq_false_iff action u).1 (Bool.eq_false_iff.2 hany)

theorem remembered_eq_some {x : UnitId}
    (hx : ((f.remembered memory action).run h s).1 = some x) : memory.ally = some x := by
  cases hm : memory.ally with
  | none => simp [remembered, hm] at hx
  | some z =>
    rcases (f.remembered_of_ally h memory action s hm).2 with hz | ⟨hz, _⟩
    · exact (hz ▸ hx : some z = some x)
    · cases hz ▸ hx

/-! ## The ally -/

theorem ally_of_kept {x : UnitId} (hk : ((f.remembered memory action).run h s).1 = some x) :
    (f.ally memory action).run h s =
      ((some x, memory), ((f.remembered memory action).run h s).2) := by
  unfold ally
  rw [Script.run_bind, hk]
  rfl

/-- Without a remembered ally that serves, one is chosen anew and remembered. -/
theorem ally_of_given_up (hk : ((f.remembered memory action).run h s).1 = none) :
    (f.ally memory action).run h s =
      let picked := (f.pickAlly action).run h ((f.remembered memory action).run h s).2
      ((picked.1, picked.1.elim memory fun y => { ally := some y }), picked.2) := by
  unfold ally
  rw [Script.run_bind, hk]
  simp only [Script.run_bind]
  cases ((f.pickAlly action).run h ((f.remembered memory action).run h s).2).1 <;> rfl

theorem target_of_ally (ha : action.target? = some .ally) :
    f.target memory action = f.ally memory action := by
  unfold target
  rw [ha]

/-- **What is remembered after a target was looked for.** -/
theorem memory_of_target :
    ((f.target memory action).run h s).1.2 =
      if action.target? = some .ally then
        ((f.target memory action).run h s).1.1.elim memory fun y => { ally := some y }
      else memory := by
  by_cases ha : action.target? = some .ally
  · rw [if_pos ha, target_of_ally f memory action ha]
    cases hk : ((f.remembered memory action).run h s).1 with
    | some x =>
      have hx := f.remembered_eq_some h memory action s hk
      rw [f.ally_of_kept h memory action s hk]
      cases memory
      exact congrArg Memory.mk hx
    | none => rw [f.ally_of_given_up h memory action s hk]
  · rw [if_neg ha]
    unfold target
    split
    · rfl
    · rfl
    · rw [Script.run_bind]; rfl
    · rfl
    · rename_i hally; exact absurd hally ha

/-- **A remembered ally is given up only on the host's report.** -/
theorem report_of_replaced {x y : UnitId} (ha : action.target? = some .ally)
    (hx : memory.ally = some x) (hy : ((f.target memory action).run h s).1.1 = some y)
    (hne : x ≠ y) :
    ∃ rest, (f.target memory action).transcript h s = ⟨.unit x, (h (.unit x) s).1⟩ :: rest ∧
      f.GivesUp action (h (.unit x) s).1 := by
  obtain ⟨ht, hk | ⟨_, hg⟩⟩ := f.remembered_of_ally h memory action s hx
  · rw [target_of_ally f memory action ha, f.ally_of_kept h memory action s hk] at hy
    exact absurd (Option.some.inj hy) hne
  · rw [target_of_ally f memory action ha]
    unfold ally
    rw [Script.transcript_bind, ht]
    exact ⟨_, rfl, hg⟩

/-! ## Candidates -/

/-- A choice is answered with a candidate. -/
theorem mem_of_choose (hpick : h.PicksOffered) {ids : List UnitId} {y : UnitId}
    (hy : ((f.choose action ids).run h s).1 = some y) : y ∈ ids := by
  unfold choose at hy
  split at hy
  · cases hy
  · split at hy
    · exact (hpick ids s y).2 hy
    · exact (hpick ids s y).1 _ hy

/-- **An ally is the remembered one or was among the candidates.** -/
theorem mem_candidates_of_ally (hpick : h.PicksOffered) {y : UnitId}
    (ha : action.target? = some .ally)
    (hy : ((f.target memory action).run h s).1.1 = some y) :
    memory.ally = some y ∨ ∃ units, y ∈ f.candidates action units := by
  rw [target_of_ally f memory action ha] at hy
  cases hk : ((f.remembered memory action).run h s).1 with
  | some x =>
    rw [f.ally_of_kept h memory action s hk] at hy
    exact .inl (Option.some.inj hy ▸ f.remembered_eq_some h memory action s hk)
  | none =>
    rw [f.ally_of_given_up h memory action s hk] at hy
    simp only [pickAlly, Script.run_bind] at hy
    exact .inr ⟨_, f.mem_of_choose h action _ hpick hy⟩

/-- The acting unit is never offered a shield. -/
theorem source_not_mem_candidates (target : Target) (n : Int32) (units : List BoardUnit) :
    f.source ∉ f.candidates (.gainShield target n) units := by
  intro hs
  obtain ⟨u, hu, hid⟩ := List.mem_map.1 hs
  have hne := (List.mem_filter.1 hu).2
  simp [suits, hid] at hne

end Firing

end CardDuel
