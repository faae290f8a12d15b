import CardDuel.Proofs.Firing.Target
import CardDuel.Proofs.Sandbox.Board
import CardDuel.Proofs.Sandbox.Changes

/-!
# Looking for a target on the sandbox

A read leaves the sandbox as it is and a choice among units of the board succeeds, so what a target
resolves to on the sandbox can be said without running.

* `mem_allies_iff` — the units that are offered for an action.
* `run_pickAlly_cases` — nobody is picked exactly if nobody is offered.
* `run_target_cases` — the search leaves the sandbox as it was, or it finds a unit by one draw.
-/

set_option autoImplicit false

namespace CardDuel.Sandbox

open Firing (knownUnits)

/-! ## Reads -/

variable (s : Sandbox) (f : Firing) (memory : Memory) (action : Action)

theorem run_knownUnits (ids : List UnitId) :
    (knownUnits ids).run answer s = (ids.filterMap s.unit?, s) := by
  induction ids with
  | nil => rfl
  | cons id ids ih =>
    have hrun : (knownUnits (id :: ids)).run answer s =
        ((s.unit? id).toList ++ ((knownUnits ids).run answer s).1,
          ((knownUnits ids).run answer s).2) := by
      simp only [knownUnits, Script.run_bind]
      rfl
    rw [hrun, ih]
    cases hu : s.unit? id with
    | none => rw [List.filterMap_cons_none hu]; rfl
    | some u => rw [List.filterMap_cons_some hu]; rfl

theorem run_remembered :
    (f.remembered memory action).run answer s =
      (memory.ally.filter fun id => (s.unit? id).any (f.stillServes action), s) := by
  unfold Firing.remembered
  cases memory.ally with
  | none => rfl
  | some id => rfl

theorem run_opponent :
    f.opponent.run answer s =
      ((f.combat.bind (·.target)).filter fun id => (s.unit? id).isSome, s) := by
  unfold Firing.opponent
  cases f.combat.bind (·.target) with
  | none => rfl
  | some id => rfl

/-! ## Allies -/

/-- The units that are offered for an action. -/
def allies : List UnitId :=
  f.candidates action ((s.unitIds f.side none).filterMap s.unit?)

theorem run_pickAlly :
    (f.pickAlly action).run answer s = (f.choose action (s.allies f action)).run answer s := by
  simp only [Firing.pickAlly, Script.run_bind]
  rw [run_knownUnits]
  rfl

variable {s f action}

theorem mem_allies_iff (hs : s.Keyed) {id : UnitId} :
    id ∈ s.allies f action ↔
      ∃ u, s.unit? id = some u ∧ u.side = f.side ∧ u.alive = true ∧ f.suits action u = true := by
  simp only [allies, Firing.candidates, List.mem_map, List.mem_filter, List.mem_filterMap,
    Bool.and_eq_true]
  constructor
  · rintro ⟨u, ⟨⟨id', hlisted, hu⟩, halive, hsuits⟩, rfl⟩
    obtain ⟨v, hv, hside⟩ := unit?_of_mem_unitIds hs hlisted
    cases hu.symm.trans hv
    rw [hs id' u hu]
    exact ⟨u, hu, hside, halive, hsuits⟩
  · rintro ⟨u, hu, hside, halive, hsuits⟩
    have hlisted : id ∈ s.unitIds f.side none := (mem_unitIds_iff hs).2 ⟨u, hu, hside, rfl⟩
    exact ⟨u, ⟨⟨id, hlisted, hu⟩, halive, hsuits⟩, hs id u hu⟩

theorem length_allies_le : (s.allies f action).length ≤ 4294967296 := by
  have hcandidates : (s.allies f action).length ≤
      ((s.unitIds f.side none).filterMap s.unit?).length := by
    rw [allies, Firing.candidates, List.length_map]
    exact List.length_filter_le _ _
  have hlisted : (s.unitIds f.side none).length ≤ s.board.length := by
    rw [unitIds, List.length_map]
    exact List.length_filter_le _ _
  calc (s.allies f action).length
      ≤ ((s.unitIds f.side none).filterMap s.unit?).length := hcandidates
    _ ≤ (s.unitIds f.side none).length := List.length_filterMap_le _ _
    _ ≤ s.board.length := hlisted
    _ ≤ 4294967296 := s.length_board_le

/-- How an ally is picked: there is nobody to pick, or the lowest health decides, or one draw. -/
theorem run_pickAlly_eq (s : Sandbox) (f : Firing) (action : Action) :
    s.allies f action = [] ∧ (f.pickAlly action).run answer s = (none, s) ∨
    action.kind = .heal ∧ s.allies f action ≠ [] ∧
      (f.pickAlly action).run answer s = (s.lowestHealth? (s.allies f action), s) ∨
    ∃ id ∈ s.allies f action,
      (f.pickAlly action).run answer s = (some id, { s with dice := s.dice.drawn }) := by
  rw [run_pickAlly]
  by_cases hempty : s.allies f action = []
  · refine .inl ⟨hempty, ?_⟩
    rw [hempty]
    rfl
  · refine .inr ?_
    have hsome : (s.allies f action).isEmpty = false := by simpa using hempty
    unfold Firing.choose
    rw [hsome, if_neg Bool.false_ne_true]
    split
    · exact .inl ⟨rfl, hempty, rfl⟩
    · obtain ⟨id, hid, hpick⟩ := s.exists_of_pickRandom hempty length_allies_le
        (f.allyLabel (some action.kind))
      exact .inr ⟨id, hid, hpick⟩

/-- **Nobody is picked exactly if nobody is offered.** -/
theorem run_pickAlly_cases (hs : s.Keyed) (f : Firing) (action : Action) :
    s.allies f action = [] ∧ (f.pickAlly action).run answer s = (none, s) ∨
    ∃ id ∈ s.allies f action, ((f.pickAlly action).run answer s).1 = some id ∧
      s.OnlyDrew ((f.pickAlly action).run answer s).2 := by
  rcases s.run_pickAlly_eq f action with hnone | ⟨-, hne, hrun⟩ | ⟨id, hid, hrun⟩
  · exact .inl hnone
  · have hboard : ∀ id ∈ s.allies f action, (s.unit? id).isSome = true := by
      intro id hid
      obtain ⟨u, hu, -⟩ := (mem_allies_iff hs).1 hid
      rw [hu]
      rfl
    obtain ⟨id, hid, hlow⟩ := exists_of_lowestHealth? hs hne hboard
    rw [hrun]
    exact .inr ⟨id, hid, hlow, .refl s⟩
  · rw [hrun]
    exact .inr ⟨id, hid, rfl, s.onlyDrew_drawn⟩

/-! ## Targets -/

/-- The remembered ally is kept if it still serves; else one is picked and remembered. -/
theorem run_ally_eq (s : Sandbox) (f : Firing) (memory : Memory) (action : Action) :
    (∃ id u, memory.ally = some id ∧ s.unit? id = some u ∧ f.stillServes action u = true ∧
      (f.ally memory action).run answer s = ((some id, memory), s)) ∨
    (f.ally memory action).run answer s =
      let picked := (f.pickAlly action).run answer s
      ((picked.1, picked.1.elim memory fun y => { ally := some y }), picked.2) := by
  have hremembered := s.run_remembered f memory action
  have hstay : ((f.remembered memory action).run answer s).2 = s := congrArg Prod.snd hremembered
  cases hk : ((f.remembered memory action).run answer s).1 with
  | some id =>
    have hkept := (congrArg Prod.fst hremembered).symm.trans hk
    obtain ⟨hally, hserves⟩ := Option.filter_eq_some_iff.1 hkept
    obtain ⟨u, hu, hserves⟩ := (Option.any_eq_true _ _).1 hserves
    refine .inl ⟨id, u, hally, hu, hserves, ?_⟩
    rw [f.ally_of_kept answer memory action s hk, hstay]
  | none =>
    refine .inr ?_
    rw [f.ally_of_given_up answer memory action s hk, hstay]

theorem run_ally_cases (s : Sandbox) (f : Firing) (memory : Memory) (action : Action) :
    ((f.ally memory action).run answer s).2 = s ∨
      (∃ id, ((f.ally memory action).run answer s).1.1 = some id) ∧
        ((f.ally memory action).run answer s).2 = { s with dice := s.dice.drawn } := by
  rcases s.run_ally_eq f memory action with ⟨id, u, -, -, -, hkept⟩ | hpick
  · rw [hkept]
    exact .inl rfl
  · rw [hpick]
    rcases s.run_pickAlly_eq f action with ⟨-, hrun⟩ | ⟨-, -, hrun⟩ | ⟨id, -, hrun⟩ <;> rw [hrun]
    · exact .inl rfl
    · exact .inl rfl
    · exact .inr ⟨⟨id, rfl⟩, rfl⟩

/-- **Looking for a target leaves the sandbox as it was**, or finds a unit by one draw. -/
theorem run_target_cases (s : Sandbox) (f : Firing) (memory : Memory) (action : Action) :
    ((f.target memory action).run answer s).2 = s ∨
      (∃ id, ((f.target memory action).run answer s).1.1 = some id) ∧
        ((f.target memory action).run answer s).2 = { s with dice := s.dice.drawn } := by
  unfold Firing.target
  split
  · exact .inl rfl
  · exact .inl rfl
  · refine .inl ?_
    rw [Script.run_bind, run_opponent]
    rfl
  · exact .inl rfl
  · exact s.run_ally_cases f memory action

end CardDuel.Sandbox
