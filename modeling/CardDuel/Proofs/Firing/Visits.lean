import CardDuel.Proofs.Firing.Target
import CardDuel.Proofs.Script.Moments

/-!
# The actions of a run

A run of a list of actions comes to one action after the other.  A `Visit` is one of them as the run
finds it: what is remembered and the state of the host.  All that the run does is in its visits.

* `deeds_eq_visits`, `moments_eq_visits`, `transcript_eq_visits` — the results of
  `Firing.resolveAll` are those of its visits, and so are its requests, in order.
* `after_eq`, `change_of_subject` — what one visit remembers and which unit it changes.
-/

set_option autoImplicit false

namespace CardDuel

/-- An action as a run comes to it. -/
structure Visit (σ : Type) where
  firing : Firing
  memory : Memory
  action : Action
  host : σ

namespace Visit

variable {σ : Type} (h : Handler σ) (v : Visit σ)

def script : Script (Resolution × Memory) := v.firing.resolve v.memory v.action

/-- What becomes of the action. -/
def result : Resolution := (v.script.run h v.host).1.1

/-- What is remembered after it. -/
def after : Memory := (v.script.run h v.host).1.2

/-- The state of the host after it. -/
def hostAfter : σ := (v.script.run h v.host).2

/-- The exchanges with the host that belong to it. -/
def transcript : List Exchange := v.script.transcript h v.host

/-- The moments that belong to it. -/
def moments : List (Moment σ) := v.script.moments h v.host

theorem transcript_eq_moments : v.transcript h = (v.moments h).map (·.exchange h) :=
  Script.transcript_eq_moments h v.script v.host

/-- The unit that the action resolves to, for an action that gets as far as looking for it. -/
def resolved : Option UnitId :=
  match v.firing.plan v.action with
  | .unit _ => ((v.firing.target v.memory v.action).run h v.host).1.1
  | .idle | .side _ => none

def deed : Deed := ⟨v.action, v.memory, v.result h, v.after h⟩

end Visit

namespace Firing

variable {σ : Type} (h : Handler σ) (f : Firing)

/-- The visits of a run of a list of actions. -/
def visits : Memory → List Action → σ → List (Visit σ)
  | _, [], _ => []
  | memory, action :: actions, s =>
    let step := (f.resolve memory action).run h s
    ⟨f, memory, action, s⟩ :: visits step.1.2 actions step.2

theorem firing_of_mem_visits {memory : Memory} {actions : List Action} {s : σ} {v : Visit σ}
    (hv : v ∈ f.visits h memory actions s) : v.firing = f ∧ v.action ∈ actions := by
  induction actions generalizing memory s with
  | nil => cases hv
  | cons action actions ih =>
    rcases List.mem_cons.1 hv with rfl | hv
    · exact ⟨rfl, List.mem_cons_self⟩
    · exact ⟨(ih hv).1, List.mem_cons_of_mem _ (ih hv).2⟩

/-- A run comes to all of its actions, in order. -/
theorem map_action_visits (memory : Memory) (actions : List Action) (s : σ) :
    (f.visits h memory actions s).map (·.action) = actions := by
  induction actions generalizing memory s with
  | nil => rfl
  | cons action actions ih => rw [visits, List.map_cons, ih]

/-- **The results of a run are those of its visits.** -/
theorem deeds_eq_visits (memory : Memory) (actions : List Action) (s : σ) :
    ((f.resolveAll memory actions).run h s).1 = (f.visits h memory actions s).map (·.deed h) := by
  induction actions generalizing memory s with
  | nil => rfl
  | cons action actions ih =>
    simp only [resolveAll, Script.run_bind, visits, List.map_cons, ← ih]
    rfl

/-- **The moments of a run are those of its visits, in order.** -/
theorem moments_eq_visits (memory : Memory) (actions : List Action) (s : σ) :
    (f.resolveAll memory actions).moments h s =
      (f.visits h memory actions s).flatMap (·.moments h) := by
  induction actions generalizing memory s with
  | nil => rfl
  | cons action actions ih =>
    simp only [resolveAll, Script.moments_bind, visits, List.flatMap_cons, ← ih]
    exact congrArg _ (List.append_nil _)

/-- **The requests of a run are those of its visits, in order.** -/
theorem transcript_eq_visits (memory : Memory) (actions : List Action) (s : σ) :
    (f.resolveAll memory actions).transcript h s =
      (f.visits h memory actions s).flatMap (·.transcript h) := by
  simp only [Script.transcript_eq_moments, moments_eq_visits, List.map_flatMap,
    Visit.transcript_eq_moments]

/-- **What every action keeps holds at every visit.** -/
theorem forall_visits {I : σ → Prop} {M : Memory → Prop}
    (hkeeps : ∀ memory action, M memory →
      Script.Keeps h I (f.resolve memory action) fun r => M r.2)
    {memory : Memory} {actions : List Action} {s : σ} (hm : M memory) (hs : I s) :
    ∀ v ∈ f.visits h memory actions s, I v.host ∧ M v.memory := by
  induction actions generalizing memory s with
  | nil => intro v hv; cases hv
  | cons action actions ih =>
    intro v hv
    rcases List.mem_cons.1 hv with rfl | hv
    · exact ⟨hs, hm⟩
    · obtain ⟨hs', hm'⟩ := hkeeps memory action hm s hs
      exact ih hm' hs' v hv

/-- What all requests keep holds at every visit. -/
theorem host_of_mem_visits {I : σ → Prop} (hstep : ∀ q s, I s → I (h q s).2) {memory : Memory}
    {actions : List Action} {s : σ} (hs : I s) {v : Visit σ}
    (hv : v ∈ f.visits h memory actions s) : I v.host :=
  (f.forall_visits h (M := fun _ => True)
    (fun _ _ _ _ hs => ⟨Script.host_of_run hstep hs, trivial⟩) trivial hs v hv).1

end Firing

/-! ## One visit -/

namespace Visit

variable {σ : Type} (h : Handler σ) (v : Visit σ)

theorem resolved_of_unit {effect : UnitId → Script Resolution}
    (hp : v.firing.plan v.action = .unit effect) :
    v.resolved h = ((v.firing.target v.memory v.action).run h v.host).1.1 := by
  simp only [resolved, hp]

/-- An action resolves to a unit by following a plan that acts on one. -/
theorem plan_of_resolved {y : UnitId} (hy : v.resolved h = some y) :
    ∃ effect, v.firing.plan v.action = .unit effect := by
  unfold resolved at hy
  split at hy
  · rename_i effect hp
    exact ⟨effect, hp⟩
  · cases hy
  · cases hy

/-- The exchanges of an action on a unit: the search, then the effect on what was found. -/
theorem transcript_of_unit {effect : UnitId → Script Resolution}
    (hp : v.firing.plan v.action = .unit effect) :
    v.transcript h = (v.firing.target v.memory v.action).transcript h v.host ++
      (v.resolved h).elim [] fun y =>
        (effect y).transcript h ((v.firing.target v.memory v.action).run h v.host).2 := by
  rw [v.resolved_of_unit h hp, transcript, script, Firing.resolve_eq, hp]
  simp only [Firing.withTarget, Script.transcript_bind]
  cases ((v.firing.target v.memory v.action).run h v.host).1.1 with
  | none => rfl
  | some y => exact congrArg _ (by rw [Script.transcript_bind]; exact List.append_nil _)

/-- An action on a unit looks for it, then acts on it if there is one. -/
theorem run_of_unit {effect : UnitId → Script Resolution}
    (hp : v.firing.plan v.action = .unit effect) :
    v.script.run h v.host =
      let found := (v.firing.target v.memory v.action).run h v.host
      (v.resolved h).elim ((.noTarget, found.1.2), found.2) fun y =>
        let done := (effect y).run h found.2
        ((done.1, found.1.2), done.2) := by
  rw [v.resolved_of_unit h hp, script, Firing.resolve_eq, hp]
  simp only [Firing.withTarget, Script.run_bind]
  cases ((v.firing.target v.memory v.action).run h v.host).1.1 with
  | none => rfl
  | some y => simp only [Script.run_bind]; rfl

theorem result_of_unit {effect : UnitId → Script Resolution}
    (hp : v.firing.plan v.action = .unit effect) :
    v.result h = (v.resolved h).elim .noTarget fun y =>
      ((effect y).run h ((v.firing.target v.memory v.action).run h v.host).2).1 := by
  rw [result, v.run_of_unit h hp]
  cases v.resolved h <;> rfl

theorem hostAfter_of_unit {effect : UnitId → Script Resolution}
    (hp : v.firing.plan v.action = .unit effect) :
    v.hostAfter h =
      (v.resolved h).elim ((v.firing.target v.memory v.action).run h v.host).2 fun y =>
        ((effect y).run h ((v.firing.target v.memory v.action).run h v.host).2).2 := by
  rw [hostAfter, v.run_of_unit h hp]
  cases v.resolved h <;> rfl

/-- **What is remembered after an action**: an ally that it resolved to, else what was before. -/
theorem after_eq :
    v.after h = if v.action.target? = some .ally then
        (v.resolved h).elim v.memory fun y => { ally := some y }
      else v.memory := by
  rw [after, script, Firing.resolve_eq]
  cases hp : v.firing.plan v.action with
  | idle => simp [resolved, hp]
  | side effect => simp [resolved, hp]
  | unit effect =>
    rw [v.resolved_of_unit h hp, ← Firing.memory_of_target]
    simp only [Firing.withTarget, Script.run_bind]
    cases ((v.firing.target v.memory v.action).run h v.host).1.1 <;> simp

/-- **Whatever unit an action changes, it is the one that the action resolves to**, and the change
is the one that the action stands for. -/
theorem change_of_subject {e : Exchange} (he : e ∈ v.transcript h) {id : UnitId}
    (hid : e.request.subject? = some id) :
    v.resolved h = some id ∧ v.firing.change? id v.action = some e.request := by
  cases hp : v.firing.plan v.action with
  | idle =>
    rw [transcript, script, Firing.resolve_eq, hp] at he
    cases he
  | side effect =>
    rw [transcript, script, Firing.resolve_eq, hp, Script.transcript_bind] at he
    rcases List.mem_append.1 he with he | he
    · rcases (Firing.asks_side_plan hp).transcript h v.host e he with hq | hq
      · cases (Request.subject?_of_side? hq).symm.trans hid
      · cases (Request.subject?_of_isLog hq).symm.trans hid
    · cases he
  | unit effect =>
    rw [v.transcript_of_unit h hp] at he
    rcases List.mem_append.1 he with he | he
    · rcases (Firing.asks_target _ _ _).transcript h v.host e he with hq | hq
      · cases (Request.subject?_of_isRead hq).symm.trans hid
      · cases (Request.subject?_of_isChoice hq).symm.trans hid
    · cases hy : v.resolved h with
      | none => rw [hy] at he; cases he
      | some y =>
        rw [hy] at he
        rcases (Firing.asks_unit_plan hp y).transcript h _ e he with hq | hq | hq
        · cases (Firing.subject?_of_change? hq).symm.trans hid
          exact ⟨rfl, hq⟩
        · rw [hq] at hid
          cases hid
        · cases (Request.subject?_of_isLog hq).symm.trans hid

end Visit

end CardDuel
