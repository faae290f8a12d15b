import CardDuel.Proofs.Sandbox.Search

/-!
# Skipped actions

`skipped_leaves_no_trace`: an action that finds no target leaves the sandbox and the memory as they
were; an action without effect leaves everything but the number of draws and the memory.

Such an action comes to an end in one of two places.  The search for a target draws at most, and
only if it finds a unit (`onlyDrew_of_target`).  An effect that comes to nothing stopped at a
request that was answered with nothing, and such a request draws at most (`onlyDrew_of_yields`).
-/

set_option autoImplicit false

namespace CardDuel.Sandbox

variable (s : Sandbox) (f : Firing) (memory : Memory) (action : Action)

theorem onlyDrew_of_target :
    s.OnlyDrew ((f.target memory action).run answer s).2 ∧
      (((f.target memory action).run answer s).1.1 = none →
        ((f.target memory action).run answer s).2 = s) := by
  rcases s.run_target_cases f memory action with hstay | ⟨⟨id, hfound⟩, hdrawn⟩
  · rw [hstay]
    exact ⟨.refl s, fun _ => rfl⟩
  · rw [hdrawn, hfound]
    exact ⟨s.onlyDrew_drawn, fun hnone => by cases hnone⟩

variable {s}

theorem onlyDrew_of_yields {effect : Script Resolution} (heffect : Firing.Yields answer effect s) :
    (effect.run answer s).1 ≠ .noTarget ∧
      ((effect.run answer s).1 = .noEffect → s.OnlyDrew (effect.run answer s).2) := by
  rcases heffect with happlied | ⟨hidle, q, -, hlast, hbarren⟩
  · rw [happlied]
    exact ⟨nofun, nofun⟩
  · rw [hidle, hlast]
    exact ⟨nofun, fun _ => onlyDrew_of_barren hbarren⟩

variable (s)

/-- **A skipped action leaves no trace.**  For every sandbox, firing, memory and action, accepted by
the validation or not: without a target, the sandbox and the memory stay as they are; without an
effect, the sandbox stays as it is up to the number of draws, so no line is shown either. -/
theorem skipped_leaves_no_trace :
    let after := (f.resolve memory action).run answer s
    (after.1.1 = .noTarget → after.2 = s ∧ after.1.2 = memory) ∧
      (after.1.1 = .noEffect → s.OnlyDrew after.2) := by
  intro after
  have hafter : after = (f.resolve memory action).run answer s := rfl
  rw [Firing.resolve_eq] at hafter
  cases hp : f.plan action with
  | idle =>
    rw [hp] at hafter
    rw [hafter]
    exact ⟨nofun, fun _ => .refl s⟩
  | side effect =>
    rw [hp, Script.run_bind] at hafter
    obtain ⟨hsome, hidle⟩ := onlyDrew_of_yields (s := s) (Firing.yields_of_side hp)
    rw [hafter]
    exact ⟨fun hnone => absurd hnone hsome, hidle⟩
  | unit effect =>
    rw [hp] at hafter
    simp only [Firing.withTarget, Script.run_bind] at hafter
    obtain ⟨hdrew, hstay⟩ := s.onlyDrew_of_target f memory action
    have hmemory := f.memory_of_target answer memory action s
    cases hfound : ((f.target memory action).run answer s).1.1 with
    | none =>
      rw [hfound, hstay hfound] at hafter
      rw [hfound, Option.elim_none, ite_self] at hmemory
      rw [hafter]
      exact ⟨fun _ => ⟨rfl, hmemory⟩, nofun⟩
    | some id =>
      simp only [hfound, Script.run_bind] at hafter
      obtain ⟨hsome, hidle⟩ := onlyDrew_of_yields
        (s := ((f.target memory action).run answer s).2) (Firing.yields_of_unit hp id)
      rw [hafter]
      exact ⟨fun hnone => absurd hnone hsome, fun h => hdrew.trans (hidle h)⟩

/-- A healthy guard alone on its side. -/
def calm : Sandbox := (start {}).place (.fresh ⟨1⟩ "guard" "Guard" .player .front 2 5)

def patrol : Firing :=
  { cardId := "guard", event := .turnStart, side := .player, source := ⟨1⟩, sourceName := "Guard",
    turn := 1, combat := none, settings := {} }

/-- A heal finds nobody; a cleanse of anybody draws and remembers the guard, in vain. -/
theorem skipped_leaves_no_trace_calm :
    ((patrol.resolve {} (.heal .ally 2)).run answer calm).2 = calm ∧
      ((patrol.resolve {} (.cleanse .ally none)).run answer calm).1 =
        (.noEffect, { ally := some ⟨1⟩ }) ∧
      ((patrol.resolve {} (.cleanse .ally none)).run answer calm).2.dice.draws = 1 ∧
      calm.OnlyDrew ((patrol.resolve {} (.cleanse .ally none)).run answer calm).2 := by
  obtain ⟨hvoid, -⟩ := skipped_leaves_no_trace calm patrol {} (.heal .ally 2)
  obtain ⟨-, hidle⟩ := skipped_leaves_no_trace calm patrol {} (.cleanse .ally none)
  exact ⟨(hvoid (by decide +kernel)).1, by decide +kernel, by decide +kernel,
    hidle (by decide +kernel)⟩

end CardDuel.Sandbox
