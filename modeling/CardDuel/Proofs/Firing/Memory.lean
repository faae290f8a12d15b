import CardDuel.Proofs.Firing.Visits

/-!
# What the memory of a firing is for

Only actions on an ally read the memory or change it.

* `resolveAll_append` — two lists of actions in one firing: the second starts with what the first
  leaves in memory.
* `following_of_no_ally` — actions without an ally leave the memory as it was.
* `host_of_no_ally` — actions without an ally do the same whatever is remembered.
-/

set_option autoImplicit false

namespace CardDuel

/-- What is remembered after some actions that started with a memory. -/
def Memory.following (memory : Memory) (deeds : List Deed) : Memory :=
  deeds.foldl (fun _ deed => deed.after) memory

namespace Firing

/-- None of the actions looks for an ally. -/
def NoAlly (actions : List Action) : Prop := ∀ action ∈ actions, action.target? ≠ some .ally

instance (actions : List Action) : Decidable (NoAlly actions) :=
  inferInstanceAs (Decidable (∀ action ∈ actions, action.target? ≠ some .ally))

/-- **Two lists of actions in one firing.** -/
theorem resolveAll_append (f : Firing) (memory : Memory) (first second : List Action) :
    f.resolveAll memory (first ++ second) = do
      let deeds ← f.resolveAll memory first
      let others ← f.resolveAll (memory.following deeds) second
      return deeds ++ others := by
  induction first generalizing memory with
  | nil => exact (bind_pure _).symm
  | cons action first ih =>
    simp only [List.cons_append, resolveAll, ih, bind_assoc, pure_bind, Memory.following,
      List.foldl_cons]

variable {σ : Type} (h : Handler σ) (f : Firing)

/-- **Without an ally the memory stays.** -/
theorem following_of_no_ally {actions : List Action} (hnone : NoAlly actions) (memory : Memory)
    (s : σ) : memory.following ((f.resolveAll memory actions).run h s).1 = memory := by
  induction actions generalizing s with
  | nil => rfl
  | cons action actions ih =>
    obtain ⟨hhead, htail⟩ := List.forall_mem_cons.1 hnone
    have hafter : ((f.resolve memory action).run h s).1.2 = memory :=
      ((⟨f, memory, action, s⟩ : Visit σ).after_eq h).trans (if_neg hhead)
    simp only [resolveAll, Script.run_bind, Script.pure_eq, Script.run_done, Memory.following,
      List.foldl_cons]
    rw [hafter]
    exact ih htail _

/-- A target that is no ally is found in the same way whatever is remembered. -/
theorem target_of_no_ally {action : Action} (hnone : action.target? ≠ some .ally)
    (memory memory' : Memory) :
    f.target memory action = do return ((← f.target memory' action).1, memory) := by
  unfold target
  split
  · rfl
  · rfl
  · simp only [bind_assoc, pure_bind]
  · rfl
  · rename_i hally
    exact absurd hally hnone

/-- So is the action carried out. -/
theorem resolve_of_no_ally {action : Action} (hnone : action.target? ≠ some .ally)
    (memory memory' : Memory) :
    f.resolve memory action = do return ((← f.resolve memory' action).1, memory) := by
  rw [resolve_eq, resolve_eq]
  cases f.plan action with
  | idle => rfl
  | side effect => simp only [bind_assoc, pure_bind]
  | unit effect =>
    simp only [withTarget]
    rw [f.target_of_no_ally hnone memory memory']
    simp only [bind_assoc, pure_bind]
    refine bind_congr fun found => ?_
    cases found.1 <;> simp only [bind_assoc, pure_bind]

/-- **Without an ally it does not matter what is remembered.** -/
theorem host_of_no_ally {actions : List Action} (hnone : NoAlly actions) (memory memory' : Memory)
    (s : σ) :
    ((f.resolveAll memory actions).run h s).2 = ((f.resolveAll memory' actions).run h s).2 := by
  induction actions generalizing memory memory' s with
  | nil => rfl
  | cons action actions ih =>
    obtain ⟨hhead, htail⟩ := List.forall_mem_cons.1 hnone
    have hhost : ((f.resolve memory action).run h s).2 = ((f.resolve memory' action).run h s).2 := by
      rw [f.resolve_of_no_ally hhead memory memory', Script.run_bind]
      rfl
    simp only [resolveAll, Script.run_bind, Script.pure_eq, Script.run_done]
    rw [hhost]
    exact ih htail _ _ _

end Firing

end CardDuel
