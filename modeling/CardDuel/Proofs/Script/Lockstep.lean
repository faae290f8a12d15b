import CardDuel.Proofs.Script.Logic

/-!
# Two runs of a script

What a script does from two states of a host is compared by one run against two copies of the host,
which are asked the same requests (`Handler.lockstep`).  The first copy answers, and the pair of
states carries along whether the second would have answered the same so far.

Principal results: `run_lockstep` (as long as the answers agree, the second copy is where a run of
its own would be), `Keeps.agree` (a relation of the two states that is kept in lockstep, with equal
answers, relates the results of the two runs).
-/

set_option autoImplicit false

namespace CardDuel

variable {α σ : Type}

/-- Two copies of a host under the same requests.  The last component says whether their answers
have agreed. -/
def Handler.lockstep (h : Handler σ) : Handler (σ × σ × Prop) := fun q t =>
  ((h q t.1).1, (h q t.1).2, (h q t.2.1).2, t.2.2 ∧ (h q t.2.1).1 = (h q t.1).1)

namespace Script

variable {h : Handler σ} {R : σ → σ → Prop}

theorem run_lockstep_fst (h : Handler σ) (x : Script α) (s s' : σ) (p : Prop) :
    (x.run h.lockstep (s, s', p)).1 = (x.run h s).1 ∧
      (x.run h.lockstep (s, s', p)).2.1 = (x.run h s).2 := by
  induction x generalizing s s' p with
  | done a => exact ⟨rfl, rfl⟩
  | ask q next ih => exact ih _ _ _ _

/-- **As long as the answers agree, the second copy is where a run of its own would be.** -/
theorem run_lockstep (h : Handler σ) (x : Script α) (s s' : σ) (p : Prop)
    (hp : (x.run h.lockstep (s, s', p)).2.2.2) :
    p ∧ (x.run h s').1 = (x.run h s).1 ∧
      (x.run h s').2 = (x.run h.lockstep (s, s', p)).2.2.1 := by
  induction x generalizing s s' p with
  | done a => exact ⟨hp, rfl, rfl⟩
  | ask q next ih =>
    obtain ⟨⟨hp, hanswer⟩, hresult, hstate⟩ := ih _ _ _ _ hp
    refine ⟨hp, ?_, ?_⟩
    · rw [run_ask, run_ask, hanswer]
      exact hresult
    · rw [run_ask, hanswer]
      exact hstate

/-- The answers have agreed and the states are related. -/
def InStep (R : σ → σ → Prop) (t : σ × σ × Prop) : Prop := t.2.2 ∧ R t.1 t.2.1

/-- A request that related states answer alike and that leaves them related is kept in lockstep. -/
theorem Keeps.in_step {q : Request} {A : q.Answer → Prop}
    (hq : ∀ s s', R s s' → (h q s).1 = (h q s').1 ∧ R (h q s).2 (h q s').2 ∧ A (h q s).1) :
    Keeps h.lockstep (InStep R) (request q) A := by
  rintro ⟨s, s', p⟩ ⟨hp, hR⟩
  obtain ⟨hanswer, hstate, hA⟩ := hq s s' hR
  exact ⟨⟨⟨hp, hanswer.symm⟩, hstate⟩, hA⟩

/-- **A script kept in lockstep gives the same result from related states**, and leaves them
related. -/
theorem Keeps.agree {x : Script α} {Q : α → Prop} (hx : Keeps h.lockstep (InStep R) x Q) {s s' : σ}
    (hR : R s s') :
    (x.run h s).1 = (x.run h s').1 ∧ R (x.run h s).2 (x.run h s').2 ∧ Q (x.run h s).1 := by
  obtain ⟨⟨hp, hstate⟩, hQ⟩ := hx (s, s', True) ⟨trivial, hR⟩
  obtain ⟨hfst, hleft⟩ := run_lockstep_fst h x s s' True
  obtain ⟨-, hresult, hright⟩ := run_lockstep h x s s' True hp
  rw [hleft, ← hright] at hstate
  rw [hfst] at hQ
  exact ⟨hresult.symm, hstate, hQ⟩

end Script

end CardDuel
