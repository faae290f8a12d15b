import CardDuel.Proofs.Script.Logic

/-!
# The moments of a run

A transcript tells what a script asked and what it was answered.  Where it matters what the host is
like when it is asked, a run is read as its moments: the requests together with the states of the
host that they find.

Principal results: `transcript_eq_moments` (the transcript is told by the moments), `moments_bind`,
`Asks.moments`, `told_of_moments` (what every request tells one moment more of is told by all
moments of a run), `related_of_moments` (a relation to the state at the start that the requests keep
holds at every moment).
-/

set_option autoImplicit false

namespace CardDuel

variable {α β σ : Type}

/-- A request and the state of the host that it finds. -/
structure Moment (σ : Type) where
  request : Request
  host : σ
  deriving DecidableEq

/-- The request together with the answer of a host. -/
def Moment.exchange (h : Handler σ) (m : Moment σ) : Exchange :=
  ⟨m.request, (h m.request m.host).1⟩

namespace Script

/-- The requests that a script makes, with the states of the host that they find, in order. -/
def moments (h : Handler σ) : Script α → σ → List (Moment σ)
  | .done _, _ => []
  | .ask q next, s => ⟨q, s⟩ :: (next (h q s).1).moments h (h q s).2

variable (h : Handler σ)

@[simp]
theorem moments_done (a : α) (s : σ) : (Script.done a).moments h s = [] := rfl

@[simp]
theorem moments_ask (q : Request) (next : q.Answer → Script α) (s : σ) :
    (Script.ask q next).moments h s = ⟨q, s⟩ :: (next (h q s).1).moments h (h q s).2 := rfl

@[simp]
theorem moments_bind (x : Script α) (f : α → Script β) (s : σ) :
    (x >>= f).moments h s = x.moments h s ++ (f (x.run h s).1).moments h (x.run h s).2 := by
  induction x generalizing s with
  | done a => rfl
  | ask q next ih => exact congrArg (_ :: ·) (ih _ _)

/-- **What was asked and answered is told by the moments.** -/
theorem transcript_eq_moments (x : Script α) (s : σ) :
    x.transcript h s = (x.moments h s).map (·.exchange h) := by
  induction x generalizing s with
  | done a => rfl
  | ask q next ih => exact congrArg (_ :: ·) (ih _ _)

variable {h}

/-- **A run makes only requests that the script can make**, at every moment. -/
theorem Asks.moments {P : Request → Prop} {x : Script α} (hx : x.Asks P) (s : σ) :
    ∀ m ∈ x.moments h s, P m.request := by
  intro m hm
  refine hx.transcript h s (m.exchange h) ?_
  rw [transcript_eq_moments]
  exact List.mem_map_of_mem hm

/-- **What one request tells by one moment, a run tells by its moments.** -/
theorem told_of_moments {R : List (Moment σ) → σ → Prop}
    (hstep : ∀ history q s, R history s → R (history ++ [⟨q, s⟩]) (h q s).2)
    {history : List (Moment σ)} {s : σ} (hs : R history s) (x : Script α) :
    R (history ++ x.moments h s) (x.run h s).2 := by
  induction x generalizing history s with
  | done a => simpa using hs
  | ask q next ih =>
    rw [moments_ask, ← List.singleton_append, ← List.append_assoc]
    exact ih _ (hstep history q s hs)

/-- **A relation to the state at the start that the requests keep holds at every moment**, and at
the end. -/
theorem related_of_moments {R : σ → σ → Prop} {P : Request → Prop} (hrefl : ∀ s, R s s)
    (htrans : ∀ s s' s'', R s s' → R s' s'' → R s s'') (hstep : ∀ q s, P q → R s (h q s).2)
    {x : Script α} {s : σ} (hx : ∀ m ∈ x.moments h s, P m.request) :
    (∀ m ∈ x.moments h s, R s m.host) ∧ R s (x.run h s).2 := by
  induction x generalizing s with
  | done a => exact ⟨List.forall_mem_nil _, hrefl s⟩
  | ask q next ih =>
    obtain ⟨hq, hrest⟩ := List.forall_mem_cons.1 hx
    have hfirst := hstep q s hq
    obtain ⟨hmoments, hend⟩ := ih _ hrest
    refine ⟨List.forall_mem_cons.2 ⟨hrefl s, fun m hm => ?_⟩, htrans _ _ _ hfirst hend⟩
    exact htrans _ _ _ hfirst (hmoments m hm)

end Script

end CardDuel
