import CardDuel.Host.Script

/-!
# Reasoning about scripts

Two ways to say what a script does.

* `Script.Asks P x` — whatever the host answers, the script `x` makes no request outside `P`.  No
  host is mentioned, so the requests of a run can be bounded without running.
* `Script.Keeps h I x Q` — run against the host `h`, the script `x` keeps the invariant `I` of the
  host's states and returns a result in `Q`.

Principal results: `Asks.bind`, `Keeps.bind` (both go through the parts of a script),
`Asks.transcript` (the requests of every run), `Keeps.of_asks` (a script keeps what each of its
requests keeps), `host_of_run` (every script keeps what all requests keep).
-/

set_option autoImplicit false

namespace CardDuel.Script

variable {α β σ : Type}

@[simp]
theorem transcript_done (h : Handler σ) (a : α) (s : σ) : (Script.done a).transcript h s = [] := rfl

@[simp]
theorem transcript_ask (h : Handler σ) (q : Request) (next : q.Answer → Script α) (s : σ) :
    (Script.ask q next).transcript h s =
      ⟨q, (h q s).1⟩ :: (next (h q s).1).transcript h (h q s).2 := rfl

/-! ## Requests that a script can make -/

/-- Every request of the script satisfies `P`, on every path through the host's answers. -/
def Asks (P : Request → Prop) : Script α → Prop
  | .done _ => True
  | .ask q next => P q ∧ ∀ r, (next r).Asks P

variable {P P' : Request → Prop}

@[simp]
theorem asks_request (q : Request) : (request q).Asks P ↔ P q := by
  simp [request, Asks]

theorem Asks.bind {x : Script α} {f : α → Script β} (hx : x.Asks P) (hf : ∀ a, (f a).Asks P) :
    (x >>= f).Asks P := by
  induction x with
  | done a => exact hf a
  | ask q next ih => exact ⟨hx.1, fun r => ih r (hx.2 r)⟩

theorem Asks.mono {x : Script α} (hx : x.Asks P) (hP : ∀ q, P q → P' q) : x.Asks P' := by
  induction x with
  | done a => trivial
  | ask q next ih => exact ⟨hP q hx.1, fun r => ih r (hx.2 r)⟩

/-- **A run makes only requests that the script can make.** -/
theorem Asks.transcript {x : Script α} (hx : x.Asks P) (h : Handler σ) (s : σ) :
    ∀ e ∈ x.transcript h s, P e.request := by
  induction x generalizing s with
  | done a => intro e he; cases he
  | ask q next ih =>
    intro e he
    rcases List.mem_cons.1 he with rfl | he
    · exact hx.1
    · exact ih _ (hx.2 _) _ e he

/-! ## Invariants of the host -/

/-- From a state in `I` the script ends in a state in `I`, with a result in `Q`. -/
def Keeps (h : Handler σ) (I : σ → Prop) (x : Script α) (Q : α → Prop) : Prop :=
  ∀ s, I s → I (x.run h s).2 ∧ Q (x.run h s).1

variable {h : Handler σ} {I : σ → Prop} {Q : α → Prop}

theorem Keeps.done {a : α} (hq : Q a) : Keeps h I (.done a) Q :=
  fun _ hs => ⟨hs, hq⟩

theorem Keeps.ask {q : Request} {next : q.Answer → Script α} {A : q.Answer → Prop}
    (hq : ∀ s, I s → I (h q s).2 ∧ A (h q s).1) (hn : ∀ r, A r → Keeps h I (next r) Q) :
    Keeps h I (.ask q next) Q := fun s hs =>
  hn _ (hq s hs).2 _ (hq s hs).1

theorem Keeps.ask_any {q : Request} {next : q.Answer → Script α} (hq : ∀ s, I s → I (h q s).2)
    (hn : ∀ r, Keeps h I (next r) Q) : Keeps h I (.ask q next) Q :=
  .ask (A := fun _ => True) (fun s hs => ⟨hq s hs, trivial⟩) fun r _ => hn r

theorem Keeps.bind {x : Script α} {f : α → Script β} {R : β → Prop} (hx : Keeps h I x Q)
    (hf : ∀ a, Q a → Keeps h I (f a) R) : Keeps h I (x >>= f) R := fun s hs => by
  rw [run_bind]
  exact hf _ (hx s hs).2 _ (hx s hs).1

theorem Keeps.mono {x : Script α} {Q' : α → Prop} (hx : Keeps h I x Q) (hQ : ∀ a, Q a → Q' a) :
    Keeps h I x Q' := fun s hs =>
  ⟨(hx s hs).1, hQ _ (hx s hs).2⟩

/-- **A script keeps what each of its requests keeps.** -/
theorem Keeps.of_asks {x : Script α} (hx : x.Asks P) (hP : ∀ q s, P q → I s → I (h q s).2) :
    Keeps h I x fun _ => True := by
  induction x with
  | done a => exact .done trivial
  | ask q next ih => exact .ask_any (fun s hs => hP q s hx.1 hs) fun r => ih r (hx.2 r)

/-- **What every request keeps is kept by every script.** -/
theorem host_of_run (hstep : ∀ q s, I s → I (h q s).2) {x : Script α} {s : σ} (hs : I s) :
    I (x.run h s).2 := by
  induction x generalizing s with
  | done a => exact hs
  | ask q next ih => exact ih _ (hstep q s hs)

end CardDuel.Script
