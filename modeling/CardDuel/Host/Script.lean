import CardDuel.Host.Request

/-!
# Scripts of requests

What the rules do is a script: a result, or a request and what to do with its answer.  A script says
nothing about the host, so a statement about a script holds for every host.

A host is a `Handler`: a function from requests and host states to answers and new states.  A read
may change the state too, so a handler can answer the same question differently each time.
`Script.run` runs a script against a handler, and `Script.transcript` lists the requests it makes
there with their answers.

Principal statements: `run_bind`, `transcript_bind` (a script in two parts runs as one after the
other); scripts form a lawful monad.
-/

set_option autoImplicit false

namespace CardDuel

/-- A computation that asks a host. -/
inductive Script (α : Type) : Type where
  | done (a : α)
  | ask (q : Request) (next : q.Answer → Script α)

/-- A host with states of a given type. -/
abbrev Handler (σ : Type) := (q : Request) → σ → q.Answer × σ

namespace Script

variable {α β σ : Type}

/-- Runs a script, then the one that its result selects. -/
protected def bind : Script α → (α → Script β) → Script β
  | .done a, f => f a
  | .ask q next, f => .ask q fun r => (next r).bind f

instance : Monad Script where
  pure := .done
  bind := Script.bind

/-- The script that makes one request and returns the answer. -/
def request (q : Request) : Script q.Answer := .ask q .done

@[simp]
theorem pure_eq (a : α) : (pure a : Script α) = .done a := rfl

@[simp]
theorem done_bind (a : α) (f : α → Script β) : (Script.done a >>= f) = f a := rfl

@[simp]
theorem ask_bind (q : Request) (next : q.Answer → Script α) (f : α → Script β) :
    (Script.ask q next >>= f) = .ask q fun r => next r >>= f := rfl

@[simp]
theorem request_bind (q : Request) (f : q.Answer → Script β) : (request q >>= f) = .ask q f := rfl

protected theorem bind_pure (s : Script α) : s >>= pure = s := by
  induction s with
  | done a => rfl
  | ask q next ih => exact congrArg (Script.ask q) (funext ih)

protected theorem bind_assoc {γ : Type} (s : Script α) (f : α → Script β) (g : β → Script γ) :
    s >>= f >>= g = s >>= fun a => f a >>= g := by
  induction s with
  | done a => rfl
  | ask q next ih => exact congrArg (Script.ask q) (funext ih)

instance : LawfulMonad Script :=
  LawfulMonad.mk' Script Script.bind_pure (fun _ _ => rfl) Script.bind_assoc

/-! ## Running -/

/-- The result of a script and the state it leaves the host in. -/
def run (h : Handler σ) : Script α → σ → α × σ
  | .done a, s => (a, s)
  | .ask q next, s => (next (h q s).1).run h (h q s).2

/-- The requests that a script makes to a host, with their answers, in order. -/
def transcript (h : Handler σ) : Script α → σ → List Exchange
  | .done _, _ => []
  | .ask q next, s => ⟨q, (h q s).1⟩ :: (next (h q s).1).transcript h (h q s).2

@[simp]
theorem run_done (h : Handler σ) (a : α) (s : σ) : (Script.done a).run h s = (a, s) := rfl

theorem run_ask (h : Handler σ) (q : Request) (next : q.Answer → Script α) (s : σ) :
    (Script.ask q next).run h s = (next (h q s).1).run h (h q s).2 := rfl

@[simp]
theorem run_bind (h : Handler σ) (x : Script α) (f : α → Script β) (s : σ) :
    (x >>= f).run h s = (f (x.run h s).1).run h (x.run h s).2 := by
  induction x generalizing s with
  | done a => rfl
  | ask q next ih => exact ih _ _

@[simp]
theorem transcript_bind (h : Handler σ) (x : Script α) (f : α → Script β) (s : σ) :
    (x >>= f).transcript h s =
      x.transcript h s ++ (f (x.run h s).1).transcript h (x.run h s).2 := by
  induction x generalizing s with
  | done a => rfl
  | ask q next ih => exact congrArg (_ :: ·) (ih _ _)

end Script

end CardDuel
