import CardDuel.Engine
import CardDuel.Sandbox.Host

/-!
# Rehearsals

A rehearsal plays a match step by step on a sandbox and keeps every exchange that is not a mere
read.  It can also set traps for the rules: hide units from them, force the answers of choices, and
change or hide a unit in the middle of an event, after a given number of log lines.

`Rehearsal.answer` is the sandbox as the rules see it through these traps; `Rehearsal.step` plays
one step.

Principal statement: `answer_eq_sandbox`, without traps the rules see the sandbox.
-/

set_option autoImplicit false

namespace CardDuel

/-- New values for some fields of a unit. -/
structure Edit where
  cardId : Option String := none
  name : Option String := none
  attack : Option Int32 := none
  health : Option Int32 := none
  maxHealth : Option Int32 := none
  shield : Option UInt32 := none
  stunUntil : Option (Option UInt32) := none
  exposedUntil : Option (Option UInt32) := none
  attackPenalty : Option UInt32 := none
  attackPenaltyUntil : Option (Option UInt32) := none
  deriving DecidableEq, Repr

/-- Puts the new values in place. -/
def Edit.apply (e : Edit) (u : BoardUnit) : BoardUnit :=
  { u with
    cardId := e.cardId.getD u.cardId
    name := e.name.getD u.name
    attack := e.attack.getD u.attack
    health := e.health.getD u.health
    maxHealth := e.maxHealth.getD u.maxHealth
    shield := e.shield.getD u.shield
    stunUntil := e.stunUntil.getD u.stunUntil
    exposedUntil := e.exposedUntil.getD u.exposedUntil
    attackPenalty := e.attackPenalty.getD u.attackPenalty
    attackPenaltyUntil := e.attackPenaltyUntil.getD u.attackPenaltyUntil }

/-- What is to happen to a unit when its countdown of log lines runs out: an edit, or, without one,
that it is hidden. -/
structure Hook where
  unit : UnitId
  countdown : Nat
  edit : Option Edit
  deriving DecidableEq, Repr

/-- A sandbox and its traps: units that the rules cannot see, answers for the next choices, and
hooks.  The memory is of the last action tried on its own, the record of the current step. -/
structure Rehearsal where
  sandbox : Sandbox
  hidden : List UnitId := []
  forced : List (Option UnitId) := []
  hooks : List Hook := []
  saves : List (String × Sandbox) := []
  memory : Memory := {}
  record : List Exchange := []

namespace Rehearsal

export CardDuel (Occasion)

/-! ## The sandbox behind traps -/

/-- Keeps an exchange. -/
def keep (r : Rehearsal) (x : Exchange) : Rehearsal := { r with record := r.record ++ [x] }

/-- Lets the sandbox answer, and keeps the exchange. -/
def delegate (q : Request) (r : Rehearsal) : q.Answer × Rehearsal :=
  let (a, sandbox) := Sandbox.answer q r.sandbox
  (a, { r with sandbox }.keep ⟨q, a⟩)

/-- Changes a unit, or hides it. -/
def springHook (r : Rehearsal) (h : Hook) : Rehearsal :=
  match h.edit with
  | some e => { r with sandbox := r.sandbox.edit h.unit e.apply }
  | none => { r with hidden := h.unit :: r.hidden }

/-- Counts a log line and sets off the hooks that are due, in the order in which they were set. -/
def countLine (r : Rehearsal) : Rehearsal :=
  let (due, waiting) := r.hooks.partition (·.countdown ≤ 1)
  due.foldl springHook
    { r with hooks := waiting.map fun h => { h with countdown := h.countdown - 1 } }

/-- The sandbox as the rules see it. -/
def answer : Handler Rehearsal
  | .unitIds side lane, r =>
    ((r.sandbox.unitIds side lane).filter fun id => !r.hidden.contains id, r)
  | .unit id, r => (if r.hidden.contains id then none else r.sandbox.unit? id, r)
  | .pickRandom candidates label, r => match r.forced with
    | [] => delegate (.pickRandom candidates label) r
    | id :: forced => (id, { r with forced }.keep ⟨.pickRandom candidates label, id⟩)
  | .pickLowestHealth candidates, r => match r.forced with
    | [] => delegate (.pickLowestHealth candidates) r
    | id :: forced => (id, { r with forced }.keep ⟨.pickLowestHealth candidates, id⟩)
  | .log line, r => ((), (delegate (.log line) r).2.countLine)
  | q, r => delegate q r

/-! ## Steps -/

/-- A step.  An occasion happens at the turn of the sandbox unless another is given.  An action is
tried on its own, or only its target is looked for, with the memory of the last one if it is to be
kept. -/
inductive Step where
  | summon (card : String) (side : Side)
  | place (unit : BoardUnit)
  | edit (id : UnitId) (e : Edit)
  | deck (side : Side) (cards : List String)
  | leader (side : Side) (health : Int32)
  | advance
  | save (name : String)
  | restore (name : String)
  | hide (id : UnitId)
  | reveal (id : UnitId)
  | force (answers : List (Option UnitId))
  | hook (h : Hook)
  | fire (occasion : Occasion) (side : Side) (unit : UnitId) (turn : Option UInt32)
  | resolve (f : Firing) (action : Action) (keepMemory : Bool)
  | target (f : Firing) (action : Action) (keepMemory : Bool)
  | request (q : Request)
  | source (id : UnitId) (status : Status)

/-- What a step shows; with an action or a target that was tried also what is remembered. -/
inductive Outcome where
  | nothing
  | flag (b : Bool)
  | turn (n : UInt32)
  | id (id : Option UnitId)
  | text (s : Option String)
  | answer (x : Exchange)
  | resolution (result : Resolution) (memory : Memory)
  | target (id : Option UnitId) (memory : Memory)

/-- The memory that an action is tried with. -/
def startMemory (r : Rehearsal) (keepMemory : Bool) : Memory :=
  if keepMemory then r.memory else {}

/-- Plays one step. -/
def play (e : Engine) (r : Rehearsal) : Step → Outcome × Rehearsal
  | .summon card side =>
    let (id, sandbox) := r.sandbox.summon e.catalog card side
    (.id id, { r with sandbox })
  | .place unit => (.nothing, { r with sandbox := r.sandbox.place unit })
  | .edit id edit =>
    (.flag (r.sandbox.unit? id).isSome, { r with sandbox := r.sandbox.edit id edit.apply })
  | .deck side cards => (.nothing, { r with sandbox := r.sandbox.setDeck side cards })
  | .leader side health => (.nothing, { r with sandbox := r.sandbox.setLeader side health })
  | .advance =>
    let sandbox := r.sandbox.advance
    (.turn sandbox.turn, { r with sandbox })
  | .save name => (.nothing, { r with saves := (name, r.sandbox) :: r.saves })
  | .restore name => match r.saves.lookup name with
    | some sandbox => (.nothing, { r with sandbox })
    | none => (.nothing, r)
  | .hide id => (.nothing, { r with hidden := id :: r.hidden })
  | .reveal id =>
    (.flag (r.hidden.contains id), { r with hidden := r.hidden.filter (· != id) })
  | .force answers => (.nothing, { r with forced := r.forced ++ answers })
  | .hook h => (.nothing, { r with hooks := r.hooks ++ [h] })
  | .fire occasion side unit turn =>
    let actor : Actor := ⟨side, unit, turn.getD r.sandbox.turn⟩
    let (b, r) := (occasion.script e actor).run answer r
    (.flag b, r)
  | .resolve f action keepMemory =>
    let ((result, memory), r) := (f.resolve (r.startMemory keepMemory) action).run answer r
    (.resolution result memory, { r with memory })
  | .target f action keepMemory =>
    let ((id, memory), r) := (f.target (r.startMemory keepMemory) action).run answer r
    (.target id memory, { r with memory })
  | .request q =>
    let (a, r) := answer q r
    (.answer ⟨q, a⟩, r)
  | .source id status => (.text (r.sandbox.statusSource? id status), r)

/-- Plays one step with an empty record. -/
def step (e : Engine) (r : Rehearsal) (s : Step) : Outcome × Rehearsal :=
  { r with record := [] }.play e s

/-! ## Laws -/

/-- Whether nothing stands between the rules and the sandbox. -/
def untouched (r : Rehearsal) : Prop := r.hidden = [] ∧ r.forced = [] ∧ r.hooks = []

theorem answer_eq_sandbox {r : Rehearsal} (h : r.untouched) (q : Request) :
    (answer q r).1 = (Sandbox.answer q r.sandbox).1 ∧
      (answer q r).2.sandbox = (Sandbox.answer q r.sandbox).2 := by
  obtain ⟨hh, hf, hk⟩ := h
  cases q <;>
    simp [answer, delegate, keep, Sandbox.answer, countLine, hh, hf, hk]

end Rehearsal

end CardDuel
