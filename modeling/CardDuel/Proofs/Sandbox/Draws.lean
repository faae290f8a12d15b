import CardDuel.Proofs.Dice.Probability
import CardDuel.Proofs.Sandbox.Frame
import CardDuel.Proofs.Script.Moments

/-!
# Draws

The sandbox draws from its dice in two places: for a pick among candidates, and for a roll against
the resistance of a unit.  `Sandbox.rolled?` is the chance that a request puts to a roll, and
`Sandbox.drawsFor` the number of draws that it takes.

* `lands_eq` — a status lands unless the roll for its chance says otherwise.
* `draws_answer`, `draws_run` — the counter of draws after a request, and after a run.
* `toNat_draws_run` — as long as the counter has room it counts exactly.
-/

set_option autoImplicit false

namespace CardDuel

/-- The status that a request asks for, and the unit that is to get it. -/
def Request.afflicts? : Request → Option Mark
  | .applyStun id .. => some ⟨id, .stun⟩
  | .applyExposed id .. => some ⟨id, .exposed⟩
  | .applyAttackPenalty id .. => some ⟨id, .attackDown⟩
  | _ => none

namespace Sandbox

/-- The chance that is rolled against before a status lands on a unit; there is no roll without a
chance to resist. -/
def chance? (s : Sandbox) (id : UnitId) (status : Status) : Option Float :=
  if s.resistanceAgainst id status ≤ 0.0 then none else some (s.resistanceAgainst id status)

/-- The probability that is handed to a roll when a request is answered. -/
def rolled? (s : Sandbox) (q : Request) : Option Float :=
  q.afflicts?.bind fun mark => (s.unit? mark.unit).bind fun _ => s.chance? mark.unit mark.status

/-- The number of draws that the answer to a request takes. -/
def drawsFor (s : Sandbox) : Request → Nat
  | .pickRandom candidates _ => if candidates.isEmpty then 0 else 1
  | q => if (s.rolled? q).any fun p => !p.isNaN then 1 else 0

/-- The number of draws that the answers of a run take. -/
def drawsOver : List (Moment Sandbox) → Nat
  | [] => 0
  | m :: moments => m.host.drawsFor m.request + drawsOver moments

variable (s : Sandbox) (id : UnitId) (status : Status)

/-! ## One request -/

/-- Whether a status lands is decided by the roll for its chance, if there is one. -/
theorem lands_eq : s.lands id status =
    match (s.chance? id status).bind (s.dice.roll? (resistanceLabel id status)) with
    | none => (true, s)
    | some (resisted, dice) => (!resisted, { s with dice }) := by
  simp only [lands, chance?]
  by_cases hnone : s.resistanceAgainst id status ≤ 0.0
  · rw [if_pos hnone, if_pos hnone]
    rfl
  · rw [if_neg hnone, if_neg hnone]
    rfl

/-- The draws that the decision on a status takes. -/
theorem draws_lands : (s.lands id status).2.dice.draws =
    s.dice.draws + .ofNat (if (s.chance? id status).any fun p => !p.isNaN then 1 else 0) := by
  rw [lands_eq]
  cases s.chance? id status with
  | none => simp
  | some p =>
    rw [Option.bind_some, Option.any_some]
    cases hp : p.isNaN with
    | true =>
      rw [Dice.roll?_eq_none _ _ hp]
      simp
    | false =>
      obtain ⟨resisted, hroll⟩ := Dice.roll?_eq_some s.dice (resistanceLabel id status) hp
      rw [hroll]
      rfl

variable {id status} {s}

/-- A request for a status takes the draws that the decision on it takes. -/
theorem draws_afflict {q : Request} (hq : q.afflicts? = some ⟨id, status⟩) (source : String)
    (change : BoardUnit → BoardUnit) :
    (s.afflict id status source change).2.dice.draws =
      s.dice.draws + .ofNat (if (s.rolled? q).any fun p => !p.isNaN then 1 else 0) := by
  rw [rolled?, hq, Option.bind_some]
  cases hu : s.unit? id with
  | none => simp [afflict, hu]
  | some u =>
    have hlands := s.draws_lands id status
    rw [Option.bind_some, ← hlands]
    cases hlanded : (s.lands id status).1 with
    | true => simp [afflict, hu, hlanded, put]
    | false => simp [afflict, hu, hlanded]

/-- **The counter of draws after a request.** -/
theorem draws_answer (q : Request) (s : Sandbox) :
    (answer q s).2.dice.draws = s.dice.draws + .ofNat (s.drawsFor q) := by
  -- most requests do not touch the dice
  have hstay {s' : Sandbox} (hdice : s'.dice = s.dice) :
      s'.dice.draws = s.dice.draws + .ofNat 0 := by
    rw [hdice]
    exact (UInt64.add_zero _).symm
  cases q with
  | unitIds | unit | pickLowestHealth | log => exact hstay rfl
  | pickRandom candidates label =>
    simp only [answer, pickRandom, drawsFor, List.isEmpty_iff]
    split
    · rename_i hnone
      rw [hnone]
      exact hstay rfl
    · rename_i hsome
      rw [Dice.draws_pick _ _ hsome]
      rfl
  | applyStun | applyExposed | applyAttackPenalty => exact draws_afflict rfl _ _
  | healUnit | cleanse | modifyAttack =>
    refine hstay ?_
    simp only [answer, healUnit, cleanse, modifyAttack]
    split <;> rfl
  | addShield =>
    refine hstay ?_
    simp only [answer, addShield, edit]
    split <;> rfl
  | gainShares side | healLeader side => cases side <;> exact hstay rfl
  | drawCard side =>
    refine hstay ?_
    simp only [answer, drawCard]
    split
    · rfl
    · cases side <;> rfl

/-! ## Runs -/

variable {α : Type}

/-- **The counter of draws after a run.** -/
theorem draws_run (x : Script α) (s : Sandbox) :
    (x.run answer s).2.dice.draws = s.dice.draws + .ofNat (drawsOver (x.moments answer s)) := by
  induction x generalizing s with
  | done a => exact (UInt64.add_zero _).symm
  | ask q next ih =>
    have hfirst := draws_answer q s
    have hrest := ih (answer q s).1 (answer q s).2
    rw [Script.run_ask, hrest, hfirst, UInt64.add_assoc, ← UInt64.ofNat_add]
    rfl

/-- As long as the counter of draws has room it counts exactly. -/
theorem toNat_draws_run (x : Script α) (s : Sandbox)
    (hroom : s.dice.draws.toNat + drawsOver (x.moments answer s) < UInt64.size) :
    (x.run answer s).2.dice.draws.toNat =
      s.dice.draws.toNat + drawsOver (x.moments answer s) := by
  have hdraws : drawsOver (x.moments answer s) < UInt64.size := by omega
  rw [draws_run, UInt64.toNat_add, UInt64.toNat_ofNat_of_lt' hdraws]
  exact Nat.mod_eq_of_lt hroom

end Sandbox

end CardDuel
