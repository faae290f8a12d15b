import CardDuel.Proofs.Script.Logic
import CardDuel.Resolution

/-!
# Plans of actions

What an action comes to is settled before the host is asked anything: it is skipped because its
amount says nothing, or it acts on the side, or it looks for its target and acts on that unit.
`Firing.plan` says which, and `Firing.change?` is the one request that an action on a unit makes to
change it.

Principal results: `resolve_eq` (carrying out an action is following its plan), `asks_unit_plan`,
`asks_side_plan` (the requests of an effect).
-/

set_option autoImplicit false

namespace CardDuel

namespace Request

/-- Whether a request lets the host choose among candidates. -/
def isChoice : Request → Bool
  | pickRandom .. | pickLowestHealth .. => true
  | _ => false

/-- Whether a request shows a line to the players. -/
def isLog : Request → Bool
  | log _ => true
  | _ => false

/-- The unit that a request changes. -/
def subject? : Request → Option UnitId
  | healUnit id _ | addShield id _ | cleanse id _ | applyStun id .. | applyExposed id ..
  | applyAttackPenalty id .. | modifyAttack id _ => some id
  | _ => none

/-- The side whose holdings a request changes. -/
def side? : Request → Option Side
  | gainShares side _ | healLeader side _ | drawCard side => some side
  | _ => none

/-- The expiry turn that a request puts on a status. -/
def expiry? : Request → Option UInt32
  | applyStun _ expiry _ | applyExposed _ expiry _ | applyAttackPenalty _ _ expiry _ => some expiry
  | _ => none

variable {q : Request}

theorem subject?_of_isRead (h : q.isRead = true) : q.subject? = none := by
  cases q <;> first | rfl | cases h

theorem subject?_of_isChoice (h : q.isChoice = true) : q.subject? = none := by
  cases q <;> first | rfl | cases h

theorem subject?_of_isLog (h : q.isLog = true) : q.subject? = none := by
  cases q <;> first | rfl | cases h

theorem subject?_of_side? {side : Side} (h : q.side? = some side) : q.subject? = none := by
  cases q <;> first | rfl | cases h

theorem side?_of_isRead (h : q.isRead = true) : q.side? = none := by
  cases q <;> first | rfl | cases h

theorem side?_of_subject? {id : UnitId} (h : q.subject? = some id) : q.side? = none := by
  cases q <;> first | rfl | cases h

theorem subject?_of_expiry? {limit : UInt32} (h : q.expiry? = some limit) :
    ∃ id, q.subject? = some id := by
  cases q <;> first | exact ⟨_, rfl⟩ | cases h

end Request

/-- What an action comes to: it is skipped, or acts on the acting side, or on the unit that its
target resolves to. -/
inductive Plan where
  | idle
  | side (effect : Script Resolution)
  | unit (effect : UnitId → Script Resolution)

namespace Firing

/-- What an action comes to. -/
def plan (f : Firing) : Action → Plan
  | .gainShield _ n => if 0 < n then .unit (f.grantShield n.toUInt32) else .idle
  | .heal .leader n => if 0 < n then .side (f.healLeader n.toUInt32) else .idle
  | .heal _ n => if 0 < n then .unit (f.healUnit n.toUInt32) else .idle
  | .gainShares n => if 0 < n then .side (f.earnShares n.toUInt32) else .idle
  | .modifyAttack _ n => if n = 0 then .idle else .unit (f.changeAttack n)
  | .cleanse _ statuses => .unit (f.cleanseUnit (Action.cleansed statuses))
  | .applyStatus _ status turns => .unit (f.inflict status turns)
  | .drawCard n => if 0 < n then .side (f.drawCards n.toUInt32) else .idle

theorem withPositive_eq (memory : Memory) (n : Int32)
    (next : UInt32 → Script (Resolution × Memory)) :
    withPositive memory n next =
      if 0 < n then next n.toUInt32 else return (.noEffect, memory) := by
  unfold withPositive positive?
  split <;> rename_i h <;> split at h <;> cases h <;> simp [*]

/-- **Carrying out an action is following its plan.** -/
theorem resolve_eq (f : Firing) (memory : Memory) (action : Action) :
    f.resolve memory action = match f.plan action with
      | .idle => return (.noEffect, memory)
      | .side effect => do return (← effect, memory)
      | .unit effect => f.withTarget memory action effect := by
  cases action with
  | gainShield t n | gainShares n | drawCard n =>
    rw [resolve, withPositive_eq, plan]
    split <;> rfl
  | heal t n =>
    cases t <;> rw [resolve, withPositive_eq, plan] <;> first | (split <;> rfl) | (intro h; cases h)
  | modifyAttack t n =>
    rw [resolve, plan]
    split <;> rfl
  | cleanse t statuses | applyStatus t status turns => rfl

/-- The plan of an action that looks for its target names no leader. -/
theorem plan_leader {f : Firing} {action : Action} {effect : UnitId → Script Resolution}
    (hp : f.plan action = .unit effect) (hk : action.kind = .heal) :
    action.target? ≠ some .leader := by
  cases action with
  | heal t n =>
    cases t with
    | leader => simp only [plan] at hp; split at hp <;> cases hp
    | self | hitTarget | ally => simp [Action.target?]
  | _ => cases hk

/-! ## Requests of effects -/

/-- The request by which an action changes the unit that it applies to. -/
def change? (f : Firing) (id : UnitId) : Action → Option Request
  | .gainShield _ n => some (.addShield id n.toUInt32)
  | .heal _ n => some (.healUnit id n.toUInt32)
  | .modifyAttack _ n => some (.modifyAttack id n)
  | .cleanse _ statuses => some (.cleanse id (Action.cleansed statuses))
  | .applyStatus _ .stun turns =>
    some (.applyStun id (f.expiry turns) (f.settings.sourceLabel f.sourceName))
  | .applyStatus _ .exposed turns =>
    some (.applyExposed id (f.expiry turns) (f.settings.sourceLabel f.sourceName))
  | .applyStatus _ .attackDown turns =>
    some (.applyAttackPenalty id f.settings.attackPenalty (f.expiry turns)
      (f.settings.sourceLabel f.sourceName))
  | .gainShares _ | .drawCard _ => none

theorem subject?_of_change? {f : Firing} {id : UnitId} {action : Action} {q : Request}
    (h : f.change? id action = some q) : q.subject? = some id := by
  unfold change? at h
  split at h <;> cases h <;> rfl

variable {P : Request → Prop}

theorem asks_say (f : Firing) (rest : String) (hlog : ∀ line, P (.log line)) :
    (f.say rest).Asks P :=
  (Script.asks_request _).2 (hlog _)

theorem asks_nameOf (f : Firing) (id : UnitId) (hread : P (.unit id)) :
    (f.nameOf id).Asks P := by
  unfold nameOf
  split
  · trivial
  · exact ⟨hread, fun _ => trivial⟩

theorem asks_reportIf {changed : Bool} {report : Script Unit} (h : report.Asks P) :
    (reportIf changed report).Asks P := by
  unfold reportIf
  split
  · exact h.bind fun _ => trivial
  · trivial

/-- An effect on a unit asks for the change, then for the unit's name and a line of the log. -/
theorem asks_unit_plan {f : Firing} {action : Action} {effect : UnitId → Script Resolution}
    (hp : f.plan action = .unit effect) (id : UnitId) :
    (effect id).Asks fun q => f.change? id action = some q ∨ q = .unit id ∨ q.isLog = true := by
  have named (k : String → String) : (f.nameOf id >>= fun name => f.say (k name)).Asks
      fun q => f.change? id action = some q ∨ q = .unit id ∨ q.isLog = true :=
    (asks_nameOf f id (.inr (.inl rfl))).bind fun _ =>
      asks_say f _ fun _ => .inr (.inr rfl)
  cases action with
  | gainShield t n =>
    simp only [plan] at hp
    split at hp <;> cases hp
    exact ⟨.inl rfl, fun _ => (asks_nameOf f id (.inr (.inl rfl))).bind fun _ =>
      (asks_say f _ fun _ => .inr (.inr rfl)).bind fun _ => trivial⟩
  | heal t n =>
    cases t <;> simp only [plan] at hp <;> split at hp <;> cases hp <;>
      exact ⟨.inl rfl, fun _ => asks_reportIf (named _)⟩
  | modifyAttack t n =>
    simp only [plan] at hp
    split at hp <;> cases hp
    exact ⟨.inl rfl, fun _ => asks_reportIf (named _)⟩
  | cleanse t statuses =>
    cases hp
    exact ⟨.inl rfl, fun _ => asks_reportIf (named _)⟩
  | applyStatus t status turns =>
    cases hp
    cases status with
    | stun | exposed => exact ⟨.inl rfl, fun _ => asks_reportIf (named _)⟩
    | attackDown => exact ⟨.inl rfl, fun _ => trivial⟩
  | gainShares n | drawCard n => simp only [plan] at hp; split at hp <;> cases hp

theorem asks_drawUpTo (side : Side) (n : Nat) (h : P (.drawCard side)) :
    (drawUpTo side n).Asks P := by
  induction n with
  | zero => trivial
  | succ n ih =>
    refine ⟨h, fun card => ?_⟩
    cases card with
    | none => trivial
    | some _ => exact ih.bind fun _ => trivial

/-- An effect on the side asks for changes of the acting side, then for a line of the log. -/
theorem asks_side_plan {f : Firing} {action : Action} {effect : Script Resolution}
    (hp : f.plan action = .side effect) :
    effect.Asks fun q => q.side? = some f.side ∨ q.isLog = true := by
  have said (line : String) : (f.say line).Asks
      fun q => q.side? = some f.side ∨ q.isLog = true :=
    asks_say f line fun _ => .inr rfl
  cases action with
  | heal t n =>
    cases t <;> simp only [plan] at hp <;> split at hp <;> cases hp
    exact ⟨.inl rfl, fun _ => asks_reportIf (said _)⟩
  | gainShares n =>
    simp only [plan] at hp
    split at hp <;> cases hp
    exact ⟨.inl rfl, fun _ => (said _).bind fun _ => trivial⟩
  | drawCard n =>
    simp only [plan] at hp
    split at hp <;> cases hp
    exact (asks_drawUpTo f.side _ (.inl rfl)).bind fun _ => asks_reportIf (said _)
  | gainShield t n | modifyAttack t n => simp only [plan] at hp; split at hp <;> cases hp
  | cleanse t statuses | applyStatus t status turns => cases hp

end Firing

end CardDuel
