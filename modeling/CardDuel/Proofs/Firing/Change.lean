import CardDuel.Proofs.Firing.Barren

/-!
# Changes and what is told of them

All effects but drawing cards have one form: the host is asked for a change, and what follows is
settled by its answer.  `Firing.conclude` is what follows a change: it is no effect if it came to
nothing, else it is applied and, unless it is an attack penalty, told in a line of the log.

* `unit_plan_eq`, `side_plan_eq` — effects have that form.
* `result_conclude`, `transcript_tell`, `transcript_conclude_of_untold` — the result of a change,
  and what is asked after it.
* `transcript_drawUpTo` — drawing cards is a run of changes of which only the last may come to
  nothing.
-/

set_option autoImplicit false

namespace CardDuel

open Script (request)

/-- Whether a request lowers an attack for a time, the one change that is not told. -/
def Request.isPenalty : Request → Bool
  | applyAttackPenalty .. => true
  | _ => false

namespace Exchange

/-- What a line of the log says about a change of a unit that is called `name`, or of a side. -/
def words (name : String) : Exchange → String
  | ⟨.addShield _ n, _⟩ => "grants " ++ name ++ " " ++ toString n.toNat ++ " shield"
  | ⟨.healUnit .., healed⟩ => "heals " ++ name ++ " for " ++ toString (UInt32.toNat healed)
  | ⟨.healLeader .., healed⟩ => "heals the leader for " ++ toString (UInt32.toNat healed)
  | ⟨.gainShares _ n, _⟩ => "earns " ++ toString n.toNat ++ " shares"
  | ⟨.modifyAttack .., applied⟩ => "gives " ++ name ++ " " ++ Firing.signed applied ++ " attack"
  | ⟨.cleanse .., removed⟩ =>
    "cleanses " ++ Firing.counted (UInt32.toNat removed) "status" "statuses" ++ " from " ++ name
  | ⟨.applyStun _ expiry _, _⟩ => "stuns " ++ name ++ " until turn " ++ toString expiry.toNat
  | ⟨.applyExposed _ expiry _, _⟩ =>
    "exposes " ++ name ++ " until turn " ++ toString expiry.toNat
  | _ => ""

/-- Whether a change is told: it came to something and is no attack penalty. -/
def told (x : Exchange) : Bool := !x.barren && !x.request.isPenalty

end Exchange

namespace Firing

variable (f : Firing) {action : Action}

/-- Tells a change. -/
def tell (x : Exchange) : Script Unit :=
  match x.request.subject? with
  | none => f.say (x.words "")
  | some id => do f.say (x.words (← f.nameOf id))

/-- What follows a change. -/
def conclude (x : Exchange) : Script Resolution :=
  if x.barren then return .noEffect
  else if x.request.isPenalty then return .applied
  else do
    f.tell x
    return .applied

/-- A change that is reported only if there was one is a change and what follows it. -/
theorem conclude_of_reportIf {x : Exchange} {changed : Bool} {report : Script Unit}
    (hbarren : x.barren = !changed) (hpenalty : x.request.isPenalty = false)
    (hreport : report = f.tell x) : reportIf changed report = f.conclude x := by
  rw [reportIf, conclude, hbarren, hpenalty, hreport]
  cases changed <;> rfl

/-- **An effect on a unit is one change of it**, and what follows. -/
theorem unit_plan_eq {effect : UnitId → Script Resolution} (hp : f.plan action = .unit effect)
    (id : UnitId) :
    ∃ q, f.change? id action = some q ∧ effect id = .ask q fun r => f.conclude ⟨q, r⟩ := by
  have form (q : Request) (changed : q.Answer → Bool) (report : q.Answer → Script Unit)
      (hpenalty : q.isPenalty = false)
      (hbarren : ∀ r, Exchange.barren ⟨q, r⟩ = !changed r)
      (hreport : ∀ r, report r = f.tell ⟨q, r⟩) :
      (Script.ask q fun r => reportIf (changed r) (report r)) =
        .ask q fun r => f.conclude ⟨q, r⟩ :=
    congrArg (Script.ask q) (funext fun r =>
      f.conclude_of_reportIf (hbarren r) hpenalty (hreport r))
  have hnonzero (n : UInt32) : (n == 0) = !(n != 0) := (Bool.not_not _).symm
  cases action with
  | gainShield t n =>
    simp only [plan] at hp
    split at hp <;> cases hp
    exact ⟨_, rfl, congrArg (Script.ask _) (funext fun _ => (bind_assoc ..).symm)⟩
  | heal t n =>
    cases t <;> simp only [plan] at hp <;> split at hp <;> cases hp <;>
      exact ⟨_, rfl, form (.healUnit id _) _ _ rfl hnonzero fun _ => rfl⟩
  | modifyAttack t n =>
    simp only [plan] at hp
    split at hp <;> cases hp
    exact ⟨_, rfl, form (.modifyAttack id n) _ _ rfl (fun _ => (Bool.not_not _).symm)
      fun _ => rfl⟩
  | cleanse t statuses =>
    cases hp
    exact ⟨_, rfl, form (.cleanse id _) _ _ rfl hnonzero fun _ => rfl⟩
  | applyStatus t status turns =>
    cases hp
    cases status with
    | stun => exact ⟨_, rfl, form (.applyStun ..) _ _ rfl (fun _ => rfl) fun _ => rfl⟩
    | exposed => exact ⟨_, rfl, form (.applyExposed ..) _ _ rfl (fun _ => rfl) fun _ => rfl⟩
    | attackDown => exact ⟨_, rfl, rfl⟩
  | gainShares n | drawCard n => simp only [plan] at hp; split at hp <;> cases hp

/-- The request by which an action changes the acting side at one stroke. -/
def sideChange? : Action → Option Request
  | .heal .leader n => some (.healLeader f.side n.toUInt32)
  | .gainShares n => some (.gainShares f.side n.toUInt32)
  | _ => none

/-- **An effect on the side draws cards or is one change of the side**, and what follows. -/
theorem side_plan_eq {effect : Script Resolution} (hp : f.plan action = .side effect) :
    (∃ n, action = .drawCard n ∧ 0 < n ∧ effect = f.drawCards n.toUInt32) ∨
      ∃ q, f.sideChange? action = some q ∧ effect = .ask q fun r => f.conclude ⟨q, r⟩ := by
  cases action with
  | heal t n =>
    cases t <;> simp only [plan] at hp <;> split at hp <;> cases hp
    refine .inr ⟨_, rfl, congrArg (Script.ask (.healLeader ..)) (funext fun _ => ?_)⟩
    exact f.conclude_of_reportIf (Bool.not_not _).symm rfl rfl
  | gainShares n =>
    simp only [plan] at hp
    split at hp <;> cases hp
    exact .inr ⟨_, rfl, rfl⟩
  | drawCard n =>
    simp only [plan] at hp
    split at hp
    · rename_i hn
      cases hp
      exact .inl ⟨n, rfl, hn, rfl⟩
    · cases hp
  | gainShield t n | modifyAttack t n => simp only [plan] at hp; split at hp <;> cases hp
  | cleanse t statuses | applyStatus t status turns => cases hp

theorem side?_of_sideChange? {q : Request} (hq : f.sideChange? action = some q) :
    q.side? = some f.side := by
  unfold sideChange? at hq
  split at hq <;> cases hq <;> rfl

/-! ## What follows a change -/

section

variable {σ : Type} (h : Handler σ) (x : Exchange) (s : σ)

/-- **A change is applied unless it came to nothing.** -/
theorem result_conclude :
    ((f.conclude x).run h s).1 = if x.barren then .noEffect else .applied := by
  unfold conclude
  split
  · rfl
  · split
    · rfl
    · rw [Script.run_bind]
      rfl

/-- What is told is one line, after the host was asked for a name at most. -/
theorem transcript_tell :
    ∃ names line, (f.tell x).transcript h s = names ++ [⟨.log line, ()⟩] ∧
      ∀ y ∈ names, y.request.isRead = true := by
  unfold tell
  split
  · exact ⟨[], _, rfl, List.forall_mem_nil _⟩
  · rename_i id hid
    have hread : (f.nameOf id).Asks fun q => q.isRead = true := asks_nameOf f id rfl
    exact ⟨(f.nameOf id).transcript h s, _, Script.transcript_bind h _ _ s, hread.transcript h s⟩

/-- **A change that is not told is followed by nothing.** -/
theorem transcript_conclude_of_untold (hx : x.told = false) :
    (f.conclude x).transcript h s = [] := by
  unfold conclude
  split
  · rfl
  · rename_i hbarren
    have hpenalty : x.request.isPenalty = true := by simpa [Exchange.told, hbarren] using hx
    rw [if_pos hpenalty]
    rfl

theorem conclude_of_told (hx : x.told = true) :
    f.conclude x = do
      f.tell x
      return .applied := by
  obtain ⟨hbarren, hpenalty⟩ : x.barren = false ∧ x.request.isPenalty = false := by
    simpa [Exchange.told] using hx
  rw [conclude, hbarren, hpenalty]
  rfl

end

/-! ## Drawing cards -/

section

variable {σ : Type} (h : Handler σ) (side : Side)

/-- **Drawing cards is a run of changes**, no more than were wanted, of which only the last may come
to nothing; the others are counted. -/
theorem transcript_drawUpTo (n : Nat) (s : σ) :
    let draws := (drawUpTo side n).transcript h s
    (∀ x ∈ draws, x.request = .drawCard side) ∧ draws.length ≤ n ∧
      (∀ x ∈ draws.dropLast, x.barren = false) ∧
      ((drawUpTo side n).run h s).1 = draws.countP fun x => !x.barren := by
  induction n generalizing s with
  | zero => exact ⟨List.forall_mem_nil _, Nat.le_refl 0, List.forall_mem_nil _, rfl⟩
  | succ n ih =>
    rw [drawUpTo_succ, Script.transcript_ask, Script.run_ask]
    cases hcard : (h (.drawCard side) s).1 with
    | none =>
      refine ⟨?_, ?_, List.forall_mem_nil _, rfl⟩
      · exact fun x hx => List.mem_singleton.1 hx ▸ rfl
      · exact Nat.succ_le_succ (Nat.zero_le n)
    | some card =>
      obtain ⟨hrequest, hlength, hlast, hcount⟩ := ih (h (.drawCard side) s).2
      have htranscript : (drawOn side n (some card)).transcript h (h (.drawCard side) s).2 =
          (drawUpTo side n).transcript h (h (.drawCard side) s).2 := by
        rw [drawOn, Script.transcript_bind]
        exact List.append_nil _
      rw [htranscript]
      refine ⟨?_, Nat.succ_le_succ hlength, ?_, ?_⟩
      · exact List.forall_mem_cons.2 ⟨rfl, hrequest⟩
      · intro x hx
        cases hrest : (drawUpTo side n).transcript h (h (.drawCard side) s).2 with
        | nil =>
          rw [hrest] at hx
          cases hx
        | cons y rest =>
          rw [hrest, List.dropLast_cons_cons, ← hrest] at hx
          rcases List.mem_cons.1 hx with rfl | hx
          · rfl
          · exact hlast x hx
      · rw [drawOn, Script.run_bind, List.countP_cons_of_pos (by rfl), ← hcount]
        rfl

end

end Firing

end CardDuel
