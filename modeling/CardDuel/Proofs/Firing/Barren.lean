import CardDuel.Proofs.Firing.Plan

/-!
# Effects that come to nothing

An effect is applied, or it stops at its first request because the host answered that with nothing.
`Script.Fruitless` says the latter; `yields_of_unit` and `yields_of_side` say that an effect does
one or the other, whatever the host.
-/

set_option autoImplicit false

namespace CardDuel

/-- Whether the host answered a change with nothing. -/
def Exchange.barren : Exchange → Bool
  | ⟨.healUnit .., healed⟩ => healed == 0
  | ⟨.cleanse .., removed⟩ => removed == 0
  | ⟨.applyStun .., landed⟩ => !landed
  | ⟨.applyExposed .., landed⟩ => !landed
  | ⟨.modifyAttack .., applied⟩ => applied == 0
  | ⟨.healLeader .., healed⟩ => healed == 0
  | ⟨.drawCard _, card⟩ => card.isNone
  | _ => false

/-- The last of the exchanges is a change that the host answered with nothing. -/
def EndsBarren (exchanges : List Exchange) : Prop :=
  ∃ x, exchanges.getLast? = some x ∧ x.barren = true

variable {α σ : Type} {h : Handler σ} {s : σ}

/-- The script makes one request, which the host answers with nothing. -/
def Script.Fruitless (h : Handler σ) (x : Script α) (s : σ) : Prop :=
  ∃ q : Request, x.transcript h s = [⟨q, (h q s).1⟩] ∧ (x.run h s).2 = (h q s).2 ∧
    Exchange.barren ⟨q, (h q s).1⟩ = true

theorem Script.Fruitless.endsBarren {x : Script α} (hx : x.Fruitless h s) :
    EndsBarren (x.transcript h s) := by
  obtain ⟨q, htranscript, -, hbarren⟩ := hx
  exact ⟨_, by rw [htranscript]; rfl, hbarren⟩

namespace Firing

variable {f : Firing} {action : Action}

theorem toNat_toUInt32_pos {n : Int32} (hn : 0 < n) : 0 < n.toUInt32.toNat := by
  have hpos := Word.pos_iff.1 hn
  have hnat := Word.toInt_toUInt32 (Int32.le_of_lt hn)
  omega

/-- The effect is applied, or it has none because it was fruitless. -/
def Yields (h : Handler σ) (x : Script Resolution) (s : σ) : Prop :=
  (x.run h s).1 = .applied ∨ (x.run h s).1 = .noEffect ∧ x.Fruitless h s

/-- A change that is reported only if there was one. -/
theorem yields_reported {q : Request} {changed : q.Answer → Bool}
    {report : q.Answer → Script Unit}
    (hq : ∀ r, changed r = false → Exchange.barren ⟨q, r⟩ = true) :
    Yields h (Script.ask q fun r => reportIf (changed r) (report r)) s := by
  cases hc : changed (h q s).1 with
  | true =>
    refine .inl ?_
    rw [Script.run_ask, hc, reportIf, if_pos rfl, Script.run_bind]
    rfl
  | false =>
    have hstop : reportIf (changed (h q s).1) (report (h q s).1) = .done .noEffect := by
      rw [reportIf, hc, if_neg Bool.false_ne_true]
      rfl
    refine .inr ⟨?_, q, ?_, ?_, hq _ hc⟩
    · rw [Script.run_ask, hstop]
      rfl
    · rw [Script.transcript_ask, hstop]
      rfl
    · rw [Script.run_ask, hstop]
      rfl

/-- What is drawn after an attempt to draw. -/
def drawOn (side : Side) (n : Nat) : Option String → Script Nat
  | none => return 0
  | some _ => do return (← drawUpTo side n) + 1

theorem drawUpTo_succ (side : Side) (n : Nat) :
    drawUpTo side (n + 1) = .ask (.drawCard side) (drawOn side n) := by
  refine congrArg (Script.ask _) (funext fun card : Option String => ?_)
  cases card <;> rfl

/-- Drawing nothing means that the first card was missing. -/
theorem fruitless_of_drawUpTo {side : Side} {n : Nat} (hn : 0 < n)
    (hres : ((drawUpTo side n).run h s).1 = 0) : (drawUpTo side n).Fruitless h s := by
  obtain ⟨n, rfl⟩ := Nat.exists_eq_succ_of_ne_zero (Nat.ne_of_gt hn)
  cases hcard : (h (.drawCard side) s).1 with
  | none =>
    refine ⟨.drawCard side, ?_, ?_, ?_⟩
    · rw [drawUpTo_succ, Script.transcript_ask, hcard]
      rfl
    · rw [drawUpTo_succ, Script.run_ask, hcard]
      rfl
    · rw [hcard]
      rfl
  | some card =>
    rw [drawUpTo_succ, Script.run_ask, hcard] at hres
    simp [drawOn] at hres

theorem yields_drawCards {n : UInt32} (hn : 0 < n.toNat) : Yields h (f.drawCards n) s := by
  by_cases hzero : ((drawUpTo f.side n.toNat).run h s).1 = 0
  · have hstop : reportIf (((drawUpTo f.side n.toNat).run h s).1 != 0)
        (f.say ("drew " ++ counted ((drawUpTo f.side n.toNat).run h s).1 "card" "cards")) =
          .done .noEffect := by
      rw [reportIf, if_neg (by simp [hzero])]
      rfl
    obtain ⟨q, htranscript, hrun, hbarren⟩ := fruitless_of_drawUpTo hn hzero
    refine .inr ⟨?_, q, ?_, ?_, hbarren⟩
    · rw [drawCards, Script.run_bind, hstop]
      rfl
    · rw [drawCards, Script.transcript_bind, hstop, htranscript]
      rfl
    · rw [drawCards, Script.run_bind, hstop, ← hrun]
      rfl
  · refine .inl ?_
    rw [drawCards, Script.run_bind, reportIf, if_pos (bne_iff_ne.2 hzero)]
    rfl

/-- **An effect on a unit is applied or fruitless.** -/
theorem yields_of_unit {effect : UnitId → Script Resolution} (hp : f.plan action = .unit effect)
    (id : UnitId) : Yields h (effect id) s := by
  cases action with
  | gainShield t n =>
    simp only [plan] at hp
    split at hp <;> cases hp
    exact .inl (by simp [grantShield])
  | heal t n =>
    cases t <;> simp only [plan] at hp <;> split at hp <;> cases hp <;>
      exact yields_reported fun r hr => by simpa [Exchange.barren] using hr
  | modifyAttack t n =>
    simp only [plan] at hp
    split at hp <;> cases hp
    exact yields_reported fun r hr => by simpa [Exchange.barren] using hr
  | cleanse t statuses =>
    cases hp
    exact yields_reported fun r hr => by simpa [Exchange.barren] using hr
  | applyStatus t status turns =>
    cases hp
    cases status with
    | stun | exposed => exact yields_reported fun r hr => by simpa [Exchange.barren] using hr
    | attackDown => exact .inl rfl
  | gainShares n | drawCard n => simp only [plan] at hp; split at hp <;> cases hp

/-- **An effect on the side is applied or fruitless.** -/
theorem yields_of_side {effect : Script Resolution} (hp : f.plan action = .side effect) :
    Yields h effect s := by
  cases action with
  | heal t n =>
    cases t <;> simp only [plan] at hp <;> split at hp <;> cases hp
    exact yields_reported fun r hr => by simpa [Exchange.barren] using hr
  | gainShares n =>
    simp only [plan] at hp
    split at hp <;> cases hp
    exact .inl rfl
  | drawCard n =>
    simp only [plan] at hp
    split at hp
    · rename_i hn
      cases hp
      exact yields_drawCards (toNat_toUInt32_pos hn)
    · cases hp
  | gainShield t n | modifyAttack t n => simp only [plan] at hp; split at hp <;> cases hp
  | cleanse t statuses | applyStatus t status turns => cases hp

end Firing

end CardDuel
