import CardDuel.Proofs.Sandbox.Agreement
import CardDuel.Proofs.Sandbox.EventFrame
import CardDuel.Proofs.Script.Lockstep

/-!
# The opposing board cannot influence an occasion

Two sandboxes that agree on the acting side and on the unit that was hit may differ in every other
opposing unit and in all that the opponent has.  `event_noninterference`: an occasion cannot tell
them apart.  It gives the same answer and shows the same lines, and afterwards the sandboxes agree
as before.

The two runs are compared in lockstep.  The invariant is `Alike`: no action asks for anything but
the units of its side, the unit that was hit and the holdings of its side, and whatever is asked of
these leaves the sandboxes alike (`event_alike`).
-/

set_option autoImplicit false

namespace CardDuel

open Script (Keeps InStep)

variable {seen : UnitId → Prop} {base base' : List String}

/-! ## In lockstep -/

/-- Sandboxes that are alike stay in step through the actions of a firing. -/
theorem Firing.confined_lockstep {f : Firing} (hsource : seen f.source)
    (hopponent : ∀ id, f.combat.bind (·.target) = some id → seen id) :
    f.Confined (Handler.lockstep Sandbox.answer)
      (InStep (Sandbox.Alike f.side seen base base')) seen seen seen where
  source := hsource
  opponent := hopponent
  reach_of_ally _ hid := hid
  list := Keeps.in_step fun s s' h => by
    refine ⟨h.unitIds none, h, fun id hid => ?_⟩
    obtain ⟨u, hu, hside⟩ := Sandbox.unit?_of_mem_unitIds h.keyed hid
    exact h.own id ⟨u, hu, hside⟩
  look id hid := Keeps.in_step fun s s' h => by
    refine ⟨h.unit? hid, h, fun u hu _ => ?_⟩
    rw [h.keyed id u hu]
    exact hid
  read id hid := Keeps.in_step fun s s' h => ⟨h.unit? hid, h, trivial⟩
  random ids label hids := Keeps.in_step fun s s' h => by
    obtain ⟨hanswer, hnext⟩ := h.of_random ids label
    exact ⟨hanswer, hnext, fun id hid => hids id (Dice.mem_of_pick hid)⟩
  lowest ids hids := Keeps.in_step fun s s' h =>
    ⟨h.lowestHealth? hids, h, fun id hid => hids id (Sandbox.mem_of_lowestHealth? h.keyed hid)⟩
  change q id hq hid := Keeps.in_step fun s s' h => by
    obtain ⟨hanswer, hnext⟩ := h.of_subject hq hid
    exact ⟨hanswer, hnext, trivial⟩
  side q hq := Keeps.in_step fun s s' h => by
    obtain ⟨hanswer, hnext⟩ := h.of_side hq
    exact ⟨hanswer, hnext, trivial⟩
  log line := Keeps.in_step fun s s' h => ⟨rfl, h.of_log line, trivial⟩

namespace Sandbox

variable {s s' : Sandbox} {a : Actor} {o : Occasion}

/-- **An occasion gives the same answer on sandboxes that are alike, and leaves them alike.** -/
theorem event_alike (e : Engine) (h : Alike a.side seen base base' s s')
    (hseen : ∀ id, Engine.LooksAt a o.combat? id → seen id) :
    ((o.script e a).run answer s).1 = ((o.script e a).run answer s').1 ∧
      Alike a.side seen base base' ((o.script e a).run answer s).2
        ((o.script e a).run answer s').2 := by
  have hlook (id : UnitId) (t : Sandbox × Sandbox × Prop) (hid : Engine.LooksAt a o.combat? id)
      (ht : InStep (Alike a.side seen base base') t) :
      InStep (Alike a.side seen base base') (Handler.lockstep answer (.unit id) t).2 := by
    have hread : Keeps (Handler.lockstep answer) (InStep (Alike a.side seen base base'))
        (Script.request (.unit id)) fun _ => True :=
      Keeps.in_step fun _ _ h => ⟨h.unit? (hseen id hid), h, trivial⟩
    exact (hread t ht).1
  have hkeeps : Keeps (Handler.lockstep answer) (InStep (Alike a.side seen base base'))
      (o.script e a) fun _ => True := by
    refine Occasion.keeps_of_looks (M := fun memory => Firing.Reached seen memory.ally) hlook
      Firing.reached_none ?_
    intro card _ t _ source action _ memory hm
    have hconfined : (e.firing a card t.event o.combat? source).Confined (Handler.lockstep answer)
        (InStep (Alike a.side seen base base')) seen seen seen :=
      Firing.confined_lockstep (hseen _ (.inl rfl)) fun id hid => hseen id (.inr hid)
    exact hconfined.keeps_resolve action hm
  obtain ⟨hanswer, hnext, -⟩ := hkeeps.agree h
  exact ⟨hanswer, hnext⟩

/-! ## Noninterference -/

/-- Two sandboxes in which an occasion finds the same: they agree on the turn, the dice, the log,
the holdings of the acting side, its units with their resistances and status sources, among them
the acting unit, and likewise on the unit that was hit, if it is there. -/
structure Concur (a : Actor) (o : Occasion) (s s' : Sandbox) : Prop where
  keyed : s.Keyed
  keyed' : s'.Keyed
  turn : s.turn = s'.turn
  dice : s.dice = s'.dice
  log : s.log = s'.log
  holdings : s.holdings a.side = s'.holdings a.side
  actor : s.Owns a.side a.unit
  own : ∀ id, s.Owns a.side id ∨ s'.Owns a.side id → s.dossier? id = s'.dossier? id
  hit : ∀ id, o.combat?.bind (·.target) = some id → s.dossier? id = s'.dossier? id

/-- The units that an occasion may look at. -/
def InSight (s : Sandbox) (a : Actor) (o : Occasion) (id : UnitId) : Prop :=
  s.Owns a.side id ∨ o.combat?.bind (·.target) = some id

theorem Concur.alike (h : Concur a o s s') :
    Alike a.side (s.InSight a o) s.log s'.log s s' where
  keyed := h.keyed
  keyed' := h.keyed'
  turn := h.turn
  dice := h.dice
  holdings := h.holdings
  dossier id hid := hid.elim (fun hown => h.own id (.inl hown)) (h.hit id)
  own id hid := .inl hid
  own' id hid := by
    obtain ⟨u, hu, hside⟩ := hid
    refine .inl ⟨u, ?_, hside⟩
    rw [unit?_of_dossier? (h.own id (.inr ⟨u, hu, hside⟩)), hu]
  log := ⟨[], (List.append_nil _).symm, (List.append_nil _).symm⟩

/-- **Noninterference.**  On two sandboxes that agree on the acting side and on the unit that was
hit, and may differ in everything else of the opponent, an occasion gives the same answer and adds
the same lines to the log, and it leaves them in agreement again, the dice included. -/
theorem event_noninterference (e : Engine) (h : Concur a o s s') :
    ((o.script e a).run answer s).1 = ((o.script e a).run answer s').1 ∧
      (∃ lines, ((o.script e a).run answer s).2.log = s.log ++ lines ∧
        ((o.script e a).run answer s').2.log = s'.log ++ lines) ∧
      Concur a o ((o.script e a).run answer s).2 ((o.script e a).run answer s').2 := by
  have hseen (id : UnitId) (hid : Engine.LooksAt a o.combat? id) : s.InSight a o id := by
    rcases hid with rfl | hid
    · exact .inl h.actor
    · exact .inr hid
  obtain ⟨hanswer, hnext⟩ := event_alike e h.alike hseen
  obtain ⟨lines, hlog, hlog'⟩ := hnext.log
  refine ⟨hanswer, ⟨lines, hlog, hlog'⟩, ?_⟩
  exact {
    keyed := hnext.keyed
    keyed' := hnext.keyed'
    turn := hnext.turn
    dice := hnext.dice
    log := by rw [hlog, hlog', h.log]
    holdings := hnext.holdings
    actor := (event_frame h.keyed e a o).owns_iff.2 h.actor
    own := fun id hid => hnext.dossier id (hid.elim (hnext.own id) (hnext.own' id))
    hit := fun id hid => hnext.dossier id (.inr hid) }

/-- A medic that strikes: it weakens what it hits, and shields and heals an ally. -/
def fieldMedic : Card :=
  { medic with
    triggers := [
      { event := .hit, conditions := [.targetSurvived]
        actions := [.modifyAttack .hitTarget (-1), .gainShield .ally 1, .heal .ally 2] }] }

def fieldHospital : Engine := { catalog := ⟨[fieldMedic], by decide⟩ }

def clash : Occasion := .combat { target := some ⟨3⟩ }

/-- The ward with one more opponent, and an opposing leader of another strength. -/
def siege : Sandbox :=
  { ward.place (.fresh ⟨4⟩ "brute" "Brute" .enemy .front 9 9) with
    enemy := { leader := 1, leaderMax := 30, shares := 7, deck := ["brute"] } }

theorem event_noninterference_siege :
    Concur arrival clash ward siege ∧ siege.unit? ⟨4⟩ ≠ ward.unit? ⟨4⟩ ∧
      ((clash.script fieldHospital arrival).run answer siege).1 = true ∧
      ((clash.script fieldHospital arrival).run answer siege).2.log =
        ["Medic gives Thug -1 attack.", "Medic grants Guard 1 shield.",
          "Medic heals Guard for 2."] := by
  have hkeyed : ward.Keyed := keyed_place (keyed_place (keyed_place (keyed_start {}) _) _) _
  have hbrute : siege.unit? ⟨4⟩ = some (.fresh ⟨4⟩ "brute" "Brute" .enemy .front 9 9) :=
    (unit?_place ward _ _).trans (if_pos rfl)
  have hnone : ward.unit? ⟨4⟩ = none := by decide +kernel
  -- what stands under another id than the brute's stands there in both
  have hsame (id : UnitId) (hid : id ≠ ⟨4⟩) : ward.dossier? id = siege.dossier? id := by
    have hunit : siege.unit? id = ward.unit? id :=
      (unit?_place ward _ _).trans (if_neg fun h : ⟨4⟩ = id => hid h.symm)
    rw [dossier?, dossier?, hunit]
    rfl
  have hconcur : Concur arrival clash ward siege := {
    keyed := hkeyed
    keyed' := keyed_place hkeyed _
    turn := rfl
    dice := rfl
    log := rfl
    holdings := rfl
    actor := ⟨.fresh ⟨1⟩ "medic" "Medic" .player .front 1 3, by decide +kernel, rfl⟩
    own := by
      intro id hid
      refine hsame id ?_
      rintro rfl
      rcases hid with ⟨u, hu, -⟩ | ⟨u, hu, hside⟩
      · cases hnone.symm.trans hu
      · cases hbrute.symm.trans hu
        cases hside
    hit := fun id hid => hsame id (by cases hid; decide) }
  obtain ⟨hanswer, ⟨lines, hlog, hlog'⟩, -⟩ := event_noninterference fieldHospital hconcur
  have hward : ((clash.script fieldHospital arrival).run answer ward).1 = true ∧
      ((clash.script fieldHospital arrival).run answer ward).2.log =
        ["Medic gives Thug -1 attack.", "Medic grants Guard 1 shield.",
          "Medic heals Guard for 2."] := by decide +kernel
  refine ⟨hconcur, by rw [hbrute, hnone]; exact Option.some_ne_none _, hanswer ▸ hward.1, ?_⟩
  have hlines : lines = _ := hlog.symm.trans hward.2
  rw [hlog', hlines]
  rfl

end Sandbox

end CardDuel
