import CardDuel.Proofs.Firing.Visits
import CardDuel.Proofs.Sandbox.Agreement
import CardDuel.Proofs.Sandbox.Search

/-!
# Selection and effect agree

Which ally a cleanse or a heal applies to is decided by one set of predicates, and what it does to
that ally by another.  `selection_agrees`: on the sandbox the two agree.  A cleanse of listed
statuses finds nobody, exactly if no living unit of the side shows one of them, or it removes some;
a heal that has to look for an ally finds nobody, exactly if no living unit of the side is damaged,
or it restores health.  Neither is ever without effect.

Two facts carry the argument through a list of actions (`visit_invariant`): the remembered ally
belongs to the acting side, so the candidates include it as long as it serves, and the distance from
health to its maximum stays a signed word, so a damaged unit misses something.
-/

set_option autoImplicit false

namespace CardDuel.Sandbox

open Firing (Reached)

/-! ## Effects that are reported -/

section Report

variable {f : Firing} {s : Sandbox}

theorem unit?_report (id : UnitId) (words : String → String) :
    ((f.nameOf id >>= fun name => f.say (words name)).run answer s).2.unit? = s.unit? := by
  unfold Firing.nameOf
  split <;> rfl

/-- A change that came to something is reported, and the report leaves the units. -/
theorem run_reported (q : Request) (changed : q.Answer → Bool) (report : q.Answer → Script Unit)
    (hchanged : changed (answer q s).1 = true)
    (hreport : ∀ r t, ((report r).run answer t).2.unit? = t.unit?) :
    let after := (Script.ask q fun r => Firing.reportIf (changed r) (report r)).run answer s
    after.1 = .applied ∧ after.2.unit? = (answer q s).2.unit? := by
  simp only [Script.run_ask, hchanged, Firing.reportIf, if_pos, Script.run_bind]
  exact ⟨rfl, hreport _ _⟩

/-- **A cleanse of a unit that shows a listed status removes it.** -/
theorem run_cleanseUnit {id : UnitId} {u : BoardUnit} {listed : List Status} {status : Status}
    (hu : s.unit? id = some u) (hlisted : status ∈ listed)
    (hactive : u.hasStatus status s.turn = true) :
    ((f.cleanseUnit listed id).run answer s).1 = .applied ∧
      ∃ u', ((f.cleanseUnit listed id).run answer s).2.unit? id = some u' ∧
        u'.hasStatus status s.turn = false := by
  have hremoved : status ∈ (u.cleanse s.turn listed).2 :=
    (u.mem_removed_iff s.turn listed status).2 ⟨hlisted, hactive⟩
  have hcount : ((s.cleanse id listed).1 != 0) = true := by
    rw [bne_iff_ne, cleanse_of_unit? hu]
    intro hzero
    have hlength := (u.toNat_removed s.turn listed).symm.trans (congrArg UInt32.toNat hzero)
    exact List.ne_nil_of_mem hremoved (List.length_eq_zero_iff.1 hlength)
  obtain ⟨happlied, hunits⟩ := run_reported (.cleanse id listed) (fun n : UInt32 => n != 0)
    (fun n : UInt32 => do
      let name ← f.nameOf id
      f.say ("cleanses " ++ Firing.counted n.toNat "status" "statuses" ++ " from " ++ name))
    hcount fun _ _ => unit?_report id _
  refine ⟨happlied, (u.cleanse s.turn listed).1, ?_, ?_⟩
  · refine (congrFun hunits id).trans ?_
    rw [answer, cleanse_of_unit? hu]
    exact unit?_put_self s id _
  · rw [← Bool.not_eq_true, u.hasStatus_cleanse]
    exact fun h => h.2 hlisted

/-- **A heal of a damaged unit restores health.** -/
theorem run_healUnit {id : UnitId} {u : BoardUnit} {amount : UInt32} (hu : s.unit? id = some u)
    (hfits : u.Fits) (hdamaged : u.damaged = true) (hamount : 0 < amount.toNat) :
    ((f.healUnit amount id).run answer s).1 = .applied ∧
      ∃ u', ((f.healUnit amount id).run answer s).2.unit? id = some u' ∧
        u.health < u'.health := by
  have hpos := BoardUnit.healed_pos hfits amount hdamaged hamount
  have hcount : ((s.healUnit id amount).1 != 0) = true := by
    rw [bne_iff_ne, healUnit_of_unit? hu]
    intro hzero
    have hnone : (u.healed amount).toNat = 0 := congrArg UInt32.toNat hzero
    omega
  obtain ⟨happlied, hunits⟩ := run_reported (.healUnit id amount) (fun n : UInt32 => n != 0)
    (fun n : UInt32 => do
      let name ← f.nameOf id
      f.say ("heals " ++ name ++ " for " ++ toString n.toNat))
    hcount fun _ _ => unit?_report id _
  refine ⟨happlied, { u with health := u.health + (u.healed amount).toInt32 }, ?_, ?_⟩
  · refine (congrFun hunits id).trans ?_
    rw [answer, healUnit_of_unit? hu]
    exact unit?_put_self s id _
  · rw [Int32.lt_iff_toInt_lt, BoardUnit.toInt_healed hfits]
    omega

end Report

/-! ## Selection -/

/-- A living unit of the side shows one of the statuses. -/
def Afflicted (s : Sandbox) (side : Side) (listed : List Status) (turn : UInt32) : Prop :=
  ∃ id u, s.unit? id = some u ∧ u.side = side ∧ u.alive = true ∧
    ∃ status ∈ listed, u.hasStatus status turn = true

/-- A living unit of the side is damaged. -/
def Wounded (s : Sandbox) (side : Side) : Prop :=
  ∃ id u, s.unit? id = some u ∧ u.side = side ∧ u.alive = true ∧ u.damaged = true

theorem matchesFilter_iff {u : BoardUnit} {listed : List Status} {turn : UInt32}
    (hne : listed ≠ []) :
    u.matchesFilter listed turn = true ↔ ∃ status ∈ listed, u.hasStatus status turn = true := by
  have hsome : listed.isEmpty = false := by simpa using hne
  rw [BoardUnit.matchesFilter, hsome, Bool.false_or, List.any_eq_true]

section

variable {s : Sandbox} {f : Firing} {memory : Memory} {action : Action}

theorem afflicted_iff (hs : s.Keyed) (target : Target) {listed : List Status} (hne : listed ≠ []) :
    s.Afflicted f.side listed f.turn ↔ s.allies f (.cleanse target (some listed)) ≠ [] := by
  have hsuits (u : BoardUnit) : f.suits (.cleanse target (some listed)) u = true ↔
      ∃ status ∈ listed, u.hasStatus status f.turn = true := matchesFilter_iff hne
  rw [ne_eq, List.eq_nil_iff_forall_not_mem, not_forall_not]
  simp only [Afflicted, mem_allies_iff hs, hsuits]

theorem wounded_iff (hs : s.Keyed) (target : Target) (n : Int32) :
    s.Wounded f.side ↔ s.allies f (.heal target n) ≠ [] := by
  rw [ne_eq, List.eq_nil_iff_forall_not_mem, not_forall_not]
  simp only [Wounded, mem_allies_iff hs]
  rfl

/-- When the remembered ally is among the candidates as long as it serves, an ally is found exactly
if there is a candidate. -/
theorem run_target_of_ally (hs : s.Keyed) (ha : action.target? = some .ally)
    (hkept : ∀ id u, memory.ally = some id → s.unit? id = some u →
      f.stillServes action u = true → id ∈ s.allies f action) :
    s.allies f action = [] ∧ ((f.target memory action).run answer s).1.1 = none ∨
    ∃ id ∈ s.allies f action, ((f.target memory action).run answer s).1.1 = some id ∧
      s.OnlyDrew ((f.target memory action).run answer s).2 := by
  rw [f.target_of_ally memory action ha]
  rcases s.run_ally_eq f memory action with ⟨id, u, hally, hu, hserves, hrun⟩ | hrun
  · rw [hrun]
    exact .inr ⟨id, hkept id u hally hu hserves, rfl, .refl s⟩
  · rw [hrun]
    rcases run_pickAlly_cases hs f action with ⟨hnone, hpick⟩ | ⟨id, hid, hpicked, hdrew⟩
    · rw [hpick]
      exact .inl ⟨hnone, rfl⟩
    · exact .inr ⟨id, hid, hpicked, hdrew⟩

end

/-! ## Visits -/

/-- The unit that a visit resolves to is changed by it as `P` says. -/
def Changes (v : Visit Sandbox) (P : BoardUnit → BoardUnit → Prop) : Prop :=
  ∃ id u u', v.resolved answer = some id ∧ v.host.unit? id = some u ∧
    (v.hostAfter answer).unit? id = some u' ∧ P u u'

section

variable {v : Visit Sandbox} (hkeyed : v.host.Keyed)

include hkeyed

/-- An action on an ally that comes to something for every candidate finds nobody, exactly if there
is no candidate, or it changes the one that it finds. -/
theorem visit_cases {effect : UnitId → Script Resolution} {P : BoardUnit → BoardUnit → Prop}
    (hp : v.firing.plan v.action = .unit effect) (ha : v.action.target? = some .ally)
    (hkept : ∀ id u, v.memory.ally = some id → v.host.unit? id = some u →
      v.firing.stillServes v.action u = true → id ∈ v.host.allies v.firing v.action)
    (heffect : ∀ id ∈ v.host.allies v.firing v.action, ∀ s, v.host.OnlyDrew s →
      ((effect id).run answer s).1 = .applied ∧ ∃ u u', v.host.unit? id = some u ∧
        ((effect id).run answer s).2.unit? id = some u' ∧ P u u') :
    v.host.allies v.firing v.action = [] ∧ v.result answer = .noTarget ∨
    v.host.allies v.firing v.action ≠ [] ∧ v.result answer = .applied ∧ Changes v P := by
  have hresolved := v.resolved_of_unit answer hp
  rcases run_target_of_ally hkeyed ha hkept with ⟨hempty, hnone⟩ | ⟨id, hid, hfound, hdrew⟩
  · refine .inl ⟨hempty, ?_⟩
    rw [v.result_of_unit answer hp, hresolved, hnone]
    rfl
  · obtain ⟨happlied, u, u', hu, hu', hchange⟩ := heffect id hid _ hdrew
    have hresult : v.result answer = .applied := by
      rw [v.result_of_unit answer hp, hresolved, hfound]
      exact happlied
    refine .inr ⟨List.ne_nil_of_mem hid, hresult, id, u, u', ?_, hu, ?_, hchange⟩
    · exact hresolved.trans hfound
    · rw [v.hostAfter_of_unit answer hp, hresolved, hfound]
      exact hu'

theorem cleanse_visit {listed : List Status} (ha : v.action = .cleanse .ally (some listed))
    (hne : listed ≠ []) (hturn : v.firing.turn = v.host.turn)
    (hown : Reached (v.host.Owns v.firing.side) v.memory.ally) :
    ¬ v.host.Afflicted v.firing.side listed v.firing.turn ∧ v.result answer = .noTarget ∨
    v.host.Afflicted v.firing.side listed v.firing.turn ∧ v.result answer = .applied ∧
      Changes v fun u u' => ∃ status ∈ listed,
        u.hasStatus status v.firing.turn = true ∧ u'.hasStatus status v.firing.turn = false := by
  have hcleansed : Action.cleansed (some listed) = listed := by
    cases listed with
    | nil => exact absurd rfl hne
    | cons status listed => rfl
  have hp : v.firing.plan v.action = .unit (v.firing.cleanseUnit listed) := by
    rw [ha, Firing.plan, hcleansed]
  rw [afflicted_iff hkeyed .ally hne, ← ha, not_not]
  refine visit_cases hkeyed hp (by rw [ha]; rfl) ?_ ?_
  · -- the remembered ally serves under the very condition under which it is a candidate
    intro id u hally hu hserves
    obtain ⟨u', hu', hside⟩ := hown id hally
    cases hu.symm.trans hu'
    rw [ha] at hserves ⊢
    obtain ⟨halive, hshows⟩ := Bool.and_eq_true_iff.1 hserves
    exact (mem_allies_iff hkeyed).2 ⟨u, hu, hside, halive, hshows⟩
  · intro id hid s hdrew
    rw [ha] at hid
    obtain ⟨u, hu, -, -, hsuits⟩ := (mem_allies_iff hkeyed).1 hid
    obtain ⟨status, hlisted, hactive⟩ := (matchesFilter_iff hne).1 hsuits
    obtain ⟨draws, rfl⟩ := hdrew
    rw [hturn] at hactive ⊢
    obtain ⟨happlied, u', hu', hgone⟩ := run_cleanseUnit (f := v.firing)
      (s := { v.host with dice := { v.host.dice with draws } }) hu hlisted hactive
    exact ⟨happlied, u, u', hu, hu', status, hlisted, hactive, hgone⟩

theorem heal_visit (hfits : v.host.Fits) {n : Int32} (ha : v.action = .heal .ally n) (hn : 0 < n)
    (hdead : ∀ id u, v.memory.ally = some id → v.host.unit? id = some u → u.alive = false) :
    ¬ v.host.Wounded v.firing.side ∧ v.result answer = .noTarget ∨
    v.host.Wounded v.firing.side ∧ v.result answer = .applied ∧
      Changes v fun u u' => u.health < u'.health := by
  have hp : v.firing.plan v.action = .unit (v.firing.healUnit n.toUInt32) := by
    rw [ha, Firing.plan, if_pos hn]
    intro hleader
    cases hleader
  rw [wounded_iff hkeyed .ally n, ← ha, not_not]
  refine visit_cases hkeyed hp (by rw [ha]; rfl) ?_ ?_
  · intro id u hally hu hserves
    rw [ha] at hserves
    cases hserves.symm.trans (hdead id u hally hu)
  · intro id hid s hdrew
    rw [ha] at hid
    obtain ⟨u, hu, -, -, hdamaged⟩ := (mem_allies_iff hkeyed).1 hid
    obtain ⟨draws, rfl⟩ := hdrew
    obtain ⟨happlied, u', hu', hmore⟩ := run_healUnit (f := v.firing)
      (s := { v.host with dice := { v.host.dice with draws } }) hu (hfits id u hu) hdamaged
      (Firing.toNat_toUInt32_pos hn)
    exact ⟨happlied, u, u', hu, hu', hmore⟩

end

/-- **The invariant of a list of actions**: the turn stands, the remembered ally belongs to the
acting side, and no unit's health leaves the range. -/
theorem visit_invariant {s : Sandbox} (hkeyed : s.Keyed) (hfits : s.Fits) (f : Firing)
    (actions : List Action) :
    ∀ v ∈ f.visits answer {} actions s, v.host.Keyed ∧ v.host.Fits ∧ v.host.turn = s.turn ∧
      Reached (v.host.Owns f.side) v.memory.ally := by
  have hconfined : f.Confined answer (fun s' => Frame f.side (fun _ => True) s s' ∧ s'.Fits)
      (s.Owns f.side) (s.Owns f.side) fun _ => True := by
    refine confined trivial (fun _ _ => trivial) (fun _ _ => trivial)
      (fun _ h => keyed_of_frame hkeyed h.1) ?_ ?_ ?_
    · intro s' id u h hu hside
      exact h.1.owns_iff.1 ⟨u, hu, hside⟩
    · intro s' id u _ hown _ _
      exact hown
    · intro s' q h hq
      exact ⟨h.1.trans (frame_answer hq), fits_answer h.2 q⟩
  intro v hv
  obtain ⟨⟨hframe, hfits'⟩, hown⟩ := f.forall_visits answer
    (fun memory action hm => hconfined.keeps_resolve action hm) Firing.reached_none
    ⟨Frame.refl s, hfits⟩ v hv
  exact ⟨keyed_of_frame hkeyed hframe, hfits', hframe.turn, hown.mono fun _ => hframe.owns_iff.2⟩

/-- **Selection and effect agree.**  On a sandbox whose units are stored under their own ids, with
health in range, at every visit of a list of actions at the turn of the sandbox:

* a cleanse of an ally with a list of statuses finds nobody, and then no living unit of the acting
  side shows any of them, or it is applied, and then there was such a unit and one is gone;
* a heal of an ally by a positive amount, with no living ally in memory, finds nobody, and then no
  living unit of the acting side is damaged, or it is applied, and then there was such a unit and
  health is restored. -/
theorem selection_agrees {s : Sandbox} (hkeyed : s.Keyed) (hfits : s.Fits) {f : Firing}
    (hturn : f.turn = s.turn) (actions : List Action) :
    ∀ v ∈ f.visits answer {} actions s,
      (∀ listed, v.action = .cleanse .ally (some listed) → listed ≠ [] →
        ¬ v.host.Afflicted f.side listed f.turn ∧ v.result answer = .noTarget ∨
        v.host.Afflicted f.side listed f.turn ∧ v.result answer = .applied ∧
          Changes v fun u u' => ∃ status ∈ listed,
            u.hasStatus status f.turn = true ∧ u'.hasStatus status f.turn = false) ∧
      (∀ n, v.action = .heal .ally n → 0 < n →
        (∀ id u, v.memory.ally = some id → v.host.unit? id = some u → u.alive = false) →
        ¬ v.host.Wounded f.side ∧ v.result answer = .noTarget ∨
        v.host.Wounded f.side ∧ v.result answer = .applied ∧
          Changes v fun u u' => u.health < u'.health) := by
  intro v hv
  obtain ⟨hkeyed', hfits', hturn', hown⟩ := visit_invariant hkeyed hfits f actions v hv
  obtain rfl : v.firing = f := (f.firing_of_mem_visits answer hv).1
  refine ⟨fun listed ha hne => ?_, fun n ha hn hdead => ?_⟩
  · exact cleanse_visit hkeyed' ha hne (hturn.trans hturn'.symm) hown
  · exact heal_visit hkeyed' hfits' ha hn hdead

def stunned : BoardUnit :=
  { BoardUnit.fresh ⟨2⟩ "guard" "Guard" .player .front 2 5 with health := 1, stunUntil := some 3 }

/-- A healthy medic beside a wounded guard that is stunned. -/
def sickbay : Sandbox :=
  ((start {}).place (.fresh ⟨1⟩ "medic" "Medic" .player .front 1 3)).place stunned

def wardRound : Firing :=
  { cardId := "medic", event := .turnStart, side := .player, source := ⟨1⟩, sourceName := "Medic",
    turn := 1, combat := none, settings := {} }

/-- The sickbay after the guard was healed. -/
def healedBay : (Resolution × Memory) × Sandbox :=
  (wardRound.resolve {} (.heal .ally 2)).run answer sickbay

theorem selection_agrees_sickbay :
    sickbay.Keyed ∧ sickbay.Fits ∧ wardRound.turn = sickbay.turn ∧
      (⟨wardRound, {}, .heal .ally 2, sickbay⟩ : Visit Sandbox).result answer = .applied ∧
      (⟨wardRound, healedBay.1.2, .cleanse .ally (some [.stun, .stun]), healedBay.2⟩ :
        Visit Sandbox).result answer = .applied := by
  have hkeyed : sickbay.Keyed := keyed_place (keyed_place (keyed_start {}) _) _
  have hfits : sickbay.Fits := by
    refine fits_place (fits_place (fits_start {}) ?_) ?_ <;> constructor <;> decide
  have hagree := selection_agrees hkeyed hfits (f := wardRound) rfl
    [.heal .ally 2, .cleanse .ally (some [.stun, .stun])]
  refine ⟨hkeyed, hfits, rfl, ?_, ?_⟩
  · have hwounded : sickbay.Wounded .player :=
      ⟨⟨2⟩, stunned, (unit?_place _ _ _).trans (if_pos rfl), rfl, rfl, rfl⟩
    rcases (hagree _ (.head _)).2 2 rfl (by decide) nofun with ⟨hnone, -⟩ | ⟨-, h, -⟩
    · exact absurd hwounded hnone
    · exact h
  · have hguard : healedBay.2.unit? ⟨2⟩ = some { stunned with health := 3 } := by decide +kernel
    have hafflicted : healedBay.2.Afflicted .player [.stun, .stun] 1 :=
      ⟨⟨2⟩, _, hguard, rfl, rfl, .stun, .head _, rfl⟩
    rcases (hagree _ (.tail _ (.head _))).1 _ rfl nofun with ⟨hnone, -⟩ | ⟨-, h, -⟩
    · exact absurd hafflicted hnone
    · exact h

end CardDuel.Sandbox
