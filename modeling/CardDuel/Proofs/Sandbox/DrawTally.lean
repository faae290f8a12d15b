import CardDuel.Proofs.Engine.ValidatedOnce
import CardDuel.Proofs.Firing.Change
import CardDuel.Proofs.Sandbox.Accumulation
import CardDuel.Proofs.Sandbox.Candidates
import CardDuel.Proofs.Sandbox.Draws

/-!
# Draws by action

A replay makes the same decisions as long as it counts the same draws.  On an occasion they can be
told from the actions that are carried out: an action draws once to pick an ally, unless it heals,
an ally is remembered, or nobody can be picked; and once to decide whether a status is resisted, if
there is a chance.

* `drawsIn` — the draws that a script takes.
* `Visit.picks`, `Visit.rolls` — whether an action picks at random, and whether it rolls;
  `picks_iff` and `rolls_iff` say it by the board.
* `drawsIn_target`, `drawsIn_effect` — the draws of a search, and of an effect.
* `drawsIn_visit` — the draws of an action.
* `draws_accounted` — the draws of an occasion.
-/

set_option autoImplicit false

namespace CardDuel

open Validation (ActionWellFormed)

/-! ## Draws of scripts -/

namespace Sandbox

theorem drawsOver_append (ms ms' : List (Moment Sandbox)) :
    drawsOver (ms ++ ms') = drawsOver ms + drawsOver ms' := by
  induction ms with
  | nil => exact (Nat.zero_add _).symm
  | cons m ms ih =>
    rw [List.cons_append, drawsOver, drawsOver, ih]
    omega

/-- The draws that a script takes. -/
def drawsIn {α : Type} (x : Script α) (s : Sandbox) : Nat := drawsOver (x.moments answer s)

variable {α β : Type} (s : Sandbox)

@[simp]
theorem drawsIn_done (a : α) : drawsIn (.done a) s = 0 := rfl

theorem drawsIn_ask (q : Request) (next : q.Answer → Script α) :
    drawsIn (.ask q next) s = s.drawsFor q + drawsIn (next (answer q s).1) (answer q s).2 := rfl

theorem drawsIn_bind (x : Script α) (f : α → Script β) :
    drawsIn (x >>= f) s = drawsIn x s + drawsIn (f (x.run answer s).1) (x.run answer s).2 := by
  rw [drawsIn, Script.moments_bind, drawsOver_append]
  rfl

/-- A script that asks nothing that draws takes no draw. -/
theorem drawsIn_eq_zero {P : Request → Prop} {x : Script α} (hx : x.Asks P)
    (hP : ∀ q, P q → ∀ s : Sandbox, s.drawsFor q = 0) : drawsIn x s = 0 := by
  induction x generalizing s with
  | done a => rfl
  | ask q next ih => rw [drawsIn_ask, hP q hx.1, ih _ _ (hx.2 _)]

variable {q : Request} {s}

theorem drawsFor_of_isRead (hq : q.isRead = true) : s.drawsFor q = 0 := by
  cases q with
  | unitIds | unit => rfl
  | _ => cases hq

theorem drawsFor_of_isLog (hq : q.isLog = true) : s.drawsFor q = 0 := by
  cases q with
  | log => rfl
  | _ => cases hq

theorem drawsFor_of_side? {side : Side} (hq : q.side? = some side) : s.drawsFor q = 0 := by
  cases q with
  | gainShares | healLeader | drawCard => rfl
  | _ => cases hq

/-- Whether a unit is on the board and has a chance to resist a status. -/
def mayResist (s : Sandbox) (id : UnitId) (status : Status) : Bool :=
  (s.unit? id).isSome && decide (0.0 < s.resistanceAgainst id status)

/-- **A request for a status draws exactly if the unit may resist it.** -/
theorem drawsFor_of_afflicts? {id : UnitId} {status : Status}
    (hq : q.afflicts? = some ⟨id, status⟩) :
    s.drawsFor q = if s.mayResist id status then 1 else 0 := by
  have hzero : (0.0 : Float).isNaN = false := by decide +kernel
  have hdraws : s.drawsFor q = if (s.rolled? q).any fun p => !p.isNaN then 1 else 0 := by
    cases q with
    | applyStun | applyExposed | applyAttackPenalty => rfl
    | _ => cases hq
  rw [hdraws, rolled?, hq, Option.bind_some, mayResist]
  cases s.unit? id with
  | none => rfl
  | some u =>
    simp only [Option.bind_some, Option.isSome_some, Bool.true_and, chance?, decide_eq_true_eq,
      Dice.lt_iff_not_le hzero]
    by_cases hle : s.resistanceAgainst id status ≤ 0.0 <;> simp [hle]

end Sandbox

/-! ## What an action draws for -/

/-- The status that an action puts on a unit. -/
def Action.status? : Action → Option Status
  | .applyStatus _ status _ => some status
  | _ => none

namespace Visit

variable (v : Visit Sandbox)

/-- Whether an action picks an ally at random: no ally is remembered that still serves, it is no
heal, and there is somebody to pick. -/
def picks : Bool :=
  v.action.target? == some .ally &&
    (v.memory.ally.all fun id => !(v.host.unit? id).any (v.firing.stillServes v.action)) &&
    (v.action.kind != .heal && !(v.host.allies v.firing v.action).isEmpty)

/-- Whether an action rolls: it puts a status on a unit, and the one that it resolves to may
resist. -/
def rolls : Bool :=
  v.action.status?.any fun status =>
    (v.resolved Sandbox.answer).any fun id => v.host.mayResist id status

variable {v}

theorem picks_iff (hs : v.host.Keyed) :
    v.picks = true ↔ v.action.target? = some .ally ∧
      (∀ id u, v.memory.ally = some id → v.host.unit? id = some u →
        v.firing.GivesUp v.action (some u)) ∧
      v.action.kind ≠ .heal ∧ ∃ id, v.host.Offers v.firing v.action id := by
  have hforgotten : (v.memory.ally.all fun id =>
        !(v.host.unit? id).any (v.firing.stillServes v.action)) = true ↔
      ∀ id u, v.memory.ally = some id → v.host.unit? id = some u →
        v.firing.GivesUp v.action (some u) := by
    simp only [Option.all_eq_true, Bool.not_eq_true', Option.any_eq_false,
      Firing.stillServes_eq_false_iff]
    exact forall_congr' fun id => ⟨fun h u hid hu => h hid u hu, fun h hid u hu => h u hid hu⟩
  have hoffered : (!(v.host.allies v.firing v.action).isEmpty) = true ↔
      ∃ id, v.host.Offers v.firing v.action id := by
    rw [Bool.not_eq_true', List.isEmpty_eq_false_iff_exists_mem]
    exact exists_congr fun id => Sandbox.mem_allies_iff_offers hs
  rw [picks, Bool.and_eq_true, Bool.and_eq_true, Bool.and_eq_true, beq_iff_eq, bne_iff_ne,
    hforgotten, hoffered, and_assoc]

theorem rolls_iff :
    v.rolls = true ↔ ∃ target status turns id u, v.action = .applyStatus target status turns ∧
      v.resolved Sandbox.answer = some id ∧ v.host.unit? id = some u ∧
      0.0 < v.host.resistanceAgainst id status := by
  rw [rolls, Option.any_eq_true]
  constructor
  · rintro ⟨status, hstatus, hresolved⟩
    obtain ⟨id, hid, hresists⟩ := (Option.any_eq_true _ _).1 hresolved
    obtain ⟨hthere, hchance⟩ := Bool.and_eq_true_iff.1 hresists
    obtain ⟨u, hu⟩ := Option.isSome_iff_exists.1 hthere
    unfold Action.status? at hstatus
    split at hstatus
    · rename_i target status' turns ha
      cases hstatus
      exact ⟨target, status, turns, id, u, ha, hid, hu, of_decide_eq_true hchance⟩
    · cases hstatus
  · rintro ⟨target, status, turns, id, u, ha, hid, hu, hchance⟩
    refine ⟨status, by rw [ha]; rfl, ?_⟩
    rw [hid, Option.any_some, Sandbox.mayResist, hu, decide_eq_true hchance]
    rfl

end Visit

namespace Sandbox

variable (s : Sandbox) (f : Firing) (memory : Memory) (action : Action)

/-! ## Searches -/

theorem drawsIn_choose (ids : List UnitId) :
    drawsIn (f.choose action ids) s =
      if action.kind != .heal && !ids.isEmpty then 1 else 0 := by
  cases ids with
  | nil => simp [Firing.choose]
  | cons id ids =>
    by_cases hheal : action.kind = .heal
    · rw [choose_of_heal (List.cons_ne_nil id ids) hheal, hheal]
      rfl
    · rw [choose_of_not_heal (List.cons_ne_nil id ids) hheal, bne_iff_ne.2 hheal]
      rfl

/-- A search for an ally that is not remembered draws if it picks at random among somebody. -/
theorem drawsIn_pickAlly :
    drawsIn (f.pickAlly action) s =
      if action.kind != .heal && !(s.allies f action).isEmpty then 1 else 0 := by
  have hread (q : Request) (hq : q.isRead = true) (t : Sandbox) : t.drawsFor q = 0 :=
    drawsFor_of_isRead hq
  have hlooks (ids : List UnitId) : drawsIn (Firing.knownUnits ids) s = 0 :=
    drawsIn_eq_zero s (Firing.asks_knownUnits (fun _ => rfl) ids) hread
  have hlist : s.drawsFor (.unitIds f.side none) = 0 := rfl
  rw [Firing.pickAlly, Script.request_bind, drawsIn_ask, hlist, Nat.zero_add]
  show drawsIn (Firing.knownUnits (s.unitIds f.side none) >>= _) s = _
  rw [drawsIn_bind, hlooks, run_knownUnits, Nat.zero_add]
  exact drawsIn_choose s f action (s.allies f action)

/-- A search for an ally draws if none is remembered that serves, and one is picked at random. -/
theorem drawsIn_ally :
    drawsIn (f.ally memory action) s =
      if (memory.ally.filter fun id => (s.unit? id).any (f.stillServes action)).isNone &&
        (action.kind != .heal && !(s.allies f action).isEmpty) then 1 else 0 := by
  have hlook : drawsIn (f.remembered memory action) s = 0 :=
    drawsIn_eq_zero s (f.asks_remembered memory action fun _ => id) fun _ hq _ =>
      drawsFor_of_isRead hq
  rw [Firing.ally, drawsIn_bind, hlook, Nat.zero_add, run_remembered]
  cases memory.ally.filter fun id => (s.unit? id).any (f.stillServes action) with
  | some id => rfl
  | none =>
    simp only [drawsIn_bind, drawsIn_pickAlly, Option.isNone_none, Bool.true_and]
    cases ((f.pickAlly action).run answer s).1 <;> rfl

/-- **A search draws exactly if it picks at random.** -/
theorem drawsIn_target :
    drawsIn (f.target memory action) s =
      if (⟨f, memory, action, s⟩ : Visit Sandbox).picks then 1 else 0 := by
  by_cases ha : action.target? = some .ally
  · rw [f.target_of_ally memory action ha, drawsIn_ally, Option.isNone_filter, Visit.picks, ha]
    rfl
  · have hno : (⟨f, memory, action, s⟩ : Visit Sandbox).picks = false := by
      simp [Visit.picks, ha]
    rw [hno, Firing.target]
    split
    · rfl
    · rfl
    · exact drawsIn_eq_zero s ((f.asks_opponent fun _ => id).bind fun _ => trivial) fun _ hq _ =>
        drawsFor_of_isRead hq
    · rfl
    · rename_i hally
      exact absurd hally ha

/-! ## Effects -/

variable {f action}

/-- What follows a change asks for a name and a line at most. -/
theorem asks_conclude (f : Firing) (x : Exchange) :
    (f.conclude x).Asks fun q => q.isRead = true ∨ q.isLog = true := by
  have hsay (line : String) : (f.say line).Asks fun q => q.isRead = true ∨ q.isLog = true :=
    Firing.asks_say f line fun _ => .inr rfl
  unfold Firing.conclude
  split
  · trivial
  · split
    · trivial
    · refine Script.Asks.bind ?_ fun _ => trivial
      unfold Firing.tell
      split
      · exact hsay _
      · exact (Firing.asks_nameOf f _ (.inl rfl)).bind fun _ => hsay _

theorem drawsIn_conclude (x : Exchange) : drawsIn (f.conclude x) s = 0 := by
  refine drawsIn_eq_zero s (asks_conclude f x) fun q hq t => ?_
  rcases hq with hread | hlog
  · exact drawsFor_of_isRead hread
  · exact drawsFor_of_isLog hlog

/-- An effect on the acting side draws nothing. -/
theorem drawsIn_side {effect : Script Resolution} (hp : f.plan action = .side effect) :
    drawsIn effect s = 0 := by
  refine drawsIn_eq_zero s (Firing.asks_side_plan hp) fun q hq t => ?_
  rcases hq with hside | hlog
  · exact drawsFor_of_side? hside
  · exact drawsFor_of_isLog hlog

/-- **An effect on a unit draws exactly if it puts a status on it that it may resist.** -/
theorem drawsIn_effect {effect : UnitId → Script Resolution} (hp : f.plan action = .unit effect)
    (id : UnitId) :
    drawsIn (effect id) s = if action.status?.any (s.mayResist id) then 1 else 0 := by
  obtain ⟨q, hq, heffect⟩ := f.unit_plan_eq hp id
  rw [heffect, drawsIn_ask, drawsIn_conclude, Nat.add_zero]
  cases action with
  | applyStatus target status turns =>
    refine drawsFor_of_afflicts? ?_
    cases status <;> cases hq <;> rfl
  | gainShield | heal | modifyAttack | cleanse =>
    cases hq
    rfl
  | gainShares | drawCard => cases hq

/-! ## Actions -/

variable {v : Visit Sandbox}

/-- An action on the acting side looks for no ally. -/
theorem target_ne_ally_of_side {effect : Script Resolution} (hp : f.plan action = .side effect) :
    action.target? ≠ some .ally := by
  rcases f.side_plan_eq hp with ⟨n, rfl, -⟩ | ⟨q, hq, -⟩
  · nofun
  · unfold Firing.sideChange? at hq
    split at hq
    · nofun
    · nofun
    · cases hq

/-- So it neither picks nor rolls. -/
theorem quiet_of_side {effect : Script Resolution} (hp : v.firing.plan v.action = .side effect) :
    v.picks = false ∧ v.rolls = false := by
  have hally := target_ne_ally_of_side hp
  have hunresolved : v.resolved answer = none := by simp only [Visit.resolved, hp]
  refine ⟨by simp [Visit.picks, hally], ?_⟩
  rw [Visit.rolls, hunresolved]
  cases v.action.status? <;> rfl

/-- **The draws of an action** that says something: one if it picks at random, and one if it
rolls. -/
theorem drawsIn_visit {event : Event} (hw : ActionWellFormed event v.action) :
    drawsIn v.script v.host = (if v.picks then 1 else 0) + if v.rolls then 1 else 0 := by
  rw [Visit.script, Firing.resolve_eq]
  cases hp : v.firing.plan v.action with
  | idle => exact absurd hp (Firing.plan_ne_idle hw)
  | side effect =>
    obtain ⟨hpicks, hrolls⟩ := quiet_of_side hp
    rw [hpicks, hrolls]
    simp only [drawsIn_bind, drawsIn_side _ hp]
    rfl
  | unit effect =>
    have hsearch := drawsIn_target v.host v.firing v.memory v.action
    obtain ⟨dice, hfound⟩ : ∃ dice,
        ((v.firing.target v.memory v.action).run answer v.host).2 = { v.host with dice } := by
      rcases v.host.run_target_cases v.firing v.memory v.action with hstay | ⟨-, hdrew⟩
      · exact ⟨v.host.dice, hstay⟩
      · exact ⟨_, hdrew⟩
    simp only [Firing.withTarget, drawsIn_bind, hsearch, hfound]
    refine congrArg _ ?_
    rw [Visit.rolls, v.resolved_of_unit answer hp]
    cases ((v.firing.target v.memory v.action).run answer v.host).1.1 with
    | none => cases v.action.status? <;> rfl
    | some id =>
      simp only [drawsIn_bind, drawsIn_effect _ hp]
      rfl

/-! ## Occasions -/

theorem drawsOver_nonReadMoments (ms : List (Moment Sandbox)) :
    drawsOver (nonReadMoments ms) = drawsOver ms := by
  induction ms with
  | nil => rfl
  | cons m ms ih =>
    rw [← List.singleton_append, nonReadMoments_append, drawsOver_append, drawsOver_append, ih]
    congr 1
    cases hread : m.request.isRead with
    | true => simp [nonReadMoments, hread, drawsOver, drawsFor_of_isRead hread]
    | false => simp [nonReadMoments, hread]

/-- Actions one after the other draw as often as they pick and roll. -/
theorem drawsOver_visits {vs : List (Visit Sandbox)}
    (hvs : ∀ v ∈ vs, ActionWellFormed v.firing.event v.action) :
    drawsOver (vs.flatMap (·.moments answer)) = vs.countP (·.picks) + vs.countP (·.rolls) := by
  induction vs with
  | nil => rfl
  | cons v vs ih =>
    obtain ⟨hv, hrest⟩ := List.forall_mem_cons.1 hvs
    have hfirst : drawsOver (v.moments answer) = _ := drawsIn_visit hv
    rw [List.flatMap_cons, drawsOver_append, hfirst, ih hrest, List.countP_cons, List.countP_cons]
    omega

variable (o : Occasion) (e : Engine) (a : Actor)

/-- **The draws of an occasion** are those of the actions that are carried out. -/
theorem drawsIn_occasion :
    drawsIn (o.script e a) s =
      (o.visits answer e a s).countP (·.picks) + (o.visits answer e a s).countP (·.rolls) := by
  rw [← drawsOver_visits fun v hv => (wellFormed_of_mem_visits hv).1,
    ← drawsOver_nonReadMoments, nonReadMoments_flatMap, ← o.nonReadMoments_eq_visits,
    drawsOver_nonReadMoments]
  rfl

/-- **Draws are accounted for.**  On a sandbox whose units are stored under their own ids, an
occasion leaves the seed, and the counter of draws goes up by the number of actions that pick plus
the number of actions that roll:

* an action picks if it is for an ally but no heal, the remembered ally, if there is one on the
  board, is given up, and there is a candidate;
* an action rolls if it puts a status on a unit, and the one it resolves to is on the board with a
  chance to resist.

Each of them draws when it is carried out, and no other action does. -/
theorem draws_accounted {s : Sandbox} (hs : s.Keyed) (e : Engine) (a : Actor) (o : Occasion) :
    let visits := o.visits answer e a s
    let draws := visits.countP (·.picks) + visits.countP (·.rolls)
    let after := ((o.script e a).run answer s).2
    after.dice.seed = s.dice.seed ∧ after.dice.draws = s.dice.draws + .ofNat draws ∧
      (s.dice.draws.toNat + draws < UInt64.size →
        after.dice.draws.toNat = s.dice.draws.toNat + draws) ∧
      (((o.report? e a).run answer s).1.getD []).flatMap (·.verdict.deeds) =
        visits.map (·.deed answer) ∧
      ∀ v ∈ visits,
        (v.picks = true ↔ v.action.target? = some .ally ∧
          (∀ id u, v.memory.ally = some id → v.host.unit? id = some u →
            v.firing.GivesUp v.action (some u)) ∧
          v.action.kind ≠ .heal ∧ ∃ id, v.host.Offers v.firing v.action id) ∧
        (v.rolls = true ↔ ∃ target status turns id u,
          v.action = .applyStatus target status turns ∧ v.resolved answer = some id ∧
            v.host.unit? id = some u ∧ 0.0 < v.host.resistanceAgainst id status) ∧
        (v.hostAfter answer).dice.draws = v.host.dice.draws +
          .ofNat ((if v.picks then 1 else 0) + if v.rolls then 1 else 0) := by
  intro visits draws after
  have hdraws : drawsOver ((o.script e a).moments answer s) = draws := drawsIn_occasion s o e a
  refine ⟨?_, ?_, ?_, o.deeds_eq_visits answer e a s, fun v hv => ?_⟩
  · exact Script.host_of_run (I := fun t => t.dice.seed = s.dice.seed)
      (fun q t ht => (frame_any q t).seed.trans ht) rfl
  · rw [← hdraws]
    exact draws_run _ s
  · rw [← hdraws]
    exact toNat_draws_run _ s
  · obtain ⟨w, hw, hvw⟩ := List.mem_flatMap.1 hv
    have hkeyed : v.host.Keyed := by
      have hstep (q : Request) (t : Sandbox) (ht : t.Keyed) : (answer q t).2.Keyed :=
        keyed_answer ht q
      have harrival : w.host.Keyed := Occasion.host_of_mem_arrivals hstep hs hw
      exact (Arrival.host_of_mem_visits hstep harrival hvw).1
    refine ⟨Visit.picks_iff hkeyed, Visit.rolls_iff, ?_⟩
    rw [← drawsIn_visit (wellFormed_of_mem_visits hv).1]
    exact draws_run v.script v.host

/-- A card that looks for an ally to heal, turns to whom it hit, and shields an ally. -/
def marshal : Card :=
  { id := "marshal", name := "Marshal", kind := .unit .back ⟨2, 3⟩
    triggers := [{ event := .hit, actions := [.heal .ally 2, .applyStatus .hitTarget .stun 1,
      .applyStatus .hitTarget .exposed 1, .gainShield .ally 1] }] }

def raiders : Engine := { catalog := ⟨[marshal, statue], by decide +kernel⟩ }

/-- Two marshals against a statue. -/
def raid : Sandbox :=
  let first := ((start {}).summon raiders.catalog "marshal" .player).2
  let second := (first.summon raiders.catalog "marshal" .player).2
  (second.summon raiders.catalog "statue" .enemy).2

/-- A marshal hits the statue. -/
def strike : Occasion := .combat { target := some ⟨3⟩ }

/-- What it does then. -/
def blows : List (Visit Sandbox) := strike.visits answer raiders ⟨.player, ⟨1⟩, 1⟩ raid

/-- The heal finds nobody.  The statue resists the stun by a roll, and has no chance against
exposure.  For the shield there is one other marshal to pick. -/
theorem draws_accounted_raid :
    raid.Keyed ∧
      blows.map (fun v => (v.picks, v.rolls)) =
        [(false, false), (false, true), (false, false), (true, false)] ∧
      ((strike.script raiders ⟨.player, ⟨1⟩, 1⟩).run answer raid).2.dice.seed = raid.dice.seed ∧
      ((strike.script raiders ⟨.player, ⟨1⟩, 1⟩).run answer raid).2.dice.draws = 2 := by
  have hstart : Reached raiders.catalog {} (start {}) := .start
  have hfirst := hstart.step (.summon _ "marshal" .player)
  have hsecond := hfirst.step (.summon _ "marshal" .player)
  have hreached : Reached raiders.catalog {} raid := hsecond.step (.summon _ "statue" .enemy)
  have hkeyed := (WellFormed.of_reached (by decide) hreached).keyed
  have htests : blows.map (fun v => (v.picks, v.rolls)) =
      [(false, false), (false, true), (false, false), (true, false)] := by decide +kernel
  have hpicks : blows.countP (·.picks) = 1 := by
    have hcount := congrArg (List.countP Prod.fst) htests
    rwa [List.countP_map] at hcount
  have hrolls : blows.countP (·.rolls) = 1 := by
    have hcount := congrArg (List.countP Prod.snd) htests
    rwa [List.countP_map] at hcount
  obtain ⟨hseed, hdraws, -⟩ := draws_accounted hkeyed raiders ⟨.player, ⟨1⟩, 1⟩ strike
  refine ⟨hkeyed, htests, hseed, hdraws.trans ?_⟩
  show raid.dice.draws + .ofNat (blows.countP (·.picks) + blows.countP (·.rolls)) = 2
  rw [hpicks, hrolls]
  decide +kernel

end Sandbox

end CardDuel
