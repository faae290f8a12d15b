import CardDuel.Proofs.Sandbox.Board
import Mathlib.Data.List.Basic

/-!
# Sandboxes that agree on one side

A `Dossier` is everything that the sandbox keeps about a unit on its board.  Two sandboxes are
`Alike` for a side if they agree on the dossiers of its units, and perhaps of some more, on its
holdings, the dice and the turn.  What else is on the board may differ, and so may the log up to
now; what has been logged since is the same.

* `answer_congr_of_subject`, `answer_congr_of_side` — what a request about one unit or one side
  answers and changes depends on the dossier, or on the holdings, and on the dice and the turn.
* `Alike.of_subject`, `Alike.of_side`, `Alike.of_random`, `Alike.of_log` — a request leaves alike
  what was alike, with the same answer.
-/

set_option autoImplicit false

namespace CardDuel

/-- Everything that a sandbox keeps about a unit on its board. -/
structure Dossier where
  unit : BoardUnit
  resistance : Option Resistance
  source? : Status → Option String

/-- The lines that a request shows to the players. -/
def Request.lines : Request → List String
  | log line => [line]
  | _ => []

namespace Sandbox

def dossier? (s : Sandbox) (id : UnitId) : Option Dossier :=
  (s.unit? id).map fun u => ⟨u, s.resistances[id]?, s.statusSource? id⟩

variable {s s' : Sandbox} {side : Side} {id : UnitId}

/-! ## Dossiers -/

theorem unit?_of_dossier? (h : s.dossier? id = s'.dossier? id) : s.unit? id = s'.unit? id := by
  have hunit (t : Sandbox) : (t.dossier? id).map Dossier.unit = t.unit? id := by
    simp [dossier?, Function.comp_def]
  rw [← hunit, h, hunit]

theorem dossier?_of_unit? {u : BoardUnit} (hu : s.unit? id = some u) :
    s.dossier? id = some ⟨u, s.resistances[id]?, s.statusSource? id⟩ := by
  rw [dossier?, hu]
  rfl

/-- Equal dossiers: no unit under the id, or the same unit with the same resistance and sources. -/
theorem cases_of_dossier? (h : s.dossier? id = s'.dossier? id) :
    (s.unit? id = none ∧ s'.unit? id = none) ∨
      ∃ u, s.unit? id = some u ∧ s'.unit? id = some u ∧
        s.resistances[id]? = s'.resistances[id]? ∧
        ∀ status, s.statusSource? id status = s'.statusSource? id status := by
  have hunit := unit?_of_dossier? h
  cases hu : s.unit? id with
  | none => exact .inl ⟨rfl, hunit ▸ hu⟩
  | some u =>
    have hu' : s'.unit? id = some u := hunit ▸ hu
    rw [dossier?_of_unit? hu, dossier?_of_unit? hu'] at h
    simp only [Option.some.injEq, Dossier.mk.injEq, true_and] at h
    exact .inr ⟨u, rfl, hu', h.1, fun status => congrFun h.2 status⟩

theorem views_of_dossier? (h : s.dossier? id = s'.dossier? id) {u : BoardUnit}
    (hu : s.unit? id = some u) :
    s.unit? id = s'.unit? id ∧
      ∀ status, s.statusSource? id status = s'.statusSource? id status := by
  refine ⟨unit?_of_dossier? h, ?_⟩
  rcases cases_of_dossier? h with ⟨hnone, -⟩ | ⟨_, _, _, _, hsource⟩
  · cases hnone.symm.trans hu
  · exact hsource

/-- The same unit put under an id with the same resistance and sources makes the same dossier. -/
theorem dossier?_amend_congr (u : BoardUnit) {sources sources' : Std.ExtTreeMap Mark String}
    (hr : s.resistances[id]? = s'.resistances[id]?)
    (hsource : ∀ status, sources[(⟨id, status⟩ : Mark)]? = sources'[(⟨id, status⟩ : Mark)]?) :
    ({ s.put id u with sources } : Sandbox).dossier? id =
      ({ s'.put id u with sources := sources' } : Sandbox).dossier? id := by
  have hput (t : Sandbox) (sources : Std.ExtTreeMap Mark String) :
      ({ t.put id u with sources } : Sandbox).dossier? id =
        some ⟨u, t.resistances[id]?, fun status => sources[(⟨id, status⟩ : Mark)]?⟩ := by
    have hu : ({ t.put id u with sources } : Sandbox).unit? id = some u :=
      unit?_put_self t id u
    rw [dossier?_of_unit? hu]
    rfl
  rw [hput, hput, hr]
  exact congrArg (fun f => some (Dossier.mk u _ f)) (funext hsource)

theorem Frame.dossier? {reach : UnitId → Prop} (h : Frame side reach s s') (hid : ¬ reach id) :
    s'.dossier? id = s.dossier? id := by
  have hsource : s'.statusSource? id = s.statusSource? id := funext fun status =>
    h.source id status hid
  rw [Sandbox.dossier?, Sandbox.dossier?, h.unit id hid, h.resistances, hsource]

/-! ## Requests about one unit -/

/-- The sources that a cleanse leaves under an id depend on those that were there. -/
theorem getElem?_erase_congr {sources sources' : Std.ExtTreeMap Mark String}
    (h : ∀ status, sources[(⟨id, status⟩ : Mark)]? = sources'[(⟨id, status⟩ : Mark)]?)
    (removed : List Status) (status : Status) :
    (removed.foldl (fun sources status => sources.erase ⟨id, status⟩) sources)[
        (⟨id, status⟩ : Mark)]? =
      (removed.foldl (fun sources status => sources.erase ⟨id, status⟩) sources')[
        (⟨id, status⟩ : Mark)]? := by
  induction removed generalizing sources sources' with
  | nil => exact h status
  | cons first removed ih =>
    refine ih fun status => ?_
    rw [Std.ExtTreeMap.getElem?_erase, Std.ExtTreeMap.getElem?_erase, h]

/-- Whether a status lands is settled by the resistance and the dice. -/
theorem lands_congr (status : Status) (hr : s.resistances[id]? = s'.resistances[id]?)
    (hdice : s.dice = s'.dice) :
    (s.lands id status).1 = (s'.lands id status).1 ∧
      (s.lands id status).2.dice = (s'.lands id status).2.dice := by
  have hchance : s.resistanceAgainst id status = s'.resistanceAgainst id status := by
    rw [resistanceAgainst, resistanceAgainst, hr]
  simp only [lands, hchance, hdice]
  split
  · exact ⟨rfl, hdice⟩
  · split
    · exact ⟨rfl, hdice⟩
    · exact ⟨rfl, rfl⟩

theorem afflict_congr (status : Status) (source : String) (change : BoardUnit → BoardUnit)
    {u : BoardUnit} (hu : s.unit? id = some u) (hu' : s'.unit? id = some u)
    (hr : s.resistances[id]? = s'.resistances[id]?)
    (hsource : ∀ status, s.statusSource? id status = s'.statusSource? id status)
    (h : s.dossier? id = s'.dossier? id) (hdice : s.dice = s'.dice) :
    (s.afflict id status source change).1 = (s'.afflict id status source change).1 ∧
      (s.afflict id status source change).2.dossier? id =
        (s'.afflict id status source change).2.dossier? id ∧
      (s.afflict id status source change).2.dice =
        (s'.afflict id status source change).2.dice := by
  obtain ⟨hlands, hdice'⟩ := lands_congr status hr hdice
  obtain ⟨dice, hs, -⟩ := s.exists_dice_of_lands id status
  obtain ⟨dice', hs', -⟩ := s'.exists_dice_of_lands id status
  rw [hs, hs'] at hdice'
  cases hdice'
  simp only [afflict, hu, hu', hs, hs', hlands]
  split
  · refine ⟨rfl, dossier?_amend_congr _ hr fun status' => ?_, rfl⟩
    rw [Std.ExtTreeMap.getElem?_insert, Std.ExtTreeMap.getElem?_insert]
    exact congrArg (ite _ _) (hsource status')
  · exact ⟨rfl, h, rfl⟩

/-- A change of a unit that the sandbox does not know changes nothing. -/
theorem exists_answer_of_unknown {q : Request} (hq : q.subject? = some id) :
    ∃ a, ∀ s : Sandbox, s.unit? id = none → answer q s = (a, s) := by
  cases q with
  | healUnit | cleanse | modifyAttack =>
    cases hq
    exact ⟨0, fun s hs => by simp only [answer, healUnit, cleanse, modifyAttack, hs]⟩
  | addShield | applyAttackPenalty =>
    cases hq
    exact ⟨(), fun s hs => by simp only [answer, addShield, edit, applyAttackPenalty, afflict, hs]⟩
  | applyStun | applyExposed =>
    cases hq
    exact ⟨false, fun s hs => by simp only [answer, applyStun, applyExposed, afflict, hs]⟩
  | _ => cases hq

/-- **A request about a unit is settled by its dossier**, the dice and the turn. -/
theorem answer_congr_of_subject {q : Request} (hq : q.subject? = some id)
    (h : s.dossier? id = s'.dossier? id) (hdice : s.dice = s'.dice) (hturn : s.turn = s'.turn) :
    (answer q s).1 = (answer q s').1 ∧
      (answer q s).2.dossier? id = (answer q s').2.dossier? id ∧
      (answer q s).2.dice = (answer q s').2.dice := by
  rcases cases_of_dossier? h with ⟨hu, hu'⟩ | ⟨u, hu, hu', hr, hsource⟩
  · obtain ⟨a, ha⟩ := exists_answer_of_unknown hq
    rw [ha s hu, ha s' hu']
    exact ⟨rfl, h, hdice⟩
  · cases q with
    | healUnit | addShield | modifyAttack =>
      cases hq
      simp only [answer, healUnit, addShield, edit, modifyAttack, hu, hu']
      exact ⟨trivial, dossier?_amend_congr _ hr hsource, hdice⟩
    | cleanse id' statuses =>
      cases hq
      simp only [answer, cleanse, hu, hu', hturn]
      exact ⟨trivial, dossier?_amend_congr _ hr (getElem?_erase_congr hsource _), hdice⟩
    | applyStun | applyExposed =>
      cases hq
      exact afflict_congr _ _ _ hu hu' hr hsource h hdice
    | applyAttackPenalty =>
      cases hq
      exact ⟨rfl, (afflict_congr _ _ _ hu hu' hr hsource h hdice).2⟩
    | _ => cases hq

/-! ## Requests about one side -/

/-- **A request about a side is settled by its holdings**, and leaves the dice. -/
theorem answer_congr_of_side {q : Request} (hq : q.side? = some side)
    (h : s.holdings side = s'.holdings side) (hdice : s.dice = s'.dice) :
    (answer q s).1 = (answer q s').1 ∧
      (answer q s).2.holdings side = (answer q s').2.holdings side ∧
      (answer q s).2.dice = (answer q s').2.dice := by
  have hset (t : Sandbox) (holdings : Holdings) : (t.setHoldings side holdings).dice = t.dice := by
    cases side <;> rfl
  cases q with
  | gainShares | healLeader =>
    cases hq
    simp only [answer, gainShares, healLeader, holdings_setHoldings, hset, h]
    exact ⟨trivial, trivial, hdice⟩
  | drawCard =>
    cases hq
    simp only [answer, drawCard, h]
    split
    · exact ⟨rfl, h, hdice⟩
    · rw [holdings_setHoldings, holdings_setHoldings, if_pos rfl, if_pos rfl, hset, hset]
      exact ⟨rfl, rfl, hdice⟩
  | _ => cases hq

theorem holdings_answer {q : Request} (hq : q.side? = none) (s : Sandbox) (side : Side) :
    (answer q s).2.holdings side = s.holdings side := by
  have hwithin : q.Within side.opponent fun _ => True :=
    ⟨fun _ _ => trivial, fun side' h => by rw [hq] at h; cases h⟩
  simpa using (frame_answer (s := s) hwithin).opponent

/-! ## The log -/

/-- **Nothing but a line that is shown goes to the log.** -/
theorem log_answer (q : Request) (s : Sandbox) : (answer q s).2.log = s.log ++ q.lines := by
  have hafflict (id : UnitId) (status : Status) (source : String)
      (change : BoardUnit → BoardUnit) : (s.afflict id status source change).2.log = s.log := by
    obtain ⟨dice, -, hresisted | ⟨u, -, hlanded⟩⟩ := s.afflict_cases id status source change
    · rw [hresisted]
    · rw [hlanded]
      rfl
  have hset (side : Side) (holdings : Holdings) :
      (s.setHoldings side holdings).log = s.log := by
    cases side <;> rfl
  cases q with
  | log line => rfl
  | applyStun | applyExposed | applyAttackPenalty =>
    exact (hafflict ..).trans (List.append_nil _).symm
  | gainShares | healLeader => exact (hset ..).trans (List.append_nil _).symm
  | drawCard =>
    refine Eq.trans ?_ (List.append_nil _).symm
    simp only [answer, drawCard]
    split
    · rfl
    · exact hset ..
  | healUnit | addShield | cleanse | modifyAttack =>
    refine Eq.trans ?_ (List.append_nil _).symm
    simp only [answer, healUnit, addShield, edit, cleanse, modifyAttack]
    split <;> rfl
  | _ => exact (List.append_nil _).symm

/-! ## Agreement -/

/-- The two sandboxes agree on the dossiers of the units in `seen`, among which are all units of the
side, on the holdings of the side, the dice and the turn, and the same lines have been added to the
two logs `base` and `base'`. -/
structure Alike (side : Side) (seen : UnitId → Prop) (base base' : List String)
    (s s' : Sandbox) : Prop where
  keyed : s.Keyed
  keyed' : s'.Keyed
  turn : s.turn = s'.turn
  dice : s.dice = s'.dice
  holdings : s.holdings side = s'.holdings side
  dossier : ∀ id, seen id → s.dossier? id = s'.dossier? id
  own : ∀ id, s.Owns side id → seen id
  own' : ∀ id, s'.Owns side id → seen id
  log : ∃ lines, s.log = base ++ lines ∧ s'.log = base' ++ lines

namespace Alike

variable {seen : UnitId → Prop} {base base' : List String} (h : Alike side seen base base' s s')

include h

theorem unit? (hid : seen id) : s.unit? id = s'.unit? id :=
  unit?_of_dossier? (h.dossier id hid)

theorem unitIds (lane : Option Lane) : s.unitIds side lane = s'.unitIds side lane := by
  refine unitIds_congr (fun id u hside => ⟨fun hu => ?_, fun hu => ?_⟩) lane
  · rw [← h.unit? (h.own id ⟨u, hu, hside⟩), hu]
  · rw [h.unit? (h.own' id ⟨u, hu, hside⟩), hu]

theorem lowestHealth? {candidates : List UnitId} (hseen : ∀ id ∈ candidates, seen id) :
    s.lowestHealth? candidates = s'.lowestHealth? candidates := by
  have hunits : candidates.filterMap s.unit? = candidates.filterMap s'.unit? :=
    List.filterMap_congr fun id hid => h.unit? (hseen id hid)
  rw [Sandbox.lowestHealth?, Sandbox.lowestHealth?, hunits]

/-- A request leaves two sandboxes alike if it does so where it is addressed. -/
theorem step {q : Request} (hside : ∀ side', q.side? = some side' → side' = side)
    (hdice : (answer q s).2.dice = (answer q s').2.dice)
    (hsubject : ∀ id, q.subject? = some id →
      (answer q s).2.dossier? id = (answer q s').2.dossier? id)
    (hholdings : (answer q s).2.holdings side = (answer q s').2.holdings side) :
    Alike side seen base base' (answer q s).2 (answer q s').2 := by
  have hwithin : q.Within side fun id => q.subject? = some id := ⟨fun _ hid => hid, hside⟩
  have hframe : Frame side _ s (answer q s).2 := frame_answer hwithin
  have hframe' : Frame side _ s' (answer q s').2 := frame_answer hwithin
  obtain ⟨lines, hlog, hlog'⟩ := h.log
  exact {
    keyed := keyed_of_frame h.keyed hframe
    keyed' := keyed_of_frame h.keyed' hframe'
    turn := by rw [hframe.turn, hframe'.turn, h.turn]
    dice := hdice
    holdings := hholdings
    dossier := by
      intro id hid
      by_cases haddressed : q.subject? = some id
      · exact hsubject id haddressed
      · rw [hframe.dossier? haddressed, hframe'.dossier? haddressed, h.dossier id hid]
    own := fun id hid => h.own id (hframe.owns_iff.1 hid)
    own' := fun id hid => h.own' id (hframe'.owns_iff.1 hid)
    log := by
      refine ⟨lines ++ q.lines, ?_, ?_⟩
      · rw [log_answer, hlog, List.append_assoc]
      · rw [log_answer, hlog', List.append_assoc] }

theorem of_subject {q : Request} (hq : q.subject? = some id) (hid : seen id) :
    (answer q s).1 = (answer q s').1 ∧
      Alike side seen base base' (answer q s).2 (answer q s').2 := by
  obtain ⟨hanswer, hdossier, hdice⟩ :=
    answer_congr_of_subject hq (h.dossier id hid) h.dice h.turn
  have hside : q.side? = none := Request.side?_of_subject? hq
  refine ⟨hanswer, h.step ?_ hdice ?_ ?_⟩
  · intro side' hside'
    rw [hside] at hside'
    cases hside'
  · intro id' hid'
    cases hq.symm.trans hid'
    exact hdossier
  · rw [holdings_answer hside, holdings_answer hside, h.holdings]

theorem of_side {q : Request} (hq : q.side? = some side) :
    (answer q s).1 = (answer q s').1 ∧
      Alike side seen base base' (answer q s).2 (answer q s').2 := by
  obtain ⟨hanswer, hholdings, hdice⟩ := answer_congr_of_side hq h.holdings h.dice
  refine ⟨hanswer, h.step ?_ hdice ?_ hholdings⟩
  · intro side' hside'
    exact Option.some.inj (hside'.symm.trans hq)
  · intro id hid
    rw [Request.subject?_of_side? hq] at hid
    cases hid

theorem of_random (candidates : List UnitId) (label : String) :
    (answer (.pickRandom candidates label) s).1 = (answer (.pickRandom candidates label) s').1 ∧
      Alike side seen base base' (answer (.pickRandom candidates label) s).2
        (answer (.pickRandom candidates label) s').2 := by
  refine ⟨?_, h.step (fun _ hside => by cases hside) ?_ (fun _ hid => by cases hid) h.holdings⟩
  · exact congrArg (fun d : Dice => (d.pick label candidates).1) h.dice
  · exact congrArg (fun d : Dice => (d.pick label candidates).2) h.dice

theorem of_log (line : String) :
    Alike side seen base base' (answer (.log line) s).2 (answer (.log line) s').2 :=
  h.step (fun _ hside => by cases hside) h.dice (fun _ hid => by cases hid) h.holdings

end Alike

end Sandbox

end CardDuel
