import CardDuel.Proofs.Firing.Plan
import CardDuel.Sandbox.Host

/-!
# Frames of the sandbox

`Sandbox.Frame side reach s s'` says that from `s` to `s'` only the units in `reach` and the
holdings of one side changed, and of these only what play changes: identity, place and maximum of a
unit stay, and so does the maximum of the leader.

* `Frame.refl`, `Frame.trans` — frames of steps make a frame of the run.
* `bare_cleanse` — without its statuses, a unit is the same after a cleanse.
* `afflict_cases` — what a request for a status can come to.
* `frame_answer` — a request addressed to units in `reach` or to the side stays within the frame.
* `keyed_of_frame` — units stay under their own ids.
-/

set_option autoImplicit false

namespace CardDuel

/-- The request changes no unit outside of `reach` and no other side than the given one. -/
structure Request.Within (side : Side) (reach : UnitId → Prop) (q : Request) : Prop where
  unit : ∀ id, q.subject? = some id → reach id
  side : ∀ side', q.side? = some side' → side' = side

namespace Request.Within

variable {side : Side} {reach : UnitId → Prop} {q : Request}

theorem of_unaddressed (hunit : q.subject? = none) (hside : q.side? = none) :
    q.Within side reach where
  unit id h := by rw [hunit] at h; cases h
  side side' h := by rw [hside] at h; cases h

theorem of_subject {id : UnitId} (h : q.subject? = some id) (hid : reach id) :
    q.Within side reach where
  unit id' h' := by
    cases h.symm.trans h'
    exact hid
  side side' h' := by
    rw [side?_of_subject? h] at h'
    cases h'

theorem of_side (h : q.side? = some side) : q.Within side reach where
  unit id h' := by
    rw [subject?_of_side? h] at h'
    cases h'
  side side' h' := Option.some.inj (h'.symm.trans h)

end Request.Within

/-- What play leaves alone in a unit. -/
structure Identity where
  id : UnitId
  cardId : String
  name : String
  side : Side
  lane : Lane
  maxHealth : Int32

def BoardUnit.identity (u : BoardUnit) : Identity :=
  ⟨u.id, u.cardId, u.name, u.side, u.lane, u.maxHealth⟩

namespace BoardUnit

/-- A unit without its statuses. -/
def bare (u : BoardUnit) : BoardUnit := ((u.clear .stun).clear .exposed).clear .attackDown

theorem bare_clear (u : BoardUnit) (status : Status) : (u.clear status).bare = u.bare := by
  cases status <;> rfl

/-- A cleanse changes the statuses of a unit at most. -/
theorem bare_cleanse (u : BoardUnit) (turn : UInt32) (statuses : List Status) :
    (u.cleanse turn statuses).1.bare = u.bare := by
  induction statuses generalizing u with
  | nil => rfl
  | cons first statuses ih =>
    rw [cleanse]
    split
    · exact (ih _).trans (bare_clear u first)
    · exact ih u

end BoardUnit

namespace Sandbox

/-- Every unit is stored under its own id. -/
def Keyed (s : Sandbox) : Prop := ∀ id u, s.unit? id = some u → u.id = id

/-- A unit of the side stands under the id. -/
def Owns (s : Sandbox) (side : Side) (id : UnitId) : Prop :=
  ∃ u, s.unit? id = some u ∧ u.side = side

/-- From `s` to `s'` only the units in `reach`, their status sources, the holdings of the side, the
draws and the log changed. -/
structure Frame (side : Side) (reach : UnitId → Prop) (s s' : Sandbox) : Prop where
  identity : ∀ id, (s'.unit? id).map BoardUnit.identity = (s.unit? id).map BoardUnit.identity
  unit : ∀ id, ¬ reach id → s'.unit? id = s.unit? id
  source : ∀ id status, ¬ reach id → s'.statusSource? id status = s.statusSource? id status
  opponent : s'.holdings side.opponent = s.holdings side.opponent
  leaderMax : (s'.holdings side).leaderMax = (s.holdings side).leaderMax
  resistances : s'.resistances = s.resistances
  seed : s'.dice.seed = s.dice.seed
  nextUnit : s'.nextUnit = s.nextUnit
  turn : s'.turn = s.turn

variable {side : Side} {reach : UnitId → Prop} {s s' s'' : Sandbox}

theorem Frame.refl (s : Sandbox) : Frame side reach s s :=
  ⟨fun _ => rfl, fun _ _ => rfl, fun _ _ _ => rfl, rfl, rfl, rfl, rfl, rfl, rfl⟩

theorem Frame.trans (h : Frame side reach s s') (h' : Frame side reach s' s'') :
    Frame side reach s s'' where
  identity id := (h'.identity id).trans (h.identity id)
  unit id hid := (h'.unit id hid).trans (h.unit id hid)
  source id status hid := (h'.source id status hid).trans (h.source id status hid)
  opponent := h'.opponent.trans h.opponent
  leaderMax := h'.leaderMax.trans h.leaderMax
  resistances := h'.resistances.trans h.resistances
  seed := h'.seed.trans h.seed
  nextUnit := h'.nextUnit.trans h.nextUnit
  turn := h'.turn.trans h.turn

/-- A unit that is there afterwards was there before, as the same unit. -/
theorem Frame.before (h : Frame side reach s s') {id : UnitId} {u' : BoardUnit}
    (hu : s'.unit? id = some u') : ∃ u, s.unit? id = some u ∧ u.identity = u'.identity := by
  have hid := h.identity id
  rw [hu, Option.map_some] at hid
  exact Option.map_eq_some_iff.1 hid.symm

/-- A side owns the units that it owned before. -/
theorem Frame.owns_iff {side' : Side} {id : UnitId} (h : Frame side reach s s') :
    s'.Owns side' id ↔ s.Owns side' id := by
  have hside : (s'.unit? id).map BoardUnit.side = (s.unit? id).map BoardUnit.side := by
    have hid := congrArg (Option.map Identity.side) (h.identity id)
    rwa [Option.map_map, Option.map_map] at hid
  have howns (t : Sandbox) : t.Owns side' id ↔ (t.unit? id).map BoardUnit.side = some side' :=
    Option.map_eq_some_iff.symm
  rw [howns, howns, hside]

theorem keyed_of_frame (hs : s.Keyed) (h : Frame side reach s s') : s'.Keyed := by
  intro id u' hu'
  obtain ⟨u, hu, hsame⟩ := h.before hu'
  rw [← hs id u hu]
  exact (congrArg Identity.id hsame).symm

theorem keyed_start (setup : Setup) : (start setup).Keyed := by
  intro id u hu
  simp [start, unit?] at hu

theorem keyed_put (hs : s.Keyed) {id : UnitId} {u : BoardUnit} (hid : u.id = id) :
    (s.put id u).Keyed := by
  intro id' u' hu'
  rw [unit?_put] at hu'
  split at hu'
  · rename_i hsame
    cases hu'
    exact hid.trans hsame
  · exact hs id' u' hu'

theorem keyed_place (hs : s.Keyed) (u : BoardUnit) : (s.place u).Keyed := keyed_put hs rfl

/-! ## Parts of a step -/

theorem frame_put {id : UnitId} {u u' : BoardUnit} (hid : reach id) (hu : s.unit? id = some u)
    (hsame : u'.identity = u.identity) : Frame side reach s (s.put id u') where
  identity id' := by
    rw [unit?_put]
    split
    · rename_i h
      rw [← h, hu, Option.map_some, Option.map_some, hsame]
    · rfl
  unit id' hid' := by
    have hne : id ≠ id' := fun h => hid' (h ▸ hid)
    rw [unit?_put, if_neg hne]
  source _ _ _ := rfl
  opponent := rfl
  leaderMax := rfl
  resistances := rfl
  seed := rfl
  nextUnit := rfl
  turn := rfl

theorem frame_edit {id : UnitId} {f : BoardUnit → BoardUnit} (hid : reach id)
    (hsame : ∀ u, (f u).identity = u.identity) : Frame side reach s (s.edit id f) := by
  unfold edit
  split
  · rename_i u hu
    exact frame_put hid hu (hsame u)
  · exact .refl s

theorem frame_sources {sources : Std.ExtTreeMap Mark String}
    (hsource : ∀ id status, ¬ reach id →
      sources[(⟨id, status⟩ : Mark)]? = s.statusSource? id status) :
    Frame side reach s { s with sources } :=
  { Frame.refl s with source := hsource }

theorem frame_dice {dice : Dice} (hseed : dice.seed = s.dice.seed) :
    Frame side reach s { s with dice } :=
  { Frame.refl s with seed := hseed }

theorem frame_setHoldings {holdings : Holdings}
    (hmax : holdings.leaderMax = (s.holdings side).leaderMax) :
    Frame side reach s (s.setHoldings side holdings) := by
  cases side <;>
    exact ⟨fun _ => rfl, fun _ _ => rfl, fun _ _ _ => rfl, rfl, hmax, rfl, rfl, rfl, rfl⟩

theorem seed_pick {α : Type} (d : Dice) (label : String) (options : List α) :
    (d.pick label options).2.seed = d.seed := by
  unfold Dice.pick
  split <;> rfl

/-- Whether a status lands is found out with the dice alone. -/
theorem exists_dice_of_lands (s : Sandbox) (id : UnitId) (status : Status) :
    ∃ dice : Dice, (s.lands id status).2 = { s with dice } ∧ dice.seed = s.dice.seed := by
  simp only [lands]
  split
  · exact ⟨s.dice, rfl, rfl⟩
  · split
    · exact ⟨s.dice, rfl, rfl⟩
    · rename_i resisted dice hroll
      refine ⟨dice, rfl, ?_⟩
      rw [Dice.draws_roll? hroll]
      rfl

/-- What comes of a status: the dice are drawn at most, or it is recorded with its source. -/
theorem afflict_cases (s : Sandbox) (id : UnitId) (status : Status) (source : String)
    (change : BoardUnit → BoardUnit) :
    ∃ dice : Dice, dice.seed = s.dice.seed ∧
      (s.afflict id status source change = (false, { s with dice }) ∨
        ∃ u, s.unit? id = some u ∧ s.afflict id status source change =
          (true, { ({ s with dice } : Sandbox).put id (change u) with
            sources := s.sources.insert ⟨id, status⟩ source })) := by
  cases hu : s.unit? id with
  | none =>
    refine ⟨s.dice, rfl, .inl ?_⟩
    rw [afflict, hu]
  | some u =>
    obtain ⟨dice, hdice, hseed⟩ := s.exists_dice_of_lands id status
    refine ⟨dice, hseed, ?_⟩
    cases hlanded : (s.lands id status).1 with
    | false => exact .inl (by simp [afflict, hu, hlanded, hdice])
    | true => exact .inr ⟨u, rfl, by simp [afflict, hu, hlanded, hdice]⟩

theorem frame_afflict {id : UnitId} {status : Status} {source : String}
    {change : BoardUnit → BoardUnit} (hid : reach id)
    (hsame : ∀ u, (change u).identity = u.identity) :
    Frame side reach s (s.afflict id status source change).2 := by
  obtain ⟨dice, hseed, hresisted | ⟨u, hu, hlanded⟩⟩ :=
    s.afflict_cases id status source change
  · rw [hresisted]
    exact frame_dice hseed
  · rw [hlanded]
    have hput : Frame side reach { s with dice } (({ s with dice } : Sandbox).put id (change u)) :=
      frame_put hid hu (hsame u)
    refine (frame_dice hseed).trans (hput.trans (frame_sources ?_))
    intro id' status' hid'
    have hne : (⟨id, status⟩ : Mark) ≠ ⟨id', status'⟩ := by
      rintro ⟨⟩
      exact hid' hid
    rw [Std.ExtTreeMap.getElem?_insert, if_neg (by simpa using hne)]
    rfl

theorem identity_cleanse (u : BoardUnit) (turn : UInt32) (statuses : List Status) :
    (u.cleanse turn statuses).1.identity = u.identity :=
  (congrArg BoardUnit.identity (u.bare_cleanse turn statuses) :)

theorem getElem?_erase_sources (sources : Std.ExtTreeMap Mark String) (id : UnitId)
    (removed : List Status) {mark : Mark} (hne : mark.unit ≠ id) :
    (removed.foldl (fun sources status => sources.erase ⟨id, status⟩) sources)[mark]? =
      sources[mark]? := by
  induction removed generalizing sources with
  | nil => rfl
  | cons status removed ih =>
    have hmark : (⟨id, status⟩ : Mark) ≠ mark := fun h => hne (congrArg Mark.unit h).symm
    rw [List.foldl_cons, ih, Std.ExtTreeMap.getElem?_erase, if_neg (by simpa using hmark)]

theorem frame_cleanse {id : UnitId} (statuses : List Status) (hid : reach id) :
    Frame side reach s (s.cleanse id statuses).2 := by
  simp only [cleanse]
  split
  · exact .refl s
  · rename_i u hu
    refine (frame_put hid hu (identity_cleanse u s.turn statuses)).trans (frame_sources ?_)
    intro id' status' hid'
    exact getElem?_erase_sources _ _ _ fun h : id' = id => hid' (h ▸ hid)

/-! ## Steps -/

/-- **A request changes only what it is addressed to.** -/
theorem frame_answer {q : Request} (hq : q.Within side reach) :
    Frame side reach s (answer q s).2 := by
  cases q with
  | unitIds side' lane | unit id | pickLowestHealth candidates => exact .refl s
  | pickRandom candidates label => exact frame_dice (seed_pick ..)
  | healUnit id amount =>
    simp only [answer, healUnit]
    split
    · exact .refl s
    · rename_i u hu
      exact frame_put (hq.unit id rfl) hu rfl
  | addShield id amount => exact frame_edit (hq.unit id rfl) fun _ => rfl
  | cleanse id statuses => exact frame_cleanse statuses (hq.unit id rfl)
  | applyStun id | applyExposed id | applyAttackPenalty id =>
    exact frame_afflict (hq.unit id rfl) fun _ => rfl
  | modifyAttack id delta =>
    simp only [answer, modifyAttack]
    split
    · exact .refl s
    · rename_i u hu
      exact frame_put (hq.unit id rfl) hu rfl
  | gainShares side' amount | healLeader side' amount =>
    cases hq.side side' rfl
    exact frame_setHoldings rfl
  | drawCard side' =>
    cases hq.side side' rfl
    simp only [answer, drawCard]
    split
    · exact .refl s
    · exact frame_setHoldings rfl
  | log line =>
    exact ⟨fun _ => rfl, fun _ _ => rfl, fun _ _ _ => rfl, rfl, rfl, rfl, rfl, rfl, rfl⟩

end Sandbox

end CardDuel
