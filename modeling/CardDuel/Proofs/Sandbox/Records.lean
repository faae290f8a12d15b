import CardDuel.Proofs.Sandbox.Agreement
import CardDuel.Proofs.Sandbox.Changes
import CardDuel.Proofs.Sandbox.Draws

/-!
# What is recorded of a status

Of each status of a unit the sandbox records when it runs out, how strong it is, and who applied it.
A request changes the record of a status in two ways only: it applies this status to this unit and
the status lands, or it removes the status.

* `afflict_of_resisted`, `afflict_of_landed` — an application, by what the roll decides.
* `record?_answer_cases` — the record of a status after any request.
-/

set_option autoImplicit false

namespace CardDuel

/-- What is recorded of a status of a unit. -/
structure Record where
  expiry : Option UInt32
  magnitude : UInt32
  source? : Option String
  deriving DecidableEq, Repr

/-- Nothing is recorded. -/
def Record.blank : Record := ⟨none, 0, none⟩

namespace Request

/-- How strong a status is to be at least. -/
def strength : Request → UInt32
  | applyAttackPenalty _ magnitude _ _ => magnitude
  | _ => 0

/-- Who applies a status. -/
def source? : Request → Option String
  | applyStun _ _ source | applyExposed _ _ source | applyAttackPenalty _ _ _ source => some source
  | _ => none

theorem subject?_of_afflicts? {q : Request} {mark : Mark} (hq : q.afflicts? = some mark) :
    q.subject? = some mark.unit := by
  cases q with
  | applyStun | applyExposed | applyAttackPenalty =>
    cases hq
    rfl
  | _ => cases hq

end Request

/-- The answer on whether a status landed; an attack penalty is not answered. -/
def Exchange.landed? : Exchange → Option Bool
  | ⟨.applyStun .., landed⟩ => some landed
  | ⟨.applyExposed .., landed⟩ => some landed
  | _ => none

namespace Moment

/-- A status is put on a unit: it is asked for, the unit is there, and it does not resist. -/
structure Inflicts (m : Moment Sandbox) (mark : Mark) : Prop where
  asked : m.request.afflicts? = some mark
  there : (m.host.unit? mark.unit).isSome = true
  lands : (m.host.lands mark.unit mark.status).1 = true

/-- A status is taken off a unit: a cleanse lists it while it is active. -/
def Lifts (m : Moment Sandbox) (mark : Mark) : Prop :=
  ∃ statuses u, m.request = .cleanse mark.unit statuses ∧ mark.status ∈ statuses ∧
    m.host.unit? mark.unit = some u ∧ u.hasStatus mark.status m.host.turn = true

end Moment

/-- The record of a status after one more application of it: the later expiry and the greater
strength stand, and the last source. -/
def Record.renewed (r : Record) (q : Request) : Record :=
  ⟨q.expiry?.bind (BoardUnit.later r.expiry), max r.magnitude q.strength, q.source?⟩

namespace BoardUnit

/-- How strong a status is; only attack penalties differ in strength. -/
def magnitude (u : BoardUnit) : Status → UInt32
  | .stun | .exposed => 0
  | .attackDown => u.attackPenalty

/-- When a status runs out and how strong it is. -/
def timing (u : BoardUnit) (status : Status) : Option UInt32 × UInt32 :=
  (u.expiry status, u.magnitude status)

theorem timing_clear (u : BoardUnit) (status status' : Status) :
    (u.clear status).timing status' = if status' = status then (none, 0) else u.timing status' := by
  cases status <;> cases status' <;> rfl

/-- A cleanse clears what it removes. -/
theorem timing_cleanse (u : BoardUnit) (turn : UInt32) (statuses : List Status) (status : Status) :
    (u.cleanse turn statuses).1.timing status =
      if status ∈ (u.cleanse turn statuses).2 then (none, 0) else u.timing status := by
  induction statuses generalizing u with
  | nil => rfl
  | cons first statuses ih =>
    rw [cleanse]
    split
    · simp only [ih, timing_clear, List.mem_cons]
      by_cases hrest : status ∈ ((u.clear first).cleanse turn statuses).2
      · rw [if_pos hrest, if_pos (.inr hrest)]
      · rw [if_neg hrest]
        by_cases hfirst : status = first
        · rw [if_pos hfirst, if_pos (.inl hfirst)]
        · rw [if_neg hfirst, if_neg (by tauto)]
    · exact ih u

end BoardUnit

namespace Sandbox

/-- What is recorded of a status of a unit on the board. -/
def record? (s : Sandbox) (mark : Mark) : Option Record :=
  (s.unit? mark.unit).map fun u =>
    ⟨(u.timing mark.status).1, (u.timing mark.status).2, s.statusSource? mark.unit mark.status⟩

variable {s s' : Sandbox} {id : UnitId} {status : Status} {mark : Mark}

theorem record?_of_unit? {u : BoardUnit} (hu : s.unit? id = some u) (status : Status) :
    s.record? ⟨id, status⟩ =
      some ⟨(u.timing status).1, (u.timing status).2, s.statusSource? id status⟩ := by
  rw [record?, hu]
  rfl

/-- The record of a status of a unit that was put under its id, with some sources. -/
theorem record?_amend (s : Sandbox) (id : UnitId) (u : BoardUnit)
    (sources : Std.ExtTreeMap Mark String) (status : Status) :
    ({ s.put id u with sources } : Sandbox).record? ⟨id, status⟩ =
      some ⟨(u.timing status).1, (u.timing status).2, sources[(⟨id, status⟩ : Mark)]?⟩ := by
  have hunit : ({ s.put id u with sources } : Sandbox).unit? id = some u := s.unit?_put_self id u
  rw [record?_of_unit? hunit]
  rfl

/-- The record of a status depends on the unit and on the source. -/
theorem record?_congr (hunit : s'.unit? mark.unit = s.unit? mark.unit)
    (hsource : s'.statusSource? mark.unit mark.status = s.statusSource? mark.unit mark.status) :
    s'.record? mark = s.record? mark := by
  rw [record?, record?, hunit, hsource]

theorem record?_of_dossier? (h : s'.dossier? mark.unit = s.dossier? mark.unit) :
    s'.record? mark = s.record? mark := by
  rcases cases_of_dossier? h with ⟨hnone', hnone⟩ | ⟨u, hu', hu, -, hsource⟩
  · rw [record?, record?, hnone', hnone]
    rfl
  · exact record?_congr (hu'.trans hu.symm) (hsource mark.status)

/-- A change of a unit that leaves the timing of a status, and its source, leaves its record. -/
theorem record?_of_put {u u' : BoardUnit} (hu : s.unit? id = some u)
    (hunits : s'.units = (s.put id u').units)
    (htiming : mark.unit = id → u'.timing mark.status = u.timing mark.status)
    (hsource : s'.statusSource? mark.unit mark.status = s.statusSource? mark.unit mark.status) :
    s'.record? mark = s.record? mark := by
  obtain ⟨id', status⟩ := mark
  have hunit : s'.unit? id' = (s.put id u').unit? id' := by
    rw [unit?, unit?, hunits]
  by_cases hid : id' = id
  · subst id'
    rw [unit?_put_self] at hunit
    rw [record?_of_unit? hunit, record?_of_unit? hu, htiming rfl, hsource]
  · rw [unit?_put, if_neg fun h => hid h.symm] at hunit
    exact record?_congr hunit hsource

/-! ## Applications -/

/-- A request for a status is an application of it. -/
theorem exists_afflict {q : Request} (hq : q.afflicts? = some ⟨id, status⟩) :
    ∃ (source : String) (change : BoardUnit → BoardUnit), ∀ s : Sandbox,
      (answer q s).2 = (s.afflict id status source change).2 ∧
        ∀ b, Exchange.landed? ⟨q, (answer q s).1⟩ = some b →
          (s.afflict id status source change).1 = b := by
  cases q with
  | applyStun | applyExposed =>
    cases hq
    exact ⟨_, _, fun s => ⟨rfl, fun b hb => Option.some.inj hb⟩⟩
  | applyAttackPenalty =>
    cases hq
    exact ⟨_, _, fun s => ⟨rfl, nofun⟩⟩
  | _ => cases hq

/-- A status that is resisted costs a draw at most. -/
theorem afflict_of_resisted {u : BoardUnit} (hu : s.unit? id = some u)
    (hlands : (s.lands id status).1 = false) (source : String) (change : BoardUnit → BoardUnit) :
    s.afflict id status source change = (false, (s.lands id status).2) := by
  simp [afflict, hu, hlands]

/-- A status that lands is recorded with its source. -/
theorem afflict_of_landed {u : BoardUnit} (hu : s.unit? id = some u)
    (hlands : (s.lands id status).1 = true) (source : String) (change : BoardUnit → BoardUnit) :
    s.afflict id status source change =
      (true, { (s.lands id status).2.put id (change u) with
        sources := (s.lands id status).2.sources.insert ⟨id, status⟩ source }) := by
  simp [afflict, hu, hlands]

/-- A status that is answered to have landed has changed the unit, and no other. -/
theorem unit?_of_afflicted {source : String} {change : BoardUnit → BoardUnit}
    (h : (s.afflict id status source change).1 = true) : ∃ u, s.unit? id = some u ∧
      ∀ id', (s.afflict id status source change).2.unit? id' =
        if id = id' then some (change u) else s.unit? id' := by
  obtain ⟨dice, -, hresisted | ⟨u, hu, hlanded⟩⟩ := s.afflict_cases id status source change
  · rw [hresisted] at h
    cases h
  · refine ⟨u, hu, fun id' => ?_⟩
    rw [hlanded]
    exact unit?_put { s with dice } id id' (change u)

/-- A status that is answered not to have landed has changed no unit. -/
theorem unit?_of_refused {source : String} {change : BoardUnit → BoardUnit}
    (h : (s.afflict id status source change).1 = false) (id' : UnitId) :
    (s.afflict id status source change).2.unit? id' = s.unit? id' := by
  obtain ⟨dice, -, hresisted | ⟨u, -, hlanded⟩⟩ := s.afflict_cases id status source change
  · rw [hresisted]
    rfl
  · rw [hlanded] at h
    cases h

/-- An application changes the record of its own status alone, and only if it lands. -/
theorem record?_afflict (source : String) {change : BoardUnit → BoardUnit}
    (hchange : ∀ u status', status' ≠ status → (change u).timing status' = u.timing status')
    (hother : mark = ⟨id, status⟩ → (s.lands id status).1 = false) :
    (s.afflict id status source change).2.record? mark = s.record? mark := by
  cases hu : s.unit? id with
  | none => rw [afflict, hu]
  | some u =>
    obtain ⟨dice, hdice, -⟩ := s.exists_dice_of_lands id status
    cases hlands : (s.lands id status).1 with
    | false =>
      rw [afflict_of_resisted hu hlands, hdice]
      rfl
    | true =>
      have hne : (⟨id, status⟩ : Mark) ≠ mark := by
        intro hmark
        rw [hother hmark.symm] at hlands
        cases hlands
      rw [afflict_of_landed hu hlands, hdice]
      refine record?_of_put hu rfl (fun hid => hchange u _ fun hstatus => hne ?_) ?_
      · rw [← hid, ← hstatus]
      · show (s.sources.insert ⟨id, status⟩ source)[mark]? = s.sources[mark]?
        have hcompare : ¬ compare (⟨id, status⟩ : Mark) mark = .eq := by
          rwa [Std.LawfulEqOrd.compare_eq_iff_eq]
        rw [Std.ExtTreeMap.getElem?_insert, if_neg hcompare]

/-- **A status that lands is recorded anew.** -/
theorem record?_of_landed {q : Request} (hq : q.afflicts? = some mark)
    (hlands : (s.lands mark.unit mark.status).1 = true) :
    (answer q s).2.record? mark = (s.record? mark).map (·.renewed q) := by
  obtain ⟨id, status⟩ := mark
  cases hu : s.unit? id with
  | none =>
    obtain ⟨a, ha⟩ := exists_answer_of_unknown (Request.subject?_of_afflicts? hq)
    rw [ha s hu, record?, hu]
    rfl
  | some u =>
    obtain ⟨dice, hdice, -⟩ := s.exists_dice_of_lands id status
    have hrecord (source : String) (change : BoardUnit → BoardUnit) :
        (s.afflict id status source change).2.record? ⟨id, status⟩ =
          some ⟨((change u).timing status).1, ((change u).timing status).2, some source⟩ := by
      rw [afflict_of_landed hu hlands, hdice]
      refine (record?_amend { s with dice } id (change u) _ status).trans ?_
      rw [Std.ExtTreeMap.getElem?_insert_self]
    rw [record?_of_unit? hu]
    cases q with
    | applyStun | applyExposed | applyAttackPenalty =>
      cases hq
      exact hrecord _ _
    | _ => cases hq

/-! ## Removals -/

/-- The sources after a removal: those of the removed statuses are gone. -/
theorem getElem?_erase_removed (sources : Std.ExtTreeMap Mark String) (id : UnitId)
    (removed : List Status) (status : Status) :
    (removed.foldl (fun sources status => sources.erase ⟨id, status⟩) sources)[
        (⟨id, status⟩ : Mark)]? =
      if status ∈ removed then none else sources[(⟨id, status⟩ : Mark)]? := by
  induction removed generalizing sources with
  | nil => rfl
  | cons first removed ih =>
    rw [List.foldl_cons, ih, Std.ExtTreeMap.getElem?_erase]
    by_cases hrest : status ∈ removed
    · rw [if_pos hrest, if_pos (List.mem_cons_of_mem _ hrest)]
    · rw [if_neg hrest]
      by_cases hfirst : status = first
      · rw [hfirst, if_pos (by simp), if_pos List.mem_cons_self]
      · have hmark : (⟨id, first⟩ : Mark) ≠ ⟨id, status⟩ := by
          rintro ⟨⟩
          exact hfirst rfl
        rw [if_neg (by simpa using hmark), if_neg (by simp [hfirst, hrest])]

/-- A cleanse leaves the record of a status, or removes the status and leaves nothing. -/
theorem record?_cleanse {u : BoardUnit} (hu : s.unit? id = some u) (statuses : List Status) :
    (s.cleanse id statuses).2.record? mark =
      if mark.unit = id ∧ mark.status ∈ (u.cleanse s.turn statuses).2 then some .blank
      else s.record? mark := by
  obtain ⟨id', status⟩ := mark
  rw [cleanse_of_unit? hu]
  by_cases hid : id' = id
  · subst id'
    refine (s.record?_amend id (u.cleanse s.turn statuses).1 _ status).trans ?_
    simp only [record?_of_unit? hu, BoardUnit.timing_cleanse, statusSource?,
      getElem?_erase_removed, true_and]
    split <;> rfl
  · rw [if_neg fun h => hid h.1]
    refine record?_of_put hu rfl (fun h => absurd h hid) ?_
    exact getElem?_erase_sources s.sources id _ hid

/-! ## Requests -/

/-- **What is recorded of a status after a request**: what was recorded before, or the request
puts this status on this unit, or it takes it off and nothing is recorded. -/
theorem record?_answer_cases (q : Request) (s : Sandbox) (mark : Mark) :
    (answer q s).2.record? mark = s.record? mark ∨
      (⟨q, s⟩ : Moment Sandbox).Inflicts mark ∨
      ((⟨q, s⟩ : Moment Sandbox).Lifts mark ∧ (answer q s).2.record? mark = some .blank) := by
  -- most changes of a unit do not touch its statuses
  have hput {id : UnitId} {u u' : BoardUnit} (hu : s.unit? id = some u)
      (htiming : u'.timing = u.timing) : (s.put id u').record? mark = s.record? mark :=
    record?_of_put hu rfl (fun _ => congrFun htiming _) rfl
  have hset (side : Side) (holdings : Holdings) :
      (s.setHoldings side holdings).record? mark = s.record? mark := by
    cases side <;> rfl
  have hafflict (id : UnitId) (status : Status) (source : String)
      {change : BoardUnit → BoardUnit} (hq : q.afflicts? = some ⟨id, status⟩)
      (hchange : ∀ u status', status' ≠ status → (change u).timing status' = u.timing status') :
      (s.afflict id status source change).2.record? mark = s.record? mark ∨
        (⟨q, s⟩ : Moment Sandbox).Inflicts mark := by
    by_cases hlands : mark = ⟨id, status⟩ → (s.lands id status).1 = false
    · exact .inl (record?_afflict source hchange hlands)
    · obtain ⟨rfl, hlanded⟩ := Classical.not_imp.1 hlands
      cases hu : s.unit? id with
      | none => exact .inl (by rw [afflict, hu])
      | some u =>
        exact .inr ⟨hq, Option.isSome_iff_exists.2 ⟨u, hu⟩, Bool.eq_true_of_not_eq_false hlanded⟩
  cases q with
  | unitIds | unit | pickRandom | pickLowestHealth | log => exact .inl rfl
  | healUnit | modifyAttack =>
    refine .inl ?_
    simp only [answer, healUnit, modifyAttack]
    split
    · rfl
    · rename_i u hu
      refine hput hu (funext fun status => ?_)
      cases status <;> rfl
  | addShield =>
    refine .inl ?_
    simp only [answer, addShield, edit]
    split
    · rename_i u hu
      refine hput hu (funext fun status => ?_)
      cases status <;> rfl
    · rfl
  | cleanse id statuses =>
    cases hu : s.unit? id with
    | none => exact .inl (by rw [answer, cleanse, hu])
    | some u =>
      rw [answer, record?_cleanse hu]
      split
      · rename_i hremoved
        obtain ⟨rfl, hmem⟩ := hremoved
        obtain ⟨hlisted, hactive⟩ := (u.mem_removed_iff s.turn statuses mark.status).1 hmem
        exact .inr (.inr ⟨⟨statuses, u, rfl, hlisted, hu, hactive⟩, rfl⟩)
      · exact .inl rfl
  | applyStun id | applyExposed id | applyAttackPenalty id =>
    refine (hafflict id _ _ rfl fun u status' hne => ?_).imp_right .inl
    cases status' with
    | stun | exposed | attackDown => first | rfl | exact absurd rfl hne
  | gainShares side | healLeader side => exact .inl (hset side _)
  | drawCard side =>
    refine .inl ?_
    simp only [answer, drawCard]
    split
    · rfl
    · exact hset side _

end Sandbox

end CardDuel
