import CardDuel.Proofs.Sandbox.Resistance

/-!
# Who applied a status

The sandbox keeps the expiry of a status with the unit and its source in a table of its own.  As
long as units come onto the board under new ids and their statuses are left to requests, the two go
together, and the table can be told from the history: the source of a status is that of the last
application that landed, unless a cleanse has removed the status since.

* `statusSource?_of_inflicts`, `statusSource?_of_lifts`, `statusSource?_of_neither` — the source of
  a status after one request.
* `Attributed` — what is recorded has a source and nothing else has; `attributed_answer` and
  `attributed_of_setup` keep it.
* `Recounts` — a history tells the sources; `recounts_answer` and `recounts_played` keep it.
* `sources_follow_statuses` — both, after any plays.
-/

set_option autoImplicit false

namespace CardDuel

namespace Sandbox

variable {s : Sandbox} {q : Request} {mark : Mark}

/-! ## One request -/

/-- The source of a status of a unit on the board is part of its record. -/
theorem statusSource?_of_record? {r : Record} (h : s.record? mark = some r) :
    s.statusSource? mark.unit mark.status = r.source? := by
  obtain ⟨u, -, rfl⟩ := Option.map_eq_some_iff.1 h
  rfl

theorem exists_record? {u : BoardUnit} (hu : s.unit? mark.unit = some u) :
    ∃ r, s.record? mark = some r := by
  rw [record?, hu]
  exact ⟨_, rfl⟩

/-- **A status that is put on a unit has the source of the request.** -/
theorem statusSource?_of_inflicts (h : (⟨q, s⟩ : Moment Sandbox).Inflicts mark) :
    (answer q s).2.statusSource? mark.unit mark.status = q.source? := by
  obtain ⟨u, hu⟩ := Option.isSome_iff_exists.1 h.there
  obtain ⟨r, hr⟩ := exists_record? hu
  have hrecord := record?_of_landed h.asked h.lands
  rw [hr] at hrecord
  exact statusSource?_of_record? hrecord

/-- A request for a status that is answered puts it on the unit exactly if the answer says so. -/
theorem inflicts_iff_of_landed? {m : Moment Sandbox} (hq : m.request.afflicts? = some mark)
    {b : Bool} (hb : (m.exchange answer).landed? = some b) : m.Inflicts mark ↔ b = true := by
  obtain ⟨id, status⟩ := mark
  obtain ⟨source, change, happly⟩ := exists_afflict hq
  have hanswer := (happly m.host).2 b hb
  cases hu : m.host.unit? id with
  | none =>
    have hnowhere : ¬ m.Inflicts ⟨id, status⟩ := fun h => by simpa [hu] using h.there
    rw [afflict, hu] at hanswer
    simp [hnowhere, ← hanswer]
  | some u =>
    have hlands : m.Inflicts ⟨id, status⟩ ↔ (m.host.lands id status).1 = true :=
      ⟨fun h => h.lands, fun h => ⟨hq, by simp [hu], h⟩⟩
    rw [hlands, ← hanswer]
    cases hroll : (m.host.lands id status).1 with
    | true => rw [afflict_of_landed hu hroll]
    | false => rw [afflict_of_resisted hu hroll]

theorem record?_of_lifts (h : (⟨q, s⟩ : Moment Sandbox).Lifts mark) :
    (answer q s).2.record? mark = some .blank := by
  obtain ⟨statuses, u, hq, hlisted, hu, hactive⟩ := h
  obtain rfl : q = .cleanse mark.unit statuses := hq
  rw [answer, record?_cleanse hu, if_pos]
  exact ⟨rfl, (u.mem_removed_iff s.turn statuses mark.status).2 ⟨hlisted, hactive⟩⟩

/-- **A status that is taken off a unit has no source.** -/
theorem statusSource?_of_lifts (h : (⟨q, s⟩ : Moment Sandbox).Lifts mark) :
    (answer q s).2.statusSource? mark.unit mark.status = none :=
  statusSource?_of_record? (record?_of_lifts h)

/-- A unit that is not there gets no source. -/
theorem statusSource?_of_unknown (hnone : s.unit? mark.unit = none) (q : Request) :
    (answer q s).2.statusSource? mark.unit mark.status = s.statusSource? mark.unit mark.status :=
  (frame_answer_of_unknown hnone q).source mark.unit mark.status fun hne => hne rfl

/-- **Any other request leaves the source of a status.** -/
theorem statusSource?_of_neither (hinflicts : ¬ (⟨q, s⟩ : Moment Sandbox).Inflicts mark)
    (hlifts : ¬ (⟨q, s⟩ : Moment Sandbox).Lifts mark) :
    (answer q s).2.statusSource? mark.unit mark.status =
      s.statusSource? mark.unit mark.status := by
  cases hu : s.unit? mark.unit with
  | none => exact statusSource?_of_unknown hu q
  | some u =>
    obtain ⟨r, hr⟩ := exists_record? hu
    rcases record?_answer_cases q s mark with hsame | hnow | ⟨hnow, -⟩
    · rw [statusSource?_of_record? hr, statusSource?_of_record? (hsame.trans hr)]
    · exact absurd hnow hinflicts
    · exact absurd hnow hlifts

/-! ## Sources and expiries -/

/-- Of a unit on the board a status has a source exactly if it has an expiry; where there is no unit
there is no source. -/
structure Attributed (s : Sandbox) : Prop where
  recorded : ∀ mark r, s.record? mark = some r → (r.source?.isSome ↔ r.expiry.isSome)
  absent : ∀ mark : Mark, s.unit? mark.unit = none → s.statusSource? mark.unit mark.status = none

theorem attributed_start (setup : Setup) : (start setup).Attributed where
  recorded mark r hr := by simp [start, record?, unit?] at hr
  absent mark _ := by simp [start, statusSource?]

/-- An application names a source and an expiry. -/
theorem attributed_renewed {r : Record} (hq : q.afflicts? = some mark) :
    (r.renewed q).source?.isSome ↔ (r.renewed q).expiry.isSome := by
  cases q with
  | applyStun | applyExposed | applyAttackPenalty =>
    cases r with
    | mk expiry magnitude source? =>
      cases expiry <;> simp [Record.renewed, Request.source?, Request.expiry?, BoardUnit.later]
  | _ => cases hq

/-- **A request leaves every expiry with its source.** -/
theorem attributed_answer (hs : s.Attributed) (q : Request) : (answer q s).2.Attributed where
  recorded mark r hr := by
    rcases record?_answer_cases q s mark with hsame | hinflicts | ⟨-, hblank⟩
    · exact hs.recorded mark r (hsame.symm.trans hr)
    · rw [record?_of_landed hinflicts.asked hinflicts.lands] at hr
      obtain ⟨r', -, rfl⟩ := Option.map_eq_some_iff.1 hr
      exact attributed_renewed hinflicts.asked
    · cases hblank.symm.trans hr
      exact Iff.rfl
  absent mark hnone := by
    have hbefore := (isNone_answer q s mark.unit).1 hnone
    rw [statusSource?_of_unknown hbefore q]
    exact hs.absent mark hbefore

end Sandbox

/-- A play that leaves statuses to requests: a unit is summoned while there are new ids, none is
put in place by hand, and an edit does not touch when a status runs out. -/
def Play.Orderly : Play → Sandbox → Prop
  | .summon .., s => s.nextUnit < 4294967295
  | .place _, _ => False
  | .edit id f, s => ∀ u, s.unit? id = some u → (f u).expiry = u.expiry
  | .request _, _ | .call _, _ | .advance, _ => True

namespace Sandbox

variable {s : Sandbox} {p : Play}

theorem attributed_summon (hs : s.Attributed) (hnumbered : s.Numbered)
    (hnext : s.nextUnit < lastId.raw) (catalog : Catalog) (cardId : String) (side : Side) :
    (s.summon catalog cardId side).2.Attributed := by
  cases hget : catalog.getUnit? cardId with
  | none =>
    rw [summon_eq_none s hget]
    exact hs
  | some card =>
    obtain ⟨-, hblank⟩ := settled_summon hnumbered hnext hget side
    obtain ⟨lane, stats, -, hsummon⟩ := s.exists_summon_eq hget side
    have hunit (id : UnitId) : (s.summon catalog cardId side).2.unit? id =
        if (⟨s.nextUnit⟩ : UnitId) = id then some (summoned card lane stats side ⟨s.nextUnit⟩)
        else s.unit? id := by
      rw [hsummon]
      exact unit?_put s _ id _
    have hsource (id : UnitId) (status : Status) :
        (s.summon catalog cardId side).2.statusSource? id status = s.statusSource? id status := by
      rw [hsummon]
      rfl
    refine ⟨fun mark r hr => ?_, fun mark hnone => ?_⟩
    · obtain ⟨id, status⟩ := mark
      by_cases hnew : (⟨s.nextUnit⟩ : UnitId) = id
      · subst hnew
        cases (hblank status).symm.trans hr
        exact Iff.rfl
      · have hsame : (s.summon catalog cardId side).2.unit? id = s.unit? id := by
          rw [hunit, if_neg hnew]
        exact hs.recorded ⟨id, status⟩ r ((record?_congr hsame (hsource id status)).symm.trans hr)
    · rw [hunit] at hnone
      split at hnone
      · cases hnone
      · rw [hsource]
        exact hs.absent mark hnone

theorem attributed_edit (hs : s.Attributed) {id : UnitId} {f : BoardUnit → BoardUnit}
    (hf : ∀ u, s.unit? id = some u → (f u).expiry = u.expiry) : (s.edit id f).Attributed := by
  unfold edit
  split
  · rename_i u hu
    refine ⟨fun mark r hr => ?_, fun mark hnone => ?_⟩
    · obtain ⟨id', status⟩ := mark
      by_cases hid : id = id'
      · subst hid
        have hbefore := hs.recorded ⟨id, status⟩ _ (record?_of_unit? hu status)
        cases (record?_of_unit? (unit?_put_self s id (f u)) status).symm.trans hr
        simp only [BoardUnit.timing, hf u hu]
        exact hbefore
      · have hunit := (unit?_put s id id' (f u)).trans (if_neg hid)
        have hsame : (s.put id (f u)).record? ⟨id', status⟩ = s.record? ⟨id', status⟩ :=
          record?_congr hunit rfl
        exact hs.recorded ⟨id', status⟩ r (hsame.symm.trans hr)
    · rw [unit?_put] at hnone
      split at hnone
      · cases hnone
      · exact hs.absent mark hnone
  · exact hs

/-- **So does an orderly play that asks nothing.** -/
theorem attributed_of_setup (hs : s.Attributed) (hnumbered : s.Numbered) (hp : p.Orderly s)
    (hsetup : p.isSetup = true) : (p.on s).Attributed := by
  cases p with
  | summon catalog cardId side => exact attributed_summon hs hnumbered hp catalog cardId side
  | place => exact hp.elim
  | advance => exact ⟨hs.recorded, hs.absent⟩
  | edit id f => exact attributed_edit hs hp
  | request | call => cases hsetup

/-! ## Histories -/

/-- The last request that put a status on a unit named this source, and none has taken the status
off since. -/
def LastInflicted (mark : Mark) (source : String) (history : List (Moment Sandbox)) : Prop :=
  ∃ earlier m later, history = earlier ++ m :: later ∧ m.Inflicts mark ∧
    m.request.source? = some source ∧ ∀ m' ∈ later, ¬ m'.Inflicts mark ∧ ¬ m'.Lifts mark

/-- A place in a list that grows at its end is the new end, or a place from before that has the new
element after it. -/
theorem exists_split_concat_iff {α : Type} {P : α → List α → Prop} {as : List α} {a : α} :
    (∃ earlier b later, as ++ [a] = earlier ++ b :: later ∧ P b later) ↔
      P a [] ∨ ∃ earlier b later, as = earlier ++ b :: later ∧ P b (later ++ [a]) := by
  constructor
  · rintro ⟨earlier, b, later, hsplit, hb⟩
    rcases List.eq_nil_or_concat later with rfl | ⟨later, last, rfl⟩
    · obtain ⟨-, hlast⟩ := List.append_inj' hsplit rfl
      cases hlast
      exact .inl hb
    · rw [List.concat_eq_append] at hsplit hb
      rw [← List.cons_append, ← List.append_assoc] at hsplit
      obtain ⟨rfl, hlast⟩ := List.append_inj' hsplit rfl
      cases hlast
      exact .inr ⟨earlier, b, later, rfl, hb⟩
  · rintro (ha | ⟨earlier, b, later, rfl, hb⟩)
    · exact ⟨as, a, [], rfl, ha⟩
    · exact ⟨earlier, b, later ++ [a], by simp, hb⟩

/-- Either the last request of a history put the status on the unit, or an earlier one did and the
last does not matter. -/
theorem lastInflicted_concat_iff {mark : Mark} {source : String} {history : List (Moment Sandbox)}
    {m : Moment Sandbox} : LastInflicted mark source (history ++ [m]) ↔
      m.Inflicts mark ∧ m.request.source? = some source ∨
        LastInflicted mark source history ∧ ¬ m.Inflicts mark ∧ ¬ m.Lifts mark := by
  unfold LastInflicted
  rw [exists_split_concat_iff]
  refine or_congr (by simp) ?_
  constructor
  · rintro ⟨earlier, first, later, rfl, hinflicts, hsource, hlater⟩
    obtain ⟨hbetween, hlast⟩ := List.forall_mem_append.1 hlater
    exact ⟨⟨earlier, first, later, rfl, hinflicts, hsource, hbetween⟩,
      hlast m (List.mem_singleton_self m)⟩
  · rintro ⟨⟨earlier, first, later, rfl, hinflicts, hsource, hlater⟩, hlast⟩
    refine ⟨earlier, first, later, rfl, hinflicts, hsource, ?_⟩
    exact List.forall_mem_append.2 ⟨hlater, List.forall_mem_singleton.2 hlast⟩

/-- A history tells the sources that the sandbox has. -/
def Recounts (history : List (Moment Sandbox)) (s : Sandbox) : Prop :=
  ∀ (mark : Mark) (source : String), s.statusSource? mark.unit mark.status = some source ↔
    LastInflicted mark source history

variable {history : List (Moment Sandbox)}

theorem recounts_start (setup : Setup) : Recounts [] (start setup) := by
  intro mark source
  refine iff_of_false (by simp [start, statusSource?]) ?_
  rintro ⟨earlier, m, later, hsplit, -⟩
  cases earlier <;> cases hsplit

/-- **One more request is told by one more moment.** -/
theorem recounts_answer (h : Recounts history s) (q : Request) :
    Recounts (history ++ [⟨q, s⟩]) (answer q s).2 := by
  intro mark source
  rw [lastInflicted_concat_iff, ← h mark source]
  by_cases hinflicts : (⟨q, s⟩ : Moment Sandbox).Inflicts mark
  · rw [statusSource?_of_inflicts hinflicts]
    simp [hinflicts]
  · by_cases hlifts : (⟨q, s⟩ : Moment Sandbox).Lifts mark
    · rw [statusSource?_of_lifts hlifts]
      simp [hinflicts, hlifts]
    · rw [statusSource?_of_neither hinflicts hlifts]
      simp [hinflicts, hlifts]

theorem statusSource?_of_isSetup (hp : p.isSetup = true) (s : Sandbox) (id : UnitId)
    (status : Status) : (p.on s).statusSource? id status = s.statusSource? id status := by
  cases p with
  | summon catalog cardId side =>
    simp only [Play.on, summon]
    split
    · rfl
    · split <;> rfl
  | place | advance => rfl
  | edit id f =>
    simp only [Play.on, edit]
    split <;> rfl
  | request | call => cases hp

/-- **Plays are told by what is asked on the way.** -/
theorem recounts_played (h : Recounts [] s) (plays : List Play) :
    Recounts (asked plays s) (played plays s) := by
  refine told_along (R := Recounts) (P := fun _ _ => True) (fun _ q _ ht => recounts_answer ht q) ?_
    (along_of_forall (fun _ _ => trivial) s) h
  intro history p t _ hp ht mark source
  rw [statusSource?_of_isSetup hp]
  exact ht mark source

/-- **Sources follow the statuses.**  After any orderly plays from an empty board, for every id and
status:

* a source is recorded exactly if a unit is there with an expiry of the status;
* it is the source of the last request that put the status on the unit, with no cleanse since that
  took it off;
* where the host answers a request for a status, the answer says whether it did put the status on
  the unit. -/
theorem sources_follow_statuses (setup : Setup) {plays : List Play}
    (hplays : Along Play.Orderly plays (start setup)) (id : UnitId) (status : Status) :
    let s := played plays (start setup)
    let history := asked plays (start setup)
    ((s.statusSource? id status).isSome = true ↔
      ∃ u, s.unit? id = some u ∧ (u.expiry status).isSome = true) ∧
    (∀ source, s.statusSource? id status = some source ↔
      LastInflicted ⟨id, status⟩ source history) ∧
    ∀ m ∈ history, m.request.afflicts? = some ⟨id, status⟩ →
      ∀ b, (m.exchange answer).landed? = some b → (m.Inflicts ⟨id, status⟩ ↔ b = true) := by
  intro s history
  have hkept : s.Attributed ∧ s.Numbered :=
    (kept_along (I := fun t => t.Attributed ∧ t.Numbered)
      (fun q _ ht => ⟨attributed_answer ht.1 q, ht.2.answer q⟩)
      (fun _ _ hp hsetup ht => ⟨attributed_of_setup ht.1 ht.2 hp hsetup, ht.2.of_setup hsetup⟩)
      hplays ⟨attributed_start setup, numbered_start setup⟩).2
  refine ⟨?_, fun source => ?_, fun m _ hq b hb => inflicts_iff_of_landed? hq hb⟩
  · cases hu : s.unit? id with
    | none =>
      have hnone : s.statusSource? id status = none := hkept.1.absent ⟨id, status⟩ hu
      simp [hnone]
    | some u =>
      have hiff := hkept.1.recorded ⟨id, status⟩ _ (record?_of_unit? hu status)
      simpa [BoardUnit.timing] using hiff
  · exact recounts_played (recounts_start setup) plays ⟨id, status⟩ source

/-- A bailiff is stunned, once for longer and then for less, exposed and weakened; a statue is only
stunned.  The exposure runs out before it is cleansed, the weakness does not. -/
def docket : List Play :=
  [.summon court.catalog "bailiff" .player, .summon court.catalog "statue" .enemy,
    .request (.applyStun ⟨1⟩ 5 "first"), .request (.applyStun ⟨1⟩ 3 "second"),
    .request (.applyExposed ⟨1⟩ 1 "first"), .edit ⟨1⟩ fun u => { u with health := 1 },
    .call ⟨court, ⟨.player, ⟨1⟩, 1⟩, .combat { target := some ⟨2⟩ }⟩,
    .request (.applyAttackPenalty ⟨1⟩ 1 9 "first"), .advance,
    .request (.cleanse ⟨1⟩ [.exposed, .attackDown])]

theorem sources_follow_statuses_docket :
    let history := asked docket (start {})
    Along Play.Orderly docket (start {}) ∧
    LastInflicted ⟨⟨1⟩, .stun⟩ "second" history ∧ LastInflicted ⟨⟨1⟩, .exposed⟩ "first" history ∧
    (∀ source, ¬ LastInflicted ⟨⟨1⟩, .attackDown⟩ source history) ∧
    (∀ source, ¬ LastInflicted ⟨⟨2⟩, .stun⟩ source history) ∧
    ∃ m ∈ history, m.request.afflicts? = some ⟨⟨2⟩, .stun⟩ ∧ ¬ m.Inflicts ⟨⟨2⟩, .stun⟩ := by
  intro history
  have hfirst : (start {}).nextUnit < 4294967295 := by decide +kernel
  have hsecond : (played (docket.take 1) (start {})).nextUnit < 4294967295 := by decide +kernel
  have hplays : Along Play.Orderly docket (start {}) :=
    ⟨hfirst, hsecond, trivial, trivial, trivial, fun _ _ => rfl, trivial, trivial, trivial, trivial,
      trivial⟩
  have hsources (id : UnitId) (status : Status) :=
    (sources_follow_statuses {} hplays id status).2.1
  have hnone (id : UnitId) (status : Status)
      (h : (played docket (start {})).statusSource? id status = none) (source : String) :
      ¬ LastInflicted ⟨id, status⟩ source history := by
    rw [← hsources, h]
    exact Option.some_ne_none source ∘ Eq.symm
  refine ⟨hplays, (hsources ⟨1⟩ .stun _).1 (by decide +kernel),
    (hsources ⟨1⟩ .exposed _).1 (by decide +kernel), hnone _ _ (by decide +kernel),
    hnone _ _ (by decide +kernel), ?_⟩
  obtain ⟨m, hm, hasks, hresisted⟩ : ∃ m ∈ history,
      m.request.afflicts? = some ⟨⟨2⟩, .stun⟩ ∧ (m.exchange answer).landed? = some false := by
    decide +kernel
  have hiff := (sources_follow_statuses {} hplays ⟨2⟩ .stun).2.2 m hm hasks false hresisted
  exact ⟨m, hm, hasks, fun h => Bool.false_ne_true (hiff.1 h)⟩

end Sandbox

end CardDuel
