import CardDuel.Proofs.Sandbox.Sources

/-!
# Units put in the place of others

The sandbox keeps three things under an id: a unit, its resistance, and who applied its statuses.
A unit that is put there by hand replaces the first of them alone, and a unit that is summoned there
the first two.  `replaced_unit_leaves` says what the others come to: nothing but the chances to
resist reaches the units, the dice or an answer, and a source is told of until its status is applied
or removed; `replacement_tells` shows that chances and sources do tell.

* `Twins` — two sandboxes differ in resistances and in sources alone, and give the same chances.
* `answer_recast` — an answer depends on resistances by the chances that they give, and on sources
  not at all.
* `Twins.answer`, `Twins.run`, `Twins.played` — twins answer alike and stay twins, with fewer
  sources to tell them apart.
* `statusSource?_of_unsettled` — a source stays until a request settles it.
-/

set_option autoImplicit false

namespace CardDuel

/-- A request settles who applied a status: it puts the status on the unit or takes it off. -/
def Moment.Settles (m : Moment Sandbox) (mark : Mark) : Prop := m.Inflicts mark ∨ m.Lifts mark

namespace Sandbox

/-- The sandbox with other resistances and sources. -/
def recast (s : Sandbox) (resistances : Std.ExtTreeMap UnitId Resistance)
    (sources : Std.ExtTreeMap Mark String) : Sandbox :=
  { s with resistances, sources }

/-! ## One request -/

section

variable {s : Sandbox} {resistances : Std.ExtTreeMap UnitId Resistance}
  {sources : Std.ExtTreeMap Mark String}
  (hchance : ∀ id status,
    (s.recast resistances sources).resistanceAgainst id status = s.resistanceAgainst id status)

include hchance

theorem lands_recast (id : UnitId) (status : Status) :
    (s.recast resistances sources).lands id status =
      ((s.lands id status).1, (s.lands id status).2.recast resistances sources) := by
  have hsame : (s.recast resistances sources).chance? id status = s.chance? id status := by
    rw [chance?, chance?, hchance]
  have hdice : (s.recast resistances sources).dice = s.dice := rfl
  rw [lands_eq, lands_eq, hsame, hdice]
  cases (s.chance? id status).bind (s.dice.roll? (resistanceLabel id status)) with
  | none => rfl
  | some rolled => rfl

theorem afflict_recast (id : UnitId) (status : Status) (source : String)
    (change : BoardUnit → BoardUnit) : ∃ sources',
    (s.recast resistances sources).afflict id status source change =
      ((s.afflict id status source change).1,
        (s.afflict id status source change).2.recast resistances sources') := by
  have hlands := lands_recast hchance id status
  cases hu : s.unit? id with
  | none =>
    have hnone : (s.recast resistances sources).unit? id = none := hu
    refine ⟨sources, ?_⟩
    rw [afflict, afflict, hnone, hu]
  | some u =>
    have hsome : (s.recast resistances sources).unit? id = some u := hu
    cases hroll : (s.lands id status).1 with
    | false =>
      have hroll' := (congrArg Prod.fst hlands).trans hroll
      refine ⟨sources, ?_⟩
      rw [afflict_of_resisted hsome hroll', afflict_of_resisted hu hroll, hlands]
    | true =>
      have hroll' := (congrArg Prod.fst hlands).trans hroll
      refine ⟨sources.insert ⟨id, status⟩ source, ?_⟩
      rw [afflict_of_landed hsome hroll', afflict_of_landed hu hroll, hlands]
      rfl

/-- **An answer depends on resistances by the chances that they give**, and on sources not at
all. -/
theorem answer_recast (q : Request) : ∃ sources',
    answer q (s.recast resistances sources) =
      ((answer q s).1, (answer q s).2.recast resistances sources') := by
  cases hq : q.subject? with
  | none =>
    refine ⟨sources, ?_⟩
    cases q with
    | unitIds | unit | pickRandom | pickLowestHealth | log => rfl
    | gainShares side | healLeader side => cases side <;> rfl
    | drawCard side =>
      have hheld : (s.recast resistances sources).holdings side = s.holdings side := by
        cases side <;> rfl
      simp only [answer, drawCard, hheld]
      split
      · rfl
      · cases side <;> rfl
    | _ => cases hq
  | some id =>
    cases hu : s.unit? id with
    | none =>
      obtain ⟨a, ha⟩ := exists_answer_of_unknown hq
      refine ⟨sources, ?_⟩
      rw [ha s hu, ha (s.recast resistances sources) hu]
    | some u =>
      have hsome : (s.recast resistances sources).unit? id = some u := hu
      cases q with
      | healUnit =>
        cases hq
        refine ⟨sources, ?_⟩
        rw [answer, answer, healUnit_of_unit? hsome, healUnit_of_unit? hu]
        rfl
      | addShield =>
        cases hq
        refine ⟨sources, ?_⟩
        rw [answer, answer, addShield_of_unit? hsome, addShield_of_unit? hu]
        rfl
      | modifyAttack =>
        cases hq
        refine ⟨sources, ?_⟩
        rw [answer, answer, modifyAttack_of_unit? hsome, modifyAttack_of_unit? hu]
        rfl
      | cleanse id statuses =>
        cases hq
        rw [answer, answer, cleanse_of_unit? hsome, cleanse_of_unit? hu]
        exact ⟨_, rfl⟩
      | applyStun | applyExposed =>
        exact afflict_recast hchance _ _ _ _
      | applyAttackPenalty =>
        obtain ⟨sources', h⟩ := afflict_recast hchance _ _ _ _
        exact ⟨sources', congrArg (fun r => ((), r.2)) h⟩
      | _ => cases hq

end

/-! ## Twins -/

/-- Nothing but resistances and sources tells two sandboxes apart, the chances are the same, and so
are the sources of all statuses that are not stale. -/
structure Twins (stale : Mark → Prop) (s s' : Sandbox) : Prop where
  same : ∃ resistances sources, s' = s.recast resistances sources
  chance : ∀ id status, s'.resistanceAgainst id status = s.resistanceAgainst id status
  source : ∀ mark : Mark, ¬ stale mark →
    s'.statusSource? mark.unit mark.status = s.statusSource? mark.unit mark.status

variable {stale : Mark → Prop} {s s' : Sandbox}

/-- Twins ask the same of a status. -/
theorem Twins.settles_iff (h : Twins stale s s') (q : Request) (mark : Mark) :
    ((⟨q, s'⟩ : Moment Sandbox).Inflicts mark ↔ (⟨q, s⟩ : Moment Sandbox).Inflicts mark) ∧
      ((⟨q, s'⟩ : Moment Sandbox).Lifts mark ↔ (⟨q, s⟩ : Moment Sandbox).Lifts mark) := by
  obtain ⟨⟨resistances, sources, rfl⟩, hchance, -⟩ := h
  have hlands : ((s.recast resistances sources).lands mark.unit mark.status).1 =
      (s.lands mark.unit mark.status).1 := by
    rw [lands_recast hchance]
  refine ⟨⟨fun h => ⟨h.asked, h.there, ?_⟩, fun h => ⟨h.asked, h.there, ?_⟩⟩, Iff.rfl⟩
  · rw [← hlands]
    exact h.lands
  · show ((s.recast resistances sources).lands mark.unit mark.status).1 = true
    rw [hlands]
    exact h.lands

/-- **Twins answer alike and stay twins**, and the request settles what it puts on a unit or takes
off. -/
theorem Twins.answer (h : Twins stale s s') (q : Request) :
    (answer q s').1 = (answer q s).1 ∧
      Twins (fun mark => stale mark ∧ ¬ (⟨q, s⟩ : Moment Sandbox).Settles mark)
        (answer q s).2 (answer q s').2 := by
  have hsettles := h.settles_iff q
  obtain ⟨⟨resistances, sources, rfl⟩, hchance, hsource⟩ := h
  obtain ⟨sources', hanswer⟩ := answer_recast hchance q
  refine ⟨by rw [hanswer], ⟨resistances, sources', by rw [hanswer]⟩, ?_, ?_⟩
  · intro id status
    have hbefore := hchance id status
    rw [resistanceAgainst, resistanceAgainst] at hbefore
    rw [resistanceAgainst, resistanceAgainst, (frame_any q _).resistances,
      (frame_any q s).resistances, hbefore]
  · intro mark hmark
    obtain ⟨hinflicts, hlifts⟩ := hsettles mark
    by_cases hnow : (⟨q, s⟩ : Moment Sandbox).Inflicts mark
    · rw [statusSource?_of_inflicts hnow, statusSource?_of_inflicts (hinflicts.2 hnow)]
    · by_cases hgone : (⟨q, s⟩ : Moment Sandbox).Lifts mark
      · rw [statusSource?_of_lifts hgone, statusSource?_of_lifts (hlifts.2 hgone)]
      · rw [statusSource?_of_neither hnow hgone,
          statusSource?_of_neither (hnow ∘ hinflicts.1) (hgone ∘ hlifts.1)]
        refine hsource mark fun hstale => hmark ⟨hstale, ?_⟩
        rintro (hnow' | hgone')
        · exact hnow hnow'
        · exact hgone hgone'

theorem Twins.mono {stale' : Mark → Prop} (h : Twins stale s s')
    (hstale : ∀ mark, stale mark → stale' mark) : Twins stale' s s' :=
  ⟨h.same, h.chance, fun mark hmark => h.source mark fun h => hmark (hstale mark h)⟩

/-- **A script gives the same result on twins**, and settles what its requests settle. -/
theorem Twins.run {α : Type} (h : Twins stale s s') (x : Script α) :
    (x.run Sandbox.answer s').1 = (x.run Sandbox.answer s).1 ∧
      Twins (fun mark => stale mark ∧ ∀ m ∈ x.moments Sandbox.answer s, ¬ m.Settles mark)
        (x.run Sandbox.answer s).2 (x.run Sandbox.answer s').2 := by
  induction x generalizing stale s s' with
  | done a => exact ⟨rfl, h.mono fun mark hmark => ⟨hmark, List.forall_mem_nil _⟩⟩
  | ask q next ih =>
    obtain ⟨hanswer, htwins⟩ := h.answer q
    rw [Script.run_ask, Script.run_ask, hanswer]
    obtain ⟨hresult, hend⟩ := ih _ htwins
    refine ⟨hresult, hend.mono ?_⟩
    rintro mark ⟨⟨hstale, hfirst⟩, hrest⟩
    exact ⟨hstale, List.forall_mem_cons.2 ⟨hfirst, hrest⟩⟩

/-- **A play that asks nothing leaves twins.** -/
theorem Twins.of_setup (h : Twins stale s s') {p : Play} (hp : p.isSetup = true) :
    Twins stale (p.on s) (p.on s') := by
  obtain ⟨⟨resistances, sources, rfl⟩, hchance, hsource⟩ := h
  cases p with
  | summon catalog cardId side =>
    have hstay : Twins stale s (s.recast resistances sources) :=
      ⟨⟨_, _, rfl⟩, hchance, hsource⟩
    cases hget : catalog.getUnit? cardId with
    | none => simpa only [Play.on, summon, hget] using hstay
    | some card =>
      cases hkind : card.kind with
      | nonUnit => simpa only [Play.on, summon, hget, hkind] using hstay
      | unit lane stats =>
        simp only [Play.on, summon, hget, hkind]
        refine ⟨⟨resistances.insert ⟨s.nextUnit⟩ card.resistance, sources, rfl⟩, ?_, hsource⟩
        intro id status
        have hbefore := hchance id status
        simp only [resistanceAgainst, recast, Std.ExtTreeMap.getElem?_insert] at hbefore ⊢
        by_cases hnew : compare (⟨s.nextUnit⟩ : UnitId) id = .eq
        · simp only [if_pos hnew]
        · simp only [if_neg hnew]
          exact hbefore
  | place u => exact ⟨⟨resistances, sources, rfl⟩, hchance, hsource⟩
  | advance => exact ⟨⟨resistances, sources, rfl⟩, hchance, hsource⟩
  | edit id f =>
    cases hu : s.unit? id with
    | none =>
      have hnone : (s.recast resistances sources).unit? id = none := hu
      simp only [Play.on, edit, hu, hnone]
      exact ⟨⟨resistances, sources, rfl⟩, hchance, hsource⟩
    | some u =>
      have hsome : (s.recast resistances sources).unit? id = some u := hu
      simp only [Play.on, edit, hu, hsome]
      exact ⟨⟨resistances, sources, rfl⟩, hchance, hsource⟩
  | request | call => cases hp

/-- **Whatever is played, twins stay twins.** -/
theorem Twins.played (h : Twins stale s s') (plays : List Play) :
    Twins (fun mark => stale mark ∧ ∀ m ∈ asked plays s, ¬ m.Settles mark)
      (played plays s) (played plays s') := by
  induction plays generalizing stale s s' with
  | nil => exact h.mono fun mark hmark => ⟨hmark, List.forall_mem_nil _⟩
  | cons p plays ih =>
    have hfirst : Twins (fun mark => stale mark ∧ ∀ m ∈ p.moments s, ¬ m.Settles mark)
        (p.on s) (p.on s') := by
      cases p with
      | request q =>
        refine (h.answer q).2.mono ?_
        rintro mark ⟨hstale, hnow⟩
        exact ⟨hstale, List.forall_mem_singleton.2 hnow⟩
      | call c => exact (h.run c.script).2
      | summon | place | advance | edit =>
        exact (h.of_setup rfl).mono fun mark hmark => ⟨hmark, List.forall_mem_nil _⟩
    refine (ih hfirst).mono ?_
    rintro mark ⟨⟨hstale, hnow⟩, hrest⟩
    exact ⟨hstale, List.forall_mem_append.2 ⟨hnow, hrest⟩⟩

/-! ## Replacements -/

/-- Two sandboxes differ at most in what is stored under one id: the unit, its resistance, and who
applied its statuses. -/
structure DifferAt (id : UnitId) (s s' : Sandbox) : Prop where
  unit : ∀ id', id' ≠ id → s'.unit? id' = s.unit? id'
  resistance : ∀ id', id' ≠ id → s'.resistances[id']? = s.resistances[id']?
  source : ∀ id' status, id' ≠ id → s'.statusSource? id' status = s.statusSource? id' status
  rest : ({ s' with units := ∅, resistances := ∅, sources := ∅ } : Sandbox) =
    { s with units := ∅, resistances := ∅, sources := ∅ }

/-- Whatever is played from two sandboxes, they are told apart by nothing but resistances and
sources, and of the sources by those under one id that no request has settled since.  In particular
the boards, the dice and the log are the same, and every script gives the same result. -/
structure Interchangeable (id : UnitId) (s s' : Sandbox) (later : List Play) : Prop where
  same : ∃ resistances sources,
    played later s' = (played later s).recast resistances sources
  result : ∀ (α : Type) (x : Script α),
    (x.run answer (played later s')).1 = (x.run answer (played later s)).1
  source : ∀ mark : Mark,
    (mark.unit = id → ∃ m ∈ asked later s, m.Settles mark) →
    (played later s').statusSource? mark.unit mark.status =
      (played later s).statusSource? mark.unit mark.status

/-- Twins whose stale sources stand under one id are interchangeable. -/
theorem Twins.interchangeable {id : UnitId} (h : Twins (fun mark => mark.unit = id) s s')
    (later : List Play) : Interchangeable id s s' later where
  same := (h.played later).same
  result _ x := ((h.played later).run x).1
  source mark hmark := by
    refine (h.played later).source mark ?_
    rintro ⟨hid, hunsettled⟩
    obtain ⟨m, hm, hsettles⟩ := hmark hid
    exact hunsettled m hm hsettles

namespace DifferAt

variable {id : UnitId} {u : BoardUnit}

/-- The three tables are all that differs. -/
theorem exists_eq (h : DifferAt id s s') : ∃ units resistances sources,
    s' = { s with units, resistances, sources } := by
  obtain ⟨-, -, -, hrest⟩ := h
  cases s
  cases s'
  cases hrest
  exact ⟨_, _, _, rfl⟩

/-- Where a unit is put the units differed, and now they do not. -/
theorem units_insert (h : DifferAt id s s') (u : BoardUnit) :
    s'.units.insert id u = s.units.insert id u := by
  refine Std.ExtTreeMap.ext_getElem? fun id' => ?_
  rw [Std.ExtTreeMap.getElem?_insert, Std.ExtTreeMap.getElem?_insert]
  split
  · rfl
  · rename_i hne
    refine h.unit id' ?_
    rintro rfl
    exact hne Std.ReflCmp.compare_self

/-- **A unit that is put in the place of the one that differed leaves twins**, if the chances to
resist that were stored with it are the same. -/
theorem twins_place (h : DifferAt id s s') (hid : u.id = id)
    (hchance : ∀ status, s'.resistanceAgainst id status = s.resistanceAgainst id status) :
    Twins (fun mark => mark.unit = id) (s.place u) (s'.place u) where
  same := by
    have hunits := h.units_insert u
    obtain ⟨units, resistances, sources, rfl⟩ := h.exists_eq
    subst hid
    refine ⟨resistances, sources, ?_⟩
    simp only [place, put, recast, hunits]
  chance id' status := by
    show s'.resistanceAgainst id' status = s.resistanceAgainst id' status
    by_cases hsame : id' = id
    · rw [hsame]
      exact hchance status
    · rw [resistanceAgainst, resistanceAgainst, h.resistance id' hsame]
  source mark hne := h.source mark.unit mark.status hne

/-- **A summoned unit brings its own resistance**, so it leaves twins whatever it replaces. -/
theorem twins_summon (h : DifferAt ⟨s.nextUnit⟩ s s') {catalog : Catalog} {cardId : String}
    {card : Card} (hget : catalog.getUnit? cardId = some card) (side : Side) :
    Twins (fun mark => mark.unit = ⟨s.nextUnit⟩) (s.summon catalog cardId side).2
      (s'.summon catalog cardId side).2 := by
  obtain ⟨lane, stats, hkind⟩ := Card.exists_kind_of_isUnit (Catalog.isUnit_of_getUnit? hget)
  have hunits := h.units_insert (summoned card lane stats side ⟨s.nextUnit⟩)
  have hresistance := h.resistance
  have hsource := h.source
  obtain ⟨units, resistances, sources, rfl⟩ := h.exists_eq
  simp only [summon, hget, hkind]
  refine ⟨⟨resistances.insert ⟨s.nextUnit⟩ card.resistance, sources, ?_⟩, fun id' status => ?_,
    fun mark hne => hsource mark.unit mark.status hne⟩
  · simp only [put, recast, hunits]
  · simp only [resistanceAgainst, Std.ExtTreeMap.getElem?_insert]
    by_cases hnew : compare (⟨s.nextUnit⟩ : UnitId) id' = .eq
    · simp only [if_pos hnew]
    · have hne : id' ≠ ⟨s.nextUnit⟩ := by
        rintro rfl
        exact hnew Std.ReflCmp.compare_self
      simp only [if_neg hnew]
      rw [← hresistance id' hne]

end DifferAt

/-- Two summons from the same sandbox differ in the summoned unit and its resistance. -/
theorem differAt_summon (s : Sandbox) {catalog : Catalog} {cardId cardId' : String}
    {card card' : Card} (hget : catalog.getUnit? cardId = some card)
    (hget' : catalog.getUnit? cardId' = some card') (side side' : Side) :
    DifferAt ⟨s.nextUnit⟩ (s.summon catalog cardId side).2 (s.summon catalog cardId' side').2 := by
  obtain ⟨lane, stats, hkind⟩ := Card.exists_kind_of_isUnit (Catalog.isUnit_of_getUnit? hget)
  obtain ⟨lane', stats', hkind'⟩ := Card.exists_kind_of_isUnit (Catalog.isUnit_of_getUnit? hget')
  simp only [summon, hget, hget', hkind, hkind']
  refine ⟨fun id hne => ?_, fun id hne => ?_, fun _ _ _ => rfl, rfl⟩
  · show (s.put _ _).unit? id = (s.put _ _).unit? id
    rw [unit?_put, unit?_put, if_neg hne.symm, if_neg hne.symm]
  · have hcompare : ¬ compare (⟨s.nextUnit⟩ : UnitId) id = .eq := by simpa using hne.symm
    show (s.resistances.insert _ _)[id]? = (s.resistances.insert _ _)[id]?
    rw [Std.ExtTreeMap.getElem?_insert, Std.ExtTreeMap.getElem?_insert, if_neg hcompare,
      if_neg hcompare]

/-- A source stays as long as no request settles it. -/
theorem statusSource?_of_unsettled (mark : Mark) (plays : List Play) (s : Sandbox)
    (hplays : ∀ m ∈ asked plays s, ¬ m.Settles mark) :
    (played plays s).statusSource? mark.unit mark.status =
      s.statusSource? mark.unit mark.status := by
  refine told_along (P := fun _ _ => True)
    (R := fun history t => (∀ m ∈ history, ¬ m.Settles mark) →
      t.statusSource? mark.unit mark.status = s.statusSource? mark.unit mark.status)
    ?_ ?_ (along_of_forall (fun _ _ => trivial) s) (fun _ => rfl) hplays
  · intro history q t ht hhistory
    obtain ⟨hbefore, hlast⟩ := List.forall_mem_append.1 hhistory
    have hnow := List.forall_mem_singleton.1 hlast
    rw [statusSource?_of_neither (hnow ∘ .inl) (hnow ∘ .inr)]
    exact ht hbefore
  · intro history p t _ hp ht hhistory
    rw [statusSource?_of_isSetup hp]
    exact ht hhistory

/-- **What a replaced unit leaves behind.**  Two sandboxes differ at most in what is stored under an
id.

* After a unit is put there by hand they are interchangeable, if they gave the same chances to
  resist: whatever is played, boards, dice and log are the same, every script gives the same result,
  and so does every question for a source, unless it is a status of this unit that no request has
  put on it or taken off since.
* After a unit is summoned there they are interchangeable, without a condition.
* The sources that were recorded there are told as long as no request settles them, whatever unit is
  put there. -/
theorem replaced_unit_leaves {id : UnitId} (h : DifferAt id s s') :
    (∀ (u : BoardUnit) (later : List Play), u.id = id →
      (∀ status, s'.resistanceAgainst id status = s.resistanceAgainst id status) →
      Interchangeable id (s.place u) (s'.place u) later) ∧
    (∀ (catalog : Catalog) (cardId : String) (side : Side) (later : List Play),
      id = ⟨s.nextUnit⟩ → (catalog.getUnit? cardId).isSome = true →
      Interchangeable id (s.summon catalog cardId side).2 (s'.summon catalog cardId side).2
        later) ∧
    ∀ (p : Play) (later : List Play) (status : Status), p.isSetup = true →
      (∀ m ∈ asked later (p.on s), ¬ m.Settles ⟨id, status⟩) →
      (played later (p.on s)).statusSource? id status = s.statusSource? id status := by
  refine ⟨fun u later hid hchance => ?_, fun catalog cardId side later hid hget => ?_, ?_⟩
  · exact (h.twins_place hid hchance).interchangeable later
  · subst hid
    obtain ⟨card, hget⟩ := Option.isSome_iff_exists.1 hget
    exact (h.twins_summon hget side).interchangeable later
  · intro p later status hp hunsettled
    have hstays := statusSource?_of_unsettled ⟨id, status⟩ later (p.on s) hunsettled
    exact hstays.trans (statusSource?_of_isSetup hp s id status)

/-- The last id is taken. -/
def fullHouse : Sandbox := (start {}).place (.fresh lastId "clerk" "Clerk" .player .back 1 3)

/-- An exposed bailiff has the last id. -/
def exposedLast : Sandbox :=
  (answer (.applyExposed lastId 3 "old") (fullHouse.summon court.catalog "bailiff" .player).2).2

def recruit : BoardUnit := .fresh lastId "recruit" "Recruit" .enemy .front 2 2

/-- The recruit is stunned. -/
def welcome : List Play := [.request (.applyStun lastId 4 "new"), .advance]

theorem replaced_unit_leaves_welcome :
    let friend := (fullHouse.summon court.catalog "bailiff" .player).2
    let foe := (fullHouse.summon court.catalog "bailiff" .enemy).2
    let wall := (fullHouse.summon court.catalog "statue" .enemy).2
    DifferAt lastId friend foe ∧ DifferAt lastId friend wall ∧
    Interchangeable lastId (friend.place recruit) (foe.place recruit) welcome ∧
    Interchangeable lastId (friend.summon court.catalog "bailiff" .enemy).2
      (wall.summon court.catalog "bailiff" .enemy).2 welcome ∧
    exposedLast.statusSource? lastId .exposed = some "old" ∧
    (played welcome (exposedLast.place recruit)).statusSource? lastId .exposed = some "old" := by
  intro friend foe wall
  have hbailiff : court.catalog.getUnit? "bailiff" = some bailiff := by rfl
  have hstatue : court.catalog.getUnit? "statue" = some statue := by rfl
  have hlast : (⟨fullHouse.nextUnit⟩ : UnitId) = lastId := by decide +kernel
  have hfoe : DifferAt lastId friend foe :=
    hlast ▸ differAt_summon fullHouse hbailiff hbailiff .player .enemy
  have hwall : DifferAt lastId friend wall :=
    hlast ▸ differAt_summon fullHouse hbailiff hstatue .player .enemy
  have hchance (status : Status) :
      foe.resistanceAgainst lastId status = friend.resistanceAgainst lastId status := by
    cases status <;> decide +kernel
  have hsource : exposedLast.statusSource? lastId .exposed = some "old" := by decide +kernel
  have hself : DifferAt lastId exposedLast exposedLast :=
    ⟨fun _ _ => rfl, fun _ _ => rfl, fun _ _ _ => rfl, rfl⟩
  have hunsettled : ∀ m ∈ asked welcome (exposedLast.place recruit),
      ¬ m.Settles ⟨lastId, .exposed⟩ := by
    intro m hm
    obtain rfl := List.mem_singleton.1 hm
    rintro (hinflicts | ⟨statuses, u, hcleanse, -⟩)
    · cases hinflicts.asked
    · cases hcleanse
  refine ⟨hfoe, hwall, (replaced_unit_leaves hfoe).1 recruit welcome rfl hchance,
    (replaced_unit_leaves hwall).2.1 court.catalog "bailiff" .enemy welcome (by decide +kernel)
      (by decide +kernel), hsource, ?_⟩
  have hstays := (replaced_unit_leaves hself).2.2 (.place recruit) welcome .exposed rfl hunsettled
  exact hstays.trans hsource

/-- **Replaced units tell.**  Two sandboxes that differ at most in what is stored under an id may
answer a request differently after the same unit is put there: it takes the chances to resist of the
unit that it replaces. -/
theorem replacement_tells : ¬ ∀ (s s' : Sandbox) (id : UnitId), DifferAt id s s' →
    ∀ (u : BoardUnit) (later : List Play), u.id = id →
      (played later (s'.place u)).board = (played later (s.place u)).board ∧
      (∀ q, (answer q (played later (s'.place u))).1 = (answer q (played later (s.place u))).1) ∧
      ∀ status, (played later (s'.place u)).statusSource? id status =
        (played later (s.place u)).statusSource? id status := by
  intro hsame
  have hbailiff : court.catalog.getUnit? "bailiff" = some bailiff := by rfl
  have hstatue : court.catalog.getUnit? "statue" = some statue := by rfl
  have hdiffer := differAt_summon (start {}) hbailiff hstatue .enemy .enemy
  obtain ⟨-, hanswer, -⟩ := hsame _ _ _ hdiffer
    (.fresh ⟨1⟩ "recruit" "Recruit" .enemy .front 2 2) [] (by decide +kernel)
  have hlands := hanswer (.applyStun ⟨1⟩ 4 "new")
  revert hlands
  decide +kernel

end Sandbox

end CardDuel
