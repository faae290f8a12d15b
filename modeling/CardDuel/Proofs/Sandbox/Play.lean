import CardDuel.Proofs.Engine.Occasion
import CardDuel.Proofs.Sandbox.Agreement
import CardDuel.Proofs.Sandbox.Evolution
import CardDuel.Proofs.Script.Moments

/-!
# Plays

A match is played from outside: units are summoned or put in place, requests are made, events are
told to an engine, turns go by, and units are edited.  `Play` lists these, `Sandbox.played` is the
sandbox after some of them, and `Sandbox.asked` are all requests on the way, those of the engines
included, with the sandboxes that they find.

* `told_along` — what a request tells by one moment more, plays tell by all that is asked on the
  way.
* `kept_along`, `kept_of_plays` — an invariant that requests and the other plays keep holds at every
  request and at the end.
* `numbered_played` — as long as the last id is free, whatever the sandbox knows stands under an id
  below the next one.
* `dossier?_of_spared`, `dossier?_of_setup` — a play that asks nothing leaves the units alone that
  it is not about.
-/

set_option autoImplicit false

namespace CardDuel

/-- What can be done to a sandbox from outside; an edit changes the unit under an id in any way. -/
inductive Play where
  | summon (catalog : Catalog) (cardId : String) (side : Side)
  | place (u : BoardUnit)
  | request (q : Request)
  | call (c : Call)
  | advance
  | edit (id : UnitId) (f : BoardUnit → BoardUnit)

namespace Play

/-- The sandbox after a play. -/
def on : Play → Sandbox → Sandbox
  | .summon catalog cardId side, s => (s.summon catalog cardId side).2
  | .place u, s => s.place u
  | .request q, s => (Sandbox.answer q s).2
  | .call c, s => (c.script.run Sandbox.answer s).2
  | .advance, s => s.advance
  | .edit id f, s => s.edit id f

/-- The requests that a play comes to, with the sandboxes that they find. -/
def moments : Play → Sandbox → List (Moment Sandbox)
  | .request q, s => [⟨q, s⟩]
  | .call c, s => c.script.moments Sandbox.answer s
  | .summon .., _ | .place _, _ | .advance, _ | .edit .., _ => []

/-- Whether a play asks nothing of the sandbox. -/
def isSetup : Play → Bool
  | .request _ | .call _ => false
  | .summon .. | .place _ | .advance | .edit .. => true

/-- A play puts another unit under an id, or changes the one that is there. -/
def Replaces (id : UnitId) : Play → Prop
  | .place u => u.id = id
  | .edit id' _ => id' = id
  | .summon .. | .request _ | .call _ | .advance => False

/-- A play leaves the unit with an id to the requests: it neither puts another unit there nor
changes the one that is there by hand. -/
def Spares (id : UnitId) : Play → Sandbox → Prop
  | .summon .., s => ⟨s.nextUnit⟩ ≠ id
  | .place u, _ => u.id ≠ id
  | .edit id' _, _ => id' ≠ id
  | .request _, _ | .call _, _ | .advance, _ => True

end Play

namespace Sandbox

/-- The sandbox after some plays. -/
def played : List Play → Sandbox → Sandbox
  | [], s => s
  | p :: plays, s => played plays (p.on s)

/-- The requests of some plays, with the sandboxes that they find. -/
def asked : List Play → Sandbox → List (Moment Sandbox)
  | [], _ => []
  | p :: plays, s => p.moments s ++ asked plays (p.on s)

/-- Every play meets a condition on it and on the sandbox that it finds. -/
def Along (P : Play → Sandbox → Prop) : List Play → Sandbox → Prop
  | [], _ => True
  | p :: plays, s => P p s ∧ Along P plays (p.on s)

theorem along_of_forall {P : Play → Prop} {plays : List Play} (h : ∀ p ∈ plays, P p)
    (s : Sandbox) : Along (fun p _ => P p) plays s := by
  induction plays generalizing s with
  | nil => trivial
  | cons p plays ih =>
    obtain ⟨hp, hrest⟩ := List.forall_mem_cons.1 h
    exact ⟨hp, ih hrest (p.on s)⟩

/-- What one request adds to a history by one moment, plays add by all that is asked on the way. -/
theorem told_after {R : List (Moment Sandbox) → Sandbox → Prop} {P : Play → Sandbox → Prop}
    (hanswer : ∀ history q s, R history s → R (history ++ [⟨q, s⟩]) (answer q s).2)
    (hsetup : ∀ history p s, P p s → p.isSetup = true → R history s → R history (p.on s))
    {plays : List Play} {s : Sandbox} (hplays : Along P plays s) {history : List (Moment Sandbox)}
    (hs : R history s) : R (history ++ asked plays s) (played plays s) := by
  induction plays generalizing history s with
  | nil => simpa [asked, played] using hs
  | cons p plays ih =>
    obtain ⟨hallowed, hrest⟩ := hplays
    have hfirst : R (history ++ p.moments s) (p.on s) := by
      cases p with
      | request q => exact hanswer history q s hs
      | call c => exact Script.told_of_moments hanswer hs c.script
      | summon | place | advance | edit =>
        rw [Play.moments, List.append_nil]
        exact hsetup history _ s hallowed rfl hs
    rw [asked, ← List.append_assoc]
    exact ih hrest hfirst

/-- **What one request tells by one moment, plays tell by all that is asked on the way**, as long as
the plays that ask nothing leave it true. -/
theorem told_along {R : List (Moment Sandbox) → Sandbox → Prop} {P : Play → Sandbox → Prop}
    (hanswer : ∀ history q s, R history s → R (history ++ [⟨q, s⟩]) (answer q s).2)
    (hsetup : ∀ history p s, P p s → p.isSetup = true → R history s → R history (p.on s))
    {plays : List Play} {s : Sandbox} (hplays : Along P plays s) (hs : R [] s) :
    R (asked plays s) (played plays s) :=
  told_after hanswer hsetup hplays hs

/-- **An invariant of plays** is kept by requests and by those plays that ask nothing.  It holds at
every request, also of an engine, and at the end. -/
theorem kept_along {I : Sandbox → Prop} {P : Play → Sandbox → Prop}
    (hanswer : ∀ q s, I s → I (answer q s).2)
    (hsetup : ∀ p s, P p s → p.isSetup = true → I s → I (p.on s)) {plays : List Play} {s : Sandbox}
    (hplays : Along P plays s) (hs : I s) :
    (∀ m ∈ asked plays s, I m.host) ∧ I (played plays s) := by
  refine told_along (R := fun history t => (∀ m ∈ history, I m.host) ∧ I t)
    (fun history q t ht => ⟨?_, hanswer q t ht.2⟩)
    (fun history p t hp hsets ht => ⟨ht.1, hsetup p t hp hsets ht.2⟩)
    hplays ⟨List.forall_mem_nil _, hs⟩
  exact List.forall_mem_append.2 ⟨ht.1, List.forall_mem_singleton.2 ht.2⟩

/-- The same where the condition on a play does not depend on the sandbox. -/
theorem kept_of_plays {I : Sandbox → Prop} {P : Play → Prop}
    (hanswer : ∀ q s, I s → I (answer q s).2)
    (hsetup : ∀ p s, P p → p.isSetup = true → I s → I (p.on s)) {plays : List Play}
    (hplays : ∀ p ∈ plays, P p) {s : Sandbox} (hs : I s) :
    (∀ m ∈ asked plays s, I m.host) ∧ I (played plays s) :=
  kept_along hanswer hsetup (along_of_forall hplays s) hs

/-! ## Summons -/

/-- A unit card puts a fresh unit with its resistance under the next id. -/
theorem exists_summon_eq (s : Sandbox) {catalog : Catalog} {cardId : String} {card : Card}
    (hget : catalog.getUnit? cardId = some card) (side : Side) :
    ∃ lane stats, card.kind = .unit lane stats ∧ s.summon catalog cardId side =
      (some ⟨s.nextUnit⟩,
        { s.put ⟨s.nextUnit⟩ (summoned card lane stats side ⟨s.nextUnit⟩) with
          nextUnit := Word.add s.nextUnit 1
          resistances := s.resistances.insert ⟨s.nextUnit⟩ card.resistance }) := by
  obtain ⟨lane, stats, hkind⟩ := Card.exists_kind_of_isUnit (Catalog.isUnit_of_getUnit? hget)
  refine ⟨lane, stats, hkind, ?_⟩
  simp only [summon, hget, hkind]

/-- Without a unit card nothing happens. -/
theorem summon_eq_none (s : Sandbox) {catalog : Catalog} {cardId : String}
    (hget : catalog.getUnit? cardId = none) (side : Side) :
    s.summon catalog cardId side = (none, s) := by
  rw [summon, hget]

/-! ## Numbers -/

variable {s : Sandbox} {id : UnitId}

/-- The greatest id. -/
def lastId : UnitId := ⟨4294967295⟩

/-- The sandbox knows nothing of an id. -/
structure Vacant (s : Sandbox) (id : UnitId) : Prop where
  unit : s.unit? id = none
  resistance : s.resistances[id]? = none
  source : ∀ status, s.statusSource? id status = none

/-- What the sandbox knows stands under ids below the next one, as long as the last id is free.
Once it is taken there is no next id. -/
structure Numbered (s : Sandbox) : Prop where
  below : s.unit? lastId = none → ∀ id, s.nextUnit ≤ id.raw → s.Vacant id
  last : s.unit? lastId ≠ none → s.nextUnit = lastId.raw

theorem numbered_start (setup : Setup) : (start setup).Numbered where
  below _ id _ := by
    constructor <;> intros <;> simp [start, unit?, statusSource?]
  last h := absurd (by simp [start, unit?]) h

theorem Numbered.vacant (hs : s.Numbered) (hnext : s.nextUnit < lastId.raw)
    (hid : s.nextUnit ≤ id.raw) : s.Vacant id := by
  refine hs.below ?_ id hid
  by_contra hlast
  rw [hs.last hlast] at hnext
  exact absurd hnext (by decide)

/-- What the sandbox keeps under an id without a unit is not touched by a request. -/
theorem frame_answer_of_unknown (hnone : s.unit? id = none) (q : Request) :
    Frame (q.side?.getD .player) (fun id' => id' ≠ id) s (answer q s).2 := by
  by_cases hq : q.subject? = some id
  · obtain ⟨a, ha⟩ := exists_answer_of_unknown hq
    rw [ha s hnone]
    exact .refl s
  · refine frame_answer ⟨fun id' hid' => ?_, fun side hside => by rw [hside]; rfl⟩
    rintro rfl
    exact hq hid'

/-- A request leaves vacant what is vacant. -/
theorem Vacant.answer (h : s.Vacant id) (q : Request) : (answer q s).2.Vacant id := by
  have hframe := frame_answer_of_unknown h.unit q
  have hreach : ¬ (id ≠ id) := fun hne => hne rfl
  refine ⟨(hframe.unit id hreach).trans h.unit, ?_, fun status => ?_⟩
  · rw [hframe.resistances]
    exact h.resistance
  · rw [hframe.source id status hreach]
    exact h.source status

theorem isNone_answer (q : Request) (s : Sandbox) (id : UnitId) :
    (answer q s).2.unit? id = none ↔ s.unit? id = none := by
  have hidentity := identity_answer q s id
  rw [← Option.map_eq_none_iff (f := BoardUnit.identity), hidentity, Option.map_eq_none_iff]

theorem Numbered.answer (hs : s.Numbered) (q : Request) : (answer q s).2.Numbered where
  below hlast id hid := by
    rw [(frame_any q s).nextUnit] at hid
    exact (hs.below ((isNone_answer q s lastId).1 hlast) id hid).answer q
  last hlast := by
    rw [(frame_any q s).nextUnit]
    exact hs.last fun hnone => hlast ((isNone_answer q s lastId).2 hnone)

/-- A new unit, and a next id above it if there is one. -/
theorem Numbered.put {s' : Sandbox} (hs : s.Numbered) (new : UnitId)
    (hnew : s'.unit? new ≠ none) (hunit : ∀ id, id ≠ new → s'.unit? id = s.unit? id)
    (hresistance : ∀ id, id ≠ new → s'.resistances[id]? = s.resistances[id]?)
    (hsource : ∀ id status, s'.statusSource? id status = s.statusSource? id status)
    (hnext : s.nextUnit ≤ s'.nextUnit) (habove : Word.add new.raw 1 ≤ s'.nextUnit) :
    s'.Numbered := by
  have hsum := Word.toNat_add new.raw 1
  have hnumber := new.raw.toNat_lt
  have hmax := s'.nextUnit.toNat_lt
  rw [UInt32.le_iff_toNat_le, hsum, Word.maxNat] at habove
  rw [UInt32.le_iff_toNat_le] at hnext
  have hone : (1 : UInt32).toNat = 1 := rfl
  have hlastNat : lastId.raw.toNat = 4294967295 := rfl
  refine ⟨fun hlast id hid => ?_, fun hlast => ?_⟩
  · rw [UInt32.le_iff_toNat_le] at hid
    have hne : lastId ≠ new := by
      rintro rfl
      exact hnew hlast
    have hnewNat : new.raw.toNat ≠ lastId.raw.toNat := by
      intro heq
      refine hne ?_
      rw [show new = ⟨new.raw⟩ from rfl, UInt32.toNat_inj.1 heq]
    have hidNew : id ≠ new := by
      rintro rfl
      omega
    have hvacant := hs.below ((hunit lastId hne).symm.trans hlast) id
      (UInt32.le_iff_toNat_le.2 (by omega))
    exact ⟨(hunit id hidNew).trans hvacant.unit, (hresistance id hidNew).trans hvacant.resistance,
      fun status => (hsource id status).trans (hvacant.source status)⟩
  · refine UInt32.toNat_inj.1 ?_
    by_cases hne : lastId = new
    · rw [← hne] at habove
      omega
    · have hbefore := hs.last (by rwa [← hunit lastId hne])
      rw [hbefore] at hnext
      omega

theorem Numbered.summon (hs : s.Numbered) (catalog : Catalog) (cardId : String) (side : Side) :
    (s.summon catalog cardId side).2.Numbered := by
  unfold Sandbox.summon
  split
  · exact hs
  · split
    · exact hs
    · rename_i card _ lane stats _
      refine hs.put ⟨s.nextUnit⟩ ?_ (fun id hid => ?_) (fun id hid => ?_) (fun _ _ => rfl)
        (Word.le_add _ _) (UInt32.le_refl _)
      · show (s.put _ _).unit? _ ≠ none
        rw [unit?_put_self]
        exact Option.some_ne_none _
      · show (s.put _ _).unit? id = s.unit? id
        rw [unit?_put, if_neg hid.symm]
      · show (s.resistances.insert _ _)[id]? = s.resistances[id]?
        rw [Std.ExtTreeMap.getElem?_insert, if_neg (by simpa using hid.symm)]

theorem le_nextUnit_place (s : Sandbox) (u : BoardUnit) : s.nextUnit ≤ (s.place u).nextUnit := by
  show s.nextUnit ≤ max s.nextUnit (Word.add u.id.raw 1)
  rw [UInt32.le_iff_toNat_le, UInt32.toNat_max]
  exact Nat.le_max_left _ _

theorem Numbered.place (hs : s.Numbered) (u : BoardUnit) : (s.place u).Numbered := by
  refine hs.put u.id ?_ (fun id hid => ?_) (fun _ _ => rfl) (fun _ _ => rfl) ?_ ?_
  · rw [unit?_place, if_pos rfl]
    exact Option.some_ne_none _
  · rw [unit?_place, if_neg hid.symm]
  · exact le_nextUnit_place s u
  · show Word.add u.id.raw 1 ≤ max s.nextUnit (Word.add u.id.raw 1)
    rw [UInt32.le_iff_toNat_le, UInt32.toNat_max]
    exact Nat.le_max_right _ _

theorem Numbered.edit (hs : s.Numbered) (id : UnitId) (f : BoardUnit → BoardUnit) :
    (s.edit id f).Numbered := by
  unfold Sandbox.edit
  split
  · rename_i u hu
    have hnone (id' : UnitId) : (s.put id (f u)).unit? id' = none ↔ s.unit? id' = none := by
      rw [unit?_put]
      split
      · rename_i hid
        rw [← hid, hu]
        simp
      · rfl
    refine ⟨fun hlast id' hid' => ?_, fun hlast => hs.last fun h => hlast ((hnone _).2 h)⟩
    have hvacant := hs.below ((hnone _).1 hlast) id' hid'
    exact ⟨(hnone id').2 hvacant.unit, hvacant.resistance, hvacant.source⟩
  · exact hs

theorem Numbered.advance (hs : s.Numbered) : s.advance.Numbered where
  below hlast id hid := by
    have hvacant := hs.below hlast id hid
    exact ⟨hvacant.unit, hvacant.resistance, hvacant.source⟩
  last := hs.last

theorem Numbered.of_setup (hs : s.Numbered) {p : Play} (hp : p.isSetup = true) :
    (p.on s).Numbered := by
  cases p with
  | summon catalog cardId side => exact hs.summon catalog cardId side
  | place u => exact hs.place u
  | advance => exact hs.advance
  | edit id f => exact hs.edit id f
  | request | call => cases hp

/-- **Whatever the sandbox knows stands under an id below the next one**, as long as the last id is
free. -/
theorem numbered_played (setup : Setup) (plays : List Play) :
    (played plays (start setup)).Numbered :=
  (kept_of_plays (P := fun _ => True) (fun q _ hs => hs.answer q)
    (fun _ _ _ hp hs => hs.of_setup hp) (fun _ _ => trivial) (numbered_start setup)).2

/-! ## Plays that ask nothing -/

theorem nextUnit_of_setup {p : Play} (hp : p.isSetup = true) (s : Sandbox) :
    s.nextUnit ≤ (p.on s).nextUnit := by
  cases p with
  | summon catalog cardId side =>
    simp only [Play.on, summon]
    split
    · exact UInt32.le_refl _
    · split
      · exact UInt32.le_refl _
      · exact Word.le_add _ _
  | place u => exact le_nextUnit_place s u
  | advance => exact UInt32.le_refl _
  | edit id f =>
    simp only [Play.on, edit]
    split <;> exact UInt32.le_refl _
  | request | call => cases hp

/-- Putting a unit elsewhere leaves what the sandbox keeps about a unit. -/
theorem dossier?_put_of_ne {s' : Sandbox} {new : UnitId} {u : BoardUnit} (hne : new ≠ id)
    (hunits : s'.units = (s.put new u).units)
    (hresistance : s'.resistances[id]? = s.resistances[id]?) (hsources : s'.sources = s.sources) :
    s'.dossier? id = s.dossier? id := by
  have hunit : s'.unit? id = s.unit? id := by
    have hput := unit?_put s new id u
    rw [if_neg hne] at hput
    rw [← hput, unit?, unit?, hunits]
  have hsource : s'.statusSource? id = s.statusSource? id := by
    funext status
    rw [statusSource?, statusSource?, hsources]
  rw [dossier?, dossier?, hunit, hresistance, hsource]

/-- **A play that asks nothing leaves what the sandbox keeps about a unit that it spares.** -/
theorem dossier?_of_spared {p : Play} (hp : p.isSetup = true) (hspares : p.Spares id s) :
    (p.on s).dossier? id = s.dossier? id := by
  cases p with
  | summon catalog cardId side =>
    simp only [Play.on, summon]
    split
    · rfl
    · split
      · rfl
      · have hne : (⟨s.nextUnit⟩ : UnitId) ≠ id := hspares
        refine dossier?_put_of_ne hne rfl ?_ rfl
        rw [Std.ExtTreeMap.getElem?_insert, if_neg (by simpa using hne)]
  | place u => exact dossier?_put_of_ne hspares rfl rfl rfl
  | advance => rfl
  | edit id' f =>
    simp only [Play.on, edit]
    split
    · exact dossier?_put_of_ne hspares rfl rfl rfl
    · rfl
  | request | call => cases hp

/-- A play that does not replace a unit spares it, as long as new units get higher ids. -/
theorem spares_of_below {p : Play} (hreplaces : ¬ p.Replaces id)
    (hbelow : id.raw < s.nextUnit) : p.Spares id s := by
  cases p with
  | summon =>
    rintro rfl
    exact UInt32.lt_irrefl _ hbelow
  | place | edit => exact hreplaces
  | request | call | advance => trivial

/-- **A play that asks nothing leaves a unit alone** that it does not replace, as long as new units
get higher ids. -/
theorem dossier?_of_setup {p : Play} (hp : p.isSetup = true) (hreplaces : ¬ p.Replaces id)
    (hbelow : id.raw < s.nextUnit) : (p.on s).dossier? id = s.dossier? id :=
  dossier?_of_spared hp (spares_of_below hreplaces hbelow)

end Sandbox

end CardDuel
