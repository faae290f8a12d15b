import CardDuel.Proofs.Sandbox.Accumulation
import CardDuel.Proofs.Sandbox.Records
import Mathlib.Data.List.Fold
import Mathlib.Data.List.Perm.Basic

/-!
# Applications in any order

A status that is not resisted is merged into what is recorded: of two expiry turns the later one
stands, and of two penalties the greater one.  So it does not matter in which order statuses are
applied, nor how often.

* `foldl_eq_of_same` — a run of updates that commute and can be repeated depends on the set of
  updates alone.
* `Request.inflict_comm`, `Request.inflict_self` — applications to one unit are such updates.
* `afflict_of_unresisted` — an application that nothing can resist draws nothing and answers
  whether the unit is there.
* `run_each_of_unresisted` — some applications, one after the other.
* `applications_commute` — in any order, and with any repetitions.
-/

set_option autoImplicit false

namespace CardDuel

/-! ## Updates that commute -/

section

variable {α β : Type} {f : β → α → β} [RightCommutative f]
  (hself : ∀ b a, f (f b a) a = f b a)

include hself

/-- An update that was made need not be made again. -/
theorem foldl_absorb {l : List α} {a : α} (ha : a ∈ l) (b : β) :
    f (l.foldl f b) a = l.foldl f b := by
  induction l generalizing b with
  | nil => cases ha
  | cons first l ih =>
    rcases List.mem_cons.1 ha with rfl | hrest
    · rw [List.foldl_cons_eq_apply_foldl, hself]
    · exact ih hrest (f b first)

theorem foldl_append_of_subset {l l' : List α} (h : l' ⊆ l) (b : β) :
    (l ++ l').foldl f b = l.foldl f b := by
  rw [List.foldl_append]
  induction l' with
  | nil => rfl
  | cons a l' ih =>
    obtain ⟨ha, hrest⟩ := List.cons_subset.1 h
    rw [List.foldl_cons, foldl_absorb hself ha, ih hrest]

/-- **A run of updates depends on the set of updates alone**, if they commute and can be
repeated. -/
theorem foldl_eq_of_same {l l' : List α} (h : ∀ a, a ∈ l' ↔ a ∈ l) (b : β) :
    l'.foldl f b = l.foldl f b := by
  have hswap : (l' ++ l).foldl f b = (l ++ l').foldl f b := List.perm_append_comm.foldl_eq b
  rwa [foldl_append_of_subset hself fun a => (h a).2,
    foldl_append_of_subset hself fun a => (h a).1] at hswap

end

/-! ## One unit -/

namespace Word

theorem max_right_comm (a b c : UInt32) : max (max a b) c = max (max a c) b := by
  rw [← UInt32.toNat_inj]
  simp only [UInt32.toNat_max]
  omega

theorem max_max_self (a b : UInt32) : max (max a b) b = max a b := by
  rw [← UInt32.toNat_inj]
  simp only [UInt32.toNat_max]
  omega

end Word

namespace BoardUnit

theorem later_comm (old : Option UInt32) (a b : UInt32) :
    later (later old a) b = later (later old b) a := by
  cases old with
  | none =>
    have hmax : max a b = max b a := by
      rw [← UInt32.toNat_inj, UInt32.toNat_max, UInt32.toNat_max, Nat.max_comm]
    exact congrArg some hmax
  | some turn => exact congrArg some (Word.max_right_comm turn a b)

theorem later_self (old : Option UInt32) (a : UInt32) :
    later (later old a) a = later old a := by
  cases old with
  | none =>
    have hmax : max a a = a := by rw [← UInt32.toNat_inj, UInt32.toNat_max, Nat.max_self]
    exact congrArg some hmax
  | some turn => exact congrArg some (Word.max_max_self turn a)

end BoardUnit

namespace Request

/-- What an application makes of its unit if it lands. -/
def inflict : Request → BoardUnit → BoardUnit
  | .applyStun _ expiry _, u => u.stun expiry
  | .applyExposed _ expiry _, u => u.expose expiry
  | .applyAttackPenalty _ magnitude expiry _, u => u.penalise magnitude expiry
  | _, u => u

/-- Two applications of one status merge in either order; those of different statuses do not
meet. -/
theorem inflict_comm (q q' : Request) (u : BoardUnit) :
    q'.inflict (q.inflict u) = q.inflict (q'.inflict u) := by
  cases q with
  | applyStun | applyExposed | applyAttackPenalty =>
    cases q' with
    | applyStun | applyExposed | applyAttackPenalty =>
      simp only [inflict, BoardUnit.stun, BoardUnit.expose, BoardUnit.penalise,
        BoardUnit.later_comm, Word.max_right_comm]
    | _ => rfl
  | _ => rfl

theorem inflict_self (q : Request) (u : BoardUnit) : q.inflict (q.inflict u) = q.inflict u := by
  cases q with
  | applyStun | applyExposed | applyAttackPenalty =>
    simp only [inflict, BoardUnit.stun, BoardUnit.expose, BoardUnit.penalise,
      BoardUnit.later_self, Word.max_max_self]
  | _ => rfl

end Request

namespace BoardUnit

/-- The unit under an id after an application to some unit. -/
def afflicted (id : UnitId) (u : BoardUnit) (q : Request) : BoardUnit :=
  if q.subject? = some id then q.inflict u else u

instance (id : UnitId) : RightCommutative (afflicted id) where
  right_comm u q q' := by
    unfold afflicted
    split <;> split
    · exact Request.inflict_comm q q' u
    · rfl
    · rfl
    · rfl

theorem afflicted_self (id : UnitId) (u : BoardUnit) (q : Request) :
    (u.afflicted id q).afflicted id q = u.afflicted id q := by
  unfold afflicted
  split
  · exact q.inflict_self u
  · rfl

end BoardUnit

/-! ## One application -/

namespace Sandbox

variable {s s' s'' : Sandbox} {id : UnitId} {status : Status} {q : Request}

/-- An application that nothing can resist: the unit has no chance to resist the status, or there is
no unit. -/
def Unresisted (s : Sandbox) (q : Request) : Prop :=
  ∃ mark, q.afflicts? = some mark ∧
    (s.unit? mark.unit = none ∨ s.resistanceAgainst mark.unit mark.status ≤ 0.0)

/-- From `s` to `s'` nothing but units and sources changed, and no unit came or went. -/
structure Marked (s s' : Sandbox) : Prop where
  there : ∀ id, s'.unit? id = none ↔ s.unit? id = none
  rest : ∃ units sources, s' = { s with units, sources }

theorem Marked.refl (s : Sandbox) : s.Marked s := ⟨fun _ => .rfl, s.units, s.sources, rfl⟩

theorem Marked.trans (h : s.Marked s') (h' : s'.Marked s'') : s.Marked s'' where
  there id := (h'.there id).trans (h.there id)
  rest := by
    obtain ⟨-, units, sources, rfl⟩ := h
    obtain ⟨-, units', sources', rfl⟩ := h'
    exact ⟨units', sources', rfl⟩

theorem Marked.resistanceAgainst (h : s.Marked s') (id : UnitId) (status : Status) :
    s'.resistanceAgainst id status = s.resistanceAgainst id status := by
  obtain ⟨-, units, sources, rfl⟩ := h
  rfl

theorem Unresisted.of_marked (hq : s.Unresisted q) (h : s.Marked s') : s'.Unresisted q := by
  obtain ⟨mark, hmark, hsafe⟩ := hq
  refine ⟨mark, hmark, ?_⟩
  rwa [h.there, h.resistanceAgainst]

/-- **An application that nothing can resist** draws nothing, changes its own unit alone, and is
answered by whether the unit is there. -/
theorem afflict_of_unresisted
    (h : s.unit? id = none ∨ s.resistanceAgainst id status ≤ 0.0) (source : String)
    (change : BoardUnit → BoardUnit) :
    (s.afflict id status source change).1 = (s.unit? id).isSome ∧
      (∀ id', (s.afflict id status source change).2.unit? id' =
        (s.unit? id').map fun u => if id = id' then change u else u) ∧
      s.Marked (s.afflict id status source change).2 := by
  cases hu : s.unit? id with
  | none =>
    have hnobody : s.afflict id status source change = (false, s) := by rw [afflict, hu]
    rw [hnobody]
    refine ⟨rfl, fun id' => ?_, .refl s⟩
    split
    · rename_i hid
      rw [← hid, hu]
      rfl
    · exact Option.map_id'.symm
  | some u =>
    have hchance : s.resistanceAgainst id status ≤ 0.0 := h.resolve_left (by simp [hu])
    have hlands : s.lands id status = (true, s) := by simp only [lands, if_pos hchance]
    have hafflict := afflict_of_landed hu (congrArg Prod.fst hlands) source change
    rw [hlands] at hafflict
    have hunit (id' : UnitId) : (s.afflict id status source change).2.unit? id' =
        (s.unit? id').map fun u => if id = id' then change u else u := by
      rw [hafflict]
      refine (s.unit?_put id id' (change u)).trans ?_
      split
      · rename_i hid
        rw [← hid, hu]
        rfl
      · exact Option.map_id'.symm
    refine ⟨?_, hunit, fun id' => by rw [hunit, Option.map_eq_none_iff],
      s.units.insert id (change u), s.sources.insert ⟨id, status⟩ source, ?_⟩
    · rw [hafflict]
      rfl
    · rw [hafflict]
      rfl

theorem answer_of_unresisted (hq : s.Unresisted q) :
    (∀ id, (answer q s).2.unit? id = (s.unit? id).map (BoardUnit.afflicted id · q)) ∧
      s.Marked (answer q s).2 := by
  obtain ⟨mark, hmark, hsafe⟩ := hq
  cases q with
  | applyStun | applyExposed | applyAttackPenalty =>
    cases hmark
    obtain ⟨-, hunit, hmarked⟩ := afflict_of_unresisted hsafe _ _
    refine ⟨fun id => (hunit id).trans ?_, hmarked⟩
    simp only [BoardUnit.afflicted, Request.subject?, Option.some.injEq]
    rfl
  | _ => cases hmark

/-- Such an application is answered alike as long as no unit comes or goes. -/
theorem answer_eq_of_marked (hq : s.Unresisted q) (h : s.Marked s') :
    (answer q s').1 = (answer q s).1 := by
  obtain ⟨mark, hmark, hsafe'⟩ := hq.of_marked h
  obtain ⟨_, hmark', hsafe⟩ := hq
  cases hmark.symm.trans hmark'
  have hthere (id : UnitId) : (s'.unit? id).isSome = (s.unit? id).isSome := by
    rw [Bool.eq_iff_iff, Option.isSome_iff_ne_none, Option.isSome_iff_ne_none]
    exact not_congr (h.there id)
  cases q with
  | applyStun | applyExposed =>
    cases hmark
    exact ((afflict_of_unresisted hsafe' _ _).1.trans (hthere _)).trans
      (afflict_of_unresisted hsafe _ _).1.symm
  | applyAttackPenalty => rfl
  | _ => cases hmark

end Sandbox

/-! ## Some applications -/

namespace Script

/-- Makes some requests, one after the other. -/
def each : List Request → Script Unit
  | [] => return ()
  | q :: calls => .ask q fun _ => each calls

end Script

namespace Sandbox

variable {s s' : Sandbox} {calls calls' : List Request}

/-- **Some applications, one after the other**: each is answered as if it were the only one, and
each unit gets those that are meant for it. -/
theorem run_each_of_unresisted (hcalls : ∀ q ∈ calls, s.Unresisted q) (h : s.Marked s') :
    (Script.each calls).transcript answer s' = calls.map (fun q => ⟨q, (answer q s).1⟩) ∧
      (∀ id, ((Script.each calls).run answer s').2.unit? id =
        (s'.unit? id).map fun u => calls.foldl (BoardUnit.afflicted id) u) ∧
      s.Marked ((Script.each calls).run answer s').2 := by
  induction calls generalizing s' with
  | nil => exact ⟨rfl, fun id => Option.map_id'.symm, h⟩
  | cons q calls ih =>
    obtain ⟨hq, hrest⟩ := List.forall_mem_cons.1 hcalls
    obtain ⟨hunit, hmarked⟩ := answer_of_unresisted (hq.of_marked h)
    obtain ⟨htranscript, hunits, hend⟩ := ih hrest (h.trans hmarked)
    refine ⟨?_, fun id => ?_, hend⟩
    · rw [Script.each, Script.transcript, htranscript, answer_eq_of_marked hq h]
      rfl
    · rw [Script.each, Script.run_ask, hunits, hunit, Option.map_map]
      rfl

/-- **Applications commute.**  Some statuses are applied that nothing can resist, and then, from the
same state, the same applications are made in another order, any of them any number of times.
Units, sides and dice come out the same, and so does everything else but who applied a status last;
no draw is made, and each application is answered alike wherever it stands. -/
theorem applications_commute (s : Sandbox) {calls calls' : List Request}
    (hcalls : ∀ q ∈ calls, s.Unresisted q) (hsame : ∀ q, q ∈ calls' ↔ q ∈ calls) :
    let after := ((Script.each calls).run answer s).2
    let after' := ((Script.each calls').run answer s).2
    after'.units = after.units ∧ (∀ side, after'.holdings side = after.holdings side) ∧
      after'.dice = after.dice ∧ after.dice = s.dice ∧
      { after' with sources := after.sources } = after ∧
      (Script.each calls).transcript answer s = calls.map (fun q => ⟨q, (answer q s).1⟩) ∧
      (Script.each calls').transcript answer s = calls'.map fun q => ⟨q, (answer q s).1⟩ := by
  intro after after'
  have hcalls' : ∀ q ∈ calls', s.Unresisted q := fun q hq => hcalls q ((hsame q).1 hq)
  obtain ⟨htranscript, hunit, hmarked⟩ := run_each_of_unresisted hcalls (.refl s)
  obtain ⟨htranscript', hunit', hmarked'⟩ := run_each_of_unresisted hcalls' (.refl s)
  have hunits : after'.units = after.units := by
    refine Std.ExtTreeMap.ext_getElem? fun id => ?_
    refine (hunit' id).trans (Eq.trans ?_ (hunit id).symm)
    simp only [foldl_eq_of_same (BoardUnit.afflicted_self id) hsame]
  obtain ⟨-, units, sources, hafter⟩ := hmarked
  obtain ⟨-, units', sources', hafter'⟩ := hmarked'
  have hafter : after = { s with units, sources } := hafter
  have hafter' : after' = { s with units := units', sources := sources' } := hafter'
  rw [hafter', hafter] at hunits ⊢
  obtain rfl : units' = units := hunits
  exact ⟨rfl, fun side => by cases side <;> rfl, rfl, rfl, rfl, htranscript, htranscript'⟩

/-- The bailiff is stunned by two others, the statue is exposed, and nobody is penalised. -/
def writs : List Request :=
  [.applyStun ⟨1⟩ 3 "judge", .applyExposed ⟨2⟩ 2 "clerk", .applyStun ⟨1⟩ 5 "usher",
    .applyAttackPenalty ⟨9⟩ 1 4 "clerk"]

/-- The same in another order, the first of them twice. -/
def writsAgain : List Request :=
  [.applyStun ⟨1⟩ 3 "judge", .applyAttackPenalty ⟨9⟩ 1 4 "clerk", .applyStun ⟨1⟩ 5 "usher",
    .applyExposed ⟨2⟩ 2 "clerk", .applyStun ⟨1⟩ 3 "judge"]

theorem applications_commute_courtroom :
    let after := ((Script.each writs).run answer courtroom).2
    let after' := ((Script.each writsAgain).run answer courtroom).2
    (∀ q ∈ writs, courtroom.Unresisted q) ∧ (∀ q, q ∈ writsAgain ↔ q ∈ writs) ∧
      after'.units = after.units ∧ after'.dice = after.dice ∧
      (after'.unit? ⟨1⟩).bind (·.stunUntil) = some 5 ∧
      after.statusSource? ⟨1⟩ .stun = some "usher" ∧
      after'.statusSource? ⟨1⟩ .stun = some "judge" := by
  intro after after'
  have hcalls : ∀ q ∈ writs, courtroom.Unresisted q := by
    simp only [writs, List.forall_mem_cons]
    refine ⟨⟨_, rfl, .inr ?_⟩, ⟨_, rfl, .inr ?_⟩, ⟨_, rfl, .inr ?_⟩, ⟨_, rfl, .inl ?_⟩,
      List.forall_mem_nil _⟩ <;> decide +kernel
  have hsame : ∀ q, q ∈ writsAgain ↔ q ∈ writs := by
    intro q
    simp only [writs, writsAgain, List.mem_cons]
    tauto
  obtain ⟨hunits, -, hdice, -⟩ := applications_commute courtroom hcalls hsame
  exact ⟨hcalls, hsame, hunits, hdice, by decide +kernel, by decide +kernel, by decide +kernel⟩

end Sandbox

end CardDuel
