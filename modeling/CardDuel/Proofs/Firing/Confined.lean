import CardDuel.Proofs.Firing.Plan

/-!
# Firings that stay within reach

`Firing.Confined` lists what a host has to grant so that the actions of a firing keep an invariant
of the host and touch only the units in `reach`: each kind of request that an action makes has to
keep the invariant when it is made where the firing makes it.  The units that are picked and
remembered are `ally`, those that are listed on the way are `listed`.

* `Confined.keeps_target` — whatever an action resolves to is in reach, and what it remembers is an
  ally.
* `Confined.keeps_resolve` — an action keeps the invariant.
-/

set_option autoImplicit false

namespace CardDuel.Firing

open Script (Keeps request)

/-- What was found, if anything, is in `reach`. -/
def Reached (reach : UnitId → Prop) (id? : Option UnitId) : Prop := ∀ id, id? = some id → reach id

theorem reached_none {reach : UnitId → Prop} : Reached reach none :=
  fun _ h => (by cases h)

theorem Reached.mono {reach reach' : UnitId → Prop} {id? : Option UnitId} (h : Reached reach id?)
    (hle : ∀ id, reach id → reach' id) : Reached reach' id? :=
  fun id hid => hle id (h id hid)

variable {σ : Type}

/-- What a host has to grant to a firing. -/
structure Confined (f : Firing) (h : Handler σ) (I : σ → Prop)
    (listed ally reach : UnitId → Prop) : Prop where
  source : reach f.source
  opponent : ∀ id, f.combat.bind (·.target) = some id → reach id
  reach_of_ally : ∀ id, ally id → reach id
  list : Keeps h I (request (.unitIds f.side none)) fun ids => ∀ id ∈ ids, listed id
  look : ∀ id, listed id → Keeps h I (request (.unit id)) fun u? =>
    ∀ u, u? = some u → u.alive = true → ally u.id
  read : ∀ id, reach id → Keeps h I (request (.unit id)) fun _ => True
  random : ∀ ids label, (∀ id ∈ ids, ally id) →
    Keeps h I (request (.pickRandom ids label)) (Reached ally)
  lowest : ∀ ids, (∀ id ∈ ids, ally id) →
    Keeps h I (request (.pickLowestHealth ids)) (Reached ally)
  change : ∀ (q : Request) (id : UnitId), q.subject? = some id → reach id →
    Keeps h I (request q) fun _ => True
  side : ∀ q : Request, q.side? = some f.side → Keeps h I (request q) fun _ => True
  log : ∀ line, Keeps h I (request (.log line)) fun _ => True

namespace Confined

variable {f : Firing} {h : Handler σ} {I : σ → Prop} {listed ally reach : UnitId → Prop}
  {memory : Memory}

section

variable (hf : f.Confined h I listed ally reach) (action : Action)

include hf

/-- A unit that is looked at before it is taken. -/
theorem keeps_confirmed {id : UnitId} {P : UnitId → Prop} (hid : reach id) (hP : P id)
    (good : Option BoardUnit → Bool) :
    Keeps h I (do return if good (← request (.unit id)) then some id else none) (Reached P) := by
  refine (hf.read id hid).bind fun u _ => .done ?_
  intro id' hid'
  split at hid' <;> cases hid'
  exact hP

theorem keeps_remembered (hm : Reached ally memory.ally) :
    Keeps h I (f.remembered memory action) (Reached ally) := by
  unfold remembered
  split
  · exact .done reached_none
  · rename_i id hid
    have hally := hm id hid
    exact hf.keeps_confirmed (hf.reach_of_ally id hally) hally fun u => u.any (f.stillServes action)

theorem keeps_knownUnits {ids : List UnitId} (hids : ∀ id ∈ ids, listed id) :
    Keeps h I (knownUnits ids) fun us => ∀ u ∈ us, u.alive = true → ally u.id := by
  induction ids with
  | nil => exact .done (by simp)
  | cons id ids ih =>
    obtain ⟨hid, hids⟩ := List.forall_mem_cons.1 hids
    refine (hf.look id hid).bind fun u? hu? => (ih hids).bind fun us hus => .done ?_
    intro u hu
    rcases List.mem_append.1 hu with hu | hu
    · exact hu? u (Option.mem_toList.1 hu)
    · exact hus u hu

theorem keeps_choose {ids : List UnitId} (hids : ∀ id ∈ ids, ally id) :
    Keeps h I (f.choose action ids) (Reached ally) := by
  unfold choose
  split
  · exact .done reached_none
  · split
    · exact hf.lowest ids hids
    · exact hf.random ids _ hids

theorem keeps_pickAlly : Keeps h I (f.pickAlly action) (Reached ally) := by
  refine hf.list.bind fun ids hids => (hf.keeps_knownUnits hids).bind fun us hus => ?_
  refine hf.keeps_choose action ?_
  intro id hid
  obtain ⟨u, hu, rfl⟩ := List.mem_map.1 hid
  obtain ⟨hu, hcandidate⟩ := List.mem_filter.1 hu
  exact hus u hu (Bool.and_eq_true_iff.1 hcandidate).1

theorem keeps_ally (hm : Reached ally memory.ally) :
    Keeps h I (f.ally memory action) fun r => Reached ally r.1 ∧ Reached ally r.2.ally := by
  refine (hf.keeps_remembered action hm).bind fun id? hid? => ?_
  cases id? with
  | some id => exact .done ⟨hid?, hm⟩
  | none =>
    refine (hf.keeps_pickAlly action).bind fun id? hid? => ?_
    cases id? with
    | some id => exact .done ⟨hid?, hid?⟩
    | none => exact .done ⟨reached_none, hm⟩

theorem keeps_opponent : Keeps h I f.opponent (Reached reach) := by
  unfold Firing.opponent
  split
  · exact .done reached_none
  · rename_i id hid
    have hreach := hf.opponent id hid
    exact hf.keeps_confirmed hreach hreach Option.isSome

/-- **Whatever an action resolves to is in reach**, and what it remembers is an ally. -/
theorem keeps_target (hm : Reached ally memory.ally) :
    Keeps h I (f.target memory action) fun r => Reached reach r.1 ∧ Reached ally r.2.ally := by
  unfold target
  split
  · exact .done ⟨reached_none, hm⟩
  · exact .done ⟨fun _ h => (by cases h; exact hf.source), hm⟩
  · exact hf.keeps_opponent.bind fun id? hid? => .done ⟨hid?, hm⟩
  · exact .done ⟨reached_none, hm⟩
  · exact (hf.keeps_ally action hm).mono fun r hr => ⟨hr.1.mono hf.reach_of_ally, hr.2⟩

theorem keeps_log {q : Request} (hq : q.isLog = true) : Keeps h I (request q) fun _ => True := by
  cases q with
  | log line => exact hf.log line
  | _ => cases hq

/-- **An action keeps the invariant.** -/
theorem keeps_resolve (hm : Reached ally memory.ally) :
    Keeps h I (f.resolve memory action) fun r => Reached ally r.2.ally := by
  -- a request that is kept keeps the invariant whatever state it is made in
  have hstep (q : Request) (s : σ) (hq : Keeps h I (request q) fun _ => True) (hs : I s) :
      I (h q s).2 := (hq s hs).1
  rw [resolve_eq]
  cases hp : f.plan action with
  | idle => exact .done hm
  | side effect =>
    refine (Keeps.of_asks (asks_side_plan hp) fun q s hq => hstep q s ?_).bind fun _ _ => .done hm
    rcases hq with hq | hq
    · exact hf.side q hq
    · exact hf.keeps_log hq
  | unit effect =>
    refine (hf.keeps_target action hm).bind fun r hr => ?_
    obtain ⟨id?, memory'⟩ := r
    cases id? with
    | none => exact .done hr.2
    | some id =>
      have hid : reach id := hr.1 id rfl
      refine (Keeps.of_asks (asks_unit_plan hp id) fun q s hq => hstep q s ?_).bind
        fun _ _ => .done hr.2
      rcases hq with hq | rfl | hq
      · exact hf.change q id (subject?_of_change? hq) hid
      · exact hf.read id hid
      · exact hf.keeps_log hq

end

end Confined

end CardDuel.Firing
