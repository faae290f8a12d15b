import CardDuel.Proofs.Engine.ValidatedOnce
import CardDuel.Proofs.Firing.Change

/-!
# The requests of an action

A host may answer anything; what an action asks of it keeps one pattern all the same.  Apart from
reads there is at most one choice, then at most one change, or a run of draws, then at most one line
of the log; and the result of the action can be read off the answers.  `call_protocol` says so for
every action and lines the actions of an occasion up.

* `nonReads_target` — looking for a target is at most one choice.
* `settled_change`, `settled_draws` — an effect is its changes and at most one line.
* `conduct_of_side`, `conduct_of_unit` — the pattern, by the plan of the action.
-/

set_option autoImplicit false

namespace CardDuel

open Script (request)

/-! ## Kinds of requests -/

namespace Request

/-- The candidates that are offered for a choice. -/
def offered? : Request → Option (List UnitId)
  | pickRandom candidates _ | pickLowestHealth candidates => some candidates
  | _ => none

/-- Whether a request changes a unit or the holdings of a side. -/
def isChange (q : Request) : Bool := q.subject?.isSome || q.side?.isSome

theorem isRead_of_isChange {q : Request} (hq : q.isChange = true) : q.isRead = false := by
  cases q <;> first | rfl | cases hq

theorem isRead_of_offered? {q : Request} {ids : List UnitId} (hq : q.offered? = some ids) :
    q.isRead = false := by
  cases q <;> first | rfl | cases hq

end Request

/-- Whether the host answered a choice with nobody. -/
def Exchange.declined : Exchange → Bool
  | ⟨.pickRandom .., id⟩ => Option.isNone id
  | ⟨.pickLowestHealth .., id⟩ => Option.isNone id
  | _ => false

/-- Whether an action applies to a unit: it has a target and is no heal of the leader. -/
def Action.onUnit : Action → Bool
  | .heal .leader _ => false
  | action => action.target?.isSome

/-! ## Conduct -/

/-- Changes, the lines of the log that follow them, and the result that they come to.  A line is
owed to a change that came to something and is no attack penalty; any change that came to something
makes the action applied. -/
structure Settled (result : Resolution) (changes lines : List Exchange) : Prop where
  change : ∀ x ∈ changes, x.request.isChange = true
  line : ∀ x ∈ lines, x.request.isLog = true
  lines_le : lines.length ≤ 1
  told : lines ≠ [] ↔ ∃ x ∈ changes, x.told = true
  applied : result = .applied ↔ ∃ x ∈ changes, x.barren = false

/-- The exchanges of one action that are not mere reads, and its result.  Only an ally is chosen,
and from somebody; after a choice of nobody nothing is changed; cards are drawn up to the amount,
and not on from an empty deck. -/
structure Conduct (f : Firing) (action : Action) (result : Resolution)
    (choices changes lines : List Exchange) : Prop extends Settled result changes lines where
  choices_le : choices.length ≤ 1
  choice : ∀ x ∈ choices,
    action.target? = some .ally ∧ ∃ ids, x.request.offered? = some ids ∧ ids ≠ []
  declined : (∃ x ∈ choices, x.declined = true) → changes = []
  changes_le : action.kind ≠ .drawCard → changes.length ≤ 1
  draws : ∀ n, action = .drawCard n → changes.length ≤ n.toInt.toNat ∧
    (∀ x ∈ changes, x.request = .drawCard f.side) ∧ ∀ x ∈ changes.dropLast, x.barren = false

theorem nonReads_of_forall {exchanges : List Exchange}
    (h : ∀ x ∈ exchanges, x.request.isRead = true) : nonReads exchanges = [] := by
  rw [nonReads, List.filter_eq_nil_iff]
  intro x hx
  simp [h x hx]

theorem nonReads_cons {x : Exchange} (hx : x.request.isRead = false) (xs : List Exchange) :
    nonReads (x :: xs) = x :: nonReads xs :=
  List.filter_cons_of_pos (by rw [hx]; rfl)

namespace Firing

variable {σ : Type} (h : Handler σ) (f : Firing) (memory : Memory) (action : Action) (s : σ)

/-! ## Choices -/

/-- A choice is asked for if there is somebody to choose, and its answer is the result. -/
theorem transcript_choose (ids : List UnitId) :
    (f.choose action ids).transcript h s = [] ∨
      ∃ x : Exchange, (f.choose action ids).transcript h s = [x] ∧
        x.request.offered? = some ids ∧ ids ≠ [] ∧
        x.declined = ((f.choose action ids).run h s).1.isNone := by
  unfold choose
  split
  · exact .inl rfl
  · rename_i hsome
    have hne : ids ≠ [] := by simpa using hsome
    refine .inr ?_
    split <;> exact ⟨_, rfl, rfl, hne, rfl⟩

/-- Apart from reads, picking an ally is choosing among those of the listed units that will do. -/
theorem nonReads_pickAlly_eq :
    nonReads ((f.pickAlly action).transcript h s) =
      let listed := h (.unitIds f.side none) s
      let units := (knownUnits listed.1).run h listed.2
      nonReads ((f.choose action (f.candidates action units.1)).transcript h units.2) := by
  let listed := h (.unitIds f.side none) s
  have hunits : nonReads ((knownUnits listed.1).transcript h listed.2) = [] :=
    nonReads_of_asks (asks_knownUnits (fun _ => rfl) listed.1) h _
  have hlist : nonReads ((request (.unitIds f.side none)).transcript h s) = [] := rfl
  rw [pickAlly, Script.transcript_bind, nonReads_append, hlist, Script.transcript_bind,
    nonReads_append]
  exact congrArg (· ++ _) hunits

theorem nonReads_pickAlly :
    nonReads ((f.pickAlly action).transcript h s) = [] ∨
      ∃ (x : Exchange) (ids : List UnitId), nonReads ((f.pickAlly action).transcript h s) = [x] ∧
        x.request.offered? = some ids ∧ ids ≠ [] ∧
        x.declined = ((f.pickAlly action).run h s).1.isNone := by
  let listed := h (.unitIds f.side none) s
  let units := (knownUnits listed.1).run h listed.2
  have hrun : (f.pickAlly action).run h s =
      (f.choose action (f.candidates action units.1)).run h units.2 := by
    rw [pickAlly, Script.run_bind, Script.run_bind]
    rfl
  rw [nonReads_pickAlly_eq, hrun]
  rcases f.transcript_choose h action units.2 (f.candidates action units.1) with
    hnone | ⟨x, hx, hoffered, hne, hdeclined⟩
  · exact .inl (congrArg nonReads hnone)
  · refine .inr ⟨x, _, ?_, hoffered, hne, hdeclined⟩
    refine (congrArg nonReads hx).trans ?_
    rw [nonReads_cons (Request.isRead_of_offered? hoffered)]
    rfl

theorem nonReads_remembered : nonReads ((f.remembered memory action).transcript h s) = [] :=
  nonReads_of_asks (f.asks_remembered memory action fun _ hq => hq) h s

/-- Apart from reads, an ally that is not remembered is one that is picked. -/
theorem nonReads_ally_of_given_up (hk : ((f.remembered memory action).run h s).1 = none) :
    nonReads ((f.ally memory action).transcript h s) =
      nonReads ((f.pickAlly action).transcript h ((f.remembered memory action).run h s).2) := by
  rw [ally, Script.transcript_bind, nonReads_append, nonReads_remembered, hk, List.nil_append]
  refine congrArg nonReads ((Script.transcript_bind ..).trans ?_)
  split <;> exact List.append_nil _

/-- **Looking for a target is at most one choice**, of an ally among somebody; a choice of nobody is
no target. -/
theorem nonReads_target :
    nonReads ((f.target memory action).transcript h s) = [] ∨
      ∃ (x : Exchange) (ids : List UnitId),
        nonReads ((f.target memory action).transcript h s) = [x] ∧
        action.target? = some .ally ∧ x.request.offered? = some ids ∧ ids ≠ [] ∧
        (x.declined = true → ((f.target memory action).run h s).1.1 = none) := by
  by_cases ha : action.target? = some .ally
  · rw [f.target_of_ally memory action ha]
    cases hk : ((f.remembered memory action).run h s).1 with
    | some id =>
      refine .inl ?_
      rw [ally, Script.transcript_bind, nonReads_append, nonReads_remembered, hk]
      rfl
    | none =>
      rw [f.nonReads_ally_of_given_up h memory action s hk, f.ally_of_given_up h memory action s hk]
      rcases f.nonReads_pickAlly h action ((f.remembered memory action).run h s).2 with
        hnone | ⟨x, ids, hx, hoffered, hne, hdeclined⟩
      · exact .inl hnone
      · refine .inr ⟨x, ids, hx, ha, hoffered, hne, fun hnobody => ?_⟩
        exact Option.isNone_iff_eq_none.1 (hdeclined ▸ hnobody)
  · refine .inl (nonReads_of_asks ?_ h s)
    unfold target
    split
    · trivial
    · trivial
    · exact (f.asks_opponent fun _ hq => hq).bind fun _ => trivial
    · trivial
    · rename_i hally
      exact absurd hally ha

theorem choices_of_target :
    (nonReads ((f.target memory action).transcript h s)).length ≤ 1 ∧
      ∀ x ∈ nonReads ((f.target memory action).transcript h s),
        action.target? = some .ally ∧ (∃ ids, x.request.offered? = some ids ∧ ids ≠ []) ∧
        (x.declined = true → ((f.target memory action).run h s).1.1 = none) := by
  rcases f.nonReads_target h memory action s with
    hnone | ⟨x, ids, hx, hally, hoffered, hne, hdeclined⟩
  · rw [hnone]
    exact ⟨Nat.zero_le 1, List.forall_mem_nil _⟩
  · rw [hx]
    refine ⟨Nat.le_refl 1, fun y hy => ?_⟩
    rw [List.mem_singleton.1 hy]
    exact ⟨hally, ⟨ids, hoffered, hne⟩, hdeclined⟩

/-! ## Effects -/

theorem nonReads_tell (x : Exchange) :
    ∃ line, nonReads ((f.tell x).transcript h s) = [⟨.log line, ()⟩] := by
  obtain ⟨names, line, htranscript, hnames⟩ := f.transcript_tell h x s
  refine ⟨line, ?_⟩
  rw [htranscript, nonReads_append, nonReads_of_forall hnames]
  rfl

/-- What follows a change is a line if the change is told, and nothing else. -/
theorem nonReads_conclude (x : Exchange) :
    ∃ lines, nonReads ((f.conclude x).transcript h s) = lines ∧ lines.length ≤ 1 ∧
      (∀ y ∈ lines, y.request.isLog = true) ∧ (lines ≠ [] ↔ x.told = true) := by
  cases hx : x.told with
  | false =>
    rw [f.transcript_conclude_of_untold h x s hx]
    exact ⟨[], rfl, Nat.zero_le 1, List.forall_mem_nil _, by simp⟩
  | true =>
    obtain ⟨line, htell⟩ := f.nonReads_tell h s x
    refine ⟨[⟨.log line, ()⟩], ?_, Nat.le_refl 1, ?_, by simp⟩
    · rw [f.conclude_of_told x hx, Script.transcript_bind, nonReads_append, htell]
      rfl
    · intro y hy
      rw [List.mem_singleton.1 hy]
      rfl

/-- **A change is settled by its answer.** -/
theorem settled_change {q : Request} (hq : q.isChange = true) :
    ∃ lines, nonReads ((Script.ask q fun r => f.conclude ⟨q, r⟩).transcript h s) =
        [⟨q, (h q s).1⟩] ++ lines ∧
      Settled (((Script.ask q fun r => f.conclude ⟨q, r⟩).run h s).1) [⟨q, (h q s).1⟩] lines := by
  obtain ⟨lines, htranscript, hle, hlog, htold⟩ :=
    f.nonReads_conclude h (h q s).2 ⟨q, (h q s).1⟩
  refine ⟨lines, ?_, ?_, hlog, hle, ?_, ?_⟩
  · rw [Script.transcript_ask, nonReads_cons (Request.isRead_of_isChange hq), htranscript]
    rfl
  · exact fun x hx => List.mem_singleton.1 hx ▸ hq
  · simpa using htold
  · rw [Script.run_ask, result_conclude]
    simp

/-- **Draws are settled by how many cards there were.** -/
theorem settled_draws (n : UInt32) :
    ∃ draws lines, nonReads ((f.drawCards n).transcript h s) = draws ++ lines ∧
      Settled ((f.drawCards n).run h s).1 draws lines ∧ draws.length ≤ n.toNat ∧
      (∀ x ∈ draws, x.request = .drawCard f.side) ∧ ∀ x ∈ draws.dropLast, x.barren = false := by
  obtain ⟨hrequest, hle, hlast, hcount⟩ := transcript_drawUpTo h f.side n.toNat s
  let draws := (drawUpTo f.side n.toNat).transcript h s
  let drawn := ((drawUpTo f.side n.toNat).run h s).1
  have hdraws : nonReads draws = draws :=
    List.filter_eq_self.2 fun x hx => by rw [hrequest x hx]; rfl
  -- the line is told if the count is positive, that is, if some draw found a card
  have hdrawn : (drawn != 0) = true ↔ ∃ x ∈ draws, x.barren = false := by
    rw [bne_iff_ne, show drawn = draws.countP _ from hcount, ← Nat.pos_iff_ne_zero,
      List.countP_pos_iff]
    simp
  have htold : (∃ x ∈ draws, x.told = true) ↔ ∃ x ∈ draws, x.barren = false := by
    refine exists_congr fun x => and_congr_right fun hx => ?_
    simp [Exchange.told, Request.isPenalty, hrequest x hx]
  have hchange (x : Exchange) (hx : x ∈ draws) : x.request.isChange = true := by
    rw [hrequest x hx]
    rfl
  have htranscript : nonReads ((f.drawCards n).transcript h s) = draws ++ nonReads
      ((reportIf (drawn != 0) (f.say ("drew " ++ counted drawn "card" "cards"))).transcript h
        ((drawUpTo f.side n.toNat).run h s).2) := by
    rw [drawCards, Script.transcript_bind, nonReads_append]
    exact congrArg (· ++ _) hdraws
  have hresult : ((f.drawCards n).run h s).1 = if drawn != 0 then .applied else .noEffect := by
    rw [drawCards, Script.run_bind, reportIf]
    split <;> rfl
  rw [htranscript, hresult]
  cases hany : drawn != 0 with
  | false =>
    rw [hany] at hdrawn
    refine ⟨draws, [], rfl, ⟨hchange, List.forall_mem_nil _, Nat.zero_le 1, ?_, ?_⟩, hle, hrequest,
      hlast⟩
    · simpa [htold] using hdrawn
    · simpa using hdrawn
  | true =>
    rw [hany] at hdrawn
    refine ⟨draws, [⟨.log _, ()⟩], rfl, ⟨hchange, ?_, Nat.le_refl 1, ?_, ?_⟩, hle, hrequest, hlast⟩
    · exact fun x hx => List.mem_singleton.1 hx ▸ rfl
    · simpa [htold] using hdrawn
    · simpa using hdrawn

/-! ## Plans -/

/-- **Which actions look for a unit.** -/
theorem exists_unit_plan_iff :
    (∃ effect, f.plan action = .unit effect) ↔ action.onUnit = true ∧ action.Meaningful := by
  cases action with
  | gainShield t n =>
    by_cases hn : 0 < n <;>
      simp [plan, Action.onUnit, Action.target?, Action.Meaningful, positive?, hn]
  | heal t n =>
    by_cases hn : 0 < n <;> cases t <;>
      simp [plan, Action.onUnit, Action.target?, Action.Meaningful, positive?, hn]
  | modifyAttack t n =>
    by_cases hn : n = 0 <;>
      simp [plan, Action.onUnit, Action.target?, Action.Meaningful, hn]
  | gainShares n | drawCard n =>
    by_cases hn : 0 < n <;> simp [plan, Action.onUnit, Action.target?, hn]
  | cleanse t statuses | applyStatus t status turns =>
    simp [plan, Action.onUnit, Action.target?, Action.Meaningful]

end Firing

/-! ## Actions -/

namespace Visit

variable {σ : Type} (h : Handler σ) (v : Visit σ)

/-- A single change, after a choice of somebody or without any. -/
theorem conduct_of_change {f : Firing} {action : Action} {result : Resolution}
    {choices lines : List Exchange} {x : Exchange} (hsettled : Settled result [x] lines)
    (hle : choices.length ≤ 1)
    (hchoice : ∀ y ∈ choices, action.target? = some .ally ∧
      (∃ ids, y.request.offered? = some ids ∧ ids ≠ []) ∧ y.declined = false)
    (hkind : ∀ n, action ≠ .drawCard n) : Conduct f action result choices [x] lines where
  toSettled := hsettled
  choices_le := hle
  choice y hy := ⟨(hchoice y hy).1, (hchoice y hy).2.1⟩
  declined := by
    rintro ⟨y, hy, hdeclined⟩
    cases (hchoice y hy).2.2.symm.trans hdeclined
  changes_le _ := Nat.le_refl 1
  draws n hn := absurd hn (hkind n)

/-- Nothing is changed: the action is skipped or finds nobody. -/
theorem conduct_of_nothing {f : Firing} {action : Action} {result : Resolution}
    {choices : List Exchange} (hresult : result ≠ .applied) (hle : choices.length ≤ 1)
    (hchoice : ∀ y ∈ choices, action.target? = some .ally ∧
      ∃ ids, y.request.offered? = some ids ∧ ids ≠ []) :
    Conduct f action result choices [] [] where
  change := List.forall_mem_nil _
  line := List.forall_mem_nil _
  lines_le := Nat.zero_le 1
  told := by simp
  applied := by simpa using hresult
  choices_le := hle
  choice := hchoice
  declined _ := rfl
  changes_le _ := Nat.zero_le 1
  draws _ _ := ⟨Nat.zero_le _, List.forall_mem_nil _, List.forall_mem_nil _⟩

theorem conduct_of_side {effect : Script Resolution} (hp : v.firing.plan v.action = .side effect) :
    ∃ changes lines, nonReads (v.transcript h) = changes ++ lines ∧
      Conduct v.firing v.action (v.result h) [] changes lines := by
  have htranscript : v.transcript h = effect.transcript h v.host := by
    rw [transcript, script, Firing.resolve_eq, hp, Script.transcript_bind]
    exact List.append_nil _
  have hresult : v.result h = (effect.run h v.host).1 := by
    rw [result, script, Firing.resolve_eq, hp, Script.run_bind]
    rfl
  rw [htranscript, hresult]
  rcases v.firing.side_plan_eq hp with ⟨n, ha, hn, rfl⟩ | ⟨q, hq, rfl⟩
  · obtain ⟨draws, lines, hsplit, hsettled, hle, hrequest, hlast⟩ :=
      v.firing.settled_draws h v.host n.toUInt32
    refine ⟨draws, lines, hsplit, { hsettled with
      choices_le := Nat.zero_le 1
      choice := List.forall_mem_nil _
      declined := by simp
      changes_le := fun hkind => absurd (by rw [ha]; rfl) hkind
      draws := ?_ }⟩
    intro n' hn'
    cases ha.symm.trans hn'
    refine ⟨?_, hrequest, hlast⟩
    rwa [Int32.toNat_toUInt32_of_le (Int32.le_of_lt hn), ← Int32.toNat_toInt] at hle
  · have hchange : q.isChange = true := by
      rw [Request.isChange, v.firing.side?_of_sideChange? hq]
      exact Bool.or_true _
    obtain ⟨lines, hsplit, hsettled⟩ := v.firing.settled_change h v.host hchange
    refine ⟨_, lines, hsplit, conduct_of_change hsettled (Nat.zero_le 1)
      (List.forall_mem_nil _) ?_⟩
    rintro n hn
    rw [hn] at hq
    cases hq

theorem conduct_of_unit {effect : UnitId → Script Resolution}
    (hp : v.firing.plan v.action = .unit effect) :
    ∃ choices changes lines, nonReads (v.transcript h) = choices ++ changes ++ lines ∧
      Conduct v.firing v.action (v.result h) choices changes lines := by
  obtain ⟨hle, hchoice⟩ := v.firing.choices_of_target h v.memory v.action v.host
  rw [v.transcript_of_unit h hp, v.result_of_unit h hp, nonReads_append]
  have hresolved := v.resolved_of_unit h hp
  cases hy : v.resolved h with
  | none =>
    refine ⟨_, [], [], by simp [nonReads], conduct_of_nothing (by simp) hle fun x hx => ?_⟩
    exact ⟨(hchoice x hx).1, (hchoice x hx).2.1⟩
  | some y =>
    obtain ⟨q, hq, heffect⟩ := v.firing.unit_plan_eq hp y
    have hchange : q.isChange = true := by
      rw [Request.isChange, Firing.subject?_of_change? hq]
      rfl
    obtain ⟨lines, hsplit, hsettled⟩ := v.firing.settled_change h
      ((v.firing.target v.memory v.action).run h v.host).2 hchange
    rw [Option.elim_some, Option.elim_some, heffect, hsplit]
    refine ⟨_, _, lines, (List.append_assoc ..).symm, conduct_of_change hsettled hle ?_ ?_⟩
    · intro x hx
      obtain ⟨hally, hoffered, hdeclined⟩ := hchoice x hx
      refine ⟨hally, hoffered, Bool.eq_false_iff.2 fun hnobody => ?_⟩
      cases (hresolved.symm.trans hy).symm.trans (hdeclined hnobody)
    · rintro n hn
      rw [hn] at hq
      cases hq

/-- **What an action asks keeps the pattern**, whatever its plan. -/
theorem exists_conduct :
    ∃ choices changes lines, nonReads (v.transcript h) = choices ++ changes ++ lines ∧
      Conduct v.firing v.action (v.result h) choices changes lines := by
  cases hp : v.firing.plan v.action with
  | idle =>
    have htranscript : nonReads (v.transcript h) = [] := by
      rw [transcript, script, Firing.resolve_eq, hp]
      rfl
    have hresult : v.result h = .noEffect := by
      rw [result, script, Firing.resolve_eq, hp]
      rfl
    rw [htranscript, hresult]
    exact ⟨[], [], [], rfl, conduct_of_nothing (by decide) (Nat.zero_le 1)
      (List.forall_mem_nil _)⟩
  | side effect =>
    obtain ⟨changes, lines, hsplit, hconduct⟩ := v.conduct_of_side h hp
    exact ⟨[], changes, lines, hsplit, hconduct⟩
  | unit effect => exact v.conduct_of_unit h hp

/-! ## Results -/

/-- **An action has no target exactly if it looks for one in vain.** -/
theorem result_eq_noTarget_iff :
    v.result h = .noTarget ↔ v.action.onUnit = true ∧ v.action.Meaningful ∧
      ((v.firing.target v.memory v.action).run h v.host).1.1 = none := by
  rw [← and_assoc, ← v.firing.exists_unit_plan_iff]
  constructor
  · intro hresult
    cases hp : v.firing.plan v.action with
    | idle =>
      rw [result, script, Firing.resolve_eq, hp] at hresult
      cases hresult
    | side effect =>
      rw [result, script, Firing.resolve_eq, hp, Script.run_bind] at hresult
      rcases Firing.yields_of_side (h := h) (s := v.host) hp with happlied | ⟨hidle, -⟩
      · cases happlied.symm.trans hresult
      · cases hidle.symm.trans hresult
    | unit effect =>
      refine ⟨⟨effect, rfl⟩, ?_⟩
      rw [v.result_of_unit h hp] at hresult
      rw [← v.resolved_of_unit h hp]
      cases hy : v.resolved h with
      | none => rfl
      | some y =>
        rw [hy] at hresult
        rcases Firing.yields_of_unit (h := h) hp y with happlied | ⟨hidle, -⟩
        · cases happlied.symm.trans hresult
        · cases hidle.symm.trans hresult
  · rintro ⟨⟨effect, hp⟩, hnone⟩
    rw [v.result_of_unit h hp, v.resolved_of_unit h hp, hnone]
    rfl

end Visit

/-- **The protocol of requests.**  For every host, whatever it answers:

* the exchanges of an action, reads apart, are at most one choice, then at most one change or a run
  of draws, then at most one line of the log, as `Conduct` lists it together with what makes the
  action applied;
* an action finds no target exactly if it applies to a unit, its amount passes its check and the
  search for its target comes back with nobody;
* the exchanges of an occasion, reads apart, are those of its actions, in order. -/
theorem call_protocol {σ : Type} (h : Handler σ) :
    (∀ v : Visit σ,
      (∃ choices changes lines, nonReads (v.transcript h) = choices ++ changes ++ lines ∧
        Conduct v.firing v.action (v.result h) choices changes lines) ∧
      (v.result h = .noTarget ↔ v.action.onUnit = true ∧ v.action.Meaningful ∧
        ((v.firing.target v.memory v.action).run h v.host).1.1 = none)) ∧
    (∀ (e : Engine) (a : Actor) (o : Occasion) (s : σ),
      nonReads ((o.script e a).transcript h s) =
        (o.visits h e a s).flatMap fun v => nonReads (v.transcript h)) :=
  ⟨fun v => ⟨v.exists_conduct h, v.result_eq_noTarget_iff h⟩,
    fun e a o s => o.nonReads_eq_visits h e a s⟩

end CardDuel
