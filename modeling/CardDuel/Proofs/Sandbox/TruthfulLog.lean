import CardDuel.Proofs.Engine.Visits
import CardDuel.Proofs.Firing.Change
import CardDuel.Proofs.Sandbox.Evolution
import CardDuel.Proofs.Sandbox.Selection

/-!
# The log tells the truth

What the players read is put together by the rules from the answers of the host; what happens is up
to the host.  `Tells` says what a line has to say about an action, by the match before and after it
alone: who acted on whom, and by how much the number in question really changed.  `truthful_log`
says that on the sandbox every action that is applied is told so in one line, an attack penalty
apart, and nothing else is told.

* `run_change`, `run_drawUpTo` — a change and what follows it, and drawing cards, on the sandbox.
* `unit?_of_target` — what a search finds is on the board.
* `tells_of_change`, `tells_of_sideChange`, `tells_of_draws` — the lines, by kind of effect.
* `SameRoster` — what all requests keep, so the name in a line is that of the acting unit.
-/

set_option autoImplicit false

namespace CardDuel

/-! ## Lines -/

namespace Firing

/-- How a line names a unit. -/
def called (f : Firing) (id : UnitId) (u : BoardUnit) : String :=
  if id = f.source then "itself" else u.name

/-- A line of the log. -/
def line (f : Firing) (words : String) : String := f.sourceName ++ " " ++ words ++ "."

end Firing

/-- A number with its sign. -/
def withSign (n : Int) : String := if 0 ≤ n then "+" ++ toString n else toString n

/-- A number and the noun that goes with it. -/
def plural (n : Nat) (one many : String) : String :=
  toString n ++ " " ++ if n = 1 then one else many

/-- What is told of a status that lands. -/
def Status.verb : Status → String
  | .stun => "stuns"
  | .exposed => "exposes"
  | .attackDown => ""

/-- The statuses that a cleanse asks for, and that a unit showed before it and not after it. -/
def goneStatuses (turn : UInt32) (statuses : Option (List Status)) (u u' : BoardUnit) :
    List Status :=
  Status.all.filter fun status =>
    (statuses.all fun listed => listed.isEmpty || listed.contains status) &&
      u.hasStatus status turn && !u'.hasStatus status turn

/-- What a line says about an action that took the match from `s` to `s'`, with the unit that the
action resolved to.  Shield and shares are told as they were granted, and their number stops at the
greatest word; a status is told with the turn up to which it was asked for, and lasts at least until
then.  All else is told by what really changed. -/
inductive Tells (f : Firing) (s s' : Sandbox) : Action → Option UnitId → String → Prop
  | shield {t : Target} {n : Int32} {id : UnitId} {u u' : BoardUnit} {granted : Nat}
      (hu : s.unit? id = some u) (hu' : s'.unit? id = some u') (hgranted : granted = n.toInt)
      (hshield : u'.shield.toNat = min (u.shield.toNat + granted) Word.maxNat) :
      Tells f s s' (.gainShield t n) (some id)
        ("grants " ++ f.called id u ++ " " ++ toString granted ++ " shield")
  | leader {n : Int32} {gained : Nat}
      (hgained : gained =
        (s'.holdings f.side).leader.toInt - (s.holdings f.side).leader.toInt) :
      Tells f s s' (.heal .leader n) none ("heals the leader for " ++ toString gained)
  | heal {t : Target} {n : Int32} {id : UnitId} {u u' : BoardUnit} {gained : Nat}
      (ht : t ≠ .leader) (hu : s.unit? id = some u) (hu' : s'.unit? id = some u')
      (hgained : gained = u'.health.toInt - u.health.toInt) :
      Tells f s s' (.heal t n) (some id)
        ("heals " ++ f.called id u ++ " for " ++ toString gained)
  | shares {n : Int32} {earned : Nat} (hearned : earned = n.toInt)
      (hshares : (s'.holdings f.side).shares.toNat =
        min ((s.holdings f.side).shares.toNat + earned) Word.maxNat) :
      Tells f s s' (.gainShares n) none ("earns " ++ toString earned ++ " shares")
  | attack {t : Target} {n : Int32} {id : UnitId} {u u' : BoardUnit} {gained : Int}
      (hu : s.unit? id = some u) (hu' : s'.unit? id = some u')
      (hgained : gained = u'.attack.toInt - u.attack.toInt) :
      Tells f s s' (.modifyAttack t n) (some id)
        ("gives " ++ f.called id u ++ " " ++ withSign gained ++ " attack")
  | cleanse {t : Target} {statuses : Option (List Status)} {id : UnitId} {u u' : BoardUnit}
      (hu : s.unit? id = some u) (hu' : s'.unit? id = some u') :
      Tells f s s' (.cleanse t statuses) (some id)
        ("cleanses " ++
          plural (goneStatuses s.turn statuses u u').length "status" "statuses" ++
          " from " ++ f.called id u)
  | status {t : Target} {status : Status} {turns : Int32} {id : UnitId} {u u' : BoardUnit}
      {expiry : Nat} (hstatus : status ≠ .attackDown) (hu : s.unit? id = some u)
      (hu' : s'.unit? id = some u')
      (hexpiry : expiry = min (f.turn.toNat + turns.toInt.toNat) Word.maxNat)
      (hlasts : (u'.expiry status).any (expiry ≤ ·.toNat) = true) :
      Tells f s s' (.applyStatus t status turns) (some id)
        (status.verb ++ " " ++ f.called id u ++ " until turn " ++ toString expiry)
  | draw {n : Int32} {drawn : List String}
      (hdeck : (s.holdings f.side).deck = drawn ++ (s'.holdings f.side).deck)
      (hhand : (s'.holdings f.side).hand = (s.holdings f.side).hand ++ drawn) :
      Tells f s s' (.drawCard n) none ("drew " ++ plural drawn.length "card" "cards")

namespace Sandbox

/-! ## Changes and draws -/

variable (f : Firing) (s : Sandbox)

theorem run_tell_of_subject {x : Exchange} {id : UnitId} {u : BoardUnit}
    (hx : x.request.subject? = some id) (hu : s.unit? id = some u) :
    (f.tell x).run answer s = ((), s.addLine (f.line (x.words (f.called id u)))) := by
  have hname : (f.nameOf id).run answer s = (f.called id u, s) := by
    unfold Firing.nameOf Firing.called
    split
    · rfl
    · show (((s.unit? id).map (·.name)).getD id.label, s) = _
      rw [hu]
      rfl
  rw [Firing.tell, hx]
  simp only [Script.run_bind, hname]
  rfl

theorem run_tell_of_side {x : Exchange} (hx : x.request.subject? = none) :
    (f.tell x).run answer s = ((), s.addLine (f.line (x.words ""))) := by
  rw [Firing.tell, hx]
  rfl

/-- **A change and what follows it**: the change, and a line if it is told. -/
theorem run_change {q : Request} {words : String}
    (htell : (f.tell ⟨q, (answer q s).1⟩).run answer (answer q s).2 =
      ((), (answer q s).2.addLine (f.line words))) :
    (Script.ask q fun r => f.conclude ⟨q, r⟩).run answer s =
      (if Exchange.barren ⟨q, (answer q s).1⟩ then .noEffect else .applied,
        if Exchange.told ⟨q, (answer q s).1⟩ then (answer q s).2.addLine (f.line words)
        else (answer q s).2) := by
  rw [Script.run_ask, Firing.conclude, Exchange.told]
  cases hbarren : Exchange.barren ⟨q, (answer q s).1⟩ with
  | true => rfl
  | false =>
    cases hpenalty : q.isPenalty with
    | true => rfl
    | false =>
      simp only [Bool.false_eq_true, if_false, Script.run_bind, htell]
      rfl

theorem setHoldings_setHoldings (side : Side) (holdings holdings' : Holdings) :
    (s.setHoldings side holdings).setHoldings side holdings' = s.setHoldings side holdings' := by
  cases side <;> rfl

/-- **Drawing moves cards from the top of the deck to the hand**, as many as there are. -/
theorem run_drawUpTo (side : Side) (n : Nat) :
    (Firing.drawUpTo side n).run answer s =
      (min n (s.holdings side).deck.length,
        s.setHoldings side { s.holdings side with
          deck := (s.holdings side).deck.drop n
          hand := (s.holdings side).hand ++ (s.holdings side).deck.take n }) := by
  induction n generalizing s with
  | zero =>
    rw [List.take_zero, List.append_nil, List.drop_zero, setHoldings_holdings, Nat.zero_min]
    rfl
  | succ n ih =>
    rw [Firing.drawUpTo_succ, Script.run_ask]
    cases hdeck : (s.holdings side).deck with
    | nil =>
      have hnone : answer (.drawCard side) s = (none, s) := by
        rw [answer, drawCard]
        simp only [hdeck]
      rw [hnone, List.drop_nil, List.take_nil, List.append_nil, ← hdeck, setHoldings_holdings,
        hdeck]
      rfl
    | cons card deck =>
      have hdrawn : answer (.drawCard side) s = (some card, s.setHoldings side
          { s.holdings side with deck, hand := (s.holdings side).hand ++ [card] }) := by
        rw [answer, drawCard]
        simp only [hdeck]
      rw [hdrawn, Firing.drawOn, Script.run_bind, ih, holdings_setHoldings, if_pos rfl,
        setHoldings_setHoldings]
      simp [List.append_assoc, Nat.succ_min_succ]

/-- Drawing cards and telling of it, if there were any. -/
theorem run_drawCards {n : UInt32} {k : Nat} {s' : Sandbox}
    (hdrawn : (Firing.drawUpTo f.side n.toNat).run answer s = (k, s')) :
    (f.drawCards n).run answer s =
      if k != 0 then
        (.applied, s'.addLine (f.line ("drew " ++ Firing.counted k "card" "cards")))
      else (.noEffect, s') := by
  rw [Firing.drawCards, Script.run_bind, hdrawn, Firing.reportIf]
  cases k != 0 <;> rfl

theorem log_setHoldings (side : Side) (holdings : Holdings) :
    (s.setHoldings side holdings).log = s.log := by
  cases side <;> rfl

/-! ## Searches -/

variable {f s}

/-- **What a search finds is on the board.** -/
theorem unit?_of_target (hs : s.Keyed) (hsource : (s.unit? f.source).isSome = true)
    {memory : Memory} {action : Action} {id : UnitId}
    (hid : ((f.target memory action).run answer s).1.1 = some id) :
    ∃ u, s.unit? id = some u := by
  unfold Firing.target at hid
  split at hid
  · cases hid
  · cases hid
    exact Option.isSome_iff_exists.1 hsource
  · rw [Script.run_bind, run_opponent] at hid
    exact Option.isSome_iff_exists.1 (Option.filter_eq_some_iff.1 hid).2
  · cases hid
  · rcases s.run_ally_eq f memory action with ⟨id', u, -, hu, -, hrun⟩ | hrun
    · rw [hrun] at hid
      cases hid
      exact ⟨u, hu⟩
    · rw [hrun] at hid
      rcases run_pickAlly_cases hs f action with ⟨-, hnone⟩ | ⟨id', hid', hpicked, -⟩
      · rw [hnone] at hid
        cases hid
      · cases hpicked.symm.trans hid
        obtain ⟨u, hu, -⟩ := (mem_allies_iff hs).1 hid'
        exact ⟨u, hu⟩

theorem exists_dice_of_target (s : Sandbox) (f : Firing) (memory : Memory) (action : Action) :
    ∃ dice : Dice, ((f.target memory action).run answer s).2 = { s with dice } := by
  rcases s.run_target_cases f memory action with hstay | ⟨-, hdrawn⟩
  · exact ⟨s.dice, hstay⟩
  · exact ⟨s.dice.drawn, hdrawn⟩

end Sandbox

/-! ## Numbers -/

namespace Firing

theorem toNat_expiry (f : Firing) (turns : Int32) :
    (f.expiry turns).toNat = min (f.turn.toNat + turns.toInt.toNat) Word.maxNat := by
  rw [expiry, Word.toNat_add, positive?]
  split
  · rename_i hturns
    rw [← Word.toInt_toUInt32 (Int32.le_of_lt hturns)]
    rfl
  · rename_i hturns
    rw [Word.pos_iff] at hturns
    have hzero : turns.toInt.toNat = 0 := Int.toNat_of_nonpos (Int.not_lt.1 hturns)
    rw [hzero]
    rfl

theorem signed_eq (n : Int32) : signed n = withSign n.toInt := by
  simp only [signed, withSign, Word.nonneg_iff]

end Firing

namespace BoardUnit

/-- What a cleanse removes is what it asks for and the unit showed, and shows no more. -/
theorem length_goneStatuses (u : BoardUnit) (turn : UInt32) (statuses : Option (List Status)) :
    (goneStatuses turn statuses u (u.cleanse turn (Action.cleansed statuses)).1).length =
      (u.cleanse turn (Action.cleansed statuses)).2.length := by
  have hasked (status : Status) : status ∈ Action.cleansed statuses ↔
      (statuses.all fun listed => listed.isEmpty || listed.contains status) = true := by
    rcases statuses with _ | _ | ⟨first, rest⟩
    · exact ⟨fun _ => rfl, fun _ => status.mem_all⟩
    · exact ⟨fun _ => rfl, fun _ => status.mem_all⟩
    · simp [Action.cleansed, Action.statusFilter]
  refine ((List.perm_ext_iff_of_nodup ?_ (u.nodup_removed turn _)).2 fun status => ?_).length_eq
  · exact List.Nodup.filter _ (by decide)
  · have hshown := u.hasStatus_cleanse turn (Action.cleansed statuses) status
    simp only [goneStatuses, List.mem_filter, Status.mem_all, true_and, Bool.and_eq_true,
      Bool.not_eq_true', ← Bool.not_eq_true, ← hasked, hshown, u.mem_removed_iff]
    exact ⟨fun h => h.1, fun h => ⟨h, fun hshows => hshows.2 h.1⟩⟩

/-- A status that is recorded lasts at least until its expiry turn. -/
theorem le_later (old : Option UInt32) (expiry : UInt32) :
    (later old expiry).any (expiry.toNat ≤ ·.toNat) = true := by
  cases old with
  | none => simp [later]
  | some turn => simp [later, UInt32.toNat_max]

end BoardUnit

/-! ## What is told -/

namespace Sandbox

variable {f : Firing} {s : Sandbox} (hs : s.InRange)

include hs

omit hs in
/-- A status that is told has been recorded up to the turn in question. -/
theorem tells_of_afflict {t : Target} {status : Status} {turns : Int32} {id : UnitId}
    {u : BoardUnit} (hu : s.unit? id = some u) {dice : Dice} {source : String}
    {change : BoardUnit → BoardUnit} {s' : Sandbox} (hstatus : status ≠ .attackDown)
    (hchange : ((change u).expiry status) = BoardUnit.later (u.expiry status) (f.expiry turns))
    (hanswer : ({ s with dice } : Sandbox).afflict id status source change = (true, s'))
    (line : String) :
    Tells f s (s'.addLine line) (.applyStatus t status turns) (some id)
      (status.verb ++ " " ++ f.called id u ++ " until turn " ++
        toString (f.expiry turns).toNat) := by
  obtain ⟨dice', -, hresisted | ⟨v, hv, hlanded⟩⟩ :=
    ({ s with dice } : Sandbox).afflict_cases id status source change
  · cases hresisted.symm.trans hanswer
  · cases hu.symm.trans hv
    obtain ⟨-, rfl⟩ := Prod.mk.inj (hlanded.symm.trans hanswer)
    have hu' : (({ s with dice := dice' } : Sandbox).put id (change u)).unit? id =
        some (change u) := unit?_put_self _ id _
    refine .status hstatus hu hu' (f.toNat_expiry turns) ?_
    rw [hchange]
    exact BoardUnit.le_later _ _

/-- **What is told of a change of a unit is true.** -/
theorem tells_of_change {action : Action} {effect : UnitId → Script Resolution}
    (hp : f.plan action = .unit effect) {id : UnitId} {u : BoardUnit} {q : Request}
    (hq : f.change? id action = some q) (hu : s.unit? id = some u) {dice : Dice} {r : q.Answer}
    {s' : Sandbox} (hanswer : answer q { s with dice } = (r, s'))
    (htold : Exchange.told ⟨q, r⟩ = true) (line : String) :
    Tells f s (s'.addLine line) action (some id) (Exchange.words (f.called id u) ⟨q, r⟩) := by
  have hput (t : Sandbox) (v : BoardUnit) : ((t.put id v).addLine line).unit? id = some v :=
    unit?_put_self t id v
  have hdice : ({ s with dice } : Sandbox).unit? id = some u := hu
  cases action with
  | gainShield t n =>
    cases hq
    simp only [Firing.plan] at hp
    split at hp
    · rename_i hn
      rw [answer, addShield_of_unit? hdice] at hanswer
      cases hanswer
      exact .shield hu (hput _ _) (Word.toInt_toUInt32 (Int32.le_of_lt hn))
        (Word.toNat_add _ _)
    · cases hp
  | heal t n =>
    have ht : t ≠ .leader := fun ht => Firing.plan_leader hp rfl (ht ▸ rfl)
    cases hq
    rw [answer, healUnit_of_unit? hdice] at hanswer
    cases hanswer
    refine .heal ht hu (hput _ _) ?_
    rw [BoardUnit.toInt_healed (hs.health id u hu)]
    omega
  | modifyAttack t n =>
    cases hq
    rw [answer, modifyAttack_of_unit? hdice] at hanswer
    obtain ⟨rfl, rfl⟩ := Prod.mk.inj hanswer
    have htells := Tells.attack (f := f) (t := t) (n := n) hu
      (hput { s with dice } { u with attack := u.raised n })
      (BoardUnit.toInt_raised_sub (hs.attack id u hu) n)
    rw [← Firing.signed_eq] at htells
    exact htells
  | cleanse t statuses =>
    cases hq
    rw [answer, cleanse_of_unit? hdice] at hanswer
    obtain ⟨rfl, rfl⟩ := Prod.mk.inj hanswer
    have hwords : Exchange.words (f.called id u) ⟨.cleanse id (Action.cleansed statuses),
        .ofNat (u.cleanse s.turn (Action.cleansed statuses)).2.length⟩ =
        "cleanses " ++ plural (goneStatuses s.turn statuses u
          (u.cleanse s.turn (Action.cleansed statuses)).1).length "status" "statuses" ++
          " from " ++ f.called id u := by
      rw [(u.length_goneStatuses s.turn statuses).trans (u.toNat_removed s.turn _).symm]
      rfl
    exact hwords ▸ .cleanse hu (hput { s with dice } (u.cleanse s.turn _).1)
  | applyStatus t status turns =>
    have hlanded {landed : Bool} (htold : (!(!landed) && true) = true) : landed = true := by
      simpa using htold
    cases status with
    | stun =>
      cases hq
      obtain rfl : r = true := hlanded htold
      exact tells_of_afflict hu (by decide) rfl hanswer line
    | exposed =>
      cases hq
      obtain rfl : r = true := hlanded htold
      exact tells_of_afflict hu (by decide) rfl hanswer line
    | attackDown =>
      cases hq
      cases htold
  | gainShares n => cases hq
  | drawCard n => cases hq

/-- **What is told of a change of a side is true.** -/
theorem tells_of_sideChange {action : Action} {effect : Script Resolution}
    (hp : f.plan action = .side effect) {q : Request} (hq : f.sideChange? action = some q)
    {r : q.Answer} {s' : Sandbox} (hanswer : answer q s = (r, s')) (line : String) :
    Tells f s (s'.addLine line) action none (Exchange.words "" ⟨q, r⟩) := by
  have hset (holdings : Holdings) :
      ((s.setHoldings f.side holdings).addLine line).holdings f.side = holdings :=
    (holdings_setHoldings s f.side f.side holdings).trans (if_pos rfl)
  cases action with
  | heal t n =>
    cases t <;> cases hq
    cases hanswer
    refine .leader ?_
    rw [hset, ← Holdings.healed, Holdings.toInt_healed (hs.leader f.side)]
    omega
  | gainShares n =>
    cases hq
    cases hanswer
    simp only [Firing.plan] at hp
    split at hp
    · rename_i hn
      refine .shares (Word.toInt_toUInt32 (Int32.le_of_lt hn)) ?_
      rw [gainShares, hset]
      exact Word.toNat_add _ _
    · cases hp
  | gainShield | modifyAttack | cleanse | applyStatus | drawCard => cases hq

omit hs in
/-- **What is told of draws is true.** -/
theorem tells_of_draws (f : Firing) (s : Sandbox) (n : Int32) (k : Nat) (line : String) :
    Tells f s (((Firing.drawUpTo f.side k).run answer s).2.addLine line) (.drawCard n) none
      ("drew " ++
        Firing.counted ((Firing.drawUpTo f.side k).run answer s).1 "card" "cards") := by
  have hset (holdings : Holdings) :
      ((s.setHoldings f.side holdings).addLine line).holdings f.side = holdings :=
    (holdings_setHoldings s f.side f.side holdings).trans (if_pos rfl)
  rw [run_drawUpTo, ← List.length_take]
  refine .draw ?_ ?_
  · rw [hset]
    exact (List.take_append_drop k _).symm
  · rw [hset]

end Sandbox

/-! ## Actions -/

/-- The action lowers an attack for a time. -/
def Action.isPenalty : Action → Bool
  | .applyStatus _ .attackDown _ => true
  | _ => false

/-- The log tells the truth about an action: one line that says what happened if it was applied, an
attack penalty apart, and no line otherwise. -/
structure Visit.TellsTruth (v : Visit Sandbox) : Prop where
  told : v.result Sandbox.answer = .applied → v.action.isPenalty = false →
    ∃ words, Tells v.firing v.host (v.hostAfter Sandbox.answer) v.action
        (v.resolved Sandbox.answer) words ∧
      (v.hostAfter Sandbox.answer).log = v.host.log ++ [v.firing.line words]
  untold : v.result Sandbox.answer ≠ .applied ∨ v.action.isPenalty = true →
    (v.hostAfter Sandbox.answer).log = v.host.log

theorem Firing.isPenalty_of_change? {f : Firing} {id : UnitId} {action : Action} {q : Request}
    (hq : f.change? id action = some q) : q.isPenalty = action.isPenalty := by
  unfold change? at hq
  split at hq <;> cases hq <;> rfl

theorem Firing.isPenalty_of_sideChange? {f : Firing} {action : Action} {q : Request}
    (hq : f.sideChange? action = some q) :
    q.isPenalty = false ∧ action.isPenalty = false := by
  unfold sideChange? at hq
  split at hq <;> cases hq <;> exact ⟨rfl, rfl⟩

namespace Sandbox

/-- A change of a unit or a side is no line itself. -/
theorem log_of_change {q : Request} (hq : q.subject?.isSome = true ∨ q.side?.isSome = true)
    (s : Sandbox) : (answer q s).2.log = s.log := by
  have hnone : q.lines = [] := by
    cases q <;> first | rfl | (rcases hq with hq | hq <;> cases hq)
  rw [log_answer, hnone, List.append_nil]

end Sandbox

namespace Visit

open Sandbox (answer)

variable (v : Visit Sandbox)

/-- One change with what follows it tells the truth, if its line does. -/
theorem tellsTruth_of_change {q : Request} {s : Sandbox} {words : String}
    (hq : q.subject?.isSome = true ∨ q.side?.isSome = true) (hlog : s.log = v.host.log)
    (hpenalty : q.isPenalty = v.action.isPenalty)
    (htell : (v.firing.tell ⟨q, (answer q s).1⟩).run answer (answer q s).2 =
      ((), (answer q s).2.addLine (v.firing.line words)))
    (hresult : v.result answer =
      ((Script.ask q fun r => v.firing.conclude ⟨q, r⟩).run answer s).1)
    (hafter : v.hostAfter answer =
      ((Script.ask q fun r => v.firing.conclude ⟨q, r⟩).run answer s).2)
    (htells : Exchange.told ⟨q, (answer q s).1⟩ = true →
      Tells v.firing v.host ((answer q s).2.addLine (v.firing.line words)) v.action
        (v.resolved answer) words) : v.TellsTruth := by
  have hstay : (answer q s).2.log = v.host.log := (Sandbox.log_of_change hq s).trans hlog
  rw [Sandbox.run_change v.firing s htell] at hresult hafter
  cases htold : Exchange.told ⟨q, (answer q s).1⟩ with
  | true =>
    rw [htold, if_pos rfl] at hafter
    constructor
    · intro _ _
      refine ⟨words, hafter ▸ htells htold, ?_⟩
      rw [hafter]
      exact congrArg (· ++ _) hstay
    · rw [Exchange.told, Bool.and_eq_true, Bool.not_eq_true', Bool.not_eq_true', hpenalty] at htold
      rw [htold.1] at hresult
      rintro (hidle | hpenalty)
      · exact absurd hresult hidle
      · cases htold.2.symm.trans hpenalty
  | false =>
    rw [htold, if_neg Bool.false_ne_true] at hafter
    constructor
    · intro happlied hnone
      rw [Exchange.told, hpenalty, hnone, Bool.not_false, Bool.and_true,
        Bool.not_eq_false'] at htold
      rw [htold] at hresult
      cases hresult.symm.trans happlied
    · intro _
      rw [hafter]
      exact hstay

variable {v} (hrange : v.host.InRange)

include hrange

theorem tellsTruth_of_side {effect : Script Resolution}
    (hp : v.firing.plan v.action = .side effect) : v.TellsTruth := by
  have hresolved : v.resolved answer = none := by simp only [resolved, hp]
  have hrun : v.script.run answer v.host =
      (((effect.run answer v.host).1, v.memory), (effect.run answer v.host).2) := by
    rw [script, Firing.resolve_eq, hp, Script.run_bind]
    rfl
  have hresult : v.result answer = (effect.run answer v.host).1 := by rw [result, hrun]
  have hafter : v.hostAfter answer = (effect.run answer v.host).2 := by rw [hostAfter, hrun]
  rcases v.firing.side_plan_eq hp with ⟨n, ha, -, rfl⟩ | ⟨q, hq, rfl⟩
  · obtain ⟨k, s', hdrawn⟩ :
        ∃ k s', (Firing.drawUpTo v.firing.side n.toUInt32.toNat).run answer v.host = (k, s') :=
      ⟨_, _, rfl⟩
    have hlog : s'.log = v.host.log := by
      rw [← (Prod.mk.inj ((Sandbox.run_drawUpTo _ _ _).symm.trans hdrawn)).2]
      exact Sandbox.log_setHoldings ..
    rw [Sandbox.run_drawCards _ _ hdrawn] at hresult hafter
    cases hany : k != 0 with
    | true =>
      rw [hany, if_pos rfl] at hresult hafter
      constructor
      · intro _ _
        have htells := Sandbox.tells_of_draws v.firing v.host n n.toUInt32.toNat
          (v.firing.line ("drew " ++ Firing.counted k "card" "cards"))
        rw [hdrawn] at htells
        rw [hresolved, ha, hafter]
        exact ⟨_, htells, congrArg (· ++ _) hlog⟩
      · rw [ha]
        rintro (hidle | hpenalty)
        · exact absurd hresult hidle
        · cases hpenalty
    | false =>
      rw [hany, if_neg Bool.false_ne_true] at hresult hafter
      constructor
      · intro happlied
        cases hresult.symm.trans happlied
      · intro _
        rw [hafter]
        exact hlog
  · have hside : q.side? = some v.firing.side := v.firing.side?_of_sideChange? hq
    obtain ⟨hpenalty, hnone⟩ := Firing.isPenalty_of_sideChange? hq
    refine tellsTruth_of_change v (.inr (by rw [hside]; rfl)) rfl (hpenalty.trans hnone.symm)
      (Sandbox.run_tell_of_side _ _ (Request.subject?_of_side? hside)) hresult hafter fun _ => ?_
    rw [hresolved]
    exact Sandbox.tells_of_sideChange hrange hp hq rfl _

theorem tellsTruth_of_unit (hkeyed : v.host.Keyed)
    (hsource : (v.host.unit? v.firing.source).isSome = true) {effect : UnitId → Script Resolution}
    (hp : v.firing.plan v.action = .unit effect) : v.TellsTruth := by
  have hresult := v.result_of_unit answer hp
  have hafter := v.hostAfter_of_unit answer hp
  have hresolved := v.resolved_of_unit answer hp
  obtain ⟨dice, hdice⟩ := Sandbox.exists_dice_of_target v.host v.firing v.memory v.action
  rw [hdice] at hresult hafter
  cases hid : v.resolved answer with
  | none =>
    rw [hid] at hresult hafter
    constructor
    · intro happlied
      cases hresult.symm.trans happlied
    · intro _
      rw [hafter]
      rfl
  | some id =>
    rw [hid] at hresult hafter hresolved
    obtain ⟨u, hu⟩ := Sandbox.unit?_of_target hkeyed hsource hresolved.symm
    obtain ⟨q, hq, heffect⟩ := v.firing.unit_plan_eq hp id
    have hsubject := Firing.subject?_of_change? hq
    rw [Option.elim_some, heffect] at hresult hafter
    -- the name in the line is asked for after the change, which keeps it
    have hidentity := Sandbox.identity_answer q { v.host with dice } id
    have hsame : ({ v.host with dice } : Sandbox).unit? id = some u := hu
    rw [hsame, Option.map_some] at hidentity
    obtain ⟨u', hu', hidentity⟩ := Option.map_eq_some_iff.1 hidentity
    have hcalled : v.firing.called id u' = v.firing.called id u := by
      rw [Firing.called, Firing.called, show u'.name = u.name from congrArg Identity.name hidentity]
    refine tellsTruth_of_change v (s := { v.host with dice }) (.inl (by rw [hsubject]; rfl)) rfl
      (Firing.isPenalty_of_change? hq) (Sandbox.run_tell_of_subject _ _ hsubject hu') hresult hafter
      fun htold => ?_
    rw [hid, hcalled]
    exact Sandbox.tells_of_change hrange hp hq hu rfl htold _

theorem tellsTruth (hkeyed : v.host.Keyed)
    (hsource : (v.host.unit? v.firing.source).isSome = true) : v.TellsTruth := by
  cases hp : v.firing.plan v.action with
  | idle =>
    have hrun : v.script.run answer v.host = ((.noEffect, v.memory), v.host) := by
      rw [script, Firing.resolve_eq, hp]
      rfl
    constructor
    · intro happlied
      rw [result, hrun] at happlied
      cases happlied
    · intro _
      rw [hostAfter, hrun]
  | side effect => exact tellsTruth_of_side hrange hp
  | unit effect => exact tellsTruth_of_unit hrange hkeyed hsource hp

end Visit

namespace Sandbox

/-- In `s'` the units are those of `s`, stored under their own ids, and the differences are signed
words. -/
structure SameRoster (s s' : Sandbox) : Prop where
  keyed : s'.Keyed
  inRange : s'.InRange
  identity : ∀ id, (s'.unit? id).map BoardUnit.identity = (s.unit? id).map BoardUnit.identity

theorem SameRoster.refl {s : Sandbox} (hkeyed : s.Keyed) (hrange : s.InRange) : s.SameRoster s :=
  ⟨hkeyed, hrange, fun _ => rfl⟩

theorem SameRoster.answer {s s' : Sandbox} (h : s.SameRoster s') (q : Request) :
    s.SameRoster (answer q s').2 where
  keyed := keyed_answer h.keyed q
  inRange := inRange_answer h.inRange q
  identity id := (identity_answer q s' id).trans (h.identity id)

/-- **The name in the lines of a trigger is that of the acting unit**, and the sandbox at each of
its actions is as it should be. -/
theorem name_of_mem_visits {s : Sandbox} (hkeyed : s.Keyed) (hrange : s.InRange) {e : Engine}
    {a : Actor} {o : Occasion} {v : Visit Sandbox} (hv : v ∈ o.visits answer e a s) :
    v.host.Keyed ∧ v.host.InRange ∧
      (v.host.unit? v.firing.source).map (·.name) = some v.firing.sourceName := by
  obtain ⟨w, hw, hv⟩ := List.mem_flatMap.1 hv
  -- the trigger takes the name from its arrival, and from there to the action nobody changes it
  have hstep (q : Request) (t : Sandbox) : s.SameRoster t → s.SameRoster (answer q t).2 :=
    fun h => h.answer q
  have harrival : s.SameRoster w.host :=
    Occasion.host_of_mem_arrivals hstep (.refl hkeyed hrange) hw
  obtain ⟨hvisit, source, hsource, hfiring⟩ := Arrival.host_of_mem_visits hstep harrival hv
  refine ⟨hvisit.keyed, hvisit.inRange, ?_⟩
  have hidentity := (hvisit.identity a.unit).trans (harrival.identity a.unit).symm
  have hname := congrArg (Option.map Identity.name) hidentity
  rw [show w.host.unit? a.unit = some source from hsource, Option.map_map] at hname
  rw [hfiring]
  exact hname

/-- **The log tells the truth.**  On a sandbox whose units are stored under their own ids, and whose
differences are signed words:

* whatever the action, the memory and the firing, as long as the acting unit is on the board, an
  action that is applied and is no attack penalty appends one line, which is true, and any other
  action appends none;
* this holds of every action that the engine carries out on an occasion, and the name in its line is
  the name of the acting unit. -/
theorem truthful_log {s : Sandbox} (hkeyed : s.Keyed) (hrange : s.InRange) :
    (∀ (f : Firing) (memory : Memory) (action : Action), (s.unit? f.source).isSome = true →
      (⟨f, memory, action, s⟩ : Visit Sandbox).TellsTruth) ∧
    ∀ (e : Engine) (a : Actor) (o : Occasion), ∀ v ∈ o.visits answer e a s,
      v.TellsTruth ∧ (v.host.unit? v.firing.source).map (·.name) = some v.firing.sourceName := by
  refine ⟨fun f memory action hsource => ?_, fun e a o v hv => ?_⟩
  · exact Visit.tellsTruth (v := ⟨f, memory, action, s⟩) hrange hkeyed hsource
  · obtain ⟨hkeyed', hrange', hname⟩ := name_of_mem_visits hkeyed hrange hv
    refine ⟨Visit.tellsTruth hrange' hkeyed' ?_, hname⟩
    obtain ⟨u, hu, -⟩ := Option.map_eq_some_iff.1 hname
    rw [hu]
    rfl

/-- In the sickbay the medic heals the guard, and the log says by how much. -/
theorem truthful_log_sickbay :
    sickbay.Keyed ∧ sickbay.InRange ∧ (sickbay.unit? wardRound.source).isSome = true ∧
      (∃ words, Tells wardRound sickbay healedBay.2 (.heal .ally 2) (some ⟨2⟩) words ∧
        healedBay.2.log = [wardRound.line words]) ∧
      healedBay.2.log = ["Medic heals Guard for 2."] := by
  have hkeyed : sickbay.Keyed := keyed_place (keyed_place (keyed_start {}) _) _
  have hrange : sickbay.InRange := by
    refine inRange_place (inRange_place (inRange_start {}) ⟨?_, ?_⟩ ?_) ⟨?_, ?_⟩ ?_ <;> decide
  have hsource : (sickbay.unit? wardRound.source).isSome = true := by decide +kernel
  have htold := ((truthful_log hkeyed hrange).1 wardRound {} (.heal .ally 2) hsource).told
    (by decide +kernel) rfl
  have hresolved : (⟨wardRound, {}, .heal .ally 2, sickbay⟩ : Visit Sandbox).resolved answer =
      some ⟨2⟩ := by decide +kernel
  rw [hresolved] at htold
  exact ⟨hkeyed, hrange, hsource, htold, by decide +kernel⟩

end Sandbox

end CardDuel
