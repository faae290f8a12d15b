import CardDuel.Proofs.Sandbox.Standing
import CardDuel.Proofs.Sandbox.TruthfulLog

/-!
# The turns of a status

A stun with an expiry turn covers the turns before it, and an exposure the turns up to it.  A unit
shows either at exactly the turns that are covered by an application that still counts, so a short
application never cuts a long one short.  `status_timeline` says so of one request, of an action and
of any plays.

* `hasStatus_iff_covers` — a status shows as its expiry says.
* `Extends` — a unit shows a status at the turns of one more application, and nothing else changes;
  `applies_afflict` says that this is what comes of an application that lands.
* `Visit.inflicts_cases` — an action that applies such a status does that, or changes no unit.
* `Firing.shows_of_extended` — the turns of the action.
* `hasStatus_iff_remains` — the turns of a status after any plays.
-/

set_option autoImplicit false

namespace CardDuel

/-- An application of a status with an expiry turn covers a turn. -/
def Status.Covers : Status → UInt32 → UInt32 → Prop
  | .stun, expiry, turn => turn < expiry
  | .exposed, expiry, turn | .attackDown, expiry, turn => turn ≤ expiry

/-- The last turn that a status covers, by the number of its expiry turn. -/
def Status.lastTurn : Status → Nat → Nat
  | .stun, expiry => expiry - 1
  | .exposed, expiry | .attackDown, expiry => expiry

namespace Status

/-- Whether a turn is covered is a comparison with the expiry turn. -/
theorem exists_covers_iff (status : Status) (turn : UInt32) :
    ∃ n : Nat, ∀ expiry, status.Covers expiry turn ↔ n ≤ expiry.toNat := by
  cases status with
  | stun => exact ⟨turn.toNat + 1, fun expiry => UInt32.lt_iff_toNat_lt⟩
  | exposed | attackDown => exact ⟨turn.toNat, fun expiry => UInt32.le_iff_toNat_le⟩

/-- Of two expiry turns both cover what the later one covers. -/
theorem covers_later_iff (status : Status) (old : Option UInt32) (new turn : UInt32) :
    (∃ e, BoardUnit.later old new = some e ∧ status.Covers e turn) ↔
      (∃ e, old = some e ∧ status.Covers e turn) ∨ status.Covers new turn := by
  obtain ⟨n, hcovers⟩ := status.exists_covers_iff turn
  simp only [hcovers]
  exact BoardUnit.exists_later_iff old new n

/-- The turns up to the last one are covered. -/
theorem covers_of_le_lastTurn {status : Status} {expiry turn : UInt32} (hpositive : 0 < expiry)
    (hturn : turn.toNat ≤ status.lastTurn expiry.toNat) : status.Covers expiry turn := by
  rw [UInt32.lt_iff_toNat_lt] at hpositive
  cases status with
  | stun =>
    show turn < expiry
    rw [UInt32.lt_iff_toNat_lt]
    have hlast : turn.toNat ≤ expiry.toNat - 1 := hturn
    omega
  | exposed | attackDown => exact UInt32.le_iff_toNat_le.2 hturn

end Status

namespace BoardUnit

/-- The unit with another expiry turn of a status. -/
def withExpiry (u : BoardUnit) : Status → Option UInt32 → BoardUnit
  | .stun, e => { u with stunUntil := e }
  | .exposed, e => { u with exposedUntil := e }
  | .attackDown, e => { u with attackPenaltyUntil := e }

/-- **A stun or an exposure shows at the turns that its expiry covers.** -/
theorem hasStatus_iff_covers (u : BoardUnit) {status : Status} (hstatus : status ≠ .attackDown)
    (turn : UInt32) :
    u.hasStatus status turn = true ↔ ∃ e, u.expiry status = some e ∧ status.Covers e turn := by
  cases status with
  | stun => exact u.hasStatus_stun_iff turn
  | exposed => exact u.hasStatus_exposed_iff turn
  | attackDown => exact absurd rfl hstatus

theorem expiry_withExpiry (u : BoardUnit) (status : Status) (e : Option UInt32) :
    (u.withExpiry status e).expiry status = e := by
  cases status <;> rfl

/-- From `u` to `u'` the status shows at the turns of one more application, and nothing else
changes. -/
structure Extended (status : Status) (expiry : UInt32) (u u' : BoardUnit) : Prop where
  shows : ∀ turn, u'.hasStatus status turn = true ↔
    u.hasStatus status turn = true ∨ status.Covers expiry turn
  others : ∀ status', status' ≠ status → u'.hasStatus status' = u.hasStatus status'
  rest : u' = u.withExpiry status (u'.expiry status)

/-- The later of two expiry turns makes the status show at the turns of both. -/
theorem extended_withExpiry (u : BoardUnit) {status : Status} (hstatus : status ≠ .attackDown)
    (expiry : UInt32) :
    u.Extended status expiry (u.withExpiry status (later (u.expiry status) expiry)) where
  shows turn := by
    rw [hasStatus_iff_covers _ hstatus, hasStatus_iff_covers _ hstatus, expiry_withExpiry]
    exact status.covers_later_iff (u.expiry status) expiry turn
  others status' hne := by
    cases status with
    | stun | exposed | attackDown =>
      cases status' <;> first | rfl | exact absurd rfl hne
  rest := by rw [expiry_withExpiry]

end BoardUnit

namespace Sandbox

/-- From `s` to `s'` one unit shows a status at the turns of one more application, and nothing else
about the units changes. -/
structure Extends (status : Status) (expiry : UInt32) (id : UnitId) (s s' : Sandbox) : Prop where
  unit : ∃ u u', s.unit? id = some u ∧ s'.unit? id = some u' ∧ u.Extended status expiry u'
  others : ∀ id', id' ≠ id → s'.unit? id' = s.unit? id'

/-- What an application of a status comes to: if it lands the unit shows the status at its turns,
else no unit changes. -/
structure Applies (status : Status) (expiry : UInt32) (id : UnitId) (s : Sandbox)
    (result : Bool × Sandbox) : Prop where
  landed : result.1 = true → s.Extends status expiry id result.2
  refused : result.1 = false → ∀ id', result.2.unit? id' = s.unit? id'

variable {s : Sandbox} {id : UnitId} {status : Status} {expiry : UInt32}

/-- **An application adds its turns to those of the status**, if it lands. -/
theorem applies_afflict (hstatus : status ≠ .attackDown) {source : String}
    {change : BoardUnit → BoardUnit}
    (hchange : ∀ u, change u = u.withExpiry status (BoardUnit.later (u.expiry status) expiry)) :
    s.Applies status expiry id (s.afflict id status source change) where
  landed hlanded := by
    obtain ⟨u, hu, hunits⟩ := unit?_of_afflicted hlanded
    refine ⟨⟨u, change u, hu, ?_, ?_⟩, fun id' hne => ?_⟩
    · rw [hunits, if_pos rfl]
    · rw [hchange]
      exact u.extended_withExpiry hstatus expiry
    · rw [hunits, if_neg hne.symm]
  refused := unit?_of_refused

theorem applies_applyStun (s : Sandbox) (id : UnitId) (expiry : UInt32) (source : String) :
    s.Applies .stun expiry id (s.applyStun id expiry source) :=
  applies_afflict (by decide) fun _ => rfl

theorem applies_applyExposed (s : Sandbox) (id : UnitId) (expiry : UInt32) (source : String) :
    s.Applies .exposed expiry id (s.applyExposed id expiry source) :=
  applies_afflict (by decide) fun _ => rfl

end Sandbox

/-! ## Actions -/

namespace Firing

/-- A status that an action applies does not end before it begins. -/
theorem lt_expiry (f : Firing) {turns : Int32} (hturns : 0 < turns) (hturn : f.turn < 4294967295) :
    f.turn < f.expiry turns := by
  have hexpiry := f.toNat_expiry turns
  rw [Word.maxNat] at hexpiry
  rw [Word.pos_iff] at hturns
  rw [UInt32.lt_iff_toNat_lt] at hturn ⊢
  have hmost : (4294967295 : UInt32).toNat = 4294967295 := rfl
  omega

/-- **The turns of an action that applies a status** go from the turn of the firing to the last turn
that the status covers, and there is at least one. -/
theorem shows_of_extended {f : Firing} {status : Status} {turns : Int32} (hturns : 0 < turns)
    (hturn : f.turn < 4294967295) {u u' : BoardUnit}
    (h : u.Extended status (f.expiry turns) u') :
    let last := status.lastTurn (min (f.turn.toNat + turns.toInt.toNat) Word.maxNat)
    f.turn.toNat ≤ last ∧
      ∀ turn : UInt32, turn.toNat ≤ last → u'.hasStatus status turn = true := by
  intro last
  have hlast : last = status.lastTurn (f.expiry turns).toNat := by
    rw [f.toNat_expiry]
  have hlater := f.lt_expiry hturns hturn
  have hpositive : 0 < f.expiry turns := by
    rw [UInt32.lt_iff_toNat_lt] at hlater ⊢
    exact Nat.zero_lt_of_lt hlater
  rw [UInt32.lt_iff_toNat_lt] at hlater
  constructor
  · rw [hlast]
    cases status with
    | stun =>
      show f.turn.toNat ≤ (f.expiry turns).toNat - 1
      omega
    | exposed | attackDown => exact Nat.le_of_lt hlater
  · intro turn hle
    rw [hlast] at hle
    exact (h.shows turn).2 (.inr (Status.covers_of_le_lastTurn hpositive hle))

end Firing

section

open Sandbox (answer)

variable {f : Firing} {id : UnitId} {target : Target} {status : Status} {turns : Int32}
  {q : Request} (hstatus : status ≠ .attackDown)

include hstatus

/-- The request of an action that applies a stun or an exposure is an application up to the expiry
turn of the action. -/
theorem Firing.exists_applies (hq : f.change? id (.applyStatus target status turns) = some q)
    (s : Sandbox) :
    ∃ result : Bool × Sandbox, s.Applies status (f.expiry turns) id result ∧
      (answer q s).2 = result.2 ∧ Exchange.barren ⟨q, (answer q s).1⟩ = !result.1 ∧
      Exchange.told ⟨q, (answer q s).1⟩ = result.1 := by
  cases status with
  | stun =>
    cases hq
    exact ⟨_, s.applies_applyStun id _ _, rfl, rfl, (Bool.and_true _).trans (Bool.not_not _)⟩
  | exposed =>
    cases hq
    exact ⟨_, s.applies_applyExposed id _ _, rfl, rfl, (Bool.and_true _).trans (Bool.not_not _)⟩
  | attackDown => exact absurd rfl hstatus

/-- The request and what follows it: the unit shows the status, or no unit changes. -/
theorem Firing.run_inflict_cases
    (hq : f.change? id (.applyStatus target status turns) = some q) (s : Sandbox) :
    ∃ result s', (Script.ask q fun r => f.conclude ⟨q, r⟩).run answer s = (result, s') ∧
      (result = .applied ∧ s.Extends status (f.expiry turns) id s' ∨
        result ≠ .applied ∧ ∀ id', s'.unit? id' = s.unit? id') := by
  obtain ⟨⟨landed, s'⟩, happlies, hstate, hbarren, htold⟩ := exists_applies hstatus hq s
  cases landed with
  | true =>
    have hextends := happlies.landed rfl
    obtain ⟨-, u', -, hu', -⟩ := hextends.unit
    have hthere : (answer q s).2.unit? id = some u' := by
      rw [hstate]
      exact hu'
    have htell := Sandbox.run_tell_of_subject f (answer q s).2 (x := ⟨q, (answer q s).1⟩)
      (subject?_of_change? hq) hthere
    have hrun := Sandbox.run_change f s htell
    rw [hbarren, htold, hstate] at hrun
    exact ⟨_, _, hrun, .inl ⟨rfl, hextends.unit, hextends.others⟩⟩
  | false =>
    refine ⟨.noEffect, s', ?_, .inr ⟨by decide, happlies.refused rfl⟩⟩
    rw [Script.run_ask, conclude, hbarren, hstate]
    rfl

/-- **What an action that applies a stun or an exposure comes to**: it is applied, and the unit that
it resolved to shows the status at its turns, or no unit changes. -/
theorem Visit.inflicts_cases {v : Visit Sandbox}
    (ha : v.action = .applyStatus target status turns) :
    (v.result answer = .applied ∧ ∃ id, v.resolved answer = some id ∧
      v.host.Extends status (v.firing.expiry turns) id (v.hostAfter answer)) ∨
    (v.result answer ≠ .applied ∧ ∀ id, (v.hostAfter answer).unit? id = v.host.unit? id) := by
  have hp : v.firing.plan v.action = .unit (v.firing.inflict status turns) := by
    rw [ha]
    rfl
  have hresult := v.result_of_unit answer hp
  have hafter := v.hostAfter_of_unit answer hp
  obtain ⟨dice, hdice⟩ := Sandbox.exists_dice_of_target v.host v.firing v.memory v.action
  rw [hdice] at hresult hafter
  cases hid : v.resolved answer with
  | none =>
    rw [hid, Option.elim_none] at hresult hafter
    refine .inr ⟨?_, fun id => ?_⟩
    · rw [hresult]
      decide
    · rw [hafter]
      rfl
  | some id =>
    obtain ⟨q, hq, heffect⟩ := v.firing.unit_plan_eq hp id
    rw [ha] at hq
    obtain ⟨result, s', hrun, hcases⟩ := Firing.run_inflict_cases hstatus hq { v.host with dice }
    rw [hid, Option.elim_some, heffect, hrun] at hresult hafter
    rw [hresult, hafter]
    rcases hcases with ⟨happlied, hextends⟩ | ⟨hidle, hunits⟩
    · exact .inl ⟨happlied, id, rfl, hextends.unit, hextends.others⟩
    · exact .inr ⟨hidle, hunits⟩

end

namespace Sandbox

/-! ## Histories -/

/-- **After any plays a stun or an exposure shows at the turns of the applications that still
count.** -/
theorem hasStatus_iff_remains {s : Sandbox} {mark : Mark} (hstatus : mark.status ≠ .attackDown)
    {first : BoardUnit} (hfirst : s.unit? mark.unit = some first) {plays : List Play}
    (hplays : Along (Play.Spares mark.unit) plays s) :
    ∃ u, (played plays s).unit? mark.unit = some u ∧ ∀ turn,
      (u.hasStatus mark.status turn = true ↔ Remains mark (asked plays s)
        (first.hasStatus mark.status turn = true)
        fun q => ∃ e, q.expiry? = some e ∧ mark.status.Covers e turn) := by
  have hbefore := record?_of_unit? hfirst mark.status
  obtain ⟨r, hr, hgathers⟩ := gathers_played hplays hbefore
  obtain ⟨u, hu, rfl⟩ := Option.map_eq_some_iff.1 hr
  refine ⟨u, hu, fun turn => ?_⟩
  obtain ⟨n, hcovers⟩ := mark.status.exists_covers_iff turn
  simp only [BoardUnit.hasStatus_iff_covers _ hstatus, hcovers]
  exact hgathers.lasts n

/-- **The timeline of stun and exposure.**

* An application with an expiry turn that lands makes the unit show the status at the turns before
  it, for a stun, or up to it, for exposure, besides those at which it showed it already; nothing
  else about the units changes.  If it does not land no unit changes.
* An action that applies one of them for some turns, fired before the last turn of all, does the
  same for the unit that it resolves to, if it is applied; so this unit shows the status from the
  turn of the firing on, up to the last turn that the expiry turn covers.  If it is not applied no
  unit changes.
* Whatever is played while the unit is left to the requests, it shows the status at exactly the
  turns of the applications that still count, and of the status from before as long as it counts. -/
theorem status_timeline :
    (∀ (s : Sandbox) (id : UnitId) (expiry : UInt32) (source : String),
      s.Applies .stun expiry id (s.applyStun id expiry source) ∧
      s.Applies .exposed expiry id (s.applyExposed id expiry source)) ∧
    (∀ (v : Visit Sandbox) (target : Target) (status : Status) (turns : Int32),
      v.action = .applyStatus target status turns → status ≠ .attackDown → 0 < turns →
      v.firing.turn < 4294967295 →
      let s' := v.hostAfter answer
      let last := status.lastTurn (min (v.firing.turn.toNat + turns.toInt.toNat) Word.maxNat)
      (v.result answer = .applied → ∃ id u', v.resolved answer = some id ∧
        v.host.Extends status (v.firing.expiry turns) id s' ∧ s'.unit? id = some u' ∧
        v.firing.turn.toNat ≤ last ∧ ∀ turn : UInt32, v.firing.turn ≤ turn → turn.toNat ≤ last →
          u'.hasStatus status turn = true) ∧
      (v.result answer ≠ .applied → ∀ id, s'.unit? id = v.host.unit? id)) ∧
    ∀ (s : Sandbox) (mark : Mark) (first : BoardUnit) (plays : List Play),
      mark.status ≠ .attackDown → s.unit? mark.unit = some first →
      Along (Play.Spares mark.unit) plays s →
      ∃ u, (played plays s).unit? mark.unit = some u ∧ ∀ turn,
        (u.hasStatus mark.status turn = true ↔ Remains mark (asked plays s)
          (first.hasStatus mark.status turn = true)
          fun q => ∃ e, q.expiry? = some e ∧ mark.status.Covers e turn) := by
  refine ⟨fun s id expiry source => ?_, ?_, ?_⟩
  · exact ⟨s.applies_applyStun id expiry source, s.applies_applyExposed id expiry source⟩
  · intro v target status turns ha hstatus hturns hturn s' last
    rcases Visit.inflicts_cases hstatus ha with ⟨happlied, id, hid, hextends⟩ | ⟨hidle, hunits⟩
    · obtain ⟨u, u', hu, hu', hextended⟩ := hextends.unit
      obtain ⟨hsome, hshows⟩ := Firing.shows_of_extended hturns hturn hextended
      refine ⟨fun _ => ⟨id, u', hid, hextends, hu', hsome, fun turn _ hle => hshows turn hle⟩, ?_⟩
      exact fun hidle => absurd happlied hidle
    · exact ⟨fun happlied => absurd happlied hidle, fun _ => hunits⟩
  · intro s mark first plays hstatus hfirst hplays
    exact hasStatus_iff_remains hstatus hfirst hplays

/-- The bailiff is told at turn 3 to stun itself for two turns. -/
def sentence : Visit Sandbox :=
  { firing :=
      { cardId := "bailiff", event := .turnStart, side := .player, source := ⟨1⟩
        sourceName := "Bailiff", turn := 3, combat := none, settings := {} }
    memory := {}
    action := .applyStatus .self .stun 2
    host := courtroom }

/-- The bailiff is stunned up to turn 5, then up to turn 3. -/
def concurrent : List Play :=
  [.request (.applyStun ⟨1⟩ 5 "first"), .request (.applyStun ⟨1⟩ 3 "second"), .advance]

theorem status_timeline_courtroom :
    (courtroom.applyStun ⟨1⟩ 3 "first").1 = true ∧
    courtroom.Extends .stun 3 ⟨1⟩ (courtroom.applyStun ⟨1⟩ 3 "first").2 ∧
    (courtroom.applyStun ⟨2⟩ 3 "first").1 = false ∧
    (∀ id, (courtroom.applyStun ⟨2⟩ 3 "first").2.unit? id = courtroom.unit? id) ∧
    sentence.result answer = .applied ∧
    (∃ id u', sentence.resolved answer = some id ∧
      (sentence.hostAfter answer).unit? id = some u' ∧ u'.hasStatus .stun 4 = true) ∧
    Along (Play.Spares ⟨1⟩) concurrent courtroom ∧
    ∃ first, courtroom.unit? ⟨1⟩ = some first ∧
      Remains ⟨⟨1⟩, .stun⟩ (asked concurrent courtroom) (first.hasStatus .stun 4 = true)
        fun q => ∃ e, q.expiry? = some e ∧ Status.Covers .stun e 4 := by
  obtain ⟨hrequests, hactions, hplayed⟩ := status_timeline
  have hlanded : (courtroom.applyStun ⟨1⟩ 3 "first").1 = true := by decide +kernel
  have hrefused : (courtroom.applyStun ⟨2⟩ 3 "first").1 = false := by decide +kernel
  have happlied : sentence.result answer = .applied := by decide +kernel
  obtain ⟨id, u', hid, -, hu', -, hshows⟩ :=
    (hactions sentence .self .stun 2 rfl (by decide) (by decide) (by decide)).1 happlied
  have hplays : Along (Play.Spares ⟨1⟩) concurrent courtroom := ⟨trivial, trivial, trivial, trivial⟩
  obtain ⟨first, hfirst⟩ : ∃ first, courtroom.unit? ⟨1⟩ = some first :=
    Option.isSome_iff_exists.1 (by decide +kernel)
  obtain ⟨u, hu, hiff⟩ :=
    hplayed courtroom ⟨⟨1⟩, .stun⟩ first concurrent (by decide) hfirst hplays
  have hafter : ((played concurrent courtroom).unit? ⟨1⟩).all (·.hasStatus .stun 4) = true := by
    decide +kernel
  rw [hu] at hafter
  exact ⟨hlanded, (hrequests courtroom ⟨1⟩ 3 "first").1.landed hlanded, hrefused,
    (hrequests courtroom ⟨2⟩ 3 "first").1.refused hrefused, happlied,
    ⟨id, u', hid, hu', hshows 4 (by decide) (by decide)⟩, hplays, first, hfirst,
    (hiff 4).1 hafter⟩

end Sandbox

end CardDuel
