import CardDuel.Proofs.Sandbox.Noninterference

/-!
# Independent occasions commute

An occasion outside of combat writes on the acting side alone (`event_frame`) and reads nothing but
that side, the dice and the turn (`event_alike`).  Two of them for opposite sides could meet only in
the dice and in the log.  `events_commute`: if neither draws from the dice, their order does not
matter, except that the two blocks of log lines are swapped.

The proof follows one order.  The second occasion finds its side as it was at the start and leaves
on it what it would have left there alone (`Independent.second`); what the first one left is not
touched (`Independent.first`).
-/

set_option autoImplicit false

namespace CardDuel

namespace Sandbox

/-- What an occasion answers on a sandbox, and the sandbox afterwards. -/
def fired (e : Engine) (a : Actor) (o : Occasion) (s : Sandbox) : Bool × Sandbox :=
  (o.script e a).run answer s

/-- Two sandboxes are equal if they show the same everywhere. -/
theorem eq_of_views {s s' : Sandbox} (hunit : ∀ id, s.unit? id = s'.unit? id)
    (hsource : ∀ id status, s.statusSource? id status = s'.statusSource? id status)
    (hholdings : ∀ side, s.holdings side = s'.holdings side)
    (hresistances : s.resistances = s'.resistances) (hdice : s.dice = s'.dice)
    (hnext : s.nextUnit = s'.nextUnit) (hturn : s.turn = s'.turn) (hlog : s.log = s'.log) :
    s = s' := by
  have hunits : s.units = s'.units := Std.ExtTreeMap.ext_getElem? hunit
  have hsources : s.sources = s'.sources := Std.ExtTreeMap.ext_getElem? fun mark =>
    hsource mark.unit mark.status
  have hplayer : s.player = s'.player := hholdings .player
  have henemy : s.enemy = s'.enemy := hholdings .enemy
  cases s
  cases s'
  simp_all only

/-- Two occasions outside of combat for units of opposite sides, each of which leaves the number of
draws alone when it is the only one. -/
structure Independent (s : Sandbox) (e : Engine) (a : Actor) (o : Occasion) (b : Actor)
    (p : Occasion) : Prop where
  keyed : s.Keyed
  noCombat : o.combat? = none
  noCombat' : p.combat? = none
  opposite : b.side = a.side.opponent
  actor : s.Owns a.side a.unit
  actor' : s.Owns b.side b.unit
  draws : (fired e a o s).2.dice.draws = s.dice.draws
  draws' : (fired e b p s).2.dice.draws = s.dice.draws

namespace Independent

variable {s : Sandbox} {e : Engine} {a b : Actor} {o p : Occasion}

theorem symm (h : Independent s e a o b p) : Independent s e b p a o where
  keyed := h.keyed
  noCombat := h.noCombat'
  noCombat' := h.noCombat
  opposite := by rw [h.opposite, Side.opponent_opponent]
  actor := h.actor'
  actor' := h.actor
  draws := h.draws'
  draws' := h.draws

/-- The units of the opponent are out of reach. -/
theorem not_inReach_of_owns {side : Side} {t : Sandbox} {id : UnitId} (ho : o.combat? = none)
    (hactor : t.Owns a.side a.unit) (hside : side ≠ a.side) (hid : t.Owns side id) :
    ¬ t.InReach a o id := by
  obtain ⟨u, hu, rfl⟩ := hid
  rintro (rfl | ⟨v, hv, hvside, -⟩ | hhit)
  · obtain ⟨v, hv, hvside⟩ := hactor
    cases hu.symm.trans hv
    exact hside hvside
  · cases hu.symm.trans hv
    exact hside hvside
  · rw [ho] at hhit
    cases hhit

/-- An id without a unit is out of reach. -/
theorem not_inReach_of_none {t : Sandbox} {id : UnitId} (ho : o.combat? = none)
    (hactor : t.Owns a.side a.unit) (hid : t.unit? id = none) : ¬ t.InReach a o id := by
  rintro (rfl | ⟨v, hv, -⟩ | hhit)
  · obtain ⟨v, hv, -⟩ := hactor
    cases hid.symm.trans hv
  · cases hid.symm.trans hv
  · rw [ho] at hhit
    cases hhit

variable (h : Independent s e a o b p)

include h

theorem sides_ne : b.side ≠ a.side := by
  rw [h.opposite]
  exact a.side.opponent_ne

/-- The frame of the first occasion. -/
theorem frame : Frame a.side (s.InReach a o) s (fired e a o s).2 :=
  event_frame h.keyed e a o

theorem dice_first : (fired e a o s).2.dice = s.dice := by
  have hseed := h.frame.seed
  have hdraws := h.draws
  cases hd : (fired e a o s).2.dice
  rw [hd] at hseed hdraws
  cases hs : s.dice
  rw [hs] at hseed hdraws
  exact congr (congrArg Dice.mk hseed) hdraws

/-- The frame of the second occasion. -/
theorem frame_second : Frame b.side ((fired e a o s).2.InReach b p) (fired e a o s).2
    (fired e b p (fired e a o s).2).2 :=
  event_frame (keyed_of_frame h.keyed h.frame) e b p

/-- The second occasion finds on its side what was there at the start. -/
theorem alike_start :
    Alike b.side (s.Owns b.side) (fired e a o s).2.log s.log (fired e a o s).2 s where
  keyed := keyed_of_frame h.keyed h.frame
  keyed' := h.keyed
  turn := h.frame.turn
  dice := h.dice_first
  holdings := by rw [h.opposite]; exact h.frame.opponent
  dossier id hid := h.frame.dossier? (not_inReach_of_owns h.noCombat h.actor h.sides_ne hid)
  own id hid := h.frame.owns_iff.1 hid
  own' id hid := hid
  log := ⟨[], (List.append_nil _).symm, (List.append_nil _).symm⟩

/-- **The second occasion does what it would do alone.** -/
theorem second :
    (fired e b p (fired e a o s).2).1 = (fired e b p s).1 ∧
      Alike b.side (s.Owns b.side) (fired e a o s).2.log s.log (fired e b p (fired e a o s).2).2
        (fired e b p s).2 := by
  refine event_alike e h.alike_start fun id hid => ?_
  rcases hid with rfl | hid
  · exact h.actor'
  · rw [h.noCombat'] at hid
    cases hid

/-- **What the first occasion left on its side stays.** -/
theorem first {id : UnitId} (hid : s.Owns a.side id) :
    (fired e b p (fired e a o s).2).2.dossier? id = (fired e a o s).2.dossier? id :=
  h.frame_second.dossier? (not_inReach_of_owns h.noCombat' (h.frame.owns_iff.2 h.actor')
    h.sides_ne.symm (h.frame.owns_iff.2 hid))

/-- The holdings after both occasions are those that each leaves on its side. -/
theorem holdings_first :
    (fired e b p (fired e a o s).2).2.holdings a.side = (fired e a o s).2.holdings a.side := by
  have hopponent := h.frame_second.opponent
  rwa [h.opposite, Side.opponent_opponent] at hopponent

/-- Where no unit stands nothing is recorded in either order. -/
theorem unoccupied {id : UnitId} (hid : s.unit? id = none) :
    (fired e b p (fired e a o s).2).2.unit? id = none ∧
      ∀ status, (fired e b p (fired e a o s).2).2.statusSource? id status =
        s.statusSource? id status := by
  have hfirst : ¬ s.InReach a o id := not_inReach_of_none h.noCombat h.actor hid
  have hid' : (fired e a o s).2.unit? id = none := (h.frame.unit id hfirst).trans hid
  have hsecond : ¬ (fired e a o s).2.InReach b p id :=
    not_inReach_of_none h.noCombat' (h.frame.owns_iff.2 h.actor') hid'
  refine ⟨(h.frame_second.unit id hsecond).trans hid', fun status => ?_⟩
  rw [h.frame_second.source id status hsecond, h.frame.source id status hfirst]

/-- What is on a side after both occasions does not depend on their order. -/
theorem dossier?_comm {id : UnitId} (hid : s.Owns a.side id) :
    (fired e b p (fired e a o s).2).2.dossier? id =
      (fired e a o (fired e b p s).2).2.dossier? id := by
  rw [h.first hid]
  exact (h.symm.second.2.dossier id hid).symm

/-- Every unit and its status sources are the same in both orders. -/
theorem views_comm (id : UnitId) :
    (fired e b p (fired e a o s).2).2.unit? id = (fired e a o (fired e b p s).2).2.unit? id ∧
      ∀ status, (fired e b p (fired e a o s).2).2.statusSource? id status =
        (fired e a o (fired e b p s).2).2.statusSource? id status := by
  cases hu : s.unit? id with
  | none =>
    obtain ⟨hunit, hsource⟩ := h.unoccupied hu
    obtain ⟨hunit', hsource'⟩ := h.symm.unoccupied hu
    exact ⟨hunit.trans hunit'.symm, fun status => (hsource status).trans (hsource' status).symm⟩
  | some u =>
    have hdossier : (fired e b p (fired e a o s).2).2.dossier? id =
        (fired e a o (fired e b p s).2).2.dossier? id := by
      by_cases hside : u.side = a.side
      · exact h.dossier?_comm ⟨u, hu, hside⟩
      · have hside' : u.side = b.side := (Side.eq_opponent_of_ne hside).trans h.opposite.symm
        exact (h.symm.dossier?_comm ⟨u, hu, hside'⟩).symm
    have howns : (fired e b p (fired e a o s).2).2.Owns u.side id :=
      h.frame_second.owns_iff.2 (h.frame.owns_iff.2 ⟨u, hu, rfl⟩)
    obtain ⟨v, hv, -⟩ := howns
    exact views_of_dossier? hdossier hv

end Independent

/-- **Independent occasions commute.**  If neither draws from the dice when it is fired alone, each
gives the same answer in both orders; the sandboxes after both orders are the same, except that the
logs hold the two blocks of lines, those that each adds alone, in swapped order. -/
theorem events_commute {s : Sandbox} {e : Engine} {a b : Actor} {o p : Occasion}
    (h : Independent s e a o b p) :
    (fired e b p (fired e a o s).2).1 = (fired e b p s).1 ∧
    (fired e a o (fired e b p s).2).1 = (fired e a o s).1 ∧
    { (fired e b p (fired e a o s).2).2 with log := [] } =
      { (fired e a o (fired e b p s).2).2 with log := [] } ∧
    ∃ lines lines',
      (fired e a o s).2.log = s.log ++ lines ∧ (fired e b p s).2.log = s.log ++ lines' ∧
      (fired e b p (fired e a o s).2).2.log = s.log ++ lines ++ lines' ∧
      (fired e a o (fired e b p s).2).2.log = s.log ++ lines' ++ lines := by
  obtain ⟨hanswer, hsecond⟩ := h.second
  obtain ⟨hanswer', hsecond'⟩ := h.symm.second
  obtain ⟨lines', hlog, hlog'⟩ := hsecond.log
  obtain ⟨lines, hlog₂, hlog₂'⟩ := hsecond'.log
  refine ⟨hanswer, hanswer', ?_, lines, lines', hlog₂', hlog', ?_, ?_⟩
  · have hholdings (side : Side) : (fired e b p (fired e a o s).2).2.holdings side =
        (fired e a o (fired e b p s).2).2.holdings side := by
      by_cases hside : side = a.side
      · rw [hside, h.holdings_first, hsecond'.holdings]
      · have hside' : side = b.side := (Side.eq_opponent_of_ne hside).trans h.opposite.symm
        rw [hside', h.symm.holdings_first, hsecond.holdings]
    refine eq_of_views (fun id => (h.views_comm id).1) (fun id => (h.views_comm id).2) hholdings
      ?_ ?_ ?_ ?_ rfl
    · exact (h.frame_second.resistances.trans h.frame.resistances).trans
        (h.symm.frame_second.resistances.trans h.symm.frame.resistances).symm
    · exact (hsecond.dice.trans h.symm.dice_first).trans
        (hsecond'.dice.trans h.dice_first).symm
    · exact (h.frame_second.nextUnit.trans h.frame.nextUnit).trans
        (h.symm.frame_second.nextUnit.trans h.symm.frame.nextUnit).symm
    · exact (h.frame_second.turn.trans h.frame.turn).trans
        (h.symm.frame_second.turn.trans h.symm.frame.turn).symm
  · rw [hlog, hlog₂']
  · rw [hlog₂, hlog']

/-- A card that rests at the start of a turn. -/
def thugCard : Card :=
  { id := "thug", name := "Thug", kind := .unit .front ⟨2, 5⟩
    triggers := [{ event := .turnStart, actions := [.heal .self 1, .gainShares 2] }] }

def standoff : Engine := { catalog := ⟨[medic, thugCard], by decide⟩ }

def uprising : Actor := { side := .enemy, unit := ⟨3⟩, turn := 1 }

theorem events_commute_standoff :
    Independent ward standoff arrival .summon uprising .turnStart ∧
      (fired standoff uprising .turnStart (fired standoff arrival .summon ward).2).2.log =
        ["Medic heals Guard for 2.", "Medic grants itself 1 shield.",
          "Thug heals itself for 1.", "Thug earns 2 shares."] ∧
      (fired standoff arrival .summon (fired standoff uprising .turnStart ward).2).2.log =
        ["Thug heals itself for 1.", "Thug earns 2 shares.",
          "Medic heals Guard for 2.", "Medic grants itself 1 shield."] := by
  have hkeyed : ward.Keyed := keyed_place (keyed_place (keyed_place (keyed_start {}) _) _) _
  have hindependent : Independent ward standoff arrival .summon uprising .turnStart := {
    keyed := hkeyed
    noCombat := rfl
    noCombat' := rfl
    opposite := rfl
    actor := ⟨.fresh ⟨1⟩ "medic" "Medic" .player .front 1 3, by decide +kernel, rfl⟩
    actor' := ⟨thug, by decide +kernel, rfl⟩
    draws := by decide +kernel
    draws' := by decide +kernel }
  have hmedic : (fired standoff arrival .summon ward).2.log =
      ["Medic heals Guard for 2.", "Medic grants itself 1 shield."] := by decide +kernel
  have hthug : (fired standoff uprising .turnStart ward).2.log =
      ["Thug heals itself for 1.", "Thug earns 2 shares."] := by decide +kernel
  obtain ⟨-, -, -, lines, lines', hlines, hlines', hlog, hlog'⟩ := events_commute hindependent
  have hfirst : lines = _ := hlines.symm.trans hmedic
  have hsecond : lines' = _ := hlines'.symm.trans hthug
  refine ⟨hindependent, ?_, ?_⟩
  · rw [hlog, hfirst, hsecond]
    rfl
  · rw [hlog', hfirst, hsecond]
    rfl

end Sandbox

end CardDuel
