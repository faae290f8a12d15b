import CardDuel.Proofs.Engine.Occasion
import CardDuel.Proofs.Firing.Confined
import CardDuel.Proofs.Sandbox.Board

/-!
# What an occasion changes on the sandbox

`Sandbox.event_frame`: an occasion changes nothing but the acting unit, units of the acting side
that were alive before, the unit that was hit, and the holdings of the acting side.

The invariant is the frame from the start of the occasion together with a memory within reach.  An
ally is chosen among units that are alive at that moment, perhaps by a heal of the same occasion;
`reach_of_alive` is why that is enough: a unit outside of the reach is as it was at the start.
-/

set_option autoImplicit false

namespace CardDuel

open Script (Keeps)

/-! ## Actions -/

namespace Firing

/-- The units in `reach` are enough for every target of the firing. -/
structure Covers (f : Firing) (s : Sandbox) (reach : UnitId → Prop) : Prop where
  keyed : s.Keyed
  source : reach f.source
  opponent : ∀ id, f.combat.bind (·.target) = some id → reach id
  ally : ∀ id u, s.unit? id = some u → u.side = f.side → u.alive = true → reach id

variable {f : Firing} {s : Sandbox} {reach : UnitId → Prop} (hf : f.Covers s reach)
  {memory : Memory} (action : Action)

include hf

/-- A unit of the acting side that is alive now was alive at the start, or is in reach anyway. -/
theorem Covers.reach_of_alive {s' : Sandbox} (h : Sandbox.Frame f.side reach s s') {id : UnitId}
    {u : BoardUnit} (hu : s'.unit? id = some u) (hside : u.side = f.side)
    (halive : u.alive = true) : reach id := by
  refine Classical.byContradiction fun hid => hid ?_
  rw [h.unit id hid] at hu
  exact hf.ally id u hu hside halive

/-- The sandbox confines a firing to the frame from `s`: it lists units that stood on the acting
side from the start, and those that are alive are in reach. -/
theorem Covers.confined : f.Confined Sandbox.answer (Sandbox.Frame f.side reach s)
    (s.Owns f.side) reach reach := by
  refine Sandbox.confined hf.source hf.opponent (fun _ hid => hid)
    (fun _ h => Sandbox.keyed_of_frame hf.keyed h) ?_ ?_
    (fun _ _ h hq => h.trans (Sandbox.frame_answer hq))
  · intro s' id u h hu hside
    exact h.owns_iff.1 ⟨u, hu, hside⟩
  · intro s' id u h hown hu halive
    obtain ⟨v, hv, hside⟩ := h.owns_iff.2 hown
    cases hu.symm.trans hv
    exact hf.reach_of_alive h hu hside halive

/-- **An action keeps the frame.** -/
theorem Covers.stays_resolve (hm : Reached reach memory.ally) :
    Keeps Sandbox.answer (Sandbox.Frame f.side reach s) (f.resolve memory action)
      fun r => Reached reach r.2.ally :=
  hf.confined.keeps_resolve action hm

end Firing

/-! ## Occasions -/

namespace Sandbox

/-- The units that an occasion may change: the acting unit, the living units of the acting side, and
the unit that was hit. -/
def InReach (s : Sandbox) (a : Actor) (o : Occasion) (id : UnitId) : Prop :=
  id = a.unit ∨ (∃ u, s.unit? id = some u ∧ u.side = a.side ∧ u.alive = true) ∨
    o.combat?.bind (·.target) = some id

theorem covers_inReach {s : Sandbox} (hs : s.Keyed) (e : Engine) (a : Actor) (o : Occasion)
    (card : Card) (event : Event) (source : BoardUnit) :
    (e.firing a card event o.combat? source).Covers s (s.InReach a o) where
  keyed := hs
  source := .inl rfl
  opponent _ h := .inr (.inr h)
  ally _ u hu hside halive := .inr (.inl ⟨u, hu, hside, halive⟩)

/-- **The frame of an occasion.**  On a sandbox whose units are stored under their own ids, whatever
the engine does about an occasion stays within the frame of the units in reach and of the acting
side. -/
theorem event_frame {s : Sandbox} (hs : s.Keyed) (e : Engine) (a : Actor) (o : Occasion) :
    Frame a.side (s.InReach a o) s ((o.script e a).run answer s).2 := by
  have hread : ∀ (q : Request) (s' : Sandbox), q.isRead = true →
      Frame a.side (s.InReach a o) s s' → Frame a.side (s.InReach a o) s (answer q s').2 := by
    intro q s' hq h
    exact h.trans (frame_answer
      (.of_unaddressed (Request.subject?_of_isRead hq) (Request.side?_of_isRead hq)))
  have hkeeps : Keeps answer (Frame a.side (s.InReach a o) s) (o.script e a) fun _ => True := by
    refine Occasion.keeps (M := fun memory => Firing.Reached (s.InReach a o) memory.ally) hread
      Firing.reached_none ?_
    intro card _ t _ source action _ memory hm
    exact (covers_inReach hs e a o card t.event source).stays_resolve action hm
  exact (hkeeps s (.refl s)).1

/-- A card that heals an ally and shields itself when it enters the board. -/
def medic : Card :=
  { id := "medic", name := "Medic", kind := .unit .front ⟨1, 3⟩
    triggers := [{ event := .summon, actions := [.heal .ally 2, .gainShield .self 1] }] }

def infirmary : Engine := { catalog := ⟨[medic], by decide⟩ }

def arrival : Actor := { side := .player, unit := ⟨1⟩, turn := 1 }

def thug : BoardUnit := { BoardUnit.fresh ⟨3⟩ "thug" "Thug" .enemy .front 2 5 with health := 1 }

/-- A medic enters beside a wounded guard; a wounded thug stands on the other side. -/
def ward : Sandbox :=
  (((start {}).place (.fresh ⟨1⟩ "medic" "Medic" .player .front 1 3)).place
    { BoardUnit.fresh ⟨2⟩ "guard" "Guard" .player .front 2 5 with health := 1 }).place thug

theorem event_frame_ward :
    ward.Keyed ∧ ¬ ward.InReach arrival .summon ⟨3⟩ ∧
      ((Occasion.summon.script infirmary arrival).run answer ward).2.unit? ⟨3⟩ = some thug ∧
      ((Occasion.summon.script infirmary arrival).run answer ward).2.log =
        ["Medic heals Guard for 2.", "Medic grants itself 1 shield."] := by
  have hkeyed : ward.Keyed := keyed_place (keyed_place (keyed_place (keyed_start {}) _) _) _
  have hthug : ward.unit? ⟨3⟩ = some thug := (unit?_place _ _ _).trans (if_pos rfl)
  have hout : ¬ ward.InReach arrival .summon ⟨3⟩ := by
    rintro (h | ⟨u, hu, hside, _⟩ | h)
    · exact absurd h (by decide)
    · cases hthug.symm.trans hu
      cases hside
    · cases h
  refine ⟨hkeyed, hout, ?_, by decide +kernel⟩
  rw [(event_frame hkeyed infirmary arrival .summon).unit _ hout, hthug]

end Sandbox

end CardDuel
