import CardDuel.Lane
import CardDuel.Special
import CardDuel.Trigger

/-!
# Cards

A card is what its designer wrote: cost, faction, stats, specials and triggers.  A unit card can be
put on the board; any other card is played for its effect.
-/

set_option autoImplicit false

namespace CardDuel

structure Stats where
  attack : Int32
  health : Int32
  deriving DecidableEq, Repr

inductive CardKind where
  | unit (lane : Lane) (stats : Stats)
  | nonUnit
  deriving DecidableEq, Repr

/-- A card.  The id names it within a catalog, the name stands on it and in log lines, and the dirty
power is the weight that the judge gives to playing it. -/
structure Card where
  id : String
  name : String
  faction : String := ""
  role : String := ""
  cost : UInt32 := 0
  kind : CardKind
  dirtyPower : Option UInt32 := none
  keywords : List String := []
  specials : List Special := []
  triggers : List Trigger := []
  deriving DecidableEq, Repr

namespace Card

/-- Whether the card can be put on the board. -/
def isUnit (c : Card) : Bool :=
  match c.kind with
  | .unit .. => true
  | .nonUnit => false

/-- What can be put on the board has a lane and stats. -/
theorem exists_kind_of_isUnit {c : Card} (h : c.isUnit = true) :
    ∃ lane stats, c.kind = .unit lane stats := by
  unfold isUnit at h
  cases hkind : c.kind with
  | unit lane stats => exact ⟨lane, stats, rfl⟩
  | nonUnit =>
    rw [hkind] at h
    cases h

/-- The lane of a unit card. -/
def lane? (c : Card) : Option Lane :=
  match c.kind with
  | .unit lane _ => some lane
  | .nonUnit => none

/-- The stats of a unit card. -/
def stats? (c : Card) : Option Stats :=
  match c.kind with
  | .unit _ stats => some stats
  | .nonUnit => none

/-- The triggers for an event, in the order of the card. -/
def triggersFor (c : Card) (e : Event) : List Trigger :=
  c.triggers.filter fun t => t.event == e

/-- Whether a trigger waits for an event. -/
def hasTrigger (c : Card) (e : Event) : Bool :=
  c.triggers.any fun t => t.event == e

theorem hasTrigger_iff (c : Card) (e : Event) :
    c.hasTrigger e = true ↔ c.triggersFor e ≠ [] := by
  simp [hasTrigger, triggersFor, List.any_eq_true, List.filter_eq_nil_iff]

/-- Whether enemies must attack the unit first. -/
def hasTaunt (c : Card) : Bool := c.specials.any (· == .taunt)

/-- The shield charges that the unit enters with. -/
def summonShield (c : Card) : UInt32 :=
  c.specials.foldr (fun s charges => s.charges + charges) 0

/-- The resistance of the unit, which the first special that declares one decides. -/
def resistance (c : Card) : Resistance :=
  (c.specials.findSome? Special.resistance?).getD {}

end Card

end CardDuel
