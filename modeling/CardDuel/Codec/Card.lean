import CardDuel.Catalog
import CardDuel.Codec.Trigger
import CardDuel.Json.Reader

/-!
# Cards in JSON

A card is an object.  Its kind, lane and stats stand among its other members.  Members that a card
does not know are skipped, but nothing in them may be unreadable.

`Catalog.ofText` makes a catalog from the text of a card list.
-/

set_option autoImplicit false

namespace CardDuel

open Json (Key Slots slots? member? required optional withDefault float? int32? uint32? list?
  string?)

/-! ## Specials -/

namespace Special

/-- The keys of a resistance. -/
def resistanceKeys : List Key := [["stun"], ["exposed"], ["atkDown", "atk_down"]]

/-- Reads a special. -/
def ofJson? (v : Json) : Option Special := do
  let (kind, record) ← Json.tagged? v
  match kind with
  | "taunt" =>
    let [] ← slots? [] record | none
    return .taunt
  | "shield_on_summon" =>
    let [n] ← slots? [["amount"]] record | none
    return .shieldOnSummon (← required int32? n)
  | "resistance" =>
    let [stun, exposed, attackDown] ← slots? resistanceKeys record | none
    return .resistance (← optional float? stun) (← optional float? exposed)
      (← optional float? attackDown)
  | _ => none

/-- The members of a special beside its kind. -/
def members : Special → List (String × Json)
  | .taunt => []
  | .shieldOnSummon n => [("amount", Json.ofInt32 n)]
  | .resistance stun exposed attackDown =>
    Json.memberOfOption "stun" Json.ofFloat stun ++
      Json.memberOfOption "exposed" Json.ofFloat exposed ++
      Json.memberOfOption "atkDown" Json.ofFloat attackDown

/-- Writes a special. -/
def toJson (s : Special) : Json :=
  .object (("kind", .string s.kindSpelling) :: s.members)

end Special

namespace Resistance

/-- Reads the resistance of a unit. -/
def ofJson? (v : Json) : Option Resistance := do
  let [stun, exposed, attackDown] ← slots? [["stun"], ["exposed"], ["atk_down"]] v | none
  return ⟨← required float? stun, ← required float? exposed, ← required float? attackDown⟩

/-- Writes the resistance of a unit. -/
def toJson (r : Resistance) : Json :=
  .object [("stun", Json.ofFloat r.stun), ("exposed", Json.ofFloat r.exposed),
    ("atk_down", Json.ofFloat r.attackDown)]

end Resistance

/-! ## Kinds -/

namespace Stats

/-- Reads stats. -/
def ofJson? (v : Json) : Option Stats := do
  let [attack, health] ← slots? [["attack"], ["health"]] v | none
  return ⟨← required int32? attack, ← required int32? health⟩

/-- Writes stats. -/
def toJson (s : Stats) : Json :=
  .object [("attack", Json.ofInt32 s.attack), ("health", Json.ofInt32 s.health)]

end Stats

namespace CardKind

/-- Reads the fields of a kind of card from a record. -/
def ofRecord? (kind : String) (record : Json) : Option CardKind := do
  match kind with
  | "unit" =>
    let [lane, stats] ← slots? [["lane"], ["stats"]] record | none
    return .unit (← required Lane.ofField? lane) (← required Stats.ofJson? stats)
  | "non_unit" =>
    let [] ← slots? [] record | none
    return .nonUnit
  | _ => none

/-- Reads a kind of card on its own. -/
def ofJson? (v : Json) : Option CardKind := do
  let (kind, record) ← Json.tagged? v
  ofRecord? kind record

/-- The name of a kind; within a card it may be given by its number. -/
def nameInCard? : Json → Option String
  | .string s => some s
  | .integer 0 => some "unit"
  | .integer 1 => some "non_unit"
  | _ => none

/-- The members that make a kind of card. -/
def members : CardKind → List (String × Json)
  | .unit lane stats =>
    [("kind", .string "unit"), ("lane", lane.toJson), ("stats", stats.toJson)]
  | .nonUnit => [("kind", .string "non_unit")]

/-- Writes a kind of card. -/
def toJson (k : CardKind) : Json := .object k.members

end CardKind

/-! ## Cards -/

namespace Card

/-- The keys of the fields that a card reads on their own. -/
def ownKeys : List Key :=
  [["id"], ["name"], ["faction"], ["role"], ["cost"], ["dirtyPower", "dirty_power"], ["keywords"],
   ["specials"], ["triggers"]]

/-- The members that are not among the fields that a card reads on their own: those of its kind, and
unknown ones. -/
def otherMembers (members : List (String × Json)) : List (String × Json) :=
  members.filter fun m => !ownKeys.any (·.contains m.1)

/-- Reads the kind of a card from the members that are left. -/
def kind? (others : List (String × Json)) : Option CardKind := do
  let kind ← required CardKind.nameInCard? (← member? ["kind"] others)
  CardKind.ofRecord? kind (.object others)

/-- Reads a card. -/
def ofJson? : Json → Option Card
  | .object members => do
    let others := otherMembers members
    if !Json.readableMembers others then none
    let [id, name, faction, role, cost, dirtyPower, keywords, specials, triggers] ←
      slots? ownKeys (.object members) | none
    return {
      id := ← required string? id
      name := ← required string? name
      faction := ← withDefault "" string? faction
      role := ← withDefault "" string? role
      cost := ← withDefault 0 uint32? cost
      kind := ← kind? others
      dirtyPower := ← optional uint32? dirtyPower
      keywords := ← withDefault [] (list? string?) keywords
      specials := ← withDefault [] (list? Special.ofJson?) specials
      triggers := ← withDefault [] (list? Trigger.ofJson?) triggers }
  | _ => none

/-- Writes a card. -/
def toJson (c : Card) : Json :=
  .object ([("id", .string c.id), ("name", .string c.name), ("faction", .string c.faction),
    ("role", .string c.role), ("cost", Json.ofUInt32 c.cost)] ++ c.kind.members ++
    Json.memberOfOption "dirtyPower" Json.ofUInt32 c.dirtyPower ++
    Json.memberOfList "keywords" .string c.keywords ++
    Json.memberOfList "specials" Special.toJson c.specials ++
    Json.memberOfList "triggers" Trigger.toJson c.triggers)

/-- Reads the text of a card list. -/
def listOfText? (text : String) : Option (List Card) :=
  (Json.parse? text).bind (list? ofJson?)

end Card

/-! ## Catalogs -/

/-- Why a text gives no catalog: it is no card list, or the card list has errors. -/
inductive CatalogError where
  | malformed
  | rejected (errors : List Issue)
  deriving DecidableEq, Repr

/-- The catalog of the card list in a text. -/
def Catalog.ofText (text : String) : Except CatalogError Catalog :=
  match Card.listOfText? text with
  | none => .error .malformed
  | some cards => match Catalog.ofCards cards with
    | .ok catalog => .ok catalog
    | .error errors => .error (.rejected errors)

end CardDuel
