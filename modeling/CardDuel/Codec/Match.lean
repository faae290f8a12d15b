import CardDuel.Codec.Names
import CardDuel.Judge
import CardDuel.Sandbox.Basic
import CardDuel.Settings

/-!
# Units, settings and dice in JSON

These records are read from objects or arrays; what has a default may be missing.
-/

set_option autoImplicit false

namespace CardDuel

open Json (Key slots? required optional withDefault float? int32? uint32? uint64? string?)

namespace BoardUnit

/-- The keys of a unit. -/
def keys : List Key :=
  [["id"], ["card_id"], ["name"], ["side"], ["lane"], ["attack"], ["health"], ["max_health"],
   ["shield"], ["stun_until"], ["exposed_until"], ["attack_penalty"], ["attack_penalty_until"]]

/-- Reads a unit. -/
def ofJson? (v : Json) : Option BoardUnit := do
  let [id, cardId, name, side, lane, attack, health, maxHealth, shield, stunUntil, exposedUntil,
    attackPenalty, attackPenaltyUntil] ← slots? keys v | none
  return {
    id := ← required UnitId.ofJson? id
    cardId := ← required string? cardId
    name := ← required string? name
    side := ← required Side.ofJson? side
    lane := ← required Lane.ofJson? lane
    attack := ← required int32? attack
    health := ← required int32? health
    maxHealth := ← required int32? maxHealth
    shield := ← required uint32? shield
    stunUntil := ← optional uint32? stunUntil
    exposedUntil := ← optional uint32? exposedUntil
    attackPenalty := ← withDefault 0 uint32? attackPenalty
    attackPenaltyUntil := ← optional uint32? attackPenaltyUntil }

/-- Writes a unit. -/
def toJson (u : BoardUnit) : Json :=
  .object [("id", u.id.toJson), ("card_id", .string u.cardId), ("name", .string u.name),
    ("side", u.side.toJson), ("lane", u.lane.toJson), ("attack", Json.ofInt32 u.attack),
    ("health", Json.ofInt32 u.health), ("max_health", Json.ofInt32 u.maxHealth),
    ("shield", Json.ofUInt32 u.shield),
    ("stun_until", Json.ofOption Json.ofUInt32 u.stunUntil),
    ("exposed_until", Json.ofOption Json.ofUInt32 u.exposedUntil),
    ("attack_penalty", Json.ofUInt32 u.attackPenalty),
    ("attack_penalty_until", Json.ofOption Json.ofUInt32 u.attackPenaltyUntil)]

end BoardUnit

namespace Settings

/-- Reads settings. -/
def ofJson? (v : Json) : Option Settings := do
  let [attackPenalty, sourceTag] ← slots? [["attack_penalty"], ["source_tag"]] v | none
  let usual : Settings := {}
  return {
    attackPenalty := ← withDefault usual.attackPenalty uint32? attackPenalty
    sourceTag := ← withDefault usual.sourceTag string? sourceTag }

/-- Writes settings. -/
def toJson (s : Settings) : Json :=
  .object [("attack_penalty", Json.ofUInt32 s.attackPenalty), ("source_tag", .string s.sourceTag)]

end Settings

namespace Setup

/-- Reads how a match is set up. -/
def ofJson? (v : Json) : Option Setup := do
  let [seed, leaderHealth] ← slots? [["seed"], ["leader_health"]] v | none
  let usual : Setup := {}
  return {
    seed := ← withDefault usual.seed uint64? seed
    leaderHealth := ← withDefault usual.leaderHealth int32? leaderHealth }

/-- Writes how a match is set up. -/
def toJson (s : Setup) : Json :=
  .object [("seed", Json.ofUInt64 s.seed), ("leader_health", Json.ofInt32 s.leaderHealth)]

end Setup

namespace Dice

/-- Reads the state of the dice. -/
def ofJson? (v : Json) : Option Dice := do
  let [seed, draws] ← slots? [["seed"], ["draws"]] v | none
  return { seed := ← required uint64? seed, draws := ← required uint64? draws }

/-- Writes the state of the dice. -/
def toJson (d : Dice) : Json :=
  .object [("seed", Json.ofUInt64 d.seed), ("draws", Json.ofUInt64 d.draws)]

end Dice

namespace JudgeInputs

/-- The keys of the judge's inputs. -/
def keys : List Key := [["dirtyPower"], ["probation"], ["judgeMood"], ["judgeHostility"]]

/-- Reads the judge's inputs; what is missing is zero. -/
def ofJson? (v : Json) : Option (JudgeInputs Float) := do
  let [dirtyPower, probation, mood, hostility] ← slots? keys v | none
  return {
    dirtyPower := ← withDefault 0 float? dirtyPower
    probation := ← withDefault 0 float? probation
    mood := ← withDefault 0 float? mood
    hostility := ← withDefault 0 float? hostility }

/-- Writes the judge's inputs. -/
def toJson (i : JudgeInputs Float) : Json :=
  .object [("dirtyPower", Json.ofFloat i.dirtyPower), ("probation", Json.ofFloat i.probation),
    ("judgeMood", Json.ofFloat i.mood), ("judgeHostility", Json.ofFloat i.hostility)]

end JudgeInputs

end CardDuel
