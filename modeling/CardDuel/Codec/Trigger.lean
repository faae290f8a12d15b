import CardDuel.Codec.Names

/-!
# Actions and triggers in JSON

An action is a tagged value, a trigger is a record.  A cleanse without a list of statuses and one
with an empty list are different things and are written differently.
-/

set_option autoImplicit false

namespace CardDuel

open Json (Key Slots slots? required optional withDefault nullable? int32? list? string?)

namespace Action

/-- The keys of an action of each kind. -/
def keys : ActionKind → List Key
  | .gainShield | .heal | .modifyAttack => [["target"], ["amount"]]
  | .gainShares | .drawCard => [["amount"]]
  | .cleanse => [["target"], ["statuses"]]
  | .applyStatus => [["target"], ["status"], ["turns"]]

/-- The action of a kind with the given fields. -/
def ofSlots? : ActionKind → Slots → Option Action
  | .gainShield, [t, n] => return .gainShield (← required Target.ofField? t) (← required int32? n)
  | .heal, [t, n] => return .heal (← required Target.ofField? t) (← required int32? n)
  | .modifyAttack, [t, n] =>
    return .modifyAttack (← required Target.ofField? t) (← required int32? n)
  | .gainShares, [n] => return .gainShares (← required int32? n)
  | .drawCard, [n] => return .drawCard (← required int32? n)
  | .cleanse, [t, ss] =>
    return .cleanse (← required Target.ofField? t) (← optional (list? Status.ofField?) ss)
  | .applyStatus, [t, s, n] =>
    return .applyStatus (← required Target.ofField? t) (← required Status.ofField? s)
      (← required int32? n)
  | _, _ => none

/-- Reads an action. -/
def ofJson? (v : Json) : Option Action := do
  let (name, record) ← Json.tagged? v
  let kind ← ActionKind.ofSpelling? name
  ofSlots? kind (← slots? (keys kind) record)

/-- The members of an action beside its kind. -/
def members : Action → List (String × Json)
  | .gainShield t n | .heal t n | .modifyAttack t n =>
    [("target", t.toJson), ("amount", Json.ofInt32 n)]
  | .gainShares n | .drawCard n => [("amount", Json.ofInt32 n)]
  | .cleanse t ss =>
    ("target", t.toJson) :: Json.memberOfOption "statuses" (Json.ofList Status.toJson) ss
  | .applyStatus t s n =>
    [("target", t.toJson), ("status", s.toJson), ("turns", Json.ofInt32 n)]

/-- Writes an action. -/
def toJson (a : Action) : Json :=
  .object (("kind", .string a.kind.spelling) :: a.members)

end Action

namespace Trigger

/-- The keys of a trigger. -/
def keys : List Key := [["when"], ["actions"], ["requires"], ["note"]]

/-- Reads a trigger. -/
def ofJson? (v : Json) : Option Trigger := do
  let [event, actions, conditions, note] ← slots? keys v | none
  return {
    event := ← required Event.ofJson? event
    actions := ← required (list? Action.ofJson?) actions
    conditions := ← withDefault [] (list? Condition.ofJson?) conditions
    note := ← optional string? note }

/-- Writes a trigger. -/
def toJson (t : Trigger) : Json :=
  .object ([("when", t.event.toJson), ("actions", Json.ofList Action.toJson t.actions)] ++
    Json.memberOfList "requires" Condition.toJson t.conditions ++
    Json.memberOfOption "note" .string t.note)

end Trigger

end CardDuel
