import CardDuel.Json.Basic

/-!
# Records, tagged values and names in JSON

Three shapes carry the domain's data.

* A *record* is an object whose known keys are looked up wherever they stand, or an array with the
  fields in order, of which the last may be missing.  A key may have two spellings; a known key
  that is given twice is refused and unknown keys are skipped.
* A *tagged value* is a record with a `kind`: a member of the object, or the first item of the
  array.  Nothing in it may be unreadable, skipped members included.
* A *name* is a string, or an object with the name as its only key and `null` behind it.  Inside a
  tagged value an empty object behind the name does as well.

A record is first turned into its slots (`slots?`), one optional value for each field, so a field
that is missing from an object and one that is missing from an array are the same thing.

Principal statements: `member?_perm` and `slots?_perm` (the order of members does not matter),
`member?_filter` (members under other keys do not matter), `innerName?_of_name?` (a name is a name
inside a tagged value too).
-/

set_option autoImplicit false

namespace CardDuel.Json

/-- The spellings of one key. -/
abbrev Key := List String

/-- The value under a key: `none` when the key is given twice, `some none` when it is missing. -/
def member? (key : Key) (members : List (String × Json)) : Option (Option Json) :=
  match members.filter fun m => key.contains m.1 with
  | [] => some none
  | [m] => some (some m.2)
  | _ => none

/-- The fields of a record; a field may be missing. -/
abbrev Slots := List (Option Json)

/-- The slots of the fields with the given keys. -/
def slots? (keys : List Key) : Json → Option Slots
  | .object members => keys.mapM fun key => member? key members
  | .array items =>
    if items.length ≤ keys.length then
      some (items.map some ++ List.replicate (keys.length - items.length) none)
    else none
  | _ => none

/-- The kind of a tagged value, and the record that holds its fields. -/
def tagged? (v : Json) : Option (String × Json) :=
  if v.readable then
    match v with
    | .object members => do
      let some (.string kind) ← member? ["kind"] members | none
      return (kind, .object members)
    | .array (.string kind :: items) => some (kind, .array items)
    | _ => none
  else none

/-! ## Fields -/

/-- A field that must be given. -/
def required {α : Type} (read? : Json → Option α) (slot : Option Json) : Option α :=
  slot.bind read?

/-- A field with a value for when it is missing. -/
def withDefault {α : Type} (default : α) (read? : Json → Option α) : Option Json → Option α
  | none => some default
  | some v => read? v

/-- A value for which `null` stands for none. -/
def nullable? {α : Type} (read? : Json → Option α) : Json → Option (Option α)
  | .null => some none
  | v => (read? v).map some

/-- A field that may be missing or `null`. -/
def optional {α : Type} (read? : Json → Option α) (slot : Option Json) : Option (Option α) :=
  withDefault none (nullable? read?) slot

/-! ## Values -/

/-- The items of an array, each read. -/
def list? {α : Type} (read? : Json → Option α) : Json → Option (List α)
  | .array items => items.mapM read?
  | _ => none

/-- A string. -/
def string? : Json → Option String
  | .string s => some s
  | _ => none

/-- A boolean. -/
def bool? : Json → Option Bool
  | .bool b => some b
  | _ => none

/-- A number; an integer becomes the nearest float. -/
def float? : Json → Option Float
  | .integer i => some (Float.ofInt i)
  | .float x => some x
  | _ => none

/-- An unsigned 32-bit integer. -/
def uint32? : Json → Option UInt32
  | .integer i => if 0 ≤ i ∧ i < UInt32.size then some (.ofNat i.toNat) else none
  | _ => none

/-- An unsigned 64-bit integer. -/
def uint64? : Json → Option UInt64
  | .integer i => if 0 ≤ i ∧ i < UInt64.size then some (.ofNat i.toNat) else none
  | _ => none

/-- A signed 32-bit integer. -/
def int32? : Json → Option Int32
  | .integer i =>
    if Int32.minValue.toInt ≤ i ∧ i ≤ Int32.maxValue.toInt then some (.ofInt i) else none
  | _ => none

/-- The text of a name. -/
def name? : Json → Option String
  | .string s => some s
  | .object [(s, .null)] => some s
  | _ => none

/-- The text of a name inside a tagged value. -/
def innerName? : Json → Option String
  | .object [(s, .object [])] => some s
  | v => name? v

theorem innerName?_of_name? {v : Json} {s : String} (h : name? v = some s) :
    innerName? v = some s := by
  unfold innerName?
  split
  · simp only [name?, reduceCtorEq] at h
  · exact h

/-! ## Writing -/

/-- An unsigned 32-bit integer as JSON. -/
def ofUInt32 (n : UInt32) : Json := .integer n.toNat

/-- An unsigned 64-bit integer as JSON. -/
def ofUInt64 (n : UInt64) : Json := .integer n.toNat

/-- A signed 32-bit integer as JSON. -/
def ofInt32 (n : Int32) : Json := .integer n.toInt

/-- A float as JSON; one that is not finite has no number and is written as `null`. -/
def ofFloat (x : Float) : Json := if x.isFinite then .float x else .null

/-- A value or `null`. -/
def ofOption {α : Type} (write : α → Json) : Option α → Json
  | none => .null
  | some a => write a

/-- A list as JSON. -/
def ofList {α : Type} (write : α → Json) (xs : List α) : Json := .array (xs.map write)

/-- A member that is written only for a value that is there. -/
def memberOfOption {α : Type} (key : String) (write : α → Json) :
    Option α → List (String × Json)
  | none => []
  | some a => [(key, write a)]

/-- A member that is written only for a list that is not empty. -/
def memberOfList {α : Type} (key : String) (write : α → Json) :
    List α → List (String × Json)
  | [] => []
  | x :: xs => [(key, ofList write (x :: xs))]

/-! ## Order and unknown members -/

theorem member?_perm (key : Key) {ms ms' : List (String × Json)} (h : ms.Perm ms') :
    member? key ms = member? key ms' := by
  have hp := h.filter fun m => key.contains m.1
  unfold member?
  generalize ms.filter _ = xs at hp
  generalize ms'.filter _ = ys at hp
  match xs, ys, hp.length_eq with
  | [], [], _ => rfl
  | [x], [y], _ => simp [List.singleton_perm_singleton.1 hp]
  | _ :: _ :: _, _ :: _ :: _, _ => rfl

/-- Members under keys that are not asked for do not matter. -/
theorem member?_filter (key : Key) (p : String × Json → Bool) (ms : List (String × Json))
    (h : ∀ m ∈ ms, key.contains m.1 = true → p m = true) :
    member? key (ms.filter p) = member? key ms := by
  have : (ms.filter p).filter (fun m => key.contains m.1) =
      ms.filter fun m => key.contains m.1 := by
    rw [List.filter_filter]
    exact List.filter_congr fun m hm => by
      by_cases hk : key.contains m.1 = true
      · simp only [hk, h m hm hk, Bool.and_self]
      · simp only [Bool.eq_false_iff.2 hk, Bool.false_and]
  simp only [member?, this]

theorem slots?_perm (keys : List Key) {ms ms' : List (String × Json)} (h : ms.Perm ms') :
    slots? keys (.object ms) = slots? keys (.object ms') := by
  simp only [slots?, member?_perm _ h]

end CardDuel.Json
