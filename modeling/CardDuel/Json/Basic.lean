/-!
# JSON values

A JSON text denotes a `Json` tree.  Integers and other numbers are kept apart, because only an
integer literal can fill an integer field; object members stay in the order of the text, repeated
keys included, so that a reader can refuse a key that is given twice.

Some well-formed texts denote no value: a string with half of a surrogate pair, a number beyond
the range of a float, a tree nested deeper than `maxDepth`.  They are `unreadable`.  A reader that
looks at such a value refuses it and a reader that skips it never notices, so the tree keeps it as
a leaf.

Principal statements: `readable_array_iff`, `readable_object_iff` (what it means that nothing
unreadable is left in a tree).
-/

set_option autoImplicit false

namespace CardDuel

/-- The value of a JSON text. -/
inductive Json where
  | null
  | bool (b : Bool)
  | integer (i : Int)
  | float (x : Float)
  | string (s : String)
  | array (items : List Json)
  | object (members : List (String × Json))
  | unreadable
  deriving Inhabited

namespace Json

/-- Arrays and objects may be nested this deep and still be read. -/
def maxDepth : Nat := 127

/-! ## Trees without an unreadable part -/

mutual

/-- Whether the tree holds no unreadable leaf. -/
def readable : Json → Bool
  | .unreadable => false
  | .array items => readableItems items
  | .object members => readableMembers members
  | _ => true

/-- `readable` for every item. -/
def readableItems : List Json → Bool
  | [] => true
  | item :: items => item.readable && readableItems items

/-- `readable` for the value of every member. -/
def readableMembers : List (String × Json) → Bool
  | [] => true
  | (_, value) :: members => value.readable && readableMembers members

end

theorem readableItems_iff (items : List Json) :
    readableItems items = true ↔ ∀ item ∈ items, item.readable = true := by
  induction items with
  | nil => simp [readableItems]
  | cons item items ih => simp [readableItems, ih]

theorem readableMembers_iff (members : List (String × Json)) :
    readableMembers members = true ↔ ∀ m ∈ members, m.2.readable = true := by
  induction members with
  | nil => simp [readableMembers]
  | cons m members ih => simp [readableMembers, ih]

theorem readable_array_iff (items : List Json) :
    (Json.array items).readable = true ↔ ∀ item ∈ items, item.readable = true := by
  rw [readable, readableItems_iff]

theorem readable_object_iff (members : List (String × Json)) :
    (Json.object members).readable = true ↔ ∀ m ∈ members, m.2.readable = true := by
  rw [readable, readableMembers_iff]

end Json

end CardDuel
