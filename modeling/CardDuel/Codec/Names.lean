import CardDuel.Json.Record
import CardDuel.Trigger
import CardDuel.Lane
import CardDuel.Side

/-!
# Names and ids in JSON

Sides, lanes, statuses, targets, events and conditions are written as their names; an id is written
as its bare number.

Lanes, statuses and targets also stand inside tagged values, where `ofField?` reads them.

Principal statements: `ofJson?_toJson` for each of them, a value that is written is read back, and
`ofField?_of_ofJson?`, what `ofJson?` reads is read inside a tagged value too.
-/

set_option autoImplicit false

namespace CardDuel

open Json (name? innerName? innerName?_of_name?)

/-! ## Writing -/

def Side.toJson (s : Side) : Json := .string s.spelling

def Lane.toJson (l : Lane) : Json := .string l.spelling

def Status.toJson (s : Status) : Json := .string s.spelling

def Target.toJson (t : Target) : Json := .string t.spelling

def Event.toJson (e : Event) : Json := .string e.spelling

def Condition.toJson (c : Condition) : Json := .string c.spelling

def UnitId.toJson (id : UnitId) : Json := Json.ofUInt32 id.raw

/-! ## Reading -/

def Side.ofJson? (v : Json) : Option Side := (name? v).bind Side.ofSpelling?

def Lane.ofJson? (v : Json) : Option Lane := (name? v).bind Lane.ofSpelling?

def Status.ofJson? (v : Json) : Option Status := (name? v).bind Status.ofSpelling?

def Target.ofJson? (v : Json) : Option Target := (name? v).bind Target.ofSpelling?

def Event.ofJson? (v : Json) : Option Event := (name? v).bind Event.ofSpelling?

def Condition.ofJson? (v : Json) : Option Condition := (name? v).bind Condition.ofSpelling?

def UnitId.ofJson? (v : Json) : Option UnitId := (Json.uint32? v).map UnitId.mk

/-! ## Reading inside tagged values -/

def Lane.ofField? (v : Json) : Option Lane := (innerName? v).bind Lane.ofSpelling?

def Status.ofField? (v : Json) : Option Status := (innerName? v).bind Status.ofSpelling?

def Target.ofField? (v : Json) : Option Target := (innerName? v).bind Target.ofSpelling?

/-- What is read of a name is read of the name inside a tagged value too. -/
theorem Json.bind_innerName?_of_bind_name? {α : Type} {read : String → Option α} {v : Json} {x : α}
    (h : (name? v).bind read = some x) : (innerName? v).bind read = some x := by
  obtain ⟨s, hs, hx⟩ := Option.bind_eq_some_iff.1 h
  exact Option.bind_eq_some_iff.2 ⟨s, innerName?_of_name? hs, hx⟩

theorem Lane.ofField?_of_ofJson? {v : Json} {l : Lane} (h : ofJson? v = some l) :
    ofField? v = some l :=
  Json.bind_innerName?_of_bind_name? h

theorem Status.ofField?_of_ofJson? {v : Json} {s : Status} (h : ofJson? v = some s) :
    ofField? v = some s :=
  Json.bind_innerName?_of_bind_name? h

theorem Target.ofField?_of_ofJson? {v : Json} {t : Target} (h : ofJson? v = some t) :
    ofField? v = some t :=
  Json.bind_innerName?_of_bind_name? h

/-! ## Reading back -/

@[simp]
theorem Side.ofJson?_toJson (s : Side) : ofJson? s.toJson = some s :=
  ofSpelling?_spelling s

@[simp]
theorem Lane.ofJson?_toJson (l : Lane) : ofJson? l.toJson = some l :=
  ofSpelling?_spelling l

@[simp]
theorem Status.ofJson?_toJson (s : Status) : ofJson? s.toJson = some s :=
  ofSpelling?_spelling s

@[simp]
theorem Target.ofJson?_toJson (t : Target) : ofJson? t.toJson = some t :=
  ofSpelling?_spelling t

@[simp]
theorem Event.ofJson?_toJson (e : Event) : ofJson? e.toJson = some e :=
  ofSpelling?_spelling e

@[simp]
theorem Condition.ofJson?_toJson (c : Condition) : ofJson? c.toJson = some c :=
  ofSpelling?_spelling c

@[simp]
theorem Json.uint32?_ofUInt32 (n : UInt32) : uint32? (ofUInt32 n) = some n := by
  have h : (0 : Int) ≤ n.toNat ∧ (n.toNat : Int) < UInt32.size :=
    ⟨Int.natCast_nonneg _, Int.ofNat_lt.2 n.toNat_lt_size⟩
  rw [ofUInt32, uint32?, if_pos h, Int.toNat_natCast, UInt32.ofNat_toNat]

@[simp]
theorem Json.uint64?_ofUInt64 (n : UInt64) : uint64? (ofUInt64 n) = some n := by
  have h : (0 : Int) ≤ n.toNat ∧ (n.toNat : Int) < UInt64.size :=
    ⟨Int.natCast_nonneg _, Int.ofNat_lt.2 n.toNat_lt_size⟩
  rw [ofUInt64, uint64?, if_pos h, Int.toNat_natCast, UInt64.ofNat_toNat]

@[simp]
theorem Json.int32?_ofInt32 (n : Int32) : int32? (ofInt32 n) = some n := by
  have hlo : Int32.minValue.toInt = -2147483648 := by decide
  have hhi : Int32.maxValue.toInt = 2147483647 := by decide
  have h₁ := n.le_toInt
  have h₂ := n.toInt_lt
  rw [ofInt32, int32?, if_pos (by omega), Int32.ofInt_toInt]

@[simp]
theorem UnitId.ofJson?_toJson (id : UnitId) : ofJson? id.toJson = some id := by
  simp [ofJson?, toJson, Json.uint32?_ofUInt32]

end CardDuel
