import CardDuel.Json.Token

/-!
# Reading JSON texts

`Json.parse?` folds the tokens of a text over a stack of open arrays and objects, so nesting costs
no recursion and a text may be nested as deep as it likes; what lies deeper than `Json.maxDepth`
is `unreadable`.
-/

set_option autoImplicit false

namespace CardDuel.Json

/-- An array or object that is still open, with its contents newest first.  An object whose keys
are not all legible is as a whole unreadable. -/
inductive Frame where
  | array (items : List Json)
  | object (members : List (String × Json)) (legible : Bool) (key : Option String)

/-- What the next token may be. -/
inductive Expecting where
  | value
  | valueOrClose
  | key
  | keyOrClose
  | colon
  | separator
  | nothing (result : Json)

/-- The open frames, innermost first, and what comes next. -/
structure Reader where
  stack : List Frame
  expecting : Expecting

namespace Reader

/-- Puts a finished value where it belongs. -/
def place (v : Json) : List Frame → Reader
  | [] => ⟨[], .nothing v⟩
  | .array items :: stack => ⟨.array (v :: items) :: stack, .separator⟩
  | .object members legible none :: stack => ⟨.object members legible none :: stack, .separator⟩
  | .object members legible (some k) :: stack =>
    ⟨.object ((k, v) :: members) legible none :: stack, .separator⟩

/-- Whether a frame inside the given ones is not nested too deep. -/
def shallow (outer : List Frame) : Bool := (outer.drop (maxDepth - 1)).isEmpty

/-- The value of a frame that closes inside the given ones. -/
def close (outer : List Frame) : Frame → Json
  | .array items => if shallow outer then .array items.reverse else .unreadable
  | .object members legible _ =>
    if shallow outer && legible then .object members.reverse else .unreadable

/-- Opens a frame, or places a scalar, where a value may stand. -/
def value? (stack : List Frame) : Token → Option Reader
  | .openArray => some ⟨.array [] :: stack, .valueOrClose⟩
  | .openObject => some ⟨.object [] true none :: stack, .keyOrClose⟩
  | .text none => some (place .unreadable stack)
  | .text (some s) => some (place (.string s) stack)
  | .scalar v => some (place v stack)
  | _ => none

/-- Takes a key where a member may start. -/
def key? : List Frame → Token → Option Reader
  | .object members legible _ :: stack, .text s =>
    some ⟨.object members (legible && s.isSome) s :: stack, .colon⟩
  | _, _ => none

/-- Closes the innermost frame with the token that fits it. -/
def close? : List Frame → Token → Option Reader
  | .array items :: stack, .closeArray => some (place (close stack (.array items)) stack)
  | .object members legible k :: stack, .closeObject =>
    some (place (close stack (.object members legible k)) stack)
  | _, _ => none

/-- Takes the token after a value inside a frame. -/
def separator? : List Frame → Token → Option Reader
  | .array items :: stack, .comma => some ⟨.array items :: stack, .value⟩
  | .object members legible k :: stack, .comma => some ⟨.object members legible k :: stack, .key⟩
  | stack, t => close? stack t

/-- Reads one token. -/
def step (r : Reader) (t : Token) : Option Reader :=
  match r.expecting with
  | .value => value? r.stack t
  | .valueOrClose => (close? r.stack t).or (value? r.stack t)
  | .key => key? r.stack t
  | .keyOrClose => (close? r.stack t).or (key? r.stack t)
  | .colon => match t with
    | .colon => some ⟨r.stack, .value⟩
    | _ => none
  | .separator => separator? r.stack t
  | .nothing _ => none

/-- The value that was read, once nothing is open. -/
def result? (r : Reader) : Option Json :=
  match r.expecting with
  | .nothing v => some v
  | _ => none

end Reader

/-- The value of a JSON text; `none` for a text that is not well formed. -/
def parse? (text : String) : Option Json := do
  let tokens ← Token.scan? text
  let r ← tokens.foldlM Reader.step ⟨[], .value⟩
  r.result?

end CardDuel.Json
