import CardDuel.Json.Numeral
import CardDuel.Json.Quoted

/-!
# JSON tokens

The lexer runs over the characters with a small state: between tokens, inside a word, or inside a
string.  A word is a longest run of characters that are neither blank nor punctuation; it must be
`null`, `true`, `false` or a number literal.
-/

set_option autoImplicit false

namespace CardDuel.Json

/-- A lexical element of a JSON text.  The text of a string is absent when it is unreadable. -/
inductive Token where
  | openArray
  | closeArray
  | openObject
  | closeObject
  | comma
  | colon
  | text (s : Option String)
  | scalar (value : Json)

namespace Token

/-- The four characters that may stand between tokens. -/
def isBlank (c : Char) : Bool :=
  c == ' ' || c == '\t' || c == '\n' || c == '\r'

/-- The token that one character makes. -/
def punctuation? : Char → Option Token
  | '[' => some .openArray
  | ']' => some .closeArray
  | '\x7b' => some .openObject
  | '\x7d' => some .closeObject
  | ',' => some .comma
  | ':' => some .colon
  | _ => none

/-- The token that a word makes. -/
def word? (cs : List Char) : Option Token :=
  if cs = ['n', 'u', 'l', 'l'] then some (.scalar .null)
  else if cs = ['t', 'r', 'u', 'e'] then some (.scalar (.bool true))
  else if cs = ['f', 'a', 'l', 's', 'e'] then some (.scalar (.bool false))
  else (Numeral.ofChars? cs).map fun n => .scalar n.value

/-- Where the lexer stands; the characters of the open element are kept newest first. -/
inductive Place where
  | between
  | word (cs : List Char)
  | quoted (cs : List Char) (escaped : Bool)

/-- The lexer's place and the tokens found so far, newest first. -/
structure Lexer where
  place : Place
  found : List Token

/-- Reads one character outside of words and strings. -/
def Lexer.start (found : List Token) (c : Char) : Lexer :=
  if isBlank c then ⟨.between, found⟩
  else if c = '"' then ⟨.quoted [] false, found⟩
  else match punctuation? c with
    | some t => ⟨.between, t :: found⟩
    | none => ⟨.word [c], found⟩

/-- Reads one character. -/
def Lexer.step (l : Lexer) (c : Char) : Option Lexer :=
  match l.place with
  | .between => some (.start l.found c)
  | .word cs =>
    if isBlank c || c == '"' || (punctuation? c).isSome then do
      let t ← word? cs.reverse
      return .start (t :: l.found) c
    else some ⟨.word (c :: cs), l.found⟩
  | .quoted cs true => some ⟨.quoted (c :: cs) false, l.found⟩
  | .quoted cs false =>
    if c = '"' then do
      let s ← Quoted.decode cs.reverse
      return ⟨.between, .text s :: l.found⟩
    else some ⟨.quoted (c :: cs) (c == '\\'), l.found⟩

/-- Closes the last element; an open string has no end. -/
def Lexer.finish? (l : Lexer) : Option (List Token) :=
  match l.place with
  | .between => some l.found.reverse
  | .word cs => do
    let t ← word? cs.reverse
    return (t :: l.found).reverse
  | .quoted .. => none

/-- The tokens of a text. -/
def scan? (text : String) : Option (List Token) := do
  let l ← text.toList.foldlM Lexer.step ⟨.between, []⟩
  l.finish?

end Token

end CardDuel.Json
