import CardDuel.BoardUnit

/-!
# Requests to a host

The rules own no match state.  Whatever they learn or change goes through a request to the host of
the match, which answers it before the rules go on.  The host decides how far a heal or a change of
attack goes, whether a status is resisted, and how randomness is made.
-/

set_option autoImplicit false

namespace CardDuel

/-- A request.  The label of a random choice keys the draw.  A stun lasts before its expiry,
exposure and an attack penalty through it.  The answers to a heal and to a change of attack are by
how much the number changed, to a cleanse how many statuses were active, to a stun or an exposure
whether it was not resisted; an empty deck gives no card. -/
inductive Request where
  | unitIds (side : Side) (lane : Option Lane)
  | unit (id : UnitId)
  | pickRandom (candidates : List UnitId) (label : String)
  | pickLowestHealth (candidates : List UnitId)
  | healUnit (id : UnitId) (amount : UInt32)
  | addShield (id : UnitId) (amount : UInt32)
  | cleanse (id : UnitId) (statuses : List Status)
  | applyStun (id : UnitId) (expiry : UInt32) (source : String)
  | applyExposed (id : UnitId) (expiry : UInt32) (source : String)
  | applyAttackPenalty (id : UnitId) (magnitude expiry : UInt32) (source : String)
  | modifyAttack (id : UnitId) (delta : Int32)
  | gainShares (side : Side) (amount : UInt32)
  | healLeader (side : Side) (amount : UInt32)
  | drawCard (side : Side)
  | log (line : String)
  deriving DecidableEq, Repr

namespace Request

/-- The type of the answers to a request. -/
@[reducible]
def Answer : Request → Type
  | unitIds .. => List UnitId
  | unit .. => Option BoardUnit
  | pickRandom .. => Option UnitId
  | pickLowestHealth .. => Option UnitId
  | healUnit .. => UInt32
  | addShield .. => Unit
  | cleanse .. => UInt32
  | applyStun .. => Bool
  | applyExposed .. => Bool
  | applyAttackPenalty .. => Unit
  | modifyAttack .. => Int32
  | gainShares .. => Unit
  | healLeader .. => UInt32
  | drawCard .. => Option String
  | log .. => Unit

/-- Whether a request only reads. -/
def isRead : Request → Bool
  | unitIds .. | unit .. => true
  | _ => false

end Request

/-- A request together with its answer. -/
structure Exchange where
  request : Request
  answer : request.Answer

end CardDuel
