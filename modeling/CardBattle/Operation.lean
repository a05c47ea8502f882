import CardBattle.Identity

/-!
# Operations

Scripts change games through a queue of operations, applied when the script is done.
-/

namespace CardBattle

inductive Operation where
  | damagePlayer (player : Seat) (amount : Int)
  | damageCard (card : InstanceId) (amount : Int)
  | healPlayer (player : Seat) (amount : Int)
  /-- The greatest health is that of the definition when the operation was queued. -/
  | healCard (card : InstanceId) (amount greatest : Int)
  | destroyCard (card : InstanceId)
  | log (player : Seat) (text : String)
  | drawCard (player : Seat)
  | gainEnergy (player : Seat) (amount : Int)
  deriving DecidableEq, Repr

/-- The card that an operation acts on, if it acts on one. -/
def Operation.card? : Operation → Option InstanceId
  | damageCard card _ => some card
  | healCard card _ _ => some card
  | destroyCard card => some card
  | _ => none

end CardBattle
