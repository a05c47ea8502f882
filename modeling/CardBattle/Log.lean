import CardBattle.Target

/-!
# The log of a game

Every transition that players should see appends one entry. Entries are never changed or removed.
-/

namespace CardBattle

inductive LogAction where
  | gameStart
  | gameEnd
  | playCard
  | castSpell
  | attack
  | endTurn
  | startTurn
  | drawCard
  | ability
  | abilityFailed
  | damage
  | heal
  | destroy
  | gainEnergy
  /-- A line written by a script. -/
  | effect
  /-- A refused action. -/
  | failure
  deriving DecidableEq, Repr, Inhabited

structure LogEntry where
  /-- The player the entry is about. -/
  player : Seat
  action : LogAction
  amount : Option Int := none
  target : Option Target := none
  description : String
  /-- Milliseconds on the clock of the game. -/
  timestamp : Nat
  deriving DecidableEq, Repr

end CardBattle
