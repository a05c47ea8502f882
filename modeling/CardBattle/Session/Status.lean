/-!
# Stages of a game
-/

namespace CardBattle

/-- A game waits for decks, is played, and is finished for good. -/
inductive Status where
  | waiting
  | playing
  | finished
  deriving DecidableEq, Repr, Inhabited

def Status.text : Status → String
  | .waiting => "Waiting"
  | .playing => "Playing"
  | .finished => "Finished"

end CardBattle
