import CardBattle.Error

/-!
# Settings of a game
-/

namespace CardBattle

/-- The numbers a game is played with, and the limits of its scripts. -/
structure Config where
  /-- Health that every player starts with, and cannot exceed. -/
  startingHealth : Int := 30
  /-- Energy that every player starts with. -/
  startingEnergy : Int := 1
  /-- Growth of the greatest energy with each round. -/
  energyPerRound : Int := 1
  /-- Bound of the greatest energy. -/
  maxEnergyCap : Int := 10
  /-- Cards that each player draws when the game starts. -/
  startingHandSize : Nat := 3
  /-- Health that creatures regain at the start of their owner's turn. -/
  creatureRegen : Int := 1
  /-- Evaluation steps that a script may use. -/
  stepBudget : Nat := 10000
  /-- Greatest nesting of blocks and expressions in a script. -/
  maxDepth : Nat := 32
  /-- Seed of the shuffles. -/
  seed : UInt64 := 0
  deriving DecidableEq, Repr, Inhabited

namespace Config

/-- The first fault of the settings, if they have one. -/
def fault? (c : Config) : Option ConfigFault :=
  if c.startingHealth ≤ 0 then some .startingHealth
  else if c.startingEnergy < 0 ∨ c.energyPerRound < 0 ∨ c.creatureRegen < 0 then
    some .negativeGain
  else if c.maxEnergyCap < c.startingEnergy then some .capBelowStart
  else if c.stepBudget = 0 ∨ c.maxDepth = 0 then some .zeroLimit
  else none

def validate (c : Config) : Except GameError Unit :=
  match c.fault? with
  | some fault => .error (.invalidConfig fault)
  | none => .ok ()

end Config

end CardBattle
