import CardBattle.Config
import CardBattle.Word
import CardBattle.Zone

/-!
# Players
-/

namespace CardBattle

structure Player where
  id : Seat
  name : String
  health : Int
  maxHealth : Int
  energy : Int
  maxEnergy : Int
  zones : Zones
  /-- The definitions that the deck is built from; empty until a deck is handed in. -/
  deckList : List CardId
  deriving DecidableEq, Repr, Inhabited

namespace Player

/-- A player before the game: no cards, and the resources that the settings give. -/
def ofConfig (id : Seat) (name : String) (config : Config) : Player where
  id := id
  name := name
  health := config.startingHealth
  maxHealth := config.startingHealth
  energy := config.startingEnergy
  maxEnergy := config.startingEnergy
  zones := Zones.empty
  deckList := []

/-- Damage lowers health to 0 at most. Health is never below 0, so that the difference is a word. -/
def takeDamage (p : Player) (amount : Int) : Player :=
  { p with health := max (lessened p.health amount) 0 }

/-- Healing raises health to the greatest at most, and never lowers it. -/
def heal (p : Player) (amount : Int) : Player :=
  { p with health := max (min (toWord (increased p.health amount)) p.maxHealth) p.health }

/-- Pays a cost; refused if the player has less energy. A negative cost is free. -/
def spendEnergy (p : Player) (cost : Int) : Except GameError Player :=
  if p.energy < cost then .error (.insufficientEnergy cost p.energy)
  else .ok { p with energy := p.energy - max cost 0 }

/-- Gains energy up to the greatest, and never loses any. -/
def gainEnergy (p : Player) (amount : Int) : Player :=
  { p with energy := max (min (toWord (increased p.energy amount)) p.maxEnergy) p.energy }

/-- Raises the greatest energy up to a cap; what exceeds the cap is lost. -/
def raiseMaxEnergy (p : Player) (amount cap : Int) : Player :=
  let maxEnergy := max (min (toWord (increased p.maxEnergy amount)) cap) (min p.maxEnergy cap)
  { p with maxEnergy, energy := min p.energy maxEnergy }

def restoreEnergy (p : Player) : Player :=
  { p with energy := p.maxEnergy }

def isDefeated (p : Player) : Bool :=
  decide (p.health ≤ 0)

theorem takeDamage_nonneg (p : Player) (amount : Int) : 0 ≤ (p.takeDamage amount).health := by
  simp only [takeDamage]
  omega

theorem health_le_heal (p : Player) (amount : Int) : p.health ≤ (p.heal amount).health := by
  simp only [heal]
  omega

end Player

end CardBattle
