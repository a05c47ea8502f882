/-!
# Kinds of card
-/

namespace CardBattle

/-- A creature fights, an artifact stays in play, a spell acts once. -/
inductive CardKind where
  | creature
  | spell
  | artifact
  deriving DecidableEq, Repr, Inhabited

/-- Permanents are the cards that may lie on a battlefield. -/
def CardKind.isPermanent : CardKind → Bool
  | .creature => true
  | .spell => false
  | .artifact => true

def CardKind.text : CardKind → String
  | .creature => "Creature"
  | .spell => "Spell"
  | .artifact => "Artifact"

inductive TriggerEvent where
  | startTurn
  | endTurn
  | playCard
  | dealDamage
  | takeDamage
  deriving DecidableEq, Repr, Inhabited

def TriggerEvent.all : List TriggerEvent :=
  [.startTurn, .endTurn, .playCard, .dealDamage, .takeDamage]

end CardBattle
