import CardBattle.Card.Definition
import CardBattle.Word

/-!
# Card instances

An instance is one copy of a card in a session. Where it lies is not part of it: the zones of its
owner say so.
-/

namespace CardBattle

structure CardInstance where
  id : InstanceId
  card : CardId
  owner : Seat
  health : Int
  /-- Whether it has acted this turn. -/
  sapped : Bool
  deriving DecidableEq, Repr

namespace CardInstance

/-- A fresh copy has the health of its definition and may act. -/
def ofDefinition (id : InstanceId) (d : CardDefinition) (owner : Seat) : CardInstance :=
  { id, card := d.id, owner, health := d.health, sapped := false }

/-- Damage lowers health to 0 at most; a negative amount does nothing but lift health to 0. -/
def takeDamage (c : CardInstance) (amount : Int) : CardInstance :=
  { c with health := max (lessened c.health amount) 0 }

/-- Healing raises health to the greatest at most, and never lowers it. -/
def heal (c : CardInstance) (amount greatest : Int) : CardInstance :=
  { c with health := max (min (toWord (increased c.health amount)) greatest) c.health }

def isDead (c : CardInstance) : Bool :=
  decide (c.health ≤ 0)

/-- Marks that the card has acted. -/
def sap (c : CardInstance) : CardInstance :=
  { c with sapped := true }

def refresh (c : CardInstance) : CardInstance :=
  { c with sapped := false }

theorem takeDamage_nonneg (c : CardInstance) (amount : Int) : 0 ≤ (c.takeDamage amount).health := by
  simp only [takeDamage]
  omega

theorem health_le_heal (c : CardInstance) (amount greatest : Int) :
    c.health ≤ (c.heal amount greatest).health := by
  simp only [heal]
  omega

end CardInstance

end CardBattle
