import CardBattle.Error
import CardBattle.Script.Language

/-!
# Card definitions
-/

namespace CardBattle

structure Ability where
  trigger : TriggerEvent
  effect : Script
  /-- The text that names the ability in the log. -/
  description : String
  deriving Inhabited

/-- What all copies of a card have in common. -/
structure CardDefinition where
  id : CardId
  name : String
  kind : CardKind
  /-- Energy to play or cast the card. -/
  cost : Int
  /-- Damage dealt in combat. -/
  attack : Int := 0
  /-- Health that permanents enter play with, and cannot exceed. -/
  health : Int := 0
  /-- Rules text. -/
  description : String := ""
  abilities : List Ability := []
  /-- The script of a spell. -/
  spellEffect : Option Script := none
  attackRules : AttackRules := {}
  deriving Inhabited

namespace CardDefinition

def creature (id : CardId) (name : String) (cost attack health : Int) : CardDefinition :=
  { id, name, kind := .creature, cost, attack, health }

def artifact (id : CardId) (name : String) (cost health : Int) : CardDefinition :=
  { id, name, kind := .artifact, cost, health }

def spell (id : CardId) (name : String) (cost : Int) (effect : Script) : CardDefinition :=
  { id, name, kind := .spell, cost, spellEffect := some effect }

/-- The abilities that listen for an event, in the order of the definition. -/
def abilitiesFor (d : CardDefinition) (event : TriggerEvent) : List Ability :=
  d.abilities.filter fun a => a.trigger = event

/-- Whether the card strikes back when attacked: creatures with positive attack do. -/
def canCounter (d : CardDefinition) : Bool :=
  decide (d.kind = .creature ∧ 0 < d.attack)

/-- The first fault of a definition, if it has one. -/
def fault? (d : CardDefinition) : Option CardFault :=
  if d.cost < 0 then some (.negativeCost d.name)
  else if d.attack < 0 then some (.negativeAttack d.name)
  else if d.kind.isPermanent ∧ d.health ≤ 0 then some (.noHealth d.name)
  else if d.kind = .spell ∧ d.spellEffect.isNone then some (.noEffect d.name)
  else none

def validate (d : CardDefinition) : Except CatalogError Unit :=
  match d.fault? with
  | some fault => .error (.invalid fault)
  | none => .ok ()

end CardDefinition

end CardBattle
