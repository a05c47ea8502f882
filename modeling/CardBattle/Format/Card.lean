import CardBattle.Card.Instance
import CardBattle.Catalog
import CardBattle.Format.Script
import CardBattle.Json.Reader

/-!
# Written forms of cards
-/

namespace CardBattle

open Json

namespace Ability

def toJson (a : Ability) : Json :=
  .obj [
    ("trigger", a.trigger.toJson),
    ("effect", a.effect.toJson),
    ("description", .str a.description)]

def ofJson? (medium : Medium) (j : Json) : Option Ability := do
  let r ← j.record? ["trigger", "effect", "description"]
  let trigger ← r.required "trigger" TriggerEvent.ofJson?
  let effect ← r.required "effect" (Script.ofJson? medium)
  let description ← r.required "description" string?
  return { trigger, effect, description }

end Ability

namespace CardDefinition

def fieldNames : List String :=
  ["id", "name", "kind", "cost", "attack", "health", "description", "triggered_abilities",
    "spell_effect", "attack_targeting"]

def toJson (d : CardDefinition) : Json :=
  .obj [
    ("id", d.id.toJson),
    ("name", .str d.name),
    ("kind", d.kind.toJson),
    ("cost", .int d.cost),
    ("attack", .int d.attack),
    ("health", .int d.health),
    ("description", .str d.description),
    ("triggered_abilities", ofList Ability.toJson d.abilities),
    ("spell_effect", ofOption Script.toJson d.spellEffect),
    ("attack_targeting", d.attackRules.toJson)]

/-- The fields from `attack` on have defaults. -/
def ofJson? (medium : Medium) (j : Json) : Option CardDefinition := do
  let r ← j.record? fieldNames
  let id ← r.required "id" CardId.ofJson?
  let name ← r.required "name" string?
  let kind ← r.required "kind" CardKind.ofJson?
  let cost ← r.required "cost" word?
  let attack ← r.withDefault "attack" 0 word?
  let health ← r.withDefault "health" 0 word?
  let description ← r.withDefault "description" "" string?
  let abilities ← r.withDefault "triggered_abilities" [] (list? (Ability.ofJson? medium))
  let spellEffect ← r.withDefault "spell_effect" none (nullable? (Script.ofJson? medium))
  let attackRules ← r.withDefault "attack_targeting" {} AttackRules.ofJson?
  return { id, name, kind, cost, attack, health, description, abilities, spellEffect,
           attackRules }

end CardDefinition

namespace CardInstance

def toJson (c : CardInstance) : Json :=
  .obj [
    ("instance_id", c.id.toJson),
    ("card_id", c.card.toJson),
    ("owner", c.owner.toJson),
    ("current_health", .int c.health),
    ("sapped", .bool c.sapped)]

def ofJson? (j : Json) : Option CardInstance := do
  let r ← j.record? ["instance_id", "card_id", "owner", "current_health", "sapped"]
  let id ← r.required "instance_id" InstanceId.ofJson?
  let card ← r.required "card_id" CardId.ofJson?
  let owner ← r.required "owner" Seat.ofJson?
  let health ← r.required "current_health" word?
  let sapped ← r.required "sapped" bool?
  return { id, card, owner, health, sapped }

end CardInstance

def Script.read? (text : String) : Option Script :=
  (Json.read? text).bind (Script.ofJson? .file)

def CardDefinition.read? (text : String) : Option CardDefinition :=
  (Json.read? text).bind (CardDefinition.ofJson? .file)

/-- Reads a catalog from a text, an array of definitions that are registered in order. -/
def Catalog.read (text : String) : Except CatalogError Catalog :=
  match (Json.read? text).bind (list? (CardDefinition.ofJson? .file)) with
  | none => .error (@CatalogError.unreadable "not a list of card definitions")
  | some ds => Catalog.empty.registerAll ds

end CardBattle
