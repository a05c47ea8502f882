import CardBattle.Format.Target
import CardBattle.Operation
import CardBattle.Script.Invocation

/-!
# Written forms of operations, damage events and settings

An operation is written as a record whose field `type` names it; in an array the name comes first.
-/

namespace CardBattle

open Json

namespace Operation

def toJson : Operation → Json
  | .damagePlayer player amount => .obj [
    ("type", .str "damage_player"), ("player", player.toJson), ("amount", .int amount)]
  | .damageCard card amount => .obj [
    ("type", .str "damage_creature"), ("instance", card.toJson), ("amount", .int amount)]
  | .healPlayer player amount => .obj [
    ("type", .str "heal_player"), ("player", player.toJson), ("amount", .int amount)]
  | .healCard card amount greatest => .obj [
    ("type", .str "heal_creature"), ("instance", card.toJson), ("amount", .int amount),
    ("max_health", .int greatest)]
  | .destroyCard card => .obj [("type", .str "destroy_creature"), ("instance", card.toJson)]
  | .log player text => .obj [
    ("type", .str "log"), ("player", player.toJson), ("description", .str text)]
  | .drawCard player => .obj [("type", .str "draw_card"), ("player", player.toJson)]
  | .gainEnergy player amount => .obj [
    ("type", .str "gain_energy"), ("player", player.toJson), ("amount", .int amount)]

/-- The name of an operation and the value that holds its fields. -/
def nameAndFields? : Json → Option (String × Json)
  | .obj members => do
    let name ← (← members.lookup "type").string?
    return (name, .obj members)
  | .arr (.str name :: items) => some (name, .arr items)
  | _ => none

def readPlayerAmount (make : Seat → Int → Operation) (fields : Json) :
    Option Operation := do
  let r ← fields.record? ["player", "amount"]
  let player ← r.required "player" Seat.ofJson?
  let amount ← r.required "amount" word?
  return make player amount

def readDamageCard (fields : Json) : Option Operation := do
  let r ← fields.record? ["instance", "amount"]
  let card ← r.required "instance" InstanceId.ofJson?
  let amount ← r.required "amount" word?
  return .damageCard card amount

def readHealCard (fields : Json) : Option Operation := do
  let r ← fields.record? ["instance", "amount", "max_health"]
  let card ← r.required "instance" InstanceId.ofJson?
  let amount ← r.required "amount" word?
  let greatest ← r.required "max_health" word?
  return .healCard card amount greatest

def readDestroyCard (fields : Json) : Option Operation := do
  let r ← fields.record? ["instance"]
  let card ← r.required "instance" InstanceId.ofJson?
  return .destroyCard card

def readLog (fields : Json) : Option Operation := do
  let r ← fields.record? ["player", "description"]
  let player ← r.required "player" Seat.ofJson?
  let text ← r.required "description" string?
  return .log player text

def readDrawCard (fields : Json) : Option Operation := do
  let r ← fields.record? ["player"]
  let player ← r.required "player" Seat.ofJson?
  return .drawCard player

def ofJson? (j : Json) : Option Operation :=
  match nameAndFields? j with
  | some ("damage_player", fields) => readPlayerAmount .damagePlayer fields
  | some ("damage_creature", fields) => readDamageCard fields
  | some ("heal_player", fields) => readPlayerAmount .healPlayer fields
  | some ("heal_creature", fields) => readHealCard fields
  | some ("destroy_creature", fields) => readDestroyCard fields
  | some ("log", fields) => readLog fields
  | some ("draw_card", fields) => readDrawCard fields
  | some ("gain_energy", fields) => readPlayerAmount .gainEnergy fields
  | _ => none

end Operation

namespace InvocationKind

def all : List InvocationKind :=
  [.spell, .ability]

def name : InvocationKind → String
  | .spell => "spell"
  | .ability => "ability"

def ofJson? (j : Json) : Option InvocationKind :=
  j.string?.bind fun s => all.find? fun kind => kind.name = s

end InvocationKind

namespace DamageEvent

/-- Reads the damage that fired an ability. -/
def ofJson? (medium : Medium) (j : Json) : Option DamageEvent := do
  let r ← j.record? ["damage_source", "damage_target", "damage_amount"]
  let source ← r.optional "damage_source" (Target.ofJson? medium)
  let target ← r.optional "damage_target" (Target.ofJson? medium)
  let amount ← r.required "damage_amount" word?
  return { source, target, amount }

end DamageEvent

end CardBattle
