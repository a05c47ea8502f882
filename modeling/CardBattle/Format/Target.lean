import CardBattle.Format.Basic

/-!
# Written forms of targets and selectors
-/

namespace CardBattle

open Json

namespace Target

/-- A card target is written with the number of the card and its owner. -/
def cardJson (tag : String) (card : InstanceId) (owner : Seat) : Json :=
  .obj [(tag, .obj [("instance", card.toJson), ("owner", owner.toJson)])]

def toJson : Target → Json
  | .player seat => .obj [("player", seat.toJson)]
  | .creature card owner => cardJson "creature" card owner
  | .artifact card owner => cardJson "artifact" card owner

/-- Reads the content of a card target. -/
def readCard (medium : Medium) (make : InstanceId → Seat → Target) (content : Json) :
    Option Target := do
  let r ← content.caseRecord? medium ["instance", "owner"]
  let card ← r.required "instance" InstanceId.ofJson?
  let owner ← r.required "owner" Seat.ofJson?
  return make card owner

def ofJson? (medium : Medium) (j : Json) : Option Target :=
  match tagged? j with
  | some ("player", content) => (Seat.ofJson? content).map .player
  | some ("creature", content) => readCard medium .creature content
  | some ("artifact", content) => readCard medium .artifact content
  | _ => none

end Target

namespace AttackRules

def toJson (r : AttackRules) : Json :=
  .obj [
    ("can_target_players", .bool r.canTargetPlayers),
    ("can_target_creatures", .bool r.canTargetCreatures),
    ("can_target_artifacts", .bool r.canTargetArtifacts)]

/-- Every field has its default. -/
def ofJson? (j : Json) : Option AttackRules := do
  let r ← j.record? ["can_target_players", "can_target_creatures", "can_target_artifacts"]
  let canTargetPlayers ← r.withDefault "can_target_players" true bool?
  let canTargetCreatures ← r.withDefault "can_target_creatures" true bool?
  let canTargetArtifacts ← r.withDefault "can_target_artifacts" true bool?
  return { canTargetPlayers, canTargetCreatures, canTargetArtifacts }

end AttackRules

namespace Selector

def fieldNames : List String :=
  ["kind", "count", "can_target_self", "can_target_enemies", "can_target_players",
    "can_target_creatures", "can_target_artifacts", "allowed_kinds", "prompt"]

def toJson (s : Selector) : Json :=
  .obj [
    ("kind", s.kind.toJson),
    ("count", ofNat s.count),
    ("can_target_self", .bool s.canTargetSelf),
    ("can_target_enemies", .bool s.canTargetEnemies),
    ("can_target_players", .bool s.canTargetPlayers),
    ("can_target_creatures", .bool s.canTargetCreatures),
    ("can_target_artifacts", .bool s.canTargetArtifacts),
    ("allowed_kinds", ofOption (ofList TargetKind.toJson) s.allowedKinds),
    ("prompt", .str s.prompt)]

/-- Every field has its default. -/
def ofJson? (j : Json) : Option Selector := do
  let r ← j.record? fieldNames
  let kind ← r.withDefault "kind" .any TargetKind.ofJson?
  let count ← r.withDefault "count" 1 (nat? 64)
  let canTargetSelf ← r.withDefault "can_target_self" false bool?
  let canTargetEnemies ← r.withDefault "can_target_enemies" true bool?
  let canTargetPlayers ← r.withDefault "can_target_players" true bool?
  let canTargetCreatures ← r.withDefault "can_target_creatures" true bool?
  let canTargetArtifacts ← r.withDefault "can_target_artifacts" true bool?
  let allowedKinds ← r.withDefault "allowed_kinds" none (nullable? (list? TargetKind.ofJson?))
  let prompt ← r.withDefault "prompt" "" string?
  return { kind, count, canTargetSelf, canTargetEnemies, canTargetPlayers, canTargetCreatures,
           canTargetArtifacts, allowedKinds, prompt }

end Selector

end CardBattle
