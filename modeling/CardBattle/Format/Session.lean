import CardBattle.Config
import CardBattle.Format.Card
import CardBattle.Json.Writer
import CardBattle.Random.Shuffle
import CardBattle.Session.Basic

/-!
# Written forms of settings and sessions

The card copies of a session are an object with their numbers as names; of a repeated number the
last copy counts. The position in the random stream has 128 bits.
-/

namespace CardBattle

open Json

namespace Config

def fieldNames : List String :=
  ["starting_health", "starting_energy", "energy_per_round", "max_energy_cap",
    "starting_hand_size", "creature_regen_per_turn", "script_step_budget", "script_max_depth",
    "seed"]

def toJson (c : Config) : Json :=
  .obj [
    ("starting_health", .int c.startingHealth),
    ("starting_energy", .int c.startingEnergy),
    ("energy_per_round", .int c.energyPerRound),
    ("max_energy_cap", .int c.maxEnergyCap),
    ("starting_hand_size", ofNat c.startingHandSize),
    ("creature_regen_per_turn", .int c.creatureRegen),
    ("script_step_budget", ofNat c.stepBudget),
    ("script_max_depth", ofNat c.maxDepth),
    ("seed", ofNat c.seed.toNat)]

/-- Reads a number of 64 bits as a word. -/
def readSeed (j : Json) : Option UInt64 :=
  (nat? 64 j).map UInt64.ofNat

/-- Every field has its default. -/
def ofJson? (j : Json) : Option Config := do
  let r ← j.record? fieldNames
  let standard : Config := {}
  let startingHealth ← r.withDefault "starting_health" standard.startingHealth word?
  let startingEnergy ← r.withDefault "starting_energy" standard.startingEnergy word?
  let energyPerRound ← r.withDefault "energy_per_round" standard.energyPerRound word?
  let maxEnergyCap ← r.withDefault "max_energy_cap" standard.maxEnergyCap word?
  let startingHandSize ← r.withDefault "starting_hand_size" standard.startingHandSize (nat? 64)
  let creatureRegen ← r.withDefault "creature_regen_per_turn" standard.creatureRegen word?
  let stepBudget ← r.withDefault "script_step_budget" standard.stepBudget (nat? 32)
  let maxDepth ← r.withDefault "script_max_depth" standard.maxDepth (nat? 32)
  let seed ← r.withDefault "seed" standard.seed readSeed
  return { startingHealth, startingEnergy, energyPerRound, maxEnergyCap, startingHandSize,
           creatureRegen, stepBudget, maxDepth, seed }

end Config

namespace LogEntry

def toJson (e : LogEntry) : Json :=
  .obj [
    ("player", e.player.toJson),
    ("action", e.action.toJson),
    ("amount", ofOption .int e.amount),
    ("target", ofOption Target.toJson e.target),
    ("description", .str e.description),
    ("timestamp", ofNat e.timestamp)]

def ofJson? (medium : Medium) (j : Json) : Option LogEntry := do
  let r ← j.record? ["player", "action", "amount", "target", "description", "timestamp"]
  let player ← r.required "player" Seat.ofJson?
  let action ← r.required "action" LogAction.ofJson?
  let amount ← r.optional "amount" word?
  let target ← r.optional "target" (Target.ofJson? medium)
  let description ← r.required "description" string?
  let timestamp ← r.required "timestamp" (nat? 64)
  return { player, action, amount, target, description, timestamp }

end LogEntry

namespace Zones

def toJson (z : Zones) : Json :=
  .obj [
    ("deck", ofList InstanceId.toJson z.deck),
    ("hand", ofList InstanceId.toJson z.hand),
    ("battlefield", ofList InstanceId.toJson z.battlefield),
    ("graveyard", ofList InstanceId.toJson z.graveyard)]

def ofJson? (j : Json) : Option Zones := do
  let r ← j.record? ["deck", "hand", "battlefield", "graveyard"]
  let deck ← r.required "deck" (list? InstanceId.ofJson?)
  let hand ← r.required "hand" (list? InstanceId.ofJson?)
  let battlefield ← r.required "battlefield" (list? InstanceId.ofJson?)
  let graveyard ← r.required "graveyard" (list? InstanceId.ofJson?)
  return { deck, hand, battlefield, graveyard }

end Zones

namespace Player

def toJson (p : Player) : Json :=
  .obj [
    ("id", p.id.toJson),
    ("name", .str p.name),
    ("health", .int p.health),
    ("max_health", .int p.maxHealth),
    ("energy", .int p.energy),
    ("max_energy", .int p.maxEnergy),
    ("zones", p.zones.toJson),
    ("deck_list", ofList CardId.toJson p.deckList)]

def ofJson? (j : Json) : Option Player := do
  let r ← j.record? ["id", "name", "health", "max_health", "energy", "max_energy", "zones",
    "deck_list"]
  let id ← r.required "id" Seat.ofJson?
  let name ← r.required "name" string?
  let health ← r.required "health" word?
  let maxHealth ← r.required "max_health" word?
  let energy ← r.required "energy" word?
  let maxEnergy ← r.required "max_energy" word?
  let zones ← r.required "zones" Zones.ofJson?
  let deckList ← r.required "deck_list" (list? CardId.ofJson?)
  return { id, name, health, maxHealth, energy, maxEnergy, zones, deckList }

end Player

namespace SeatMap

variable {α : Type}

def toJson (write : α → Json) (m : SeatMap α) : Json :=
  .obj [("data", ofList write m.data)]

def ofJson? (read : Json → Option α) (j : Json) : Option (SeatMap α) := do
  let r ← j.record? ["data"]
  let data ← r.required "data" (list? read)
  return ⟨data⟩

end SeatMap

namespace Random.Generator

def toJson (g : Generator) : Json :=
  .obj [("seed", ofNat g.seed.toNat), ("word_pos", ofNat g.position)]

def ofJson? (j : Json) : Option Generator := do
  let r ← j.record? ["seed", "word_pos"]
  let seed ← r.required "seed" (nat? 64)
  let position ← r.required "word_pos" (nat? 128)
  return ⟨UInt64.ofNat seed, position⟩

/-- Reads a position of 128 bits from decimal digits, which a plus sign may precede. -/
def positionOfText? (text : String) : Option Nat :=
  let digits :=
    match text.toList with
    | '+' :: rest => rest
    | cs => cs
  if digits.isEmpty || !digits.all Char.isDigit then none
  else if ofDigits digits < Nat.pow 2 128 then some (ofDigits digits)
  else none

/-- The generator of a seed at a position given as a text. -/
def restore? (seed : UInt64) (position : String) : Option Generator :=
  (positionOfText? position).map fun n => normalize ⟨seed, n⟩

end Random.Generator

namespace Session

/-- The number that a member name writes: decimal, without sign or leading zeros, of 32 bits. -/
def keyOfName? (name : String) : Option Nat :=
  match name.toNat? with
  | some n => if toString n = name ∧ n < UInt32.size then some n else none
  | none => none

def instancesToJson (m : KeyMap CardInstance) : Json :=
  .obj (m.entries.map fun e => (toString e.1, e.2.toJson))

def instancesOfJson? : Json → Option (KeyMap CardInstance)
  | .obj members =>
    (members.mapM fun m : String × Json => do
      let key ← keyOfName? m.1
      let c ← CardInstance.ofJson? m.2
      return (key, c)).map KeyMap.ofList
  | _ => none

def fieldNames : List String :=
  ["status", "players", "current_player", "starting_player", "turn", "log", "winner", "revision",
    "rng", "instances", "next_instance_id"]

def toJson (s : Session) : Json :=
  .obj [
    ("status", s.status.toJson),
    ("players", s.players.toJson Player.toJson),
    ("current_player", s.current.toJson),
    ("starting_player", s.starting.toJson),
    ("turn", ofNat s.turn),
    ("log", ofList LogEntry.toJson s.log),
    ("winner", ofOption Seat.toJson s.winner),
    ("revision", ofNat s.revision),
    ("rng", s.rng.toJson),
    ("instances", instancesToJson s.instances),
    ("next_instance_id", s.nextId.toJson)]

def ofJson? (medium : Medium) (j : Json) : Option Session := do
  let r ← j.record? fieldNames
  let status ← r.required "status" Status.ofJson?
  let players ← r.required "players" (SeatMap.ofJson? Player.ofJson?)
  let current ← r.required "current_player" Seat.ofJson?
  let starting ← r.required "starting_player" Seat.ofJson?
  let turn ← r.required "turn" (nat? 32)
  let log ← r.required "log" (list? (LogEntry.ofJson? medium))
  let winner ← r.optional "winner" Seat.ofJson?
  let revision ← r.required "revision" (nat? 64)
  let rng ← r.required "rng" Random.Generator.ofJson?
  let instances ← r.required "instances" instancesOfJson?
  let nextId ← r.required "next_instance_id" InstanceId.ofJson?
  return { status, players, current, starting, turn, log, winner, revision, rng, instances,
           nextId }

def read? (text : String) : Option Session :=
  (Json.read? text).bind (ofJson? .file)

def write (s : Session) : String :=
  s.toJson.write

end Session

def Config.read? (text : String) : Option Config :=
  (Json.read? text).bind Config.ofJson?

end CardBattle
