import CardBattle.Catalog
import CardBattle.Session.Basic

/-!
# Well-formed sessions

The checker goes through players, card copies, zones and the turn, in this order, and answers with
the first violation.
-/

namespace CardBattle

inductive Violation where
  | playerHealth (player : Seat) (health greatest : Int)
  | playerEnergy (player : Seat) (energy greatest : Int)
  /-- A copy that does not lie in exactly one zone. -/
  | homes (card : InstanceId) (count : Nat)
  | cardHealth (card : InstanceId) (health greatest : Int)
  | spellInPlay (card : InstanceId)
  /-- An id in the zones of a player who does not own such a copy. -/
  | foreign (card : InstanceId) (player : Seat)
  | noActivePlayer (player : Seat)
  deriving DecidableEq, Repr

def Violation.text : Violation → String
  | .playerHealth player health greatest =>
    player.text ++ " health " ++ toString health ++ " outside 0..=" ++ toString greatest
  | .playerEnergy player energy greatest =>
    player.text ++ " energy " ++ toString energy ++ " outside 0..=" ++ toString greatest
  | .homes card count => card.text ++ " found in " ++ toString count ++ " zones"
  | .cardHealth card health greatest =>
    card.text ++ " health " ++ toString health ++ " outside 1..=" ++ toString greatest
  | .spellInPlay card => "spell " ++ card.text ++ " on the battlefield"
  | .foreign card player =>
    card.text ++ " in " ++ player.text ++ "'s zones but not owned by them"
  | .noActivePlayer player => "active player " ++ player.text ++ " does not exist"

namespace Session

/-- The first thing wrong with a player's resources. -/
def playerViolation? (seat : Seat) (p : Player) : Option Violation :=
  if ¬(0 ≤ p.health ∧ p.health ≤ p.maxHealth) then
    some (.playerHealth seat p.health p.maxHealth)
  else if ¬(0 ≤ p.energy ∧ p.energy ≤ p.maxEnergy) then
    some (.playerEnergy seat p.energy p.maxEnergy)
  else none

/-- How often a copy occurs in all zones of all players. -/
def homes (s : Session) (id : InstanceId) : Nat :=
  s.players.data.foldl (fun n p => n + p.zones.allInstances.count id) 0

/-- The first thing wrong with a permanent that lies on a battlefield. -/
def permanentViolation? (c : CardInstance) (d : CardDefinition) : Option Violation :=
  if d.kind = .spell then some (.spellInPlay c.id)
  else if 1 ≤ c.health ∧ c.health ≤ d.health then none
  else some (.cardHealth c.id c.health d.health)

/-- The first thing wrong with a card copy. -/
def instanceViolation? (s : Session) (catalog : Catalog) (c : CardInstance) : Option Violation :=
  if s.homes c.id ≠ 1 then some (.homes c.id (s.homes c.id))
  else
    match catalog.get? c.card with
    | none => none
    | some d => if s.onBattlefield c.id then permanentViolation? c d else none

/-- The first id in a player's zones that is not a copy of theirs. -/
def zoneViolation? (s : Session) (p : Player) : Option Violation :=
  p.zones.allInstances.findSome? fun id =>
    if (s.instance? id).map (·.owner) = some p.id then none else some (.foreign id p.id)

/-- A game being played needs its current player. -/
def turnViolation? (s : Session) : Option Violation :=
  if s.status = .playing ∧ s.players.contains s.current = false then
    some (.noActivePlayer s.current)
  else none

def violation? (s : Session) (catalog : Catalog) : Option Violation :=
  s.players.entries.findSome? (fun e => playerViolation? e.1 e.2)
    <|> s.instances.values.findSome? (s.instanceViolation? catalog)
    <|> s.players.data.findSome? s.zoneViolation?
    <|> s.turnViolation?

end Session

end CardBattle
