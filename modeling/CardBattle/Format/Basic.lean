import CardBattle.Card.Kind
import CardBattle.Json.Decode
import CardBattle.Log
import CardBattle.Script.Language
import CardBattle.Session.Status
import CardBattle.Target
import CardBattle.Zone

/-!
# Written forms of identities and constants

Identities are bare numbers: seats have 8 bits, card and instance numbers 32, session numbers 64.
Constants are written by name.
-/

namespace CardBattle

open Json

namespace Seat

def toJson (seat : Seat) : Json :=
  ofNat seat.index

def ofJson? (j : Json) : Option Seat :=
  (nat? 8 j).map Seat.mk

end Seat

namespace CardId

def toJson (id : CardId) : Json :=
  ofNat id.number

def ofJson? (j : Json) : Option CardId :=
  (nat? 32 j).map CardId.mk

end CardId

namespace InstanceId

def toJson (id : InstanceId) : Json :=
  ofNat id.number

def ofJson? (j : Json) : Option InstanceId :=
  (nat? 32 j).map InstanceId.mk

end InstanceId

namespace SessionId

def toJson (id : SessionId) : Json :=
  ofNat id.number

def ofJson? (j : Json) : Option SessionId :=
  (nat? 64 j).map SessionId.mk

end SessionId

namespace Zone

def name : Zone → String
  | .deck => "deck"
  | .hand => "hand"
  | .battlefield => "battlefield"
  | .graveyard => "graveyard"

def toJson (zone : Zone) : Json :=
  .str zone.name

def ofJson? : Json → Option Zone :=
  constant? all name

end Zone

namespace Position

def toJson : Position → Json
  | .top => .str "Top"
  | .bottom => .str "Bottom"
  | .index i => .obj [("Index", ofNat i)]

def ofJson? (j : Json) : Option Position :=
  match constantName? j with
  | some "Top" => some .top
  | some "Bottom" => some .bottom
  | _ =>
    match tagged? j with
    | some ("Index", content) => (nat? 64 content).map .index
    | _ => none

end Position

namespace Status

def all : List Status :=
  [.waiting, .playing, .finished]

def name : Status → String
  | .waiting => "waiting"
  | .playing => "playing"
  | .finished => "finished"

def toJson (status : Status) : Json :=
  .str status.name

def ofJson? : Json → Option Status :=
  constant? all name

end Status

namespace CardKind

def all : List CardKind :=
  [.creature, .spell, .artifact]

def name : CardKind → String
  | .creature => "creature"
  | .spell => "spell"
  | .artifact => "artifact"

def toJson (kind : CardKind) : Json :=
  .str kind.name

def ofJson? : Json → Option CardKind :=
  constant? all name

end CardKind

namespace TriggerEvent

def name : TriggerEvent → String
  | .startTurn => "start_turn"
  | .endTurn => "end_turn"
  | .playCard => "play_card"
  | .dealDamage => "deal_damage"
  | .takeDamage => "take_damage"

def toJson (event : TriggerEvent) : Json :=
  .str event.name

def ofJson? : Json → Option TriggerEvent :=
  constant? all name

end TriggerEvent

namespace LogAction

def all : List LogAction :=
  [.gameStart, .gameEnd, .playCard, .castSpell, .attack, .endTurn, .startTurn, .drawCard, .ability,
    .abilityFailed, .damage, .heal, .destroy, .gainEnergy, .effect, .failure]

def name : LogAction → String
  | .gameStart => "game_start"
  | .gameEnd => "game_end"
  | .playCard => "play_card"
  | .castSpell => "cast_spell"
  | .attack => "attack"
  | .endTurn => "end_turn"
  | .startTurn => "start_turn"
  | .drawCard => "draw_card"
  | .ability => "ability"
  | .abilityFailed => "ability_failed"
  | .damage => "damage"
  | .heal => "heal"
  | .destroy => "destroy"
  | .gainEnergy => "gain_energy"
  | .effect => "effect"
  | .failure => "failure"

def toJson (action : LogAction) : Json :=
  .str action.name

def ofJson? : Json → Option LogAction :=
  constant? all name

end LogAction

namespace TargetKind

def all : List TargetKind :=
  [.player, .creature, .artifact, .any]

def name : TargetKind → String
  | .player => "player"
  | .creature => "creature"
  | .artifact => "artifact"
  | .any => "any"

def toJson (kind : TargetKind) : Json :=
  .str kind.name

def ofJson? : Json → Option TargetKind :=
  constant? all name

end TargetKind

namespace Side

def all : List Side :=
  [.friendly, .enemy, .any]

def name : Side → String
  | .friendly => "friendly"
  | .enemy => "enemy"
  | .any => "any"

def toJson (side : Side) : Json :=
  .str side.name

def ofJson? : Json → Option Side :=
  constant? all name

end Side

end CardBattle
