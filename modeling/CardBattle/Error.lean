import CardBattle.Session.Status
import CardBattle.Target
import CardBattle.Zone

/-!
# Errors

Errors say what went wrong; their wording is in the `message` functions. Script errors end a
script, catalog errors concern definitions, and game errors refuse an action.
-/

namespace CardBattle

/-- State that a script asked for and that does not exist. -/
inductive Absent where
  | player (seat : Seat)
  | card (id : InstanceId)
  | definition (id : CardId)
  | opponent
  | source
  deriving DecidableEq, Repr

def Absent.text : Absent → String
  | .player seat => seat.text
  | .card id => id.text
  | .definition id => id.text
  | .opponent => "opponent"
  | .source => "source card"

/-- Why a script came to an end without a result. -/
inductive ScriptError where
  | unknownVariable (name : String)
  | typeMismatch (expected found : String)
  /-- A call that only abilities may make. -/
  | capabilityDenied (call : String)
  | budgetExhausted (budget : Nat)
  | tooDeep (limit : Nat)
  /-- An error that the script asked for. -/
  | raised (text : String)
  | missing (what : Absent)
  | negativeAmount (amount : Int)
  | overflow
  deriving DecidableEq, Repr

def ScriptError.message : ScriptError → String
  | .unknownVariable name => "unknown variable \x60" ++ name ++ "\x60"
  | .typeMismatch expected found => "type mismatch: expected " ++ expected ++ ", found " ++ found
  | .capabilityDenied call => "capability denied: " ++ call
  | .budgetExhausted budget => "step budget of " ++ toString budget ++ " exhausted"
  | .tooDeep limit => "nesting deeper than " ++ toString limit
  | .raised text => text
  | .missing what => "missing value: " ++ what.text
  | .negativeAmount amount => "negative amount: " ++ toString amount
  | .overflow => "arithmetic overflow"

inductive CardFault where
  | negativeCost (name : String)
  | negativeAttack (name : String)
  | noHealth (name : String)
  | noEffect (name : String)
  | alreadyRegistered (id : CardId)
  /-- A source answered a request with another card. -/
  | otherCard (returned requested : CardId)
  /-- A source refuses a definition in its own words. -/
  | stated (reason : String)
  deriving DecidableEq, Repr

def CardFault.text : CardFault → String
  | .negativeCost name => name ++ " has negative cost"
  | .negativeAttack name => name ++ " has negative attack"
  | .noHealth name => name ++ " needs positive health"
  | .noEffect name => name ++ " is a spell without an effect"
  | .alreadyRegistered id => id.text ++ " already registered"
  | .otherCard returned requested => "store returned " ++ returned.text ++ " for " ++ requested.text
  | .stated reason => reason

/-- Why a definition cannot be had. -/
inductive CatalogError where
  | unknownCard (id : CardId)
  | invalid (fault : CardFault)
  /-- A text that is not a list of definitions, in the words of its reader. -/
  | unreadable {reason : String}
  | unavailable (reason : String)
  deriving DecidableEq, Repr

def CatalogError.message : CatalogError → String
  | .unknownCard id => "unknown card: " ++ id.text
  | .invalid fault => "invalid card definition: " ++ fault.text
  | @CatalogError.unreadable reason => "catalog parse error: " ++ reason
  | .unavailable reason => "definition store unavailable: " ++ reason

/-- Settings that a game cannot be played with. -/
inductive ConfigFault where
  | startingHealth
  | negativeGain
  | capBelowStart
  | zeroLimit
  deriving DecidableEq, Repr

def ConfigFault.text : ConfigFault → String
  | .startingHealth => "starting_health must be positive"
  | .negativeGain => "energy and regen values must not be negative"
  | .capBelowStart => "max_energy_cap is below starting_energy"
  | .zeroLimit => "script limits must be non-zero"

inductive GameError where
  | wrongStatus (expected actual : Status)
  | notYourTurn (player : Seat)
  | unknownPlayer (player : Seat)
  | unknownInstance (card : InstanceId)
  | notOwner (player : Seat) (card : InstanceId)
  | wrongZone (card : InstanceId) (expected : Zone) (actual : Option Zone)
  | wrongKind (card : InstanceId) (kind : CardKind) (action : String)
  | insufficientEnergy (needed available : Int)
  | sapped (card : InstanceId)
  /-- The card is nothing that can be attacked. -/
  | notAttackable (card : InstanceId)
  /-- The attacker, given by name, may not attack this target. -/
  | cannotAttack (attacker : String) (target : Target)
  | invalidAmount (amount : Int)
  | deckAlreadySet (player : Seat)
  | emptyDeck
  | notEnoughPlayers (count : Nat)
  | sessionNotFound (id : SessionId)
  /-- The document changed while the action was worked out. -/
  | conflict (expected found : Nat)
  | catalog (error : CatalogError)
  | script (label : String) (error : ScriptError)
  /-- The script of this label returned `false`. -/
  | declined (label : String)
  | invalidConfig (fault : ConfigFault)
  deriving DecidableEq, Repr

namespace GameError

/-- A zone that may be missing. -/
def zoneText : Option Zone → String
  | none => "None"
  | some zone => "Some(" ++ zone.text ++ ")"

def message : GameError → String
  | wrongStatus expected actual => "game is " ++ actual.text ++ ", expected " ++ expected.text
  | notYourTurn player => "it is not " ++ player.text ++ "'s turn"
  | unknownPlayer player => "unknown player: " ++ player.text
  | unknownInstance card => "unknown card instance: " ++ card.text
  | notOwner player card => card.text ++ " is not owned by " ++ player.text
  | wrongZone card expected actual =>
    card.text ++ " is in " ++ zoneText actual ++ ", expected " ++ expected.text
  | wrongKind card kind action =>
    card.text ++ " is a " ++ kind.text ++ " and cannot " ++ action
  | insufficientEnergy needed available =>
    "insufficient energy: need " ++ toString needed ++ ", have " ++ toString available
  | sapped card => card.text ++ " is sapped"
  | notAttackable card => "illegal target: " ++ card.text ++ " cannot be attacked"
  | cannotAttack attacker target =>
    "illegal target: " ++ attacker ++ " cannot attack " ++ target.text
  | invalidAmount amount => "invalid amount: " ++ toString amount
  | deckAlreadySet player => player.text ++ " already has a deck"
  | emptyDeck => "deck is empty"
  | notEnoughPlayers count => "a game needs at least 2 players, got " ++ toString count
  | sessionNotFound id => "session not found: " ++ id.text
  | conflict expected found =>
    "document changed concurrently (revision " ++ toString expected ++ " -> "
      ++ toString found ++ ")"
  | catalog error => error.message
  | script label error => label ++ " failed: " ++ error.message
  | declined label => label ++ " failed"
  | invalidConfig fault => "invalid config: " ++ fault.text

/-- The log line of a refused action: a failed script is named, all else is explained. -/
def failureText (error : GameError) (action : String) : String :=
  match error with
  | script label _ => label ++ " failed"
  | declined label => label ++ " failed"
  | _ => "Failed to " ++ action ++ ": " ++ error.message

end GameError

end CardBattle
