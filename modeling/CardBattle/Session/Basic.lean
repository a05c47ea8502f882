import CardBattle.Card.Instance
import CardBattle.KeyMap
import CardBattle.Log
import CardBattle.Player
import CardBattle.Random.Generator
import CardBattle.SeatMap

/-!
# Sessions

A session is the whole state of one game. Checks read it and either answer or name an error;
updates may also change it, and an update that fails says what state it left behind.
-/

namespace CardBattle

structure Session where
  status : Status
  players : SeatMap Player
  /-- The player whose turn it is. -/
  current : Seat
  /-- The player who took the first turn. -/
  starting : Seat
  /-- Rounds counted from 1: one more each time play comes round to seat 0. -/
  turn : Nat
  /-- Oldest entry first. -/
  log : List LogEntry
  winner : Option Seat
  /-- Number of changes made to the document that holds the session. -/
  revision : Nat
  rng : Random.Generator
  instances : KeyMap CardInstance
  /-- The number of the next card copy. -/
  nextId : InstanceId
  deriving DecidableEq, Inhabited

/-- A step that answers or fails, and leaves a session behind in both cases. -/
abbrev Update := EStateM GameError Session

namespace Session

/-- A waiting game for named players, seated in order. -/
def ofNames (names : List String) (config : Config) : Except GameError Session :=
  match config.validate with
  | .error e => .error e
  | .ok () =>
    if names.length < 2 then .error (.notEnoughPlayers names.length)
    else
      let players := names.zipIdx.map fun (name, i) => Player.ofConfig (Seat.ofIndex i) name config
      match SeatMap.ofList? players with
      | none => .error (.notEnoughPlayers 0)
      | some players => .ok {
          status := .waiting
          players
          current := ⟨0⟩
          starting := ⟨0⟩
          turn := 1
          log := []
          winner := none
          revision := 0
          rng := Random.Generator.ofSeed config.seed
          instances := KeyMap.empty
          nextId := InstanceId.first }

/-! ### Players -/

def player? (s : Session) (player : Seat) : Option Player :=
  s.players.get? player

def requirePlayer (player : Seat) (s : Session) : Except GameError Player :=
  match s.player? player with
  | some p => .ok p
  | none => .error (.unknownPlayer player)

/-- Every seat but one, in order. -/
def opponents (s : Session) (player : Seat) : List Seat :=
  s.players.seats.filter fun other => other ≠ player

/-- Changes the player in a seat, if there is one. -/
def modifyPlayer (s : Session) (player : Seat) (f : Player → Player) : Session :=
  { s with players := s.players.modify player f }

/-! ### Status -/

def isFinished (s : Session) : Bool :=
  decide (s.status = .finished)

def requireStatus (expected : Status) (s : Session) : Except GameError Unit :=
  if s.status = expected then .ok () else .error (.wrongStatus expected s.status)

/-- Only the current player of a game being played may act. -/
def requireTurn (player : Seat) (s : Session) : Except GameError Unit :=
  match s.requireStatus .playing with
  | .error e => .error e
  | .ok () =>
    match s.requirePlayer player with
    | .error e => .error e
    | .ok _ => if s.current = player then .ok () else .error (.notYourTurn player)

/-! ### Log -/

/-- Adds an entry at the end of the log. -/
def record (s : Session) (entry : LogEntry) : Session :=
  { s with log := s.log ++ [entry] }

def countLog (s : Session) (action : LogAction) : Nat :=
  s.log.countP fun entry => entry.action = action

/-! ### End of the game -/

/-- The first opponent of a player who is not defeated. -/
def survivor? (s : Session) (loser : Seat) : Option Seat :=
  (s.opponents loser).find? fun seat =>
    match s.player? seat with
    | some p => !p.isDefeated
    | none => false

/-- The name of a player, empty for a seat that does not exist. -/
def nameOf (s : Session) (player : Seat) : String :=
  match s.player? player with
  | some p => p.name
  | none => ""

/-- Ends the game with the defeat of a player. A finished game stays as it is. -/
def finish (s : Session) (loser : Seat) (now : Nat) : Session :=
  if s.isFinished then s
  else
    { s with status := .finished, winner := s.survivor? loser }.record
      { player := loser, action := .gameEnd
        description := "Player defeated: " ++ s.nameOf loser, timestamp := now }

/-- Damages a player and ends the game if that defeats them; the answer is the damage dealt. -/
def damagePlayer (player : Seat) (amount : Int) (now : Nat) : Update Int := fun s =>
  match s.player? player with
  | none => .error (.unknownPlayer player) s
  | some p =>
    let hurt := p.takeDamage amount
    let s := s.modifyPlayer player fun _ => hurt
    .ok (p.health - hurt.health) (if hurt.isDefeated then s.finish player now else s)

/-- Heals a player; the answer is the health restored. -/
def healPlayer (player : Seat) (amount : Int) : Update Int := fun s =>
  match s.player? player with
  | none => .error (.unknownPlayer player) s
  | some p =>
    let healed := p.heal amount
    .ok (healed.health - p.health) (s.modifyPlayer player fun _ => healed)

def payEnergy (player : Seat) (cost : Int) : Update Unit := fun s =>
  match s.player? player with
  | none => .error (.unknownPlayer player) s
  | some p =>
    match p.spendEnergy cost with
    | .error e => .error e s
    | .ok p => .ok () (s.modifyPlayer player fun _ => p)

/-! ### Card instances -/

def instance? (s : Session) (id : InstanceId) : Option CardInstance :=
  s.instances.get? id.number

def requireInstance (id : InstanceId) (s : Session) : Except GameError CardInstance :=
  match s.instance? id with
  | some c => .ok c
  | none => .error (.unknownInstance id)

/-- Changes the copy with an id, if there is one. -/
def modifyInstance (s : Session) (id : InstanceId) (f : CardInstance → CardInstance) : Session :=
  { s with instances := s.instances.modify id.number f }

def setZones (s : Session) (player : Seat) (zones : Zones) : Session :=
  s.modifyPlayer player fun p => { p with zones }

/-- Makes a copy of a card and puts it into a zone of its owner; the answer is its number. -/
def createInstance (owner : Seat) (d : CardDefinition) (zone : Zone) (position : Position) :
    Update InstanceId := fun s =>
  match s.player? owner with
  | none => .error (.unknownPlayer owner) s
  | some p =>
    let id := s.nextId
    let s := { s with
      nextId := id.next
      instances := s.instances.insert id.number (CardInstance.ofDefinition id d owner) }
    match p.zones.push? zone id position with
    | some zones => .ok id (s.setZones owner zones)
    | none => .ok id s

/-- The zone of its owner that holds a copy. -/
def zoneOf? (s : Session) (id : InstanceId) : Option Zone :=
  match s.instance? id with
  | none => none
  | some c =>
    match s.player? c.owner with
    | none => none
    | some p => p.zones.locate id

def onBattlefield (s : Session) (id : InstanceId) : Bool :=
  decide (s.zoneOf? id = some .battlefield)

/-- A copy that a player must own and have in some zone. -/
def requireOwnedIn (player : Seat) (id : InstanceId) (zone : Zone) (s : Session) :
    Except GameError CardInstance :=
  match s.requireInstance id with
  | .error e => .error e
  | .ok c =>
    if c.owner ≠ player then .error (.notOwner player id)
    else if s.zoneOf? id = some zone then .ok c
    else .error (.wrongZone id zone (s.zoneOf? id))

/-- The battlefield of a player, oldest permanent first. -/
def battlefield (s : Session) (player : Seat) : List InstanceId :=
  match s.player? player with
  | some p => p.zones.battlefield
  | none => []

/-- Moves a copy between zones of its owner, on top of the other cards. -/
def moveInstance (id : InstanceId) (source destination : Zone) : Update Unit := fun s =>
  match s.instance? id with
  | none => .error (.unknownInstance id) s
  | some c =>
    match s.player? c.owner with
    | none => .error (.unknownPlayer c.owner) s
    | some p =>
      match p.zones.move id source destination .top with
      | .moved zones => .ok () (s.setZones c.owner zones)
      | .absent => .error (.wrongZone id source (p.zones.locate id)) s
      | .refused left => .error (.wrongZone id source (left.locate id)) (s.setZones c.owner left)

/-- Moves a permanent from the battlefield to the graveyard of its owner, where it has no health
and is not sapped. The answer says whether it was there. -/
def destroy (s : Session) (id : InstanceId) : Bool × Session :=
  match s.instance? id with
  | none => (false, s)
  | some c =>
    match s.player? c.owner with
    | none => (false, s)
    | some p =>
      match p.zones.move id .battlefield .graveyard .top with
      | .absent => (false, s)
      | .refused left => (false, s.setZones c.owner left)
      | .moved zones =>
        (true, (s.setZones c.owner zones).modifyInstance id fun c =>
          { c with health := 0, sapped := false })

/-! ### Decks -/

/-- Draws the top card of a player's deck into their hand, and logs it. An empty deck is logged and
otherwise ignored. -/
def drawCard (player : Seat) (now : Nat) : Update (Option InstanceId) := fun s =>
  match s.player? player with
  | none => .error (.unknownPlayer player) s
  | some p =>
    match p.zones.popTop? .deck with
    | none => .ok none (s.record
        { player, action := .drawCard, description := p.name ++ "'s deck is empty"
          timestamp := now })
    | some (id, rest) =>
      let zones := (rest.push? .hand id .top).getD rest
      .ok (some id) ((s.setZones player zones).record
        { player, action := .drawCard, description := p.name ++ " draws a card"
          timestamp := now })

/-- Shuffles a player's deck with the generator of the session. -/
def shuffleDeck [Random.Source] (player : Seat) : Update Unit := fun s =>
  match s.player? player with
  | none => .error (.unknownPlayer player) s
  | some p =>
    let (order, rng) := s.rng.shuffle p.zones.deck
    let zones := (p.zones.reorder? .deck order).getD p.zones
    .ok () { s.setZones player zones with rng }

end Session

namespace Update

variable {α : Type}

def check (f : Session → Except GameError α) : Update α := fun s =>
  match f s with
  | .ok a => .ok a s
  | .error e => .error e s

end Update

end CardBattle
