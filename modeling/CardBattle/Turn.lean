import CardBattle.Ability

/-!
# Start of the game and change of turn
-/

namespace CardBattle

namespace Session

/-- Makes one copy for each entry of a deck list; the last entry comes to lie on top. -/
def materializeDeck (catalog : Catalog) (player : Seat) : List CardId → Update Unit
  | [] => return
  | card :: cards => do
    let d ← Update.check fun _ => (catalog.require card).mapError GameError.catalog
    let _ ← createInstance player d .deck .top
    materializeDeck catalog player cards

/-- Makes and shuffles the deck that a player handed in. -/
def dealDeck (ctx : Context) (player : Seat) : Update Unit := do
  let deck := (← Update.check (requirePlayer player)).deckList
  if deck = [] then throw .emptyDeck
  materializeDeck ctx.catalog player deck
  @shuffleDeck ctx.random player

def drawCards (player : Seat) (now : Nat) : Nat → Update Unit
  | 0 => return
  | n + 1 => do
    let _ ← drawCard player now
    drawCards player now n

def forSeats (step : Seat → Update Unit) : List Seat → Update Unit
  | [] => return
  | seat :: seats => do
    step seat
    forSeats step seats

/-- Deals all decks and hands, and puts the game into its first turn. -/
def openGame (ctx : Context) (starting : Seat) : Update Unit := do
  Update.check (requireStatus .waiting)
  let _ ← Update.check (requirePlayer starting)
  let seats := (← get).players.seats
  forSeats (dealDeck ctx) seats
  let now := ctx.now (← get)
  forSeats (fun seat => drawCards seat now ctx.config.startingHandSize) seats
  modify fun s => { s with status := .playing, current := starting, starting, turn := 1 }
  let name := (← Update.check (requirePlayer starting)).name
  modify (·.record
    { player := starting, action := .gameStart
      description := "Game started, " ++ name ++ " goes first", timestamp := now })

/-- Makes every permanent of a player ready to act. -/
def refreshBattlefield (s : Session) (player : Seat) : Session :=
  (s.battlefield player).foldl (fun s id => s.modifyInstance id CardInstance.refresh) s

/-- Heals one permanent if it is a creature; the health restored is added up. -/
def healCreature (catalog : Catalog) (amount : Int) (state : Int × Session) (id : InstanceId) :
    Int × Session :=
  let (total, s) := state
  match s.instance? id with
  | none => (total, s)
  | some c =>
    match catalog.get? c.card with
    | none => (total, s)
    | some d =>
      if d.kind = .creature then
        let healed := c.heal amount d.health
        (toWord (total + (healed.health - c.health)), s.modifyInstance id fun _ => healed)
      else (total, s)

/-- Heals the creatures of a player up to the health of their definitions; the answer is the health
restored to all of them. Artifacts are not healed. -/
def healCreatures (s : Session) (catalog : Catalog) (player : Seat) (amount : Int) :
    Int × Session :=
  (s.battlefield player).foldl (healCreature catalog amount) (0, s)

/-- Passes the turn to the next seat and logs it. The answer is that seat, and whether play came
round to seat 0. -/
def passTurn (now : Nat) : Update (Seat × Bool) := do
  let s ← get
  let (next, wrapped) := s.players.nextSeat s.current
  let turn := if wrapped then nextCount s.turn else s.turn
  set { s with current := next, turn }
  let name := (← Update.check (requirePlayer next)).name
  modify (·.record
    { player := next, action := .startTurn
      description := "Turn " ++ toString turn ++ ": " ++ name ++ "'s turn", timestamp := now })
  return (next, wrapped)

/-- Gives energy for a new turn: when play came round all players gain greatest energy and are
refilled, otherwise only the player of the turn is refilled. -/
def renewEnergy (config : Config) (player : Seat) (wrapped : Bool) : Update Unit := do
  if wrapped then
    modify fun s => { s with
      players := s.players.map fun p =>
        (p.raiseMaxEnergy config.energyPerRound config.maxEnergyCap).restoreEnergy }
  else
    let _ ← Update.check (requirePlayer player)
    modify (·.modifyPlayer player Player.restoreEnergy)

end Session

namespace Play

open Session

def startGame (ctx : Context) (starting : Seat) : Play Unit := do
  update (openGame ctx starting)
  fireAll ctx .startTurn starting

/-- Ends the turn of the current player and starts the next one. -/
def endTurn (ctx : Context) : Play Unit := do
  check (requireStatus .playing)
  let current ← view (·.current)
  let name := (← check (requirePlayer current)).name
  change fun s => s.record
    { player := current, action := .endTurn, description := name ++ " ends their turn"
      timestamp := ctx.now s }
  fireAll ctx .endTurn current
  if ← view (·.isFinished) then return
  let (next, wrapped) ← update (passTurn (← view ctx.now))
  fireAll ctx .startTurn next
  if ← view (·.isFinished) then return
  let _ ← update (drawCard next (← view ctx.now))
  change (·.refreshBattlefield next)
  change fun s => (s.healCreatures ctx.catalog next ctx.config.creatureRegen).2
  update (renewEnergy ctx.config next wrapped)

end Play

end CardBattle
