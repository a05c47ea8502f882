import CardBattle.Combat
import CardBattle.Turn

/-!
# What players may do

Every action checks first and changes afterwards. The queries list what the checks would admit.
-/

namespace CardBattle

namespace Session

/-- Puts a permanent into play from its owner's hand, and logs it. A creature cannot act yet. -/
def enterPlay (ctx : Context) (player : Seat) (id : InstanceId) (d : CardDefinition) :
    Update Unit := do
  payEnergy player d.cost
  moveInstance id .hand .battlefield
  let _ ← Update.check (requireInstance id)
  modify (·.modifyInstance id fun c =>
    { c with health := d.health, sapped := decide (d.kind = .creature) })
  let name := (← Update.check (requirePlayer player)).name
  let target := (← get).targetOf? ctx.catalog id
  modify fun s => s.record
    { player, action := .playCard, amount := some d.cost, target
      description := name ++ " plays " ++ d.name, timestamp := ctx.now s }

/-- Moves a spell from its owner's hand to the graveyard, logs it, and applies what it queued. -/
def resolveSpell (ctx : Context) (player : Seat) (id : InstanceId) (d : CardDefinition)
    (ops : List Operation) : Update Unit := do
  payEnergy player d.cost
  moveInstance id .hand .graveyard
  let name := (← Update.check (requirePlayer player)).name
  let now := ctx.now (← get)
  modify (·.record
    { player, action := .castSpell, amount := some d.cost
      description := name ++ " casts " ++ d.name, timestamp := now })
  modify (·.settle ctx.catalog ops now)

/-- The script of a spell that a player can afford. -/
def requireSpell (player : Seat) (id : InstanceId) (d : CardDefinition) (s : Session) :
    Except GameError Script := do
  if d.kind ≠ .spell then throw (.wrongKind id d.kind "be cast")
  let available := (← s.requirePlayer player).energy
  if available < d.cost then throw (.insufficientEnergy d.cost available)
  match d.spellEffect with
  | some script => return script
  | none => throw (.catalog (.invalid (.noEffect d.name)))

/-- The definition of a creature that may attack now. -/
def requireAttacker (ctx : Context) (player : Seat) (attacker : InstanceId) (s : Session) :
    Except GameError CardDefinition := do
  s.requireTurn player
  let c ← s.requireOwnedIn player attacker .battlefield
  let d ← s.requireDefinition ctx.catalog attacker
  if d.kind ≠ .creature then throw (.wrongKind attacker d.kind "attack")
  if c.sapped then throw (.sapped attacker)
  return d

/-- A target must be legal for the attack rules of the attacker. -/
def requireAttackTarget (ctx : Context) (player : Seat) (d : CardDefinition) (target : Target)
    (s : Session) : Except GameError Unit :=
  if (Selector.forAttack d.attackRules).accepts s ctx.catalog player target then .ok ()
  else .error (.cannotAttack d.name target)

def requireAttackable (catalog : Catalog) (id : InstanceId) (s : Session) :
    Except GameError Target :=
  match s.targetOf? catalog id with
  | some target => .ok target
  | none => .error (.notAttackable id)

/-! ### Queries -/

def admits {α : Type} (s : Session) (check : Session → Except GameError α) : Bool :=
  match check s with
  | .ok _ => true
  | .error _ => false

def readyCreature (s : Session) (catalog : Catalog) (id : InstanceId) : Bool :=
  match s.instance? id with
  | none => false
  | some c =>
    match catalog.get? c.card with
    | none => false
    | some d => !c.sapped && decide (d.kind = .creature)

/-- The creatures a player may attack with now. -/
def availableAttackers (s : Session) (catalog : Catalog) (player : Seat) : List InstanceId :=
  if s.admits (requireTurn player) then
    (s.battlefield player).filter (s.readyCreature catalog)
  else []

def affordable (s : Session) (catalog : Catalog) (energy : Int) (id : InstanceId) : Bool :=
  match s.instance? id with
  | none => false
  | some c =>
    match catalog.get? c.card with
    | none => false
    | some d => decide (d.cost ≤ energy)

/-- The cards a player may play or cast now. -/
def playableCards (s : Session) (catalog : Catalog) (player : Seat) : List InstanceId :=
  match s.player? player with
  | none => []
  | some p =>
    if s.admits (requireTurn player) then p.zones.hand.filter (s.affordable catalog p.energy)
    else []

/-- The targets that a permanent in play may attack. -/
def attackTargets (s : Session) (catalog : Catalog) (attacker : InstanceId) : List Target :=
  match s.instance? attacker with
  | none => []
  | some c =>
    if s.onBattlefield attacker then
      match catalog.get? c.card with
      | none => []
      | some d => (Selector.forAttack d.attackRules).validTargets s catalog c.owner
    else []

/-! ### Decks and rematches -/

def checkDeck (catalog : Catalog) : List CardId → Except CatalogError Unit
  | [] => .ok ()
  | card :: cards =>
    match catalog.require card with
    | .error e => .error e
    | .ok d =>
      match d.validate with
      | .error e => .error e
      | .ok () => checkDeck catalog cards

/-- Hands in a player's deck before the game; the answer says whether all players have one. -/
def submitDeck (catalog : Catalog) (player : Seat) (deck : List CardId) : Update Bool := do
  Update.check (requireStatus .waiting)
  let p ← Update.check (requirePlayer player)
  if p.deckList ≠ [] then throw (.deckAlreadySet player)
  if deck = [] then throw .emptyDeck
  Update.check fun _ => (checkDeck catalog deck).mapError GameError.catalog
  modify (·.modifyPlayer player fun p => { p with deckList := deck })
  return (← get).players.data.all fun p => decide (p.deckList ≠ [])

/-- The waiting game that follows a finished one, with the same names and decks and a generator
seeded from the old one; the answer names the seat that goes first as well. -/
def rematch [Random.Source] (previous : Session) (config : Config) :
    Except GameError (Session × Seat) := do
  previous.requireStatus .finished
  let fresh ← ofNames (previous.players.data.map (·.name)) config
  let decks := previous.players.data.map (·.deckList)
  let players := List.zipWith (fun p deckList => { p with deckList }) fresh.players.data decks
  let (seed, _) := previous.rng.deriveSeed
  let starting := (previous.players.nextSeat previous.starting).1
  return ({ fresh with players := ⟨players⟩, rng := Random.Generator.ofSeed seed }, starting)

end Session

namespace Play

open Session

/-- Casts a spell from the hand. Its script runs before anything is paid, so that a script that
fails or declines refuses the cast. -/
def castSpell (ctx : Context) (player : Seat) (id : InstanceId) : Play Unit := do
  check (requireTurn player)
  let _ ← check (requireOwnedIn player id .hand)
  let d ← check (requireDefinition ctx.catalog id)
  let script ← check (requireSpell player id d)
  let outcome ← modifyGet (ctx.invoke script ⟨.spell, player, some id, none⟩)
  match outcome with
  | .completed ops => update (resolveSpell ctx player id d ops)
  | .declined => throw (.declined d.name)
  | .failed error => throw (.script d.name error)

/-- Plays a card from the hand; spells are cast. -/
def playCard (ctx : Context) (player : Seat) (id : InstanceId) : Play Unit := do
  check (requireTurn player)
  let _ ← check (requireOwnedIn player id .hand)
  let d ← check (requireDefinition ctx.catalog id)
  if d.kind = .spell then castSpell ctx player id
  else
    update (enterPlay ctx player id d)
    fire ctx .playCard ⟨player, id, none⟩

def attackPlayerWith (ctx : Context) (player : Seat) (attacker : InstanceId) (target : Seat) :
    Play Unit := do
  let d ← check (requireAttacker ctx player attacker)
  check (requireAttackTarget ctx player d (.player target))
  attackPlayer ctx attacker target

def attackCardWith (ctx : Context) (player : Seat) (attacker defender : InstanceId) :
    Play Unit := do
  let d ← check (requireAttacker ctx player attacker)
  let target ← check (requireAttackable ctx.catalog defender)
  check (requireAttackTarget ctx player d target)
  attackCard ctx attacker defender

/-- Heals the creatures of a player, and logs the health restored. -/
def healCreatures (ctx : Context) (player : Seat) (amount : Int) : Play Unit := do
  check (requireStatus .playing)
  if amount < 0 then throw (.invalidAmount amount)
  let name := (← check (requirePlayer player)).name
  let healed ← modifyGet fun t =>
    let (healed, s) := t.session.healCreatures ctx.catalog player amount
    (healed, { t with session := s })
  change fun s => s.record
    { player, action := .heal, amount := some healed
      description := name ++ "'s creatures heal " ++ toString healed, timestamp := ctx.now s }

/-- Ends the turn of a player, who must be the current one. -/
def endTurnOf (ctx : Context) (player : Seat) : Play Unit := do
  check (requireTurn player)
  endTurn ctx

/-- Hands in a deck, and starts the game with the last one. -/
def submitDeckAndStart (ctx : Context) (player : Seat) (deck : List CardId) : Play Unit := do
  if ← update (submitDeck ctx.catalog player deck) then
    startGame ctx (← view (·.starting))

end Play

end CardBattle
