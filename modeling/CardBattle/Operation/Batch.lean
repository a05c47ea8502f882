import CardBattle.Operation
import CardBattle.Targeting

/-!
# Batches of operations

A batch is applied in order. Nothing more happens to a card whose health reached 0 or which left
the battlefield, nor to anything once the game is finished; such operations are skipped. The dead
stay on the battlefield until the sweep that follows.
-/

namespace CardBattle

/-- What a batch did. -/
structure BatchReport where
  applied : Nat := 0
  skipped : Nat := 0
  /-- The cards whose health reached 0, in this order. -/
  lethal : List InstanceId := []
  deriving DecidableEq, Repr, Inhabited

namespace BatchReport

/-- Counts a skipped operation. -/
def skip (r : BatchReport) : BatchReport :=
  { r with skipped := r.skipped + 1 }

def apply (r : BatchReport) : BatchReport :=
  { r with applied := r.applied + 1 }

/-- Counts an operation as applied or skipped. -/
def count (r : BatchReport) (done : Bool) : BatchReport :=
  if done then r.apply else r.skip

/-- Counts an applied operation that brought a card to 0. -/
def kill (r : BatchReport) (id : InstanceId) : BatchReport :=
  { r.apply with lethal := r.lethal ++ [id] }

end BatchReport

namespace Session

/-- Keeps the session of an update, and says whether it succeeded. -/
def attempt {α : Type} (u : Update α) (s : Session) : Bool × Session :=
  match u s with
  | .ok _ s => (true, s)
  | .error _ s => (false, s)

/-- Whether an operation may still act on its card. -/
def mayAct (s : Session) (lethal : List InstanceId) (op : Operation) : Bool :=
  match op.card? with
  | none => true
  | some id => decide (id ∉ lethal) && s.onBattlefield id

/-- Gains energy up to the greatest and logs what was gained. -/
def gainEnergy (player : Seat) (amount : Int) (now : Nat) : Update Unit := fun s =>
  match s.player? player with
  | none => .error (.unknownPlayer player) s
  | some p =>
    let raised := p.gainEnergy amount
    let gained := raised.energy - p.energy
    .ok () ((s.modifyPlayer player fun _ => raised).record
      { player, action := .gainEnergy, amount := some gained
        description := p.name ++ " gains " ++ toString gained ++ " energy", timestamp := now })

def perform (op : Operation) (now : Nat) (r : BatchReport) (s : Session) :
    BatchReport × Session :=
  match op with
  | .damagePlayer player amount =>
    let (done, s) := s.attempt (damagePlayer player amount now)
    (r.count done, s)
  | .healPlayer player amount =>
    let (done, s) := s.attempt (healPlayer player amount)
    (r.count done, s)
  | .damageCard id amount =>
    match s.instance? id with
    | none => (r.skip, s)
    | some c =>
      let hurt := c.takeDamage amount
      (if hurt.health = 0 then r.kill id else r.apply, s.modifyInstance id fun _ => hurt)
  | .healCard id amount greatest =>
    match s.instance? id with
    | none => (r.skip, s)
    | some c => (r.apply, s.modifyInstance id fun _ => c.heal amount greatest)
  | .destroyCard id =>
    match s.instance? id with
    | none => (r.skip, s)
    | some c => (r.kill id, s.modifyInstance id fun _ => { c with health := 0 })
  | .log player text =>
    (r.apply, s.record { player, action := .effect, description := text, timestamp := now })
  | .drawCard player =>
    let (done, s) := s.attempt (drawCard player now)
    (r.count done, s)
  | .gainEnergy player amount =>
    let (done, s) := s.attempt (gainEnergy player amount now)
    (r.count done, s)

def applyOne (now : Nat) (state : BatchReport × Session) (op : Operation) :
    BatchReport × Session :=
  let (r, s) := state
  if s.isFinished then (r.skip, s)
  else if s.mayAct r.lethal op then s.perform op now r
  else (r.skip, s)

def applyOperations (s : Session) (ops : List Operation) (now : Nat) : BatchReport × Session :=
  ops.foldl (applyOne now) ({}, s)

/-! ### The sweep -/

/-- The permanents in play without health, by seat and then in battlefield order. -/
def dead (s : Session) : List InstanceId :=
  (s.players.seats.flatMap s.battlefield).filter fun id =>
    match s.instance? id with
    | some c => c.isDead
    | none => false

/-- The log entry of a permanent that was destroyed. -/
def destroyEntry (catalog : Catalog) (c : CardInstance) (id : InstanceId) (now : Nat) :
    LogEntry :=
  match catalog.get? c.card with
  | some d =>
    { player := c.owner, action := .destroy, target := Target.ofCard? d.kind id c.owner
      description := d.name ++ " was destroyed", timestamp := now }
  | none =>
    { player := c.owner, action := .destroy, description := "Card was destroyed"
      timestamp := now }

/-- Moves one dead permanent to the graveyard of its owner and logs it. -/
def bury (catalog : Catalog) (now : Nat) (s : Session) (id : InstanceId) : Session :=
  match s.instance? id with
  | none => s
  | some c =>
    let (gone, s) := s.destroy id
    if gone then s.record (destroyEntry catalog c id now) else s

/-- Moves every dead permanent to a graveyard; the answer lists them. -/
def sweep (s : Session) (catalog : Catalog) (now : Nat) : List InstanceId × Session :=
  (s.dead, s.dead.foldl (bury catalog now) s)

/-- Applies a batch and sweeps the dead. -/
def settle (s : Session) (catalog : Catalog) (ops : List Operation) (now : Nat) : Session :=
  ((s.applyOperations ops now).2.sweep catalog now).2

end Session

end CardBattle
