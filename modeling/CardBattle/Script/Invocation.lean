import CardBattle.Operation
import CardBattle.Script.Value
import CardBattle.Targeting

/-!
# Invocations

An invocation says on whose behalf a script runs, from where, and after which damage. The scene is
everything that a running script can look at; nothing in it changes while the script runs.
-/

namespace CardBattle

structure DamageEvent where
  /-- What dealt the damage. -/
  source : Option Target
  /-- What took the damage. -/
  target : Option Target
  amount : Int
  deriving DecidableEq, Repr

/-- What a script runs as; only abilities may draw cards and gain energy. -/
inductive InvocationKind where
  | spell
  | ability
  deriving DecidableEq, Repr, Inhabited

structure Invocation where
  kind : InvocationKind
  /-- The player the script acts for. -/
  caster : Seat
  /-- The card the script comes from. -/
  source : Option InstanceId
  event : Option DamageEvent
  deriving DecidableEq, Repr

/-- The limits of a run: evaluation steps, and the nesting of blocks and expressions. -/
structure Limits where
  steps : Nat
  depth : Nat
  deriving DecidableEq, Repr, Inhabited

/-- The limits that the settings of a game give. -/
def Config.limits (c : Config) : Limits :=
  ⟨c.stepBudget, c.maxDepth⟩

/-- What a script can look at: a snapshot of the game, the catalog, the chooser, its own
invocation and its limits. -/
structure Scene where
  session : Session
  catalog : Catalog
  chooser : Chooser
  invocation : Invocation
  limits : Limits

namespace Scene

def caster (sc : Scene) : Seat :=
  sc.invocation.caster

def requirePlayer (sc : Scene) (seat : Seat) : Except ScriptError Player :=
  match sc.session.player? seat with
  | some p => .ok p
  | none => .error (.missing (.player seat))

def requireInstance (sc : Scene) (id : InstanceId) : Except ScriptError CardInstance :=
  match sc.session.instance? id with
  | some c => .ok c
  | none => .error (.missing (.card id))

def definitionOf (sc : Scene) (id : InstanceId) : Except ScriptError CardDefinition :=
  match sc.requireInstance id with
  | .error e => .error e
  | .ok c =>
    match sc.catalog.get? c.card with
    | some d => .ok d
    | none => .error (.missing (.definition c.card))

/-- Whether a player is on a side. -/
def onSide (sc : Scene) (side : Side) (owner : Seat) : Bool :=
  match side with
  | .friendly => decide (owner = sc.caster)
  | .enemy => decide (owner ≠ sc.caster)
  | .any => true

def isOfKind (sc : Scene) (kind : CardKind) (id : InstanceId) : Bool :=
  match sc.definitionOf id with
  | .ok d => decide (d.kind = kind)
  | .error _ => false

/-- The permanents of a kind on a side, by seat and then in battlefield order. -/
def permanents (sc : Scene) (side : Side) (kind : CardKind) : Value :=
  let owners := sc.session.players.seats.filter (sc.onSide side)
  .list (((owners.flatMap sc.session.battlefield).filter (sc.isOfKind kind)).map .card)

/-! ### Calls

Each call checks its arguments and gives the operation to queue. -/

def checkAmount (amount : Int) : Except ScriptError Unit :=
  if amount < 0 then .error (.negativeAmount amount) else .ok ()

/-- Calls of this name are for abilities only. -/
def requireAbility (sc : Scene) (call : String) : Except ScriptError Unit :=
  match sc.invocation.kind with
  | .ability => .ok ()
  | .spell => .error (.capabilityDenied call)

/-- Asks for what `make` does to a player. -/
def onPlayer (sc : Scene) (make : Seat → Int → Operation) (seat : Seat) (amount : Int) :
    Except ScriptError Operation := do
  let _ ← sc.requirePlayer seat
  checkAmount amount
  return make seat amount

/-- Asks for what `make` does to a card, given its definition. -/
def onCard (sc : Scene) (make : CardDefinition → Operation) (id : InstanceId) (amount : Int) :
    Except ScriptError Operation := do
  let d ← sc.definitionOf id
  checkAmount amount
  return make d

def damagePlayer (sc : Scene) (seat : Seat) (amount : Int) : Except ScriptError Operation :=
  sc.onPlayer .damagePlayer seat amount

def damageCard (sc : Scene) (id : InstanceId) (amount : Int) : Except ScriptError Operation :=
  sc.onCard (fun _ => .damageCard id amount) id amount

def healPlayer (sc : Scene) (seat : Seat) (amount : Int) : Except ScriptError Operation :=
  sc.onPlayer .healPlayer seat amount

/-- The heal is capped at the health of the definition. -/
def healCard (sc : Scene) (id : InstanceId) (amount : Int) : Except ScriptError Operation :=
  sc.onCard (fun d => .healCard id amount d.health) id amount

def destroyCard (sc : Scene) (id : InstanceId) : Except ScriptError Operation := do
  let _ ← sc.definitionOf id
  return .destroyCard id

def log (sc : Scene) (text : String) : Operation :=
  .log sc.caster text

/-- Asks for a card from the deck of the caster. -/
def drawCard (sc : Scene) : Except ScriptError Operation := do
  sc.requireAbility "draw_card"
  return .drawCard sc.caster

/-- Asks for energy for the caster. -/
def gainEnergy (sc : Scene) (amount : Int) : Except ScriptError Operation := do
  sc.requireAbility "gain_energy"
  checkAmount amount
  return .gainEnergy sc.caster amount

end Scene

end CardBattle
