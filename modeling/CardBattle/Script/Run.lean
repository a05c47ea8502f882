import CardBattle.Script.Invocation

/-!
# Running scripts

Each statement and each expression costs one step of the budget, and blocks and expressions are
nested no deeper than the limit allows. Expressions read the scene and the variables, and change
nothing but the count of steps. Variables are kept on a stack: a block forgets those bound in it.
-/

namespace CardBattle

instance liftExcept {ε σ : Type} : MonadLift (Except ε) (EStateM ε σ) where
  monadLift x s :=
    match x with
    | .ok a => .ok a s
    | .error e => .error e s

/-- Bound variables, latest first. -/
abbrev Vars := List (String × Value)

/-- Evaluation of an expression; the state counts the steps used. -/
abbrev Eval := EStateM ScriptError Nat

namespace Value

def mismatch (expected : String) (v : Value) : ScriptError :=
  .typeMismatch expected v.typeName

def asInt : Value → Except ScriptError Int
  | .int n => .ok n
  | v => .error (mismatch "int" v)

def asPlayer : Value → Except ScriptError Seat
  | .player seat => .ok seat
  | v => .error (mismatch "player" v)

def asCard : Value → Except ScriptError InstanceId
  | .card id => .ok id
  | v => .error (mismatch "card" v)

def asList : Value → Except ScriptError (List Value)
  | .list items => .ok items
  | v => .error (mismatch "list" v)

/-- Length of a list or text, in elements or characters. -/
def length : Value → Except ScriptError Int
  | .list items => .ok items.length
  | .text s => .ok s.length
  | v => .error (mismatch "list or text" v)

/-- The first element of a list, or nothing. -/
def head : Value → Except ScriptError Value
  | .list (v :: _) => .ok v
  | .list [] => .ok .unit
  | v => .error (mismatch "list" v)

/-- The value of an optional target. -/
def ofTarget? : Option Target → Value
  | some target => ofTarget target
  | none => .unit

end Value

/-- The exact result of an operator on unbounded integers. -/
def Arith.exact : Arith → Int → Int → Int
  | .add, a, b => a + b
  | .sub, a, b => a - b
  | .mul, a, b => a * b
  | .min, a, b => Min.min a b
  | .max, a, b => Max.max a b

/-- The exact result if it is a word; nothing is cut off. -/
def Arith.compute (op : Arith) (a b : Int) : Except ScriptError Int :=
  if inWord (op.exact a b) then .ok (op.exact a b) else .error .overflow

namespace Scene

/-- Uses one step of the budget. The count is compared after it was raised, so that the greatest
count of 32 bits is a budget that is never exhausted. -/
def tick (sc : Scene) : Eval Unit := fun steps =>
  if sc.limits.steps < nextCount steps then
    .error (.budgetExhausted sc.limits.steps) (nextCount steps)
  else .ok () (nextCount steps)

/-- Refuses to go deeper than the limit. -/
def enter (sc : Scene) (depth : Nat) : Except ScriptError Unit :=
  if sc.limits.depth < depth then .error (.tooDeep sc.limits.depth) else .ok ()

def lookup (vars : Vars) (name : String) : Except ScriptError Value :=
  match vars.lookup name with
  | some v => .ok v
  | none => .error (.unknownVariable name)

/-- The first opponent of the caster. -/
def opponent (sc : Scene) : Except ScriptError Value :=
  match sc.session.opponents sc.caster with
  | seat :: _ => .ok (.player seat)
  | [] => .error (.missing .opponent)

/-- The card the script comes from. -/
def sourceCard (sc : Scene) : Except ScriptError Value :=
  match sc.invocation.source with
  | some id => .ok (.card id)
  | none => .error (.missing .source)

/-- One end of the damage that fired the ability. -/
def triggerEnd (sc : Scene) (side : DamageEvent → Option Target) : Value :=
  Value.ofTarget? (sc.invocation.event.bind side)

def triggerTarget (sc : Scene) : Value :=
  sc.triggerEnd (·.target)

def triggerSource (sc : Scene) : Value :=
  sc.triggerEnd (·.source)

/-- The damage that fired the ability. -/
def triggerAmount (sc : Scene) : Value :=
  .int ((sc.invocation.event.map (·.amount)).getD 0)

def healthOf (sc : Scene) : Value → Except ScriptError Int
  | .player seat => (sc.requirePlayer seat).map (·.health)
  | .card id => (sc.requireInstance id).map (·.health)
  | v => .error (.typeMismatch "player or card" v.typeName)

def maxHealthOf (sc : Scene) : Value → Except ScriptError Int
  | .player seat => (sc.requirePlayer seat).map (·.maxHealth)
  | .card id => (sc.definitionOf id).map (·.health)
  | v => .error (.typeMismatch "player or card" v.typeName)

def attackOf (sc : Scene) (v : Value) : Except ScriptError Int := do
  let id ← v.asCard
  return (← sc.definitionOf id).attack

def energyOf (sc : Scene) (v : Value) : Except ScriptError Int := do
  let seat ← v.asPlayer
  return (← sc.requirePlayer seat).energy

def handSizeOf (sc : Scene) (v : Value) : Except ScriptError Int := do
  let seat ← v.asPlayer
  return (← sc.requirePlayer seat).zones.hand.length

end Scene

mutual

/-- Evaluates an expression that is nested at some depth. -/
def Expr.eval (sc : Scene) (vars : Vars) (e : Expr) (depth : Nat) : Eval Value := do
  sc.tick
  sc.enter depth
  match e with
  | .int n => return .int n
  | .bool b => return .bool b
  | .text s => return .text s
  | .var name => Scene.lookup vars name
  | .caster => return .player sc.caster
  | .opponent => sc.opponent
  | .source => sc.sourceCard
  | .triggerTarget => return sc.triggerTarget
  | .triggerSource => return sc.triggerSource
  | .triggerAmount => return sc.triggerAmount
  | .health a =>
    let v ← a.eval sc vars (depth + 1)
    return .int (← sc.healthOf v)
  | .maxHealth a =>
    let v ← a.eval sc vars (depth + 1)
    return .int (← sc.maxHealthOf v)
  | .attack a =>
    let v ← a.eval sc vars (depth + 1)
    return .int (← sc.attackOf v)
  | .energy a =>
    let v ← a.eval sc vars (depth + 1)
    return .int (← sc.energyOf v)
  | .handSize a =>
    let v ← a.eval sc vars (depth + 1)
    return .int (← sc.handSizeOf v)
  | .creatures side => return sc.permanents side .creature
  | .artifacts side => return sc.permanents side .artifact
  | .arith op a b =>
    let m ← (← a.eval sc vars (depth + 1)).asInt
    let n ← (← b.eval sc vars (depth + 1)).asInt
    return .int (← op.compute m n)
  | .eq a b =>
    let v ← a.eval sc vars (depth + 1)
    let w ← b.eval sc vars (depth + 1)
    return .bool (decide (v = w))
  | .lt a b =>
    let m ← (← a.eval sc vars (depth + 1)).asInt
    let n ← (← b.eval sc vars (depth + 1)).asInt
    return .bool (decide (m < n))
  | .gt a b =>
    let m ← (← a.eval sc vars (depth + 1)).asInt
    let n ← (← b.eval sc vars (depth + 1)).asInt
    return .bool (decide (n < m))
  | .not a =>
    let v ← a.eval sc vars (depth + 1)
    return .bool (!v.isTruthy)
  | .and a b =>
    let v ← a.eval sc vars (depth + 1)
    if v.isTruthy then
      let w ← b.eval sc vars (depth + 1)
      return .bool w.isTruthy
    else return .bool false
  | .or a b =>
    let v ← a.eval sc vars (depth + 1)
    if v.isTruthy then return .bool true
    else
      let w ← b.eval sc vars (depth + 1)
      return .bool w.isTruthy
  | .len a =>
    let v ← a.eval sc vars (depth + 1)
    return .int (← v.length)
  | .first a =>
    let v ← a.eval sc vars (depth + 1)
    v.head
  | .concat parts => return .text (String.join (← Expr.printAll sc vars parts (depth + 1)))

/-- Evaluates expressions one after another and prints their values. -/
def Expr.printAll (sc : Scene) (vars : Vars) (es : List Expr) (depth : Nat) :
    Eval (List String) := do
  match es with
  | [] => return []
  | e :: es =>
    let v ← e.eval sc vars depth
    let rest ← Expr.printAll sc vars es depth
    return v.print :: rest

end

structure Run where
  vars : Vars := []
  /-- Steps used. -/
  steps : Nat := 0
  /-- Queued operations, latest first. -/
  queue : List Operation := []
  /-- Requests made to the chooser, latest first. -/
  asked : List TargetRequest
  deriving Repr

/-- Execution of a statement or block. -/
abbrev Exec := EStateM ScriptError Run

/-- How a statement ends: the next one follows, or the script stops with a value. -/
inductive Flow where
  | next
  | stop (v : Value)
  deriving Repr

namespace Run

/-- An evaluation as part of a run, with the variables and the steps of the run. -/
def evaluating {α : Type} (f : Vars → Eval α) : Exec α := fun r =>
  match f r.vars r.steps with
  | .ok a steps => .ok a { r with steps }
  | .error e steps => .error e { r with steps }

def tick (sc : Scene) : Exec Unit :=
  evaluating fun _ => sc.tick

def evaluate (sc : Scene) (e : Expr) (depth : Nat) : Exec Value :=
  evaluating fun vars => e.eval sc vars depth

def push (name : String) (v : Value) : Exec Unit :=
  modify fun r => { r with vars := (name, v) :: r.vars }

def pop : Exec Unit :=
  modify fun r => { r with vars := r.vars.tail }

/-- Drops variables until no more than `size` are left. -/
def cutTo (size : Nat) : Exec Unit :=
  modify fun r => { r with vars := r.vars.drop (r.vars.length - size) }

def enqueue (op : Operation) : Exec Unit :=
  modify fun r => { r with queue := op :: r.queue }

/-- Resolves a choice of targets and binds the list of those chosen. -/
def select (sc : Scene) (name : String) (sel : Selector) : Exec Unit :=
  modify fun r =>
    let (targets, asked) := sel.resolve sc.session sc.catalog sc.caster sc.invocation.source
      sc.chooser r.asked
    { r with vars := (name, .list (targets.map Value.ofTarget)) :: r.vars, asked }

/-- Runs the statements of a block: the depth is checked first, and the variables bound in it are
dropped at its end. -/
def inScope (sc : Scene) (depth : Nat) (statements : Exec Flow) : Exec Flow := do
  sc.enter depth
  let size := (← get).vars.length
  let flow ← statements
  cutTo size
  return flow

/-- Runs a block for each value in turn, bound to a name, until one run stops. -/
def loop (name : String) (body : Exec Flow) : List Value → Exec Flow
  | [] => return .next
  | v :: vs => do
    push name v
    let flow ← body
    pop
    match flow with
    | .next => loop name body vs
    | .stop w => return .stop w

end Run

mutual

/-- Runs one statement of a block at some depth. -/
def Stmt.exec (sc : Scene) (s : Stmt) (depth : Nat) : Exec Flow := do
  Run.tick sc
  match s with
  | .letVar name value =>
    Run.push name (← Run.evaluate sc value (depth + 1))
    return .next
  | .selectTargets name sel =>
    Run.select sc name sel
    return .next
  | .damagePlayer player amount =>
    let seat ← (← Run.evaluate sc player (depth + 1)).asPlayer
    let n ← (← Run.evaluate sc amount (depth + 1)).asInt
    Run.enqueue (← sc.damagePlayer seat n)
    return .next
  | .damageCard card amount =>
    let id ← (← Run.evaluate sc card (depth + 1)).asCard
    let n ← (← Run.evaluate sc amount (depth + 1)).asInt
    Run.enqueue (← sc.damageCard id n)
    return .next
  | .healPlayer player amount =>
    let seat ← (← Run.evaluate sc player (depth + 1)).asPlayer
    let n ← (← Run.evaluate sc amount (depth + 1)).asInt
    Run.enqueue (← sc.healPlayer seat n)
    return .next
  | .healCard card amount =>
    let id ← (← Run.evaluate sc card (depth + 1)).asCard
    let n ← (← Run.evaluate sc amount (depth + 1)).asInt
    Run.enqueue (← sc.healCard id n)
    return .next
  | .destroyCard card =>
    let id ← (← Run.evaluate sc card (depth + 1)).asCard
    Run.enqueue (← sc.destroyCard id)
    return .next
  | .log message =>
    let v ← Run.evaluate sc message (depth + 1)
    Run.enqueue (sc.log v.print)
    return .next
  | .drawCard =>
    Run.enqueue (← sc.drawCard)
    return .next
  | .gainEnergy amount =>
    let n ← (← Run.evaluate sc amount (depth + 1)).asInt
    Run.enqueue (← sc.gainEnergy n)
    return .next
  | .ifElse condition yes no =>
    let v ← Run.evaluate sc condition (depth + 1)
    if v.isTruthy then Run.inScope sc (depth + 1) (Stmt.execAll sc yes (depth + 1))
    else Run.inScope sc (depth + 1) (Stmt.execAll sc no (depth + 1))
  | .forEach name items body =>
    let vs ← (← Run.evaluate sc items (depth + 1)).asList
    Run.loop name (Run.inScope sc (depth + 1) (Stmt.execAll sc body (depth + 1))) vs
  | .stop value => return .stop (← Run.evaluate sc value (depth + 1))
  | .fail message => throw (.raised message)

/-- Runs statements in order until one stops. -/
def Stmt.execAll (sc : Scene) (body : List Stmt) (depth : Nat) : Exec Flow := do
  match body with
  | [] => return .next
  | s :: rest =>
    match ← s.exec sc depth with
    | .next => Stmt.execAll sc rest depth
    | .stop v => return .stop v

end

/-- Runs a block at some depth. -/
def Stmt.execBlock (sc : Scene) (body : List Stmt) (depth : Nat) : Exec Flow :=
  Run.inScope sc depth (Stmt.execAll sc body depth)

/-- What came of an invocation. -/
inductive Outcome where
  /-- The script is done; these operations are to be applied. -/
  | completed (ops : List Operation)
  /-- The script stopped with `false`. -/
  | declined
  | failed (error : ScriptError)
  deriving DecidableEq, Repr

/-- Runs a script, given the requests made to the chooser before; the requests made up to the end
are part of the answer. -/
def Script.invoke (sc : Scene) (script : Script) (asked : List TargetRequest) :
    Outcome × List TargetRequest :=
  match Stmt.execBlock sc script.body 0 { asked } with
  | .ok (.stop (.bool false)) r => (.declined, r.asked)
  | .ok _ r => (.completed r.queue.reverse, r.asked)
  | .error e r => (.failed e, r.asked)

end CardBattle
