import CardBattle.Script.Run

/-!
# Relations between two runs of a script

A script is run in one scene under two limits. Relations between the two runs are built up from
the steps of the language in the same way whatever they say, so that the induction over expressions
and statements is made once: a relation that the rules below hold for relates the two runs of every
script. Blocks and expressions enter no level deeper than their nesting says.
-/

namespace CardBattle

/-! ### Nesting -/

mutual

def Expr.nesting : Expr → Nat
  | .health a | .maxHealth a | .attack a | .energy a | .handSize a | .not a | .len a | .first a =>
    a.nesting + 1
  | .arith _ a b | .eq a b | .lt a b | .gt a b | .and a b | .or a b =>
    max a.nesting b.nesting + 1
  | .concat parts => Expr.nestingAll parts
  | .int _ | .bool _ | .text _ | .var _ | .caster | .opponent | .source | .triggerTarget
  | .triggerSource | .triggerAmount | .creatures _ | .artifacts _ => 0

def Expr.nestingAll : List Expr → Nat
  | [] => 0
  | e :: es => max (e.nesting + 1) (Expr.nestingAll es)

end

mutual

/-- The number of levels below the block that a statement stands in. -/
def Stmt.nesting : Stmt → Nat
  | .letVar _ a | .destroyCard a | .log a | .gainEnergy a | .stop a => a.nesting + 1
  | .damagePlayer a b | .damageCard a b | .healPlayer a b | .healCard a b =>
    max a.nesting b.nesting + 1
  | .ifElse condition yes no =>
    max condition.nesting (max (Stmt.nestingAll yes) (Stmt.nestingAll no)) + 1
  | .forEach _ items body => max items.nesting (Stmt.nestingAll body) + 1
  | .selectTargets _ _ | .drawCard | .fail _ => 0

def Stmt.nestingAll : List Stmt → Nat
  | [] => 0
  | s :: rest => max s.nesting (Stmt.nestingAll rest)

end

def Script.nesting (script : Script) : Nat :=
  Stmt.nestingAll script.body

/-! ### Reads -/

/-- Nothing that a script reads or calls complains of its nesting. -/
def Plain {α : Type} (x : Except ScriptError α) : Prop :=
  ∀ limit, x ≠ .error (.tooDeep limit)

section Reads

variable {α β : Type} {sc : Scene}

theorem plain_ok (a : α) : Plain (.ok a) :=
  nofun

/-- What is put together from plain parts is plain. -/
theorem plain_bind {x : Except ScriptError α} {f : α → Except ScriptError β} (hx : Plain x)
    (hf : ∀ a, Plain (f a)) : Plain (x >>= f) := by
  cases x with
  | ok a => exact hf a
  | error e =>
    intro limit h
    cases h
    exact hx limit rfl

theorem plain_map {x : Except ScriptError α} {f : α → β} (hx : Plain x) : Plain (x.map f) := by
  cases x with
  | ok a => exact plain_ok _
  | error e =>
    intro limit h
    cases h
    exact hx limit rfl

namespace Value

theorem plain_asInt (v : Value) : Plain v.asInt := by
  cases v <;> exact nofun

theorem plain_asPlayer (v : Value) : Plain v.asPlayer := by
  cases v <;> exact nofun

theorem plain_asCard (v : Value) : Plain v.asCard := by
  cases v <;> exact nofun

theorem plain_asList (v : Value) : Plain v.asList := by
  cases v <;> exact nofun

theorem plain_length (v : Value) : Plain v.length := by
  cases v <;> exact nofun

theorem plain_head (v : Value) : Plain v.head := by
  cases v with
  | list items => cases items <;> exact nofun
  | _ => exact nofun

end Value

theorem plain_compute (op : Arith) (m n : Int) : Plain (op.compute m n) := by
  unfold Arith.compute
  split <;> exact nofun

namespace Scene

theorem plain_lookup (vars : Vars) (name : String) : Plain (lookup vars name) := by
  unfold lookup
  cases vars.lookup name <;> exact nofun

theorem plain_opponent : Plain sc.opponent := by
  unfold opponent
  split <;> exact nofun

theorem plain_sourceCard : Plain sc.sourceCard := by
  unfold sourceCard
  split <;> exact nofun

theorem plain_requirePlayer (seat : Seat) : Plain (sc.requirePlayer seat) := by
  unfold requirePlayer
  split <;> exact nofun

theorem plain_requireInstance (id : InstanceId) : Plain (sc.requireInstance id) := by
  unfold requireInstance
  split <;> exact nofun

theorem plain_definitionOf (id : InstanceId) : Plain (sc.definitionOf id) := by
  unfold definitionOf requireInstance
  cases sc.session.instance? id with
  | none => exact nofun
  | some c =>
    dsimp only
    split <;> exact nofun

theorem plain_healthOf (v : Value) : Plain (sc.healthOf v) := by
  cases v with
  | player seat => exact plain_map (plain_requirePlayer seat)
  | card id => exact plain_map (plain_requireInstance id)
  | _ => exact nofun

theorem plain_maxHealthOf (v : Value) : Plain (sc.maxHealthOf v) := by
  cases v with
  | player seat => exact plain_map (plain_requirePlayer seat)
  | card id => exact plain_map (plain_definitionOf id)
  | _ => exact nofun

theorem plain_attackOf (v : Value) : Plain (sc.attackOf v) :=
  plain_bind v.plain_asCard fun id => plain_bind (plain_definitionOf id) fun _ => plain_ok _

theorem plain_energyOf (v : Value) : Plain (sc.energyOf v) :=
  plain_bind v.plain_asPlayer fun seat => plain_bind (plain_requirePlayer seat) fun _ => plain_ok _

theorem plain_handSizeOf (v : Value) : Plain (sc.handSizeOf v) :=
  plain_bind v.plain_asPlayer fun seat => plain_bind (plain_requirePlayer seat) fun _ => plain_ok _

theorem plain_checkAmount (n : Int) : Plain (checkAmount n) := by
  unfold checkAmount
  split <;> exact nofun

theorem plain_requireAbility (call : String) : Plain (sc.requireAbility call) := by
  unfold requireAbility
  split <;> exact nofun

/-- The calls about a player do not complain of nesting. -/
theorem plain_onPlayer {make : Seat → Int → Operation} (seat : Seat) (n : Int) :
    Plain (sc.onPlayer make seat n) :=
  plain_bind (plain_requirePlayer seat) fun _ =>
    plain_bind (plain_checkAmount n) fun _ => plain_ok _

/-- The calls about a card do not complain of nesting. -/
theorem plain_onCard {make : CardDefinition → Operation} (id : InstanceId) (n : Int) :
    Plain (sc.onCard make id n) :=
  plain_bind (plain_definitionOf id) fun _ =>
    plain_bind (plain_checkAmount n) fun _ => plain_ok _

theorem plain_destroyCard (id : InstanceId) : Plain (sc.destroyCard id) :=
  plain_bind (plain_definitionOf id) fun _ => plain_ok _

theorem plain_drawCard : Plain sc.drawCard :=
  plain_bind (plain_requireAbility _) fun _ => plain_ok _

theorem plain_gainEnergy (n : Int) : Plain (sc.gainEnergy n) :=
  plain_bind (plain_requireAbility _) fun _ => plain_bind (plain_checkAmount n) fun _ => plain_ok _

end Scene

end Reads

/-! ### Expressions -/

def Scene.withLimits (sc : Scene) (limits : Limits) : Scene :=
  { sc with limits }

/-- What it takes for a relation to hold between evaluations of an expression in two scenes with
different limits, down to some level. -/
structure EvalRules (sc : Scene) (limits : Limits) (deepest : Nat)
    (E : ∀ {α : Type}, Eval α → Eval α → Prop) : Prop where
  pure : ∀ {α : Type} (a : α), E (pure a) (pure a)
  bind : ∀ {α β : Type} {x y : Eval α} {f g : α → Eval β},
    E x y → (∀ a, E (f a) (g a)) → E (x >>= f) (y >>= g)
  lift : ∀ {α : Type} {x : Except ScriptError α}, Plain x → E (liftM x) (liftM x)
  tick : E sc.tick (sc.withLimits limits).tick
  enter : ∀ {depth : Nat}, depth ≤ deepest →
    E (liftM (sc.enter depth)) (liftM ((sc.withLimits limits).enter depth))

namespace EvalRules

variable {sc : Scene} {limits : Limits} {deepest depth : Nat} {vars : Vars}
  {E : ∀ {α : Type}, Eval α → Eval α → Prop}

/-- The step and the look at the depth may stand before any evaluation. -/
theorem entry (rules : EvalRules sc limits deepest E) (shallow : depth ≤ deepest)
    {x y : Eval Value} (rest : E x y) :
    E (do sc.tick; sc.enter depth; x)
      (do (sc.withLimits limits).tick; (sc.withLimits limits).enter depth; y) :=
  rules.bind rules.tick fun _ => rules.bind (rules.enter shallow) fun _ => rest

/-- A value that is evaluated first and then taken for something. -/
theorem arg (rules : EvalRules sc limits deepest E) {α β : Type} {x y : Eval Value}
    {f : Value → Except ScriptError α} {k l : α → Eval β} (first : E x y)
    (plain : ∀ v, Plain (f v)) (rest : ∀ a, E (k a) (l a)) :
    E (do let a ← liftM (f (← x)); k a) (do let a ← liftM (f (← y)); l a) :=
  rules.bind first fun v => rules.bind (rules.lift (plain v)) rest

theorem reading (rules : EvalRules sc limits deepest E) {x y : Eval Value}
    {f : Value → Except ScriptError Int} (first : E x y) (plain : ∀ v, Plain (f v)) :
    E (do return .int (← liftM (f (← x))) : Eval Value) (do return .int (← liftM (f (← y)))) :=
  rules.arg first plain fun _ => rules.pure _

/-- Two integers, one after the other, make a value. -/
theorem ints (rules : EvalRules sc limits deepest E) {x x' y y' : Eval Value}
    {k : Int → Int → Eval Value} (first : E x x') (second : E y y')
    (rest : ∀ m n, E (k m n) (k m n)) :
    E (do let m ← liftM (← x).asInt; let n ← liftM (← y).asInt; k m n)
      (do let m ← liftM (← x').asInt; let n ← liftM (← y').asInt; k m n) :=
  rules.arg first Value.plain_asInt fun m => rules.arg second Value.plain_asInt fun n => rest m n

end EvalRules

section Expressions

variable {sc : Scene} {limits : Limits} {deepest : Nat}
  {E : ∀ {α : Type}, Eval α → Eval α → Prop}

mutual

/-- A relation with the rules relates the evaluations of every expression that stays above the
deepest level. -/
theorem Expr.eval_related (rules : EvalRules sc limits deepest E) (vars : Vars) (e : Expr)
    (depth : Nat) (shallow : depth + e.nesting ≤ deepest) :
    E (e.eval sc vars depth) (e.eval (sc.withLimits limits) vars depth) := by
  have here : depth ≤ deepest := Nat.le_trans (Nat.le_add_right _ _) shallow
  cases e with
  | int n | bool n | text n | caster | triggerTarget | triggerSource | triggerAmount | creatures n
  | artifacts n =>
    rw [Expr.eval, Expr.eval]
    exact rules.entry here (rules.pure _)
  | var name =>
    rw [Expr.eval, Expr.eval]
    exact rules.entry here (rules.lift (Scene.plain_lookup vars name))
  | opponent =>
    rw [Expr.eval, Expr.eval]
    exact rules.entry here (rules.lift Scene.plain_opponent)
  | source =>
    rw [Expr.eval, Expr.eval]
    exact rules.entry here (rules.lift Scene.plain_sourceCard)
  | health a =>
    rw [Expr.eval, Expr.eval]
    simp only [Expr.nesting] at shallow
    exact rules.entry here (rules.reading
      (Expr.eval_related rules vars a (depth + 1) (by omega)) Scene.plain_healthOf)
  | maxHealth a =>
    rw [Expr.eval, Expr.eval]
    simp only [Expr.nesting] at shallow
    exact rules.entry here (rules.reading
      (Expr.eval_related rules vars a (depth + 1) (by omega)) Scene.plain_maxHealthOf)
  | attack a =>
    rw [Expr.eval, Expr.eval]
    simp only [Expr.nesting] at shallow
    exact rules.entry here (rules.reading
      (Expr.eval_related rules vars a (depth + 1) (by omega)) Scene.plain_attackOf)
  | energy a =>
    rw [Expr.eval, Expr.eval]
    simp only [Expr.nesting] at shallow
    exact rules.entry here (rules.reading
      (Expr.eval_related rules vars a (depth + 1) (by omega)) Scene.plain_energyOf)
  | handSize a =>
    rw [Expr.eval, Expr.eval]
    simp only [Expr.nesting] at shallow
    exact rules.entry here (rules.reading
      (Expr.eval_related rules vars a (depth + 1) (by omega)) Scene.plain_handSizeOf)
  | arith op a b =>
    rw [Expr.eval, Expr.eval]
    simp only [Expr.nesting] at shallow
    exact rules.entry here (rules.ints
      (Expr.eval_related rules vars a (depth + 1) (by omega))
      (Expr.eval_related rules vars b (depth + 1) (by omega)) fun m n =>
        rules.bind (rules.lift (plain_compute op m n)) fun _ => rules.pure _)
  | eq a b =>
    rw [Expr.eval, Expr.eval]
    simp only [Expr.nesting] at shallow
    exact rules.entry here (rules.bind
      (Expr.eval_related rules vars a (depth + 1) (by omega)) fun _ =>
        rules.bind (Expr.eval_related rules vars b (depth + 1) (by omega)) fun _ => rules.pure _)
  | lt a b | gt a b =>
    rw [Expr.eval, Expr.eval]
    simp only [Expr.nesting] at shallow
    exact rules.entry here (rules.ints
      (Expr.eval_related rules vars a (depth + 1) (by omega))
      (Expr.eval_related rules vars b (depth + 1) (by omega)) fun _ _ => rules.pure _)
  | not a =>
    rw [Expr.eval, Expr.eval]
    simp only [Expr.nesting] at shallow
    exact rules.entry here (rules.bind
      (Expr.eval_related rules vars a (depth + 1) (by omega)) fun _ => rules.pure _)
  | and a b =>
    rw [Expr.eval, Expr.eval]
    simp only [Expr.nesting] at shallow
    refine rules.entry here (rules.bind
      (Expr.eval_related rules vars a (depth + 1) (by omega)) fun v => ?_)
    split
    · exact rules.bind (Expr.eval_related rules vars b (depth + 1) (by omega)) fun _ => rules.pure _
    · exact rules.pure _
  | or a b =>
    rw [Expr.eval, Expr.eval]
    simp only [Expr.nesting] at shallow
    refine rules.entry here (rules.bind
      (Expr.eval_related rules vars a (depth + 1) (by omega)) fun v => ?_)
    split
    · exact rules.pure _
    · exact rules.bind (Expr.eval_related rules vars b (depth + 1) (by omega)) fun _ => rules.pure _
  | len a =>
    rw [Expr.eval, Expr.eval]
    simp only [Expr.nesting] at shallow
    exact rules.entry here (rules.reading
      (Expr.eval_related rules vars a (depth + 1) (by omega)) Value.plain_length)
  | first a =>
    rw [Expr.eval, Expr.eval]
    simp only [Expr.nesting] at shallow
    exact rules.entry here (rules.bind
      (Expr.eval_related rules vars a (depth + 1) (by omega)) fun v => rules.lift v.plain_head)
  | concat parts =>
    rw [Expr.eval, Expr.eval]
    simp only [Expr.nesting] at shallow
    exact rules.entry here (rules.bind (Expr.printAll_related rules vars parts depth shallow)
      fun _ => rules.pure _)

theorem Expr.printAll_related (rules : EvalRules sc limits deepest E) (vars : Vars)
    (es : List Expr) (depth : Nat) (shallow : depth + Expr.nestingAll es ≤ deepest) :
    E (Expr.printAll sc vars es (depth + 1))
      (Expr.printAll (sc.withLimits limits) vars es (depth + 1)) := by
  match es with
  | [] =>
    rw [Expr.printAll, Expr.printAll]
    exact rules.pure _
  | e :: es =>
    rw [Expr.printAll, Expr.printAll]
    simp only [Expr.nestingAll] at shallow
    exact rules.bind (Expr.eval_related rules vars e (depth + 1) (by omega)) fun _ =>
      rules.bind (Expr.printAll_related rules vars es depth (by omega)) fun _ => rules.pure _

end

end Expressions

/-! ### Statements -/

open Run

/-- What it takes for a relation to hold between executions of a statement in two scenes with
different limits. The relation comes with the number of operations and requests that it takes an
account of; each step of the budget pays for one of them. -/
structure ExecRules (sc : Scene) (limits : Limits) (deepest : Nat)
    (X : Nat → ∀ {α : Type}, Exec α → Exec α → Prop) : Prop where
  pure : ∀ {α : Type} (a : α), X 0 (pure a) (pure a)
  bind : ∀ {α β : Type} {j k : Nat} {x y : Exec α} {f g : α → Exec β},
    X j x y → (∀ a, X k (f a) (g a)) → X (j + k) (x >>= f) (y >>= g)
  lift : ∀ {α : Type} {x : Except ScriptError α}, Plain x → X 0 (liftM x) (liftM x)
  ticked : ∀ {α : Type} {k : Nat} {x y : Exec α}, k ≤ 1 → X k x y →
    X 0 (do tick sc; x) (do tick (sc.withLimits limits); y)
  enter : ∀ {depth : Nat}, depth ≤ deepest →
    X 0 (liftM (sc.enter depth)) (liftM ((sc.withLimits limits).enter depth))
  evaluate : ∀ (e : Expr) {depth : Nat}, depth + e.nesting ≤ deepest →
    X 0 (evaluate sc e depth) (evaluate (sc.withLimits limits) e depth)
  get : X 0 get get
  rebind : ∀ (f : Vars → Vars),
    X 0 (modify fun r => { r with vars := f r.vars }) (modify fun r => { r with vars := f r.vars })
  enqueue : ∀ op, X 1 (enqueue op) (enqueue op)
  select : ∀ name sel, X 1 (select sc name sel) (select (sc.withLimits limits) name sel)

namespace ExecRules

variable {sc : Scene} {limits : Limits} {deepest depth : Nat}
  {X : Nat → ∀ {α : Type}, Exec α → Exec α → Prop}

variable (rules : ExecRules sc limits deepest X) {α β : Type} {x y : Exec α}

include rules

/-- Steps that need no account, and then others. -/
theorem seq {k : Nat} {f g : α → Exec β} (first : X 0 x y) (rest : ∀ a, X k (f a) (g a)) :
    X k (x >>= f) (y >>= g) :=
  Nat.zero_add k ▸ rules.bind first rest

/-- A statement that queues and asks for nothing. -/
theorem idle (rest : X 0 x y) : X 0 (do tick sc; x) (do tick (sc.withLimits limits); y) :=
  rules.ticked (Nat.zero_le 1) rest

/-- A statement that queues an operation or makes a request. -/
theorem paid (rest : X 1 x y) : X 0 (do tick sc; x) (do tick (sc.withLimits limits); y) :=
  rules.ticked (Nat.le_refl 1) rest

/-- An argument that is evaluated first and then taken for something. -/
theorem arg {k : Nat} {e : Expr} {f : Value → Except ScriptError α} {l m : α → Exec β}
    (shallow : depth + e.nesting ≤ deepest) (plain : ∀ v, Plain (f v))
    (rest : ∀ a, X k (l a) (m a)) :
    X k (do let a ← liftM (f (← Run.evaluate sc e depth)); l a)
      (do let a ← liftM (f (← Run.evaluate (sc.withLimits limits) e depth)); m a) :=
  rules.seq (rules.evaluate e shallow) fun v => rules.seq (rules.lift (plain v)) rest

/-- A call that was checked queues its operation. -/
theorem call {checked : Except ScriptError Operation} (plain : Plain checked) :
    X 1 (do Run.enqueue (← liftM checked); return .next : Exec Flow)
      (do Run.enqueue (← liftM checked); return .next) :=
  rules.seq (rules.lift plain) fun op => rules.bind (rules.enqueue op) fun _ => rules.pure _

/-- A block is related to itself under the other limits if its statements are. -/
theorem inScope {x y : Exec Flow} (shallow : depth ≤ deepest) (block : X 0 x y) :
    X 0 (Run.inScope sc depth x) (Run.inScope (sc.withLimits limits) depth y) :=
  rules.seq (rules.enter shallow) fun _ => rules.seq rules.get fun r =>
    rules.seq block fun _ => rules.seq
      (rules.rebind fun vars => vars.drop (vars.length - r.vars.length)) fun _ => rules.pure _

/-- A loop is related to itself under the other limits if its body is. -/
theorem loop (name : String) {x y : Exec Flow} (body : X 0 x y) (vs : List Value) :
    X 0 (Run.loop name x vs) (Run.loop name y vs) := by
  induction vs with
  | nil => exact rules.pure _
  | cons v vs ih =>
    refine rules.seq (rules.rebind fun vars => (name, v) :: vars) fun _ =>
      rules.seq body fun flow => rules.seq (rules.rebind List.tail) fun _ => ?_
    cases flow with
    | next => exact ih
    | stop w => exact rules.pure _

end ExecRules

section Statements

variable {sc : Scene} {limits : Limits} {deepest : Nat}
  {X : Nat → ∀ {α : Type}, Exec α → Exec α → Prop}

mutual

/-- A relation with the rules relates the executions of every statement that stays above the
deepest level, and takes no account of them. -/
theorem Stmt.exec_related (rules : ExecRules sc limits deepest X) (s : Stmt) (depth : Nat)
    (shallow : depth + s.nesting ≤ deepest) :
    X 0 (s.exec sc depth) (s.exec (sc.withLimits limits) depth) := by
  cases s with
  | letVar name value =>
    rw [Stmt.exec, Stmt.exec]
    simp only [Stmt.nesting] at shallow
    exact rules.idle (rules.seq (rules.evaluate value (by omega)) fun v =>
      rules.seq (rules.rebind fun vars => (name, v) :: vars) fun _ => rules.pure _)
  | selectTargets name sel =>
    rw [Stmt.exec, Stmt.exec]
    exact rules.paid (rules.bind (rules.select name sel) fun _ => rules.pure _)
  | damagePlayer player amount =>
    rw [Stmt.exec, Stmt.exec]
    simp only [Stmt.nesting] at shallow
    exact rules.paid (rules.arg (by omega) Value.plain_asPlayer fun seat =>
      rules.arg (by omega) Value.plain_asInt fun n => rules.call (Scene.plain_onPlayer seat n))
  | damageCard card amount =>
    rw [Stmt.exec, Stmt.exec]
    simp only [Stmt.nesting] at shallow
    exact rules.paid (rules.arg (by omega) Value.plain_asCard fun id =>
      rules.arg (by omega) Value.plain_asInt fun n => rules.call (Scene.plain_onCard id n))
  | healPlayer player amount =>
    rw [Stmt.exec, Stmt.exec]
    simp only [Stmt.nesting] at shallow
    exact rules.paid (rules.arg (by omega) Value.plain_asPlayer fun seat =>
      rules.arg (by omega) Value.plain_asInt fun n => rules.call (Scene.plain_onPlayer seat n))
  | healCard card amount =>
    rw [Stmt.exec, Stmt.exec]
    simp only [Stmt.nesting] at shallow
    exact rules.paid (rules.arg (by omega) Value.plain_asCard fun id =>
      rules.arg (by omega) Value.plain_asInt fun n => rules.call (Scene.plain_onCard id n))
  | destroyCard card =>
    rw [Stmt.exec, Stmt.exec]
    simp only [Stmt.nesting] at shallow
    exact rules.paid (rules.arg (by omega) Value.plain_asCard fun id =>
      rules.call (Scene.plain_destroyCard id))
  | log message =>
    rw [Stmt.exec, Stmt.exec]
    simp only [Stmt.nesting] at shallow
    exact rules.paid (rules.seq (rules.evaluate message (by omega)) fun v =>
      rules.bind (rules.enqueue (sc.log v.print)) fun _ => rules.pure _)
  | drawCard =>
    rw [Stmt.exec, Stmt.exec]
    exact rules.paid (rules.call Scene.plain_drawCard)
  | gainEnergy amount =>
    rw [Stmt.exec, Stmt.exec]
    simp only [Stmt.nesting] at shallow
    exact rules.paid (rules.arg (by omega) Value.plain_asInt fun n =>
      rules.call (Scene.plain_gainEnergy n))
  | ifElse condition yes no =>
    rw [Stmt.exec, Stmt.exec]
    simp only [Stmt.nesting] at shallow
    refine rules.idle (rules.seq (rules.evaluate condition (by omega)) fun v => ?_)
    split
    · exact rules.inScope (by omega) (Stmt.execAll_related rules yes (depth + 1) (by omega))
    · exact rules.inScope (by omega) (Stmt.execAll_related rules no (depth + 1) (by omega))
  | forEach name items body =>
    rw [Stmt.exec, Stmt.exec]
    simp only [Stmt.nesting] at shallow
    have block := rules.inScope (show depth + 1 ≤ deepest by omega)
      (Stmt.execAll_related rules body (depth + 1) (by omega))
    exact rules.idle (rules.arg (by omega) Value.plain_asList (rules.loop name block))
  | stop value =>
    rw [Stmt.exec, Stmt.exec]
    simp only [Stmt.nesting] at shallow
    exact rules.idle (rules.seq (rules.evaluate value (by omega)) fun _ => rules.pure _)
  | fail message =>
    rw [Stmt.exec, Stmt.exec]
    exact rules.idle (rules.lift (x := .error (.raised message)) nofun)

theorem Stmt.execAll_related (rules : ExecRules sc limits deepest X) (body : List Stmt)
    (depth : Nat) (shallow : depth + Stmt.nestingAll body ≤ deepest) :
    X 0 (Stmt.execAll sc body depth) (Stmt.execAll (sc.withLimits limits) body depth) := by
  match body with
  | [] =>
    rw [Stmt.execAll, Stmt.execAll]
    exact rules.pure _
  | s :: rest =>
    rw [Stmt.execAll, Stmt.execAll]
    simp only [Stmt.nestingAll] at shallow
    refine rules.seq (Stmt.exec_related rules s depth (by omega)) fun flow => ?_
    cases flow with
    | next => exact Stmt.execAll_related rules rest depth (by omega)
    | stop v => exact rules.pure _

end

/-- A relation with the rules relates the two runs of every script that stays above the deepest
level. -/
theorem Script.block_related (rules : ExecRules sc limits deepest X) (script : Script)
    (shallow : script.nesting ≤ deepest) :
    X 0 (Stmt.execBlock sc script.body 0) (Stmt.execBlock (sc.withLimits limits) script.body 0) :=
  rules.inScope (Nat.zero_le deepest)
    (Stmt.execAll_related rules script.body 0
      (Nat.le_trans (Nat.le_of_eq (Nat.zero_add _)) shallow))

end Statements

end CardBattle
