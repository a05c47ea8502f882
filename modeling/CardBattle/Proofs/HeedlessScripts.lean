import CardBattle.Proofs.HeedlessUpdates
import CardBattle.Proofs.SceneViews

/-!
# Scripts that do not heed failures

Nothing that a script can read of a session is in its log, and where the chooser pays no regard to
what it was asked before, earlier requests make no difference to a script either.
-/

namespace CardBattle

/-- What the chooser picks does not depend on earlier requests. -/
def Chooser.Memoryless (c : Chooser) : Prop :=
  ∀ asked asked' request, c.pick asked request = c.pick asked' request

/-- The chooser of first targets has no memory. -/
theorem Chooser.memoryless_first : Chooser.first.Memoryless :=
  fun _ _ _ => rfl

def Scene.without (struck : LogAction) (revision : Nat) (sc : Scene) : Scene :=
  sc.withSession (sc.session.without struck revision)

variable {sc : Scene} {struck : LogAction} {revision : Nat}

/-! ### Expressions and choices -/

/-- With other logs behind them, the two functions are the same by their definitions. -/
theorem Expr.eval_without : Expr.eval (sc.without struck revision) = Expr.eval sc := by
  delta Expr.eval
  rfl

theorem Selector.takePicks_without (sel : Selector) (s : Session) (K : Catalog) (source : Seat)
    (picks taken : List Target) : sel.takePicks (s.without struck revision) K source picks taken
      = sel.takePicks s K source picks taken := by
  induction picks generalizing taken with
  | nil => rfl
  | cons pick picks ih =>
    have accepts : sel.accepts (s.without struck revision) K source pick
      = sel.accepts s K source pick := rfl
    simp only [Selector.takePicks, ih, accepts]

/-- The same targets are chosen, whatever was asked before. -/
theorem Selector.resolve_without (sel : Selector) (s : Session) (K : Catalog) (source : Seat)
    (card : Option InstanceId) {chooser : Chooser} (memoryless : chooser.Memoryless)
    (asked asked' : List TargetRequest) :
    (sel.resolve (s.without struck revision) K source card chooser asked').1
      = (sel.resolve s K source card chooser asked).1 := by
  have forced : sel.autoTargets (s.without struck revision) K source
    = sel.autoTargets s K source := rfl
  simp only [Selector.resolve, forced, takePicks_without]
  cases sel.autoTargets s K source with
  | some targets => rfl
  | none =>
    dsimp only
    rw [memoryless asked' asked]
    rfl

/-! ### Statements -/

namespace Run

def Apart (r r' : Run) : Prop :=
  ∃ asked, r' = { r with asked }

theorem evaluating_inStep {α : Type} (f : Vars → Eval α) :
    InStep Apart (evaluating f) (evaluating f) := by
  rintro r _ ⟨asked, rfl⟩
  unfold evaluating
  dsimp only
  cases f r.vars r.steps with
  | ok a steps => exact .ok a ⟨asked, rfl⟩
  | error e steps => exact .error e ⟨asked, rfl⟩

theorem tick_inStep : InStep Apart (tick sc) (tick (sc.without struck revision)) :=
  evaluating_inStep fun _ => sc.tick

/-- Expressions have the same values in both scenes. -/
theorem evaluate_inStep (e : Expr) (depth : Nat) :
    InStep Apart (evaluate sc e depth) (evaluate (sc.without struck revision) e depth) := by
  unfold evaluate
  rw [Expr.eval_without]
  exact evaluating_inStep _

/-- A change that pays no regard to the requests made. -/
theorem change_inStep {f : Run → Run} (same : ∀ r asked, Apart (f r) (f { r with asked })) :
    InStep Apart (modify f : Exec Unit) (modify f) :=
  inStep_modify fun r _ apart => by
    obtain ⟨asked, rfl⟩ := apart
    exact same r asked

theorem push_inStep (name : String) (v : Value) : InStep Apart (push name v) (push name v) :=
  change_inStep fun _ asked => ⟨asked, rfl⟩

theorem pop_inStep : InStep Apart pop pop :=
  change_inStep fun _ asked => ⟨asked, rfl⟩

theorem cutTo_inStep (size : Nat) : InStep Apart (cutTo size) (cutTo size) :=
  change_inStep fun _ asked => ⟨asked, rfl⟩

/-- A chooser without memory picks the same in both scenes. -/
theorem select_inStep (memoryless : sc.chooser.Memoryless) (name : String) (sel : Selector) :
    InStep Apart (select sc name sel) (select (sc.without struck revision) name sel) := by
  refine inStep_modify ?_
  rintro r _ ⟨asked, rfl⟩
  dsimp only
  rw [← sel.resolve_without sc.session sc.catalog sc.caster sc.invocation.source memoryless
    r.asked asked]
  exact ⟨_, rfl⟩

/-- A call that was checked queues its operation. -/
theorem enqueue_inStep (checked : Except ScriptError Operation) :
    InStep Apart (do enqueue (← liftM checked); return .next : Exec Flow)
      (do enqueue (← liftM checked); return .next) :=
  inStep_bind (inStep_lift rfl) fun _ =>
    inStep_bind (change_inStep fun _ asked => ⟨asked, rfl⟩) fun _ => inStep_pure _

/-- A value that is evaluated first and then taken for something. -/
theorem arg_inStep {α β : Type} (e : Expr) (depth : Nat) (f : Value → Except ScriptError α)
    {k l : α → Exec β} (rest : ∀ a, InStep Apart (k a) (l a)) :
    InStep Apart (do let a ← liftM (f (← evaluate sc e depth)); k a)
      (do let a ← liftM (f (← evaluate (sc.without struck revision) e depth)); l a) :=
  inStep_bind (evaluate_inStep e depth) fun _ => inStep_bind (inStep_lift rfl) rest

/-- Blocks run in step if their statements do. -/
theorem inScope_inStep (depth : Nat) {x y : Exec Flow} (block : InStep Apart x y) :
    InStep Apart (inScope sc depth x) (inScope (sc.without struck revision) depth y) := by
  refine inStep_bind (inStep_lift rfl) fun _ => inStep_get ?_
  rintro r _ ⟨asked, rfl⟩
  exact inStep_bind block fun _ => inStep_bind (cutTo_inStep _) fun _ => inStep_pure _

/-- Loops run in step if their bodies do. -/
theorem loop_inStep (name : String) {x y : Exec Flow} (body : InStep Apart x y)
    (vs : List Value) : InStep Apart (loop name x vs) (loop name y vs) := by
  induction vs with
  | nil => exact inStep_pure _
  | cons v vs ih =>
    refine inStep_bind (push_inStep name v) fun _ => inStep_bind body fun flow =>
      inStep_bind pop_inStep fun _ => ?_
    cases flow with
    | next => exact ih
    | stop w => exact inStep_pure _

end Run

open Run

mutual

/-- Statements take the same course with and without failures in the log. The checks of calls read
no log, so that both runs queue the same operations. -/
theorem Stmt.exec_inStep (memoryless : sc.chooser.Memoryless) (st : Stmt) (depth : Nat) :
    InStep Apart (st.exec sc depth) (st.exec (sc.without struck revision) depth) := by
  cases st with
  | letVar name value =>
    rw [Stmt.exec, Stmt.exec]
    exact inStep_bind tick_inStep fun _ => inStep_bind (evaluate_inStep value _) fun v =>
      inStep_bind (push_inStep name v) fun _ => inStep_pure _
  | selectTargets name sel =>
    rw [Stmt.exec, Stmt.exec]
    exact inStep_bind tick_inStep fun _ => inStep_bind (select_inStep memoryless name sel)
      fun _ => inStep_pure _
  | damagePlayer player amount =>
    rw [Stmt.exec, Stmt.exec]
    exact inStep_bind tick_inStep fun _ => arg_inStep player _ _ fun seat =>
      arg_inStep amount _ _ fun n => enqueue_inStep (sc.damagePlayer seat n)
  | damageCard card amount =>
    rw [Stmt.exec, Stmt.exec]
    exact inStep_bind tick_inStep fun _ => arg_inStep card _ _ fun id =>
      arg_inStep amount _ _ fun n => enqueue_inStep (sc.damageCard id n)
  | healPlayer player amount =>
    rw [Stmt.exec, Stmt.exec]
    exact inStep_bind tick_inStep fun _ => arg_inStep player _ _ fun seat =>
      arg_inStep amount _ _ fun n => enqueue_inStep (sc.healPlayer seat n)
  | healCard card amount =>
    rw [Stmt.exec, Stmt.exec]
    exact inStep_bind tick_inStep fun _ => arg_inStep card _ _ fun id =>
      arg_inStep amount _ _ fun n => enqueue_inStep (sc.healCard id n)
  | destroyCard card =>
    rw [Stmt.exec, Stmt.exec]
    exact inStep_bind tick_inStep fun _ => arg_inStep card _ _ fun id =>
      enqueue_inStep (sc.destroyCard id)
  | log message =>
    rw [Stmt.exec, Stmt.exec]
    exact inStep_bind tick_inStep fun _ => inStep_bind (evaluate_inStep message _) fun v =>
      enqueue_inStep (.ok (sc.log v.print))
  | drawCard =>
    rw [Stmt.exec, Stmt.exec]
    exact inStep_bind tick_inStep fun _ => enqueue_inStep sc.drawCard
  | gainEnergy amount =>
    rw [Stmt.exec, Stmt.exec]
    exact inStep_bind tick_inStep fun _ => arg_inStep amount _ _ fun n =>
      enqueue_inStep (sc.gainEnergy n)
  | ifElse condition yes no =>
    rw [Stmt.exec, Stmt.exec]
    refine inStep_bind tick_inStep fun _ =>
      inStep_bind (evaluate_inStep condition _) fun v => ?_
    split
    · exact inScope_inStep _ (Stmt.execAll_inStep memoryless yes (depth + 1))
    · exact inScope_inStep _ (Stmt.execAll_inStep memoryless no (depth + 1))
  | forEach name items body =>
    rw [Stmt.exec, Stmt.exec]
    exact inStep_bind tick_inStep fun _ => arg_inStep items _ _
      (loop_inStep name (inScope_inStep _ (Stmt.execAll_inStep memoryless body (depth + 1))))
  | stop value =>
    rw [Stmt.exec, Stmt.exec]
    exact inStep_bind tick_inStep fun _ => inStep_bind (evaluate_inStep value _) fun _ =>
      inStep_pure _
  | fail message =>
    rw [Stmt.exec, Stmt.exec]
    exact inStep_bind tick_inStep fun _ => inStep_throw _

theorem Stmt.execAll_inStep (memoryless : sc.chooser.Memoryless) (body : List Stmt)
    (depth : Nat) : InStep Apart (Stmt.execAll sc body depth)
      (Stmt.execAll (sc.without struck revision) body depth) := by
  match body with
  | [] =>
    rw [Stmt.execAll, Stmt.execAll]
    exact inStep_pure _
  | st :: rest =>
    rw [Stmt.execAll, Stmt.execAll]
    refine inStep_bind (Stmt.exec_inStep memoryless st depth) fun flow => ?_
    cases flow with
    | next => exact Stmt.execAll_inStep memoryless rest depth
    | stop v => exact inStep_pure _

end

/-- Whatever failed before and whatever was asked before, a script ends alike. -/
theorem Script.invoke_without (memoryless : sc.chooser.Memoryless) (script : Script)
    (asked asked' : List TargetRequest) :
    (script.invoke (sc.without struck revision) asked').1 = (script.invoke sc asked).1 := by
  have block : InStep Apart (Stmt.execBlock sc script.body 0)
      (Stmt.execBlock (sc.without struck revision) script.body 0) :=
    inScope_inStep 0 (Stmt.execAll_inStep memoryless script.body 0)
  have paired := block { asked } { asked := asked' } ⟨asked', rfl⟩
  unfold Script.invoke
  generalize Stmt.execBlock sc script.body 0 { asked } = r at paired ⊢
  generalize Stmt.execBlock (sc.without struck revision) script.body 0 { asked := asked' } = r'
    at paired ⊢
  cases paired with
  | error e apart => rfl
  | ok flow apart =>
    obtain ⟨asked, rfl⟩ := apart
    cases flow with
    | next => rfl
    | stop v =>
      cases v with
      | bool b => cases b <;> rfl
      | _ => rfl

end CardBattle
