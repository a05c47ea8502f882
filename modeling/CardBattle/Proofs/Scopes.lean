import CardBattle.Proofs.Accepted
import CardBattle.Proofs.Outcomes

/-!
# Scopes of variables

Variables live on one stack, and a name means the latest variable that bears it. Nothing in the
stack says where a block began: a block cuts it back to the length it had, and a loop drops the
entry on top after each turn, whatever that entry is. Both are right because a statement only ever
puts entries on top of what it finds. A block thus leaves the stack as it was, a loop drops its own
variable and nothing else, and the names that statements change are those they bind themselves,
not those bound in blocks within them.
-/

namespace CardBattle

namespace Stmt

/-- The name that a statement binds in the block it stands in, if it binds one. -/
def binder? : Stmt → Option String
  | letVar name _ | selectTargets name _ => some name
  | _ => none

def binders (body : List Stmt) : List String :=
  body.filterMap binder?

theorem binders_cons (s : Stmt) (rest : List Stmt) :
    binders (s :: rest) = s.binder?.toList ++ binders rest := by
  cases s <;> rfl

/-- The variables that a statement leaves behind when it is run from `r`. The step that it uses for
itself comes before those of its expression. -/
def Leaves (sc : Scene) (depth : Nat) (r : Run) (after : Vars) : Stmt → Prop
  | letVar name value => ∃ v steps,
      value.eval sc r.vars (depth + 1) (nextCount r.steps) = .ok v steps ∧
        after = (name, v) :: r.vars
  | selectTargets name sel =>
    let chosen := (sel.resolve sc.session sc.catalog sc.caster sc.invocation.source sc.chooser
      r.asked).1
    after = (name, .list (chosen.map Value.ofTarget)) :: r.vars
  | _ => after = r.vars

variable {sc : Scene} {depth : Nat} {r : Run} {after : Vars} {s : Stmt}

/-- A statement that binds no name leaves the variables as they were. -/
theorem leaves_iff_of_plain (plain : s.binder? = none) :
    s.Leaves sc depth r after ↔ after = r.vars := by
  cases s with
  | letVar _ _ | selectTargets _ _ => cases plain
  | _ => rfl

/-- A statement adds one variable of the name it binds, or none. -/
theorem Leaves.added (h : s.Leaves sc depth r after) :
    ∃ added : Vars, after = added ++ r.vars ∧ added.map Prod.fst = s.binder?.toList.reverse := by
  cases s with
  | letVar name value =>
    obtain ⟨v, -, -, rfl⟩ := h
    exact ⟨[(name, v)], rfl, rfl⟩
  | selectTargets name sel => exact ⟨[(name, _)], h, rfl⟩
  | _ => exact ⟨[], h, rfl⟩

end Stmt

namespace Scene

variable {vars added : Vars} {name : String}

/-- Variables of other names do not hide a variable. -/
theorem lookup_append_of_not_mem (other : name ∉ added.map Prod.fst) :
    lookup (added ++ vars) name = lookup vars name := by
  have unnamed : added.lookup name = none := by
    refine List.lookup_eq_none_iff.mpr fun b mem => bne_iff_ne.mpr ?_
    rintro rfl
    exact other (List.mem_map_of_mem mem)
  rw [lookup, List.lookup_append, unnamed, Option.none_or, lookup]

end Scene

/-! ### Executions that restore the stack -/

namespace Run

variable {sc : Scene} {α β : Type}

def Restores (x : Exec α) : Prop :=
  ∀ r a r', x r = .ok a r' → r'.vars = r.vars

/-- Executions that restore the variables do so one after the other. -/
theorem restores_bind {x : Exec α} {f : α → Exec β} (first : Restores x)
    (rest : ∀ a, Restores (f a)) : Restores (x >>= f) := by
  intro r b r' h
  obtain ⟨a, m, h, h'⟩ := bind_ok_iff.mp h
  exact (rest a m b r' h').trans (first r a m h)

theorem restores_pure (a : α) : Restores (pure a : Exec α) := by
  intro r b r' h
  rw [(pure_ok_iff.mp h).2]

theorem restores_throw (e : ScriptError) : Restores (throw e : Exec α) := by
  intro r b r' h
  exact (throw_ok_iff.mp h).elim

theorem restores_lift (x : Except ScriptError α) : Restores (liftM x : Exec α) := by
  intro r b r' h
  rw [(lift_ok_iff.mp h).2]

theorem evaluating_ok {f : Vars → Eval α} {r r' : Run} {a : α} (h : evaluating f r = .ok a r') :
    ∃ steps, f r.vars r.steps = .ok a steps ∧ r' = { r with steps } := by
  unfold evaluating at h
  split at h
  · rename_i ran
    cases h
    exact ⟨_, ran, rfl⟩
  · cases h

theorem restores_evaluating (f : Vars → Eval α) : Restores (evaluating f) := by
  intro r a r' h
  obtain ⟨steps, -, rfl⟩ := evaluating_ok h
  rfl

theorem tick_ok {r r' : Run} {u : Unit} (h : tick sc r = .ok u r') :
    r' = { r with steps := nextCount r.steps } := by
  obtain ⟨steps, ticked, rfl⟩ := evaluating_ok h
  unfold Scene.tick at ticked
  split at ticked
  · cases ticked
  · cases ticked
    rfl

/-- An argument that is evaluated first and then taken for something. -/
theorem restores_arg {e : Expr} {depth : Nat} {f : Value → Except ScriptError α} {k : α → Exec β}
    (rest : ∀ a, Restores (k a)) :
    Restores (do let a ← liftM (f (← evaluate sc e depth)); k a) :=
  restores_bind (restores_evaluating _) fun _ => restores_bind (restores_lift _) rest

/-- A call that was checked queues its operation. -/
theorem restores_call (checked : Except ScriptError Operation) :
    Restores (do enqueue (← liftM checked); return .next : Exec Flow) := by
  refine restores_bind (restores_lift _) fun op => restores_bind ?_ fun _ => restores_pure _
  intro r u r' h
  rw [← modify_ok_iff.mp h]

/-- An execution that succeeds adds variables on top of those it finds; one that does not stop adds
one for each of some names. -/
def Stacks (names : List String) (x : Exec Flow) : Prop :=
  ∀ r flow r', x r = .ok flow r' →
    ∃ added : Vars, r'.vars = added ++ r.vars ∧ (flow = .next → added.map Prod.fst = names.reverse)

/-- What is cut off at the end of a block is what its statements added. -/
theorem restores_inScope {names : List String} {x : Exec Flow} (depth : Nat)
    (statements : Stacks names x) : Restores (inScope sc depth x) := by
  intro r flow r' h
  obtain ⟨u, r₁, entered, h⟩ := bind_ok_iff.mp h
  obtain ⟨-, rfl⟩ := lift_ok_iff.mp entered
  obtain ⟨_, _, read, h⟩ := bind_ok_iff.mp h
  obtain ⟨rfl, rfl⟩ := get_ok_iff.mp read
  obtain ⟨flow', r₂, ran, h⟩ := bind_ok_iff.mp h
  obtain ⟨u', r₃, cut, h⟩ := bind_ok_iff.mp h
  obtain ⟨-, rfl⟩ := pure_ok_iff.mp h
  obtain ⟨added, above, -⟩ := statements r flow' r₂ ran
  rw [← modify_ok_iff.mp cut]
  dsimp only
  rw [above, List.length_append, Nat.add_sub_cancel]
  exact List.drop_left

/-! ### Loops -/

/-- Drops the variable on top if it is the one expected and lies on those expected, and raises an
alarm if it is not. -/
def popOf (alarm : ScriptError) (b : String × Value) (below : Vars) : Exec Unit := fun r =>
  if r.vars = b :: below then pop r else .error alarm r

/-- The loop with a watch on what it drops: after each turn, the variable of this turn, lying on the
variables from before the loop. -/
def watchedLoop (alarm : ScriptError) (below : Vars) (name : String) (body : Exec Flow) :
    List Value → Exec Flow
  | [] => return .next
  | v :: vs => do
    push name v
    let flow ← body
    popOf alarm (name, v) below
    match flow with
    | .next => watchedLoop alarm below name body vs
    | .stop w => return .stop w

/-- At the end of a turn the variable of the loop is on top again, and is what is dropped. -/
theorem pop_after_turn {body : Exec Flow} (restores : Restores body) {b : String × Value}
    {r r₁ : Run} {flow : Flow} (ran : body { r with vars := b :: r.vars } = .ok flow r₁) :
    r₁.vars = b :: r.vars ∧ pop r₁ = .ok () { r₁ with vars := r.vars } := by
  have top : r₁.vars = b :: r.vars := restores _ flow r₁ ran
  exact ⟨top, modify_ok_iff.mpr (by rw [top, List.tail_cons])⟩

/-- If the body restores the stack, then no alarm is ever raised. -/
theorem watchedLoop_eq_loop (alarm : ScriptError) (name : String) {body : Exec Flow}
    (restores : Restores body) (vs : List Value) (r : Run) :
    watchedLoop alarm r.vars name body vs r = loop name body vs r := by
  induction vs generalizing r with
  | nil => rfl
  | cons v vs ih =>
    let start : Run := { r with vars := (name, v) :: r.vars }
    change EStateM.bind body _ start = EStateM.bind body _ start
    unfold EStateM.bind
    cases ran : body start with
    | error e r₁ => rfl
    | ok flow r₁ =>
      obtain ⟨top, popped⟩ := pop_after_turn restores ran
      have watched : popOf alarm (name, v) r.vars r₁ = .ok () { r₁ with vars := r.vars } :=
        (if_pos top).trans popped
      dsimp only
      rw [bind_of_ok watched, bind_of_ok popped]
      cases flow with
      | next => exact ih { r₁ with vars := r.vars }
      | stop w => rfl

-- A body that binds a variable without a block of its own is caught.
example : watchedLoop .overflow [] "x" (do push "y" .unit; return .next) [.unit] { asked := [] }
    = .error .overflow { vars := [("y", .unit), ("x", .unit)], asked := [] } :=
  rfl

/-- A loop restores the variables if its body does. -/
theorem restores_loop (name : String) {body : Exec Flow} (restores : Restores body)
    (vs : List Value) : Restores (loop name body vs) := by
  induction vs with
  | nil => exact restores_pure _
  | cons v vs ih =>
    intro r flow r' h
    obtain ⟨u, start, pushed, h⟩ := bind_ok_iff.mp h
    obtain rfl := modify_ok_iff.mp pushed
    obtain ⟨turn, r₁, ran, h⟩ := bind_ok_iff.mp h
    obtain ⟨-, popped⟩ := pop_after_turn restores ran
    rw [bind_of_ok popped] at h
    cases turn with
    | next => exact ih { r₁ with vars := r.vars } flow r' h
    | stop w =>
      obtain ⟨-, rfl⟩ := pure_ok_iff.mp h
      rfl

end Run

/-! ### Statements -/

open Run

namespace Stmt

variable {sc : Scene} {s : Stmt} {depth : Nat} {r r' : Run} {flow : Flow}

/-- A declaration leaves its variable on top. -/
theorem letVar_leaves {name : String} {value : Expr}
    (h : (letVar name value).exec sc depth r = .ok flow r') :
    (letVar name value).Leaves sc depth r r'.vars := by
  rw [exec] at h
  obtain ⟨u, r₁, ticked, h⟩ := bind_ok_iff.mp h
  obtain rfl := tick_ok ticked
  obtain ⟨v, r₂, evaluated, h⟩ := bind_ok_iff.mp h
  obtain ⟨steps, value, rfl⟩ := evaluating_ok evaluated
  obtain ⟨u', r₃, pushed, h⟩ := bind_ok_iff.mp h
  obtain rfl := modify_ok_iff.mp pushed
  obtain ⟨-, rfl⟩ := pure_ok_iff.mp h
  exact ⟨v, steps, value, rfl⟩

/-- A choice of targets leaves its variable on top. -/
theorem selectTargets_leaves {name : String} {sel : Selector}
    (h : (selectTargets name sel).exec sc depth r = .ok flow r') :
    (selectTargets name sel).Leaves sc depth r r'.vars := by
  rw [exec] at h
  obtain ⟨u, r₁, ticked, h⟩ := bind_ok_iff.mp h
  obtain rfl := tick_ok ticked
  obtain ⟨u', r₂, selected, h⟩ := bind_ok_iff.mp h
  obtain rfl := modify_ok_iff.mp selected
  obtain ⟨-, rfl⟩ := pure_ok_iff.mp h
  rfl

theorem leaves_of_restores (plain : s.binder? = none → Restores (s.exec sc depth))
    (h : s.exec sc depth r = .ok flow r') : s.Leaves sc depth r r'.vars := by
  cases binds : s.binder? with
  | none => exact (leaves_iff_of_plain binds).mpr (plain binds r flow r' h)
  | some name =>
    cases s with
    | letVar _ _ => exact letVar_leaves h
    | selectTargets _ _ => exact selectTargets_leaves h
    | _ => cases binds

mutual

/-- A statement that binds nothing restores the stack, since the blocks within it do. -/
theorem exec_restores (sc : Scene) (s : Stmt) (depth : Nat) (plain : s.binder? = none) :
    Restores (s.exec sc depth) := by
  cases s with
  | letVar name value | selectTargets name sel => cases plain
  | damagePlayer target amount | damageCard target amount | healPlayer target amount
  | healCard target amount =>
    rw [exec]
    exact restores_bind (restores_evaluating _) fun _ => restores_arg fun _ =>
      restores_arg fun _ => restores_call _
  | destroyCard e | gainEnergy e =>
    rw [exec]
    exact restores_bind (restores_evaluating _) fun _ => restores_arg fun _ => restores_call _
  | log message =>
    rw [exec]
    exact restores_bind (restores_evaluating _) fun _ => restores_bind (restores_evaluating _)
      fun v => restores_call (.ok (sc.log v.print))
  | drawCard =>
    rw [exec]
    exact restores_bind (restores_evaluating _) fun _ => restores_call _
  | ifElse condition yes no =>
    rw [exec]
    refine restores_bind (restores_evaluating _) fun _ =>
      restores_bind (restores_evaluating _) fun v => ?_
    split
    · exact restores_inScope _ (execAll_stacks sc yes (depth + 1))
    · exact restores_inScope _ (execAll_stacks sc no (depth + 1))
  | forEach name items body =>
    rw [exec]
    exact restores_bind (restores_evaluating _) fun _ => restores_arg fun vs =>
      restores_loop name (restores_inScope _ (execAll_stacks sc body (depth + 1))) vs
  | stop value =>
    rw [exec]
    exact restores_bind (restores_evaluating _) fun _ => restores_bind (restores_evaluating _)
      fun _ => restores_pure _
  | fail message =>
    rw [exec]
    exact restores_bind (restores_evaluating _) fun _ => restores_throw _

/-- Statements in order add the variables that they bind themselves. -/
theorem execAll_stacks (sc : Scene) (body : List Stmt) (depth : Nat) :
    Stacks (binders body) (execAll sc body depth) := by
  intro r flow r' h
  match body with
  | [] =>
    rw [execAll] at h
    obtain ⟨-, rfl⟩ := pure_ok_iff.mp h
    exact ⟨[], rfl, fun _ => rfl⟩
  | s :: rest =>
    rw [execAll] at h
    obtain ⟨ended, r₁, ran, h⟩ := bind_ok_iff.mp h
    have leaves : s.Leaves sc depth r r₁.vars := leaves_of_restores (exec_restores sc s depth) ran
    obtain ⟨own, above, named⟩ := leaves.added
    cases ended with
    | next =>
      obtain ⟨more, above', named'⟩ := execAll_stacks sc rest depth r₁ flow r' h
      refine ⟨more ++ own, by rw [above', above, List.append_assoc], fun next => ?_⟩
      rw [List.map_append, named' next, named, binders_cons, List.reverse_append]
    | stop w =>
      obtain ⟨rfl, rfl⟩ := pure_ok_iff.mp h
      exact ⟨own, above, nofun⟩

end

/-- Whatever the statement, it leaves behind the variables that it should. -/
theorem exec_leaves (h : s.exec sc depth r = .ok flow r') : s.Leaves sc depth r r'.vars :=
  leaves_of_restores (exec_restores sc s depth) h

/-- The variables of a block are gone when it ends. -/
theorem execBlock_restores (sc : Scene) (body : List Stmt) (depth : Nat) :
    Restores (execBlock sc body depth) :=
  restores_inScope depth (execAll_stacks sc body depth)

/-- Watched or not, a loop over values does the same. -/
theorem forEach_eq_watched (alarm : ScriptError) (name : String) (items : Expr)
    (body : List Stmt) :
    (forEach name items body).exec sc depth = (do
      Run.tick sc
      let vs ← (← Run.evaluate sc items (depth + 1)).asList
      let below := (← get).vars
      watchedLoop alarm below name (execBlock sc body (depth + 1)) vs) := by
  have same : ∀ vs, (do
      let below := (← get).vars
      watchedLoop alarm below name (execBlock sc body (depth + 1)) vs)
      = loop name (execBlock sc body (depth + 1)) vs := by
    intro vs
    funext r
    exact watchedLoop_eq_loop alarm name (execBlock_restores sc body (depth + 1)) vs r
  simp only [same]
  rw [exec]
  rfl

/-- Scopes are lexical. However a block ends, it leaves the variables as it found them. However a
statement ends, it leaves the variables as it found them, with the one that it binds on top if it
binds one. A loop whose pops are watched is the loop itself: after each turn it drops the variable
of this turn and nothing else. After a choice or a loop, every name thus means what it meant before,
and after statements in order so does every name that they bind nowhere but in blocks within
them. -/
theorem scopes_lexical (sc : Scene) :
    (∀ body depth r flow r', execBlock sc body depth r = .ok flow r' → r'.vars = r.vars) ∧
    (∀ (s : Stmt) depth r flow r', s.exec sc depth r = .ok flow r' →
      s.Leaves sc depth r r'.vars) ∧
    (∀ alarm name items body depth, (forEach name items body).exec sc depth = do
      Run.tick sc
      let vs ← (← Run.evaluate sc items (depth + 1)).asList
      let below := (← get).vars
      watchedLoop alarm below name (execBlock sc body (depth + 1)) vs) ∧
    (∀ (s : Stmt) depth r r', s.binder? = none → s.exec sc depth r = .ok .next r' →
      ∀ name, Scene.lookup r'.vars name = Scene.lookup r.vars name) ∧
    (∀ body depth r r', execAll sc body depth r = .ok .next r' →
      ∀ name ∉ binders body, Scene.lookup r'.vars name = Scene.lookup r.vars name) := by
  refine ⟨fun body depth => execBlock_restores sc body depth, fun s depth r flow r' => exec_leaves,
    fun alarm name items body depth => forEach_eq_watched alarm name items body,
    fun s depth r r' plain h name => ?_, fun body depth r r' h name other => ?_⟩
  · rw [exec_restores sc s depth plain r .next r' h]
  · obtain ⟨added, above, named⟩ := execAll_stacks sc body depth r .next r' h
    rw [above]
    refine Scene.lookup_append_of_not_mem ?_
    rwa [named rfl, List.mem_reverse]

/-- In the branch, `x` is bound anew, and in the loop within it once more for each creature, besides
`y`. After the loop `x` is 5 again, and after the choice all is as before it. -/
theorem shadowing_scopes :
    let sc : Scene :=
      ⟨Session.showdown, arena.catalog, .first, ⟨.spell, ⟨0⟩, some ⟨1⟩, none⟩, arena.config.limits⟩
    let loop : Stmt := .forEach "y" (.creatures .any)
      [.letVar "x" (.var "y"), .damageCard (.var "x") (.int 1)]
    let choice : Stmt := .ifElse (.bool true)
      [.letVar "x" (.int 5), loop, .damagePlayer .opponent (.var "x")] []
    let r : Run := { vars := [("y", .int 2), ("x", .int 1)], asked := [] }
    let queue : List Operation := [.damagePlayer ⟨1⟩ 5, .damageCard ⟨2⟩ 1, .damageCard ⟨4⟩ 1]
    ∃ r', choice.exec sc 0 r = .ok .next r' ∧ r'.queue = queue ∧ r'.vars = r.vars ∧
      ∀ name, Scene.lookup r'.vars name = Scene.lookup r.vars name := by
  intro sc loop choice r queue
  have queued : (match choice.exec sc 0 r with
    | .ok .next r' => decide (r'.queue = queue)
    | _ => false) = true := by decide +kernel
  cases ran : choice.exec sc 0 r with
  | error e r' =>
    rw [ran] at queued
    cases queued
  | ok flow r' =>
    rw [ran] at queued
    cases flow with
    | stop w => cases queued
    | next =>
      obtain ⟨-, leaves, -, means, -⟩ := scopes_lexical sc
      exact ⟨r', rfl, of_decide_eq_true queued, leaves choice 0 r .next r' ran,
        means choice 0 r r' rfl ran⟩

end Stmt

end CardBattle
