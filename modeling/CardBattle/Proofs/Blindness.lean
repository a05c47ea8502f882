import CardBattle.Proofs.Accepted
import CardBattle.Proofs.Outcomes
import CardBattle.Proofs.SceneViews
import CardBattle.Proofs.TargetChoices

/-!
# Scripts are blind to hidden cards

No expression and no choice of targets brings in a card that a script cannot name. Run on two
sessions that agree in what can be seen of the others, a script takes the same steps and ends alike.
-/

namespace CardBattle

/-! ### Computations that agree -/

section Agreement

variable {ε σ α β : Type} {I : σ → Prop} {P : α → Prop} {Q : β → Prop}

/-- From states with `I`, two computations do the same, keep `I`, and answer with `P`. -/
def Agree (I : σ → Prop) (P : α → Prop) (x y : EStateM ε σ α) : Prop :=
  ∀ s, I s → x s = y s ∧ ∀ a s', x s = .ok a s' → I s' ∧ P a

/-- Computations agree if their first parts do and, after each possible answer, their rests. -/
theorem agree_bind {x y : EStateM ε σ α} {f g : α → EStateM ε σ β} (first : Agree I P x y)
    (rest : ∀ a, P a → Agree I Q (f a) (g a)) : Agree I Q (x >>= f) (y >>= g) := by
  intro s hs
  obtain ⟨same, keeps⟩ := first s hs
  constructor
  · change EStateM.bind x f s = EStateM.bind y g s
    simp only [EStateM.bind]
    rw [← same]
    cases h : x s with
    | ok a m =>
      obtain ⟨hm, ha⟩ := keeps a m h
      exact (rest a ha m hm).1
    | error e m => rfl
  · intro b s' h
    obtain ⟨a, m, h, h'⟩ := bind_ok_iff.mp h
    obtain ⟨hm, ha⟩ := keeps a m h
    exact (rest a ha m hm).2 b s' h'

theorem agree_pure {a : α} (ha : P a) : Agree I P (pure a : EStateM ε σ α) (pure a) := by
  intro s hs
  refine ⟨rfl, fun b s' h => ?_⟩
  obtain ⟨rfl, rfl⟩ := pure_ok_iff.mp h
  exact ⟨hs, ha⟩

theorem agree_throw (e : ε) : Agree I P (throw e : EStateM ε σ α) (throw e) := by
  intro s _
  exact ⟨rfl, fun b s' h => (throw_ok_iff.mp h).elim⟩

theorem agree_lift {x y : Except ε α} (same : x = y) (answers : ∀ a, x = .ok a → P a) :
    Agree I P (liftM x : EStateM ε σ α) (liftM y) := by
  subst same
  intro s hs
  refine ⟨rfl, fun a s' h => ?_⟩
  obtain ⟨ha, rfl⟩ := lift_ok_iff.mp h
  exact ⟨hs, answers a ha⟩

theorem agree_modify {f g : σ → σ} (same : ∀ s, f s = g s) (keeps : ∀ s, I s → I (f s)) :
    Agree I (fun _ => True) (modify f : EStateM ε σ PUnit) (modify g) := by
  intro s hs
  refine ⟨congrArg (EStateM.Result.ok _) (same s), fun _ s' h => ?_⟩
  rw [← modify_ok_iff.mp h]
  exact ⟨keeps s hs, trivial⟩

theorem agree_get : Agree I (fun _ => True) (get : EStateM ε σ σ) get := by
  intro s hs
  refine ⟨rfl, fun a s' h => ?_⟩
  obtain ⟨-, rfl⟩ := get_ok_iff.mp h
  exact ⟨hs, trivial⟩

/-- A computation that does not look at the scene agrees with itself. -/
theorem agree_self (x : EStateM ε σ α) : Agree (fun _ => True) (fun _ => True) x x :=
  fun _ _ => ⟨rfl, fun _ _ _ => ⟨trivial, trivial⟩⟩

end Agreement

/-! ### Expressions -/

section Expressions

variable {sc : Scene} {s : Session}

abbrev AgreeOnValues (sc : Scene) : Eval Value → Eval Value → Prop :=
  Agree (fun _ => True) (Value.Within sc.Shown)

theorem agree_entry (depth : Nat) {x y : Eval Value} (rest : AgreeOnValues sc x y) :
    AgreeOnValues sc (do sc.tick; sc.enter depth; x)
      (do (sc.withSession s).tick; (sc.withSession s).enter depth; y) :=
  agree_bind (agree_self sc.tick) fun _ _ =>
    agree_bind (P := fun _ => True) (agree_lift rfl fun _ _ => trivial) fun _ _ => rest

/-- A value that is evaluated first and then taken for something. -/
theorem agree_arg {σ α β : Type} {I : σ → Prop} {P : α → Prop} {Q : β → Prop}
    {shown : InstanceId → Prop} {x y : EStateM ScriptError σ Value}
    {f g : Value → Except ScriptError α} {k l : α → EStateM ScriptError σ β}
    (first : Agree I (Value.Within shown) x y)
    (same : ∀ v, v.Within shown → f v = g v)
    (answers : ∀ v a, v.Within shown → f v = .ok a → P a)
    (rest : ∀ a, P a → Agree I Q (k a) (l a)) :
    Agree I Q (do let a ← liftM (f (← x)); k a) (do let a ← liftM (g (← y)); l a) :=
  agree_bind first fun v see => agree_bind (agree_lift (same v see) fun a => answers v a see) rest

theorem agree_reading {x y : Eval Value} {f g : Value → Except ScriptError Int}
    (first : AgreeOnValues sc x y) (same : ∀ v, v.Within sc.Shown → f v = g v) :
    AgreeOnValues sc (do return .int (← liftM (f (← x)))) (do return .int (← liftM (g (← y)))) :=
  agree_arg (P := fun _ => True) first same (fun _ _ _ _ => trivial) fun _ _ => agree_pure trivial

/-- Two integers, one after the other, make a value. -/
theorem agree_ints {x x' y y' : Eval Value} {k : Int → Int → Eval Value}
    (first : AgreeOnValues sc x x') (second : AgreeOnValues sc y y')
    (rest : ∀ m n, AgreeOnValues sc (k m n) (k m n)) :
    AgreeOnValues sc
      (do let m ← liftM (← x).asInt; let n ← liftM (← y).asInt; k m n)
      (do let m ← liftM (← x').asInt; let n ← liftM (← y').asInt; k m n) :=
  agree_arg (P := fun _ => True) first (fun _ _ => rfl) (fun _ _ _ _ => trivial) fun m _ =>
    agree_arg (P := fun _ => True) second (fun _ _ => rfl) (fun _ _ _ _ => trivial) fun n _ =>
      rest m n

theorem lookup_within {vars : Vars} {name : String} {v : Value}
    (shows : ∀ e ∈ vars, e.2.Within sc.Shown) (h : Scene.lookup vars name = .ok v) :
    v.Within sc.Shown := by
  rw [Scene.lookup] at h
  split at h <;> cases h
  rename_i found
  obtain ⟨before, after, rfl, -⟩ := List.lookup_eq_some_iff.mp found
  exact shows (name, v) (List.mem_append_right _ List.mem_cons_self)

mutual

/-- Whatever an expression reads is seen in both sessions. Card values arise from the source, the
damage event, permanents and variables only, so that values show nothing hidden. -/
theorem Expr.eval_agree (veil : sc.session.Veil sc.Shown s) {vars : Vars}
    (shows : ∀ e ∈ vars, e.2.Within sc.Shown) (e : Expr) (depth : Nat) :
    AgreeOnValues sc (e.eval sc vars depth) (e.eval (sc.withSession s) vars depth) := by
  cases e with
  | int n =>
    rw [Expr.eval, Expr.eval]
    exact agree_entry depth (agree_pure trivial)
  | bool b =>
    rw [Expr.eval, Expr.eval]
    exact agree_entry depth (agree_pure trivial)
  | text t =>
    rw [Expr.eval, Expr.eval]
    exact agree_entry depth (agree_pure trivial)
  | var name =>
    rw [Expr.eval, Expr.eval]
    exact agree_entry depth (agree_lift rfl fun _ => lookup_within shows)
  | caster =>
    rw [Expr.eval, Expr.eval]
    exact agree_entry depth (agree_pure trivial)
  | opponent =>
    rw [Expr.eval, Expr.eval]
    exact agree_entry depth (agree_lift (Scene.opponent_eq veil) fun _ => Scene.opponent_within)
  | source =>
    rw [Expr.eval, Expr.eval]
    exact agree_entry depth (agree_lift rfl fun _ => Scene.sourceCard_within)
  | triggerTarget =>
    rw [Expr.eval, Expr.eval]
    exact agree_entry depth (agree_pure (Scene.triggerEnd_within fun _ => Or.inr rfl))
  | triggerSource =>
    rw [Expr.eval, Expr.eval]
    exact agree_entry depth (agree_pure (Scene.triggerEnd_within fun _ => Or.inl rfl))
  | triggerAmount =>
    rw [Expr.eval, Expr.eval]
    exact agree_entry depth (agree_pure trivial)
  | health a =>
    rw [Expr.eval, Expr.eval]
    exact agree_entry depth
      (agree_reading (Expr.eval_agree veil shows a (depth + 1)) fun _ => Scene.healthOf_eq veil)
  | maxHealth a =>
    rw [Expr.eval, Expr.eval]
    exact agree_entry depth
      (agree_reading (Expr.eval_agree veil shows a (depth + 1)) fun _ => Scene.maxHealthOf_eq veil)
  | attack a =>
    rw [Expr.eval, Expr.eval]
    exact agree_entry depth
      (agree_reading (Expr.eval_agree veil shows a (depth + 1)) fun _ => Scene.attackOf_eq veil)
  | energy a =>
    rw [Expr.eval, Expr.eval]
    exact agree_entry depth
      (agree_reading (Expr.eval_agree veil shows a (depth + 1)) fun _ _ => Scene.energyOf_eq veil)
  | handSize a =>
    rw [Expr.eval, Expr.eval]
    exact agree_entry depth
      (agree_reading (Expr.eval_agree veil shows a (depth + 1)) fun _ _ => Scene.handSizeOf_eq veil)
  | creatures side =>
    rw [Expr.eval, Expr.eval, ← Scene.permanents_eq veil]
    exact agree_entry depth (agree_pure (Scene.permanents_within side .creature))
  | artifacts side =>
    rw [Expr.eval, Expr.eval, ← Scene.permanents_eq veil]
    exact agree_entry depth (agree_pure (Scene.permanents_within side .artifact))
  | arith op a b =>
    rw [Expr.eval, Expr.eval]
    refine agree_entry depth (agree_ints (Expr.eval_agree veil shows a (depth + 1))
      (Expr.eval_agree veil shows b (depth + 1)) fun m n => ?_)
    exact agree_bind (P := fun _ => True) (agree_lift rfl fun _ _ => trivial) fun _ _ =>
      agree_pure trivial
  | eq a b =>
    rw [Expr.eval, Expr.eval]
    exact agree_entry depth (agree_bind (Expr.eval_agree veil shows a (depth + 1)) fun _ _ =>
      agree_bind (Expr.eval_agree veil shows b (depth + 1)) fun _ _ => agree_pure trivial)
  | lt a b =>
    rw [Expr.eval, Expr.eval]
    exact agree_entry depth (agree_ints (Expr.eval_agree veil shows a (depth + 1))
      (Expr.eval_agree veil shows b (depth + 1)) fun _ _ => agree_pure trivial)
  | gt a b =>
    rw [Expr.eval, Expr.eval]
    exact agree_entry depth (agree_ints (Expr.eval_agree veil shows a (depth + 1))
      (Expr.eval_agree veil shows b (depth + 1)) fun _ _ => agree_pure trivial)
  | not a =>
    rw [Expr.eval, Expr.eval]
    exact agree_entry depth (agree_bind (Expr.eval_agree veil shows a (depth + 1)) fun _ _ =>
      agree_pure trivial)
  | and a b =>
    rw [Expr.eval, Expr.eval]
    refine agree_entry depth (agree_bind (Expr.eval_agree veil shows a (depth + 1)) fun v _ => ?_)
    split
    · exact agree_bind (Expr.eval_agree veil shows b (depth + 1)) fun _ _ => agree_pure trivial
    · exact agree_pure trivial
  | or a b =>
    rw [Expr.eval, Expr.eval]
    refine agree_entry depth (agree_bind (Expr.eval_agree veil shows a (depth + 1)) fun v _ => ?_)
    split
    · exact agree_pure trivial
    · exact agree_bind (Expr.eval_agree veil shows b (depth + 1)) fun _ _ => agree_pure trivial
  | len a =>
    rw [Expr.eval, Expr.eval]
    exact agree_entry depth
      (agree_reading (Expr.eval_agree veil shows a (depth + 1)) fun _ _ => rfl)
  | first a =>
    rw [Expr.eval, Expr.eval]
    exact agree_entry depth (agree_bind (Expr.eval_agree veil shows a (depth + 1)) fun _ see =>
      agree_lift rfl fun _ => Value.within_head see)
  | concat parts =>
    rw [Expr.eval, Expr.eval]
    exact agree_entry depth (agree_bind (Expr.printAll_agree veil shows parts (depth + 1))
      fun _ _ => agree_pure trivial)

theorem Expr.printAll_agree (veil : sc.session.Veil sc.Shown s) {vars : Vars}
    (shows : ∀ e ∈ vars, e.2.Within sc.Shown) (es : List Expr) (depth : Nat) :
    Agree (fun _ => True) (fun _ => True) (Expr.printAll sc vars es depth)
      (Expr.printAll (sc.withSession s) vars es depth) := by
  match es with
  | [] =>
    rw [Expr.printAll, Expr.printAll]
    exact agree_pure trivial
  | e :: es =>
    rw [Expr.printAll, Expr.printAll]
    exact agree_bind (Expr.eval_agree veil shows e depth) fun _ _ =>
      agree_bind (Expr.printAll_agree veil shows es depth) fun _ _ => agree_pure trivial

end

end Expressions

/-! ### Statements -/

namespace Run

def Shows (sc : Scene) (r : Run) : Prop :=
  ∀ e ∈ r.vars, e.2.Within sc.Shown

variable {sc : Scene} {s : Session} {α : Type} {P : α → Prop}

abbrev AgreeOn (sc : Scene) (P : α → Prop) : Exec α → Exec α → Prop :=
  Agree (Shows sc) P

/-- An execution may evaluate an expression whose evaluations agree on variables that show nothing
hidden. -/
theorem agree_evaluating {f g : Vars → Eval α}
    (same : ∀ vars, (∀ e ∈ vars, e.2.Within sc.Shown) →
      Agree (fun _ => True) P (f vars) (g vars)) :
    AgreeOn sc P (evaluating f) (evaluating g) := by
  intro r shows
  obtain ⟨same, answers⟩ := same r.vars shows r.steps trivial
  simp only [evaluating]
  rw [← same]
  cases ran : f r.vars r.steps with
  | ok a steps =>
    refine ⟨rfl, fun b r' h => ?_⟩
    cases h
    exact ⟨shows, (answers a steps ran).2⟩
  | error e steps => exact ⟨rfl, nofun⟩

theorem agree_evaluate (veil : sc.session.Veil sc.Shown s) (e : Expr) (depth : Nat) :
    AgreeOn sc (Value.Within sc.Shown) (evaluate sc e depth)
      (evaluate (sc.withSession s) e depth) :=
  agree_evaluating fun _ shows => Expr.eval_agree veil shows e depth

theorem agree_tick : AgreeOn sc (fun _ => True) (tick sc) (tick (sc.withSession s)) :=
  agree_evaluating fun _ _ => agree_self sc.tick

theorem agree_push {name : String} {v : Value} (see : v.Within sc.Shown) :
    AgreeOn sc (fun _ => True) (push name v) (push name v) := by
  refine agree_modify (fun _ => rfl) fun r shows e mem => ?_
  rcases List.mem_cons.mp mem with rfl | mem
  · exact see
  · exact shows e mem

theorem agree_pop : AgreeOn sc (fun _ => True) pop pop :=
  agree_modify (fun _ => rfl) fun _ shows e mem => shows e (List.mem_of_mem_tail mem)

theorem agree_cutTo (size : Nat) : AgreeOn sc (fun _ => True) (cutTo size) (cutTo size) :=
  agree_modify (fun _ => rfl) fun _ shows e mem => shows e (List.mem_of_mem_drop mem)

/-- A call whose checks agree queues the same operation. -/
theorem agree_enqueue {x y : Except ScriptError Operation} (same : x = y) :
    AgreeOn sc (fun _ => True) (do enqueue (← liftM x); return .next : Exec Flow)
      (do enqueue (← liftM y); return .next) :=
  agree_bind (P := fun _ => True) (agree_lift same fun _ _ => trivial) fun _ _ =>
    agree_bind (agree_modify (fun _ => rfl) fun _ shows => shows) fun _ _ => agree_pure trivial

/-- The chooser is asked the same, and the targets that are bound lie on battlefields. -/
theorem agree_select (veil : sc.session.Veil sc.Shown s) (name : String) (sel : Selector) :
    AgreeOn sc (fun _ => True) (select sc name sel) (select (sc.withSession s) name sel) := by
  refine agree_modify (fun r => ?_) fun r shows e mem => ?_
  · dsimp only
    rw [veil.resolve]
    rfl
  · rcases List.mem_cons.mp mem with rfl | mem
    · -- the chooser may pick anything, but only picks in play are taken
      refine Value.within_list fun v chosen => ?_
      obtain ⟨target, mem, rfl⟩ := List.mem_map.mp chosen
      refine Value.within_ofTarget fun id isCard => Or.inr (Or.inr ?_)
      exact Session.mem_battlefield_of_accepts
        ((Selector.fair_resolve _ _ _).legal target mem) isCard
    · exact shows e mem

/-- A block agrees with a block if its statements agree. -/
theorem agree_inScope (depth : Nat) {x y : Exec Flow} (block : AgreeOn sc (fun _ => True) x y) :
    AgreeOn sc (fun _ => True) (inScope sc depth x) (inScope (sc.withSession s) depth y) :=
  agree_bind (P := fun _ => True) (agree_lift rfl fun _ _ => trivial) fun _ _ =>
    agree_bind agree_get fun r _ => agree_bind block fun _ _ =>
      agree_bind (agree_cutTo r.vars.length) fun _ _ => agree_pure trivial

/-- Loops over values that show nothing hidden agree if their bodies do. -/
theorem agree_loop (name : String) {x y : Exec Flow} (body : AgreeOn sc (fun _ => True) x y)
    (vs : List Value) (see : ∀ v ∈ vs, v.Within sc.Shown) :
    AgreeOn sc (fun _ => True) (loop name x vs) (loop name y vs) := by
  induction vs with
  | nil => exact agree_pure trivial
  | cons v vs ih =>
    refine agree_bind (agree_push (see v List.mem_cons_self)) fun _ _ =>
      agree_bind body fun flow _ => agree_bind agree_pop fun _ _ => ?_
    cases flow with
    | next => exact ih fun v mem => see v (List.mem_cons_of_mem _ mem)
    | stop w => exact agree_pure trivial

/-! Arguments of calls: seats, amounts and cards. -/

theorem agree_seat (veil : sc.session.Veil sc.Shown s) (e : Expr) (depth : Nat)
    {k l : Seat → Exec Flow} (rest : ∀ seat, AgreeOn sc (fun _ => True) (k seat) (l seat)) :
    AgreeOn sc (fun _ => True) (do let seat ← liftM (← evaluate sc e depth).asPlayer; k seat)
      (do let seat ← liftM (← evaluate (sc.withSession s) e depth).asPlayer; l seat) :=
  agree_arg (P := fun _ => True) (agree_evaluate veil e depth) (fun _ _ => rfl)
    (fun _ _ _ _ => trivial) fun seat _ => rest seat

theorem agree_amount (veil : sc.session.Veil sc.Shown s) (e : Expr) (depth : Nat)
    {k l : Int → Exec Flow} (rest : ∀ n, AgreeOn sc (fun _ => True) (k n) (l n)) :
    AgreeOn sc (fun _ => True) (do let n ← liftM (← evaluate sc e depth).asInt; k n)
      (do let n ← liftM (← evaluate (sc.withSession s) e depth).asInt; l n) :=
  agree_arg (P := fun _ => True) (agree_evaluate veil e depth) (fun _ _ => rfl)
    (fun _ _ _ _ => trivial) fun n _ => rest n

theorem agree_card (veil : sc.session.Veil sc.Shown s) (e : Expr) (depth : Nat)
    {k l : InstanceId → Exec Flow}
    (rest : ∀ id, sc.Shown id → AgreeOn sc (fun _ => True) (k id) (l id)) :
    AgreeOn sc (fun _ => True) (do let id ← liftM (← evaluate sc e depth).asCard; k id)
      (do let id ← liftM (← evaluate (sc.withSession s) e depth).asCard; l id) :=
  agree_arg (agree_evaluate veil e depth) (fun _ _ => rfl) (fun _ _ => Value.within_asCard) rest

end Run

section Statements

open Run

variable {sc : Scene} {s : Session}

mutual

/-- Statements take the same course in both sessions. Variables are bound to evaluated values and to
chosen targets, which lie on battlefields, so that they keep showing nothing hidden. -/
theorem Stmt.exec_agree (veil : sc.session.Veil sc.Shown s) (st : Stmt) (depth : Nat) :
    AgreeOn sc (fun _ => True) (st.exec sc depth) (st.exec (sc.withSession s) depth) := by
  cases st with
  | letVar name value =>
    rw [Stmt.exec, Stmt.exec]
    exact agree_bind agree_tick fun _ _ => agree_bind (agree_evaluate veil value _) fun _ see =>
      agree_bind (agree_push see) fun _ _ => agree_pure trivial
  | selectTargets name sel =>
    rw [Stmt.exec, Stmt.exec]
    exact agree_bind agree_tick fun _ _ => agree_bind (agree_select veil name sel) fun _ _ =>
      agree_pure trivial
  | damagePlayer player amount =>
    rw [Stmt.exec, Stmt.exec]
    exact agree_bind agree_tick fun _ _ => agree_seat veil player _ fun seat =>
      agree_amount veil amount _ fun n => agree_enqueue (Scene.onPlayer_eq veil _ seat n)
  | damageCard card amount =>
    rw [Stmt.exec, Stmt.exec]
    exact agree_bind agree_tick fun _ _ => agree_card veil card _ fun id see =>
      agree_amount veil amount _ fun n => agree_enqueue (Scene.onCard_eq veil see _ n)
  | healPlayer player amount =>
    rw [Stmt.exec, Stmt.exec]
    exact agree_bind agree_tick fun _ _ => agree_seat veil player _ fun seat =>
      agree_amount veil amount _ fun n => agree_enqueue (Scene.onPlayer_eq veil _ seat n)
  | healCard card amount =>
    rw [Stmt.exec, Stmt.exec]
    exact agree_bind agree_tick fun _ _ => agree_card veil card _ fun id see =>
      agree_amount veil amount _ fun n => agree_enqueue (Scene.onCard_eq veil see _ n)
  | destroyCard card =>
    rw [Stmt.exec, Stmt.exec]
    exact agree_bind agree_tick fun _ _ => agree_card veil card _ fun id see =>
      agree_enqueue (Scene.destroyCard_eq veil see)
  | log message =>
    rw [Stmt.exec, Stmt.exec]
    exact agree_bind agree_tick fun _ _ => agree_bind (agree_evaluate veil message _) fun v _ =>
      agree_enqueue (x := .ok (sc.log v.print)) rfl
  | drawCard =>
    rw [Stmt.exec, Stmt.exec]
    exact agree_bind agree_tick fun _ _ => agree_enqueue (x := sc.drawCard) rfl
  | gainEnergy amount =>
    rw [Stmt.exec, Stmt.exec]
    exact agree_bind agree_tick fun _ _ => agree_amount veil amount _ fun n =>
      agree_enqueue (x := sc.gainEnergy n) rfl
  | ifElse condition yes no =>
    rw [Stmt.exec, Stmt.exec]
    refine agree_bind agree_tick fun _ _ =>
      agree_bind (agree_evaluate veil condition _) fun v _ => ?_
    split
    · exact agree_inScope _ (Stmt.execAll_agree veil yes (depth + 1))
    · exact agree_inScope _ (Stmt.execAll_agree veil no (depth + 1))
  | forEach name items body =>
    rw [Stmt.exec, Stmt.exec]
    exact agree_bind agree_tick fun _ _ => agree_arg (agree_evaluate veil items _)
      (fun _ _ => rfl) (fun _ _ => Value.within_asList)
      (agree_loop name (agree_inScope _ (Stmt.execAll_agree veil body (depth + 1))))
  | stop value =>
    rw [Stmt.exec, Stmt.exec]
    exact agree_bind agree_tick fun _ _ => agree_bind (agree_evaluate veil value _) fun _ _ =>
      agree_pure trivial
  | fail message =>
    rw [Stmt.exec, Stmt.exec]
    exact agree_bind agree_tick fun _ _ => agree_throw _

theorem Stmt.execAll_agree (veil : sc.session.Veil sc.Shown s) (body : List Stmt) (depth : Nat) :
    AgreeOn sc (fun _ => True) (Stmt.execAll sc body depth)
      (Stmt.execAll (sc.withSession s) body depth) := by
  match body with
  | [] =>
    rw [Stmt.execAll, Stmt.execAll]
    exact agree_pure trivial
  | st :: rest =>
    rw [Stmt.execAll, Stmt.execAll]
    refine agree_bind (Stmt.exec_agree veil st depth) fun flow _ => ?_
    cases flow with
    | next => exact Stmt.execAll_agree veil rest depth
    | stop v => exact agree_pure trivial

end

/-- Run on two well-placed sessions that agree in what a script can see, the script ends alike and
asks its chooser the same questions. -/
theorem Script.invoke_blind (sc : Scene) (s : Session) (script : Script)
    (asked : List TargetRequest) (placed : sc.session.Placed) (placed' : s.Placed)
    (alike : sc.session.Alike sc.Shown s) :
    script.invoke sc asked = script.invoke (sc.withSession s) asked := by
  have veil : sc.session.Veil sc.Shown s :=
    ⟨alike, placed, placed', fun seat _ mem => Or.inr (Or.inr ⟨seat, mem⟩)⟩
  have block : AgreeOn sc (fun _ => True) (Stmt.execBlock sc script.body 0)
      (Stmt.execBlock (sc.withSession s) script.body 0) :=
    agree_inScope 0 (Stmt.execAll_agree veil script.body 0)
  simp only [Script.invoke]
  rw [(block { asked } nofun).1]

/-- Another session behind the same battlefields: Ann holds a wisp and has lost a seer, Bob is
called otherwise, and the turn is a later one. -/
def Session.disguise : Session :=
  { Session.showdown with
    players := ⟨[{ Player.ofConfig ⟨0⟩ "Ann" {} with zones := ⟨[], [⟨3⟩, ⟨1⟩], [⟨4⟩], [⟨5⟩]⟩ },
      { Player.ofConfig ⟨1⟩ "Eve" {} with zones := ⟨[⟨6⟩], [], [⟨2⟩], []⟩ }]⟩
    turn := 7
    revision := 12
    rng := .ofSeed 1
    instances := .ofList [(1, ⟨⟨1⟩, ⟨1⟩, ⟨0⟩, 0, false⟩), (2, ⟨⟨2⟩, ⟨2⟩, ⟨1⟩, 1, true⟩),
      (3, ⟨⟨3⟩, ⟨2⟩, ⟨0⟩, 1, false⟩), (4, ⟨⟨4⟩, ⟨3⟩, ⟨0⟩, 2, true⟩),
      (5, ⟨⟨5⟩, ⟨3⟩, ⟨0⟩, 0, false⟩), (6, ⟨⟨6⟩, ⟨1⟩, ⟨1⟩, 0, false⟩)]
    nextId := ⟨7⟩ }

/-- Ann's bolt does not tell the two apart. -/
theorem Script.invoke_disguise :
    let sc : Scene :=
      ⟨Session.showdown, arena.catalog, .first, ⟨.spell, ⟨0⟩, some ⟨1⟩, none⟩, arena.config.limits⟩
    let bolt : Script := ⟨[.selectTargets "t" .enemyCreature,
      .forEach "c" (.var "t") [.damageCard (.var "c") (.int 3)]]⟩
    Session.showdown.Placed ∧ Session.disguise.Placed ∧
      Session.showdown.Alike sc.Shown Session.disguise ∧
      bolt.invoke sc [] = bolt.invoke (sc.withSession Session.disguise) [] := by
  intro sc bolt
  have placed : Session.showdown.Placed := by decide +kernel
  have placed' : Session.disguise.Placed := by decide +kernel
  have alike : Session.showdown.Alike sc.Shown Session.disguise := by
    refine .of_faces (by decide +kernel) fun id see => ?_
    rcases see with source | ⟨e, event, -⟩ | ⟨⟨_ | _ | seat⟩, mem⟩
    · cases source
      decide +kernel
    · cases event
    · rw [List.mem_singleton.mp mem]
      decide +kernel
    · rw [List.mem_singleton.mp mem]
      decide +kernel
    · cases mem
  exact ⟨placed, placed', alike,
    Script.invoke_blind sc Session.disguise bolt [] placed placed' alike⟩

end Statements

end CardBattle
