import CardBattle.Proofs.Outcomes

/-!
# What scripts queue

Whatever a script does, each operation it queues passed the checks of the call that queued it: its
amount is not negative, what it acts on exists in the snapshot, and drawing and gaining are for the
caster of an ability. Statements are taken one constructor at a time; evaluation of expressions
never touches the queue.
-/

namespace CardBattle

namespace Scene

/-- What the calls of a script may queue. -/
def Admits (sc : Scene) : Operation → Prop
  | .damagePlayer seat n => 0 ≤ n ∧ ∃ p, sc.session.player? seat = some p
  | .healPlayer seat n => 0 ≤ n ∧ ∃ p, sc.session.player? seat = some p
  | .damageCard id n => 0 ≤ n ∧ ∃ d, sc.definitionOf id = .ok d
  | .healCard id n greatest => 0 ≤ n ∧ ∃ d, sc.definitionOf id = .ok d ∧ greatest = d.health
  | .destroyCard id => ∃ d, sc.definitionOf id = .ok d
  | .log player _ => player = sc.caster
  | .drawCard player => player = sc.caster ∧ sc.invocation.kind = .ability
  | .gainEnergy player n => 0 ≤ n ∧ player = sc.caster ∧ sc.invocation.kind = .ability

variable {sc : Scene} {op : Operation} {seat : Seat} {id : InstanceId} {n : Int}

theorem checkAmount_ok_iff {u : Unit} : checkAmount n = .ok u ↔ 0 ≤ n := by
  unfold checkAmount
  split
  · simp
    omega
  · simp
    omega

theorem requirePlayer_ok_iff {p : Player} :
    sc.requirePlayer seat = .ok p ↔ sc.session.player? seat = some p := by
  unfold requirePlayer
  cases sc.session.player? seat <;> simp

theorem definitionOf_ok_iff {d : CardDefinition} : sc.definitionOf id = .ok d ↔
    ∃ c, sc.session.instance? id = some c ∧ sc.catalog.get? c.card = some d := by
  unfold definitionOf requireInstance
  cases sc.session.instance? id with
  | none => simp
  | some c =>
    cases h : sc.catalog.get? c.card with
    | none => simp [h]
    | some e => simp [h]

theorem requireAbility_ok_iff {call : String} {u : Unit} :
    sc.requireAbility call = .ok u ↔ sc.invocation.kind = .ability := by
  unfold requireAbility
  cases sc.invocation.kind <;> simp

/-- A call about a player queues what the amount and the seat admit. -/
theorem onPlayer_admits {make : Seat → Int → Operation}
    (admits : 0 ≤ n → (∃ p, sc.session.player? seat = some p) → sc.Admits (make seat n))
    (h : sc.onPlayer make seat n = .ok op) : sc.Admits op := by
  simp only [onPlayer, except_bind_ok_iff, requirePlayer_ok_iff, checkAmount_ok_iff] at h
  obtain ⟨p, hp, _, amount, h⟩ := h
  cases h
  exact admits amount ⟨p, hp⟩

/-- A call about a card queues what the amount and the definition admit. -/
theorem onCard_admits {make : CardDefinition → Operation}
    (admits : 0 ≤ n → ∀ d, sc.definitionOf id = .ok d → sc.Admits (make d))
    (h : sc.onCard make id n = .ok op) : sc.Admits op := by
  simp only [onCard, except_bind_ok_iff, checkAmount_ok_iff] at h
  obtain ⟨d, hd, _, amount, h⟩ := h
  cases h
  exact admits amount d hd

theorem destroyCard_admits (h : sc.destroyCard id = .ok op) : sc.Admits op := by
  simp only [destroyCard, except_bind_ok_iff] at h
  obtain ⟨d, hd, h⟩ := h
  cases h
  exact ⟨d, hd⟩

theorem drawCard_admits (h : sc.drawCard = .ok op) : sc.Admits op := by
  simp only [drawCard, except_bind_ok_iff, requireAbility_ok_iff] at h
  obtain ⟨_, ability, h⟩ := h
  cases h
  exact ⟨rfl, ability⟩

theorem gainEnergy_admits (h : sc.gainEnergy n = .ok op) : sc.Admits op := by
  simp only [gainEnergy, except_bind_ok_iff, requireAbility_ok_iff, checkAmount_ok_iff] at h
  obtain ⟨_, ability, _, amount, h⟩ := h
  cases h
  exact ⟨amount, rfl, ability⟩

end Scene

namespace Run

variable {sc : Scene} {α β : Type}

def Clean (sc : Scene) (r : Run) : Prop :=
  ∀ op ∈ r.queue, sc.Admits op

/-- An execution that succeeds leaves a clean queue clean. -/
def Keeps (sc : Scene) (x : Exec α) : Prop :=
  ∀ r a r', r.Clean sc → x r = .ok a r' → r'.Clean sc

/-- Executions that keep the queue clean do so one after the other. -/
theorem keeps_bind {x : Exec α} {f : α → Exec β} (hx : Keeps sc x) (hf : ∀ a, Keeps sc (f a)) :
    Keeps sc (x >>= f) := by
  intro r b r' clean h
  obtain ⟨a, m, h, h'⟩ := bind_ok_iff.mp h
  exact hf a m b r' (hx r a m clean h) h'

theorem keeps_pure (a : α) : Keeps sc (pure a : Exec α) := by
  intro r b r' clean h
  obtain ⟨_, rfl⟩ := pure_ok_iff.mp h
  exact clean

theorem keeps_throw (e : ScriptError) : Keeps sc (throw e : Exec α) := by
  intro r b r' _ h
  exact (throw_ok_iff.mp h).elim

/-- A change of anything but the queue. -/
theorem keeps_modify {f : Run → Run} (same : ∀ r, (f r).queue = r.queue) :
    Keeps sc (modify f : Exec PUnit) := by
  intro r b r' clean h
  rw [← modify_ok_iff.mp h]
  intro op mem
  rw [same] at mem
  exact clean op mem

theorem keeps_lift (x : Except ScriptError α) : Keeps sc (liftM x : Exec α) := by
  intro r b r' clean h
  rw [← (lift_ok_iff.mp h).2]
  exact clean

/-- No evaluation queues anything. -/
theorem keeps_evaluating (f : Vars → Eval α) : Keeps sc (evaluating f) := by
  intro r b r' clean h
  unfold evaluating at h
  split at h
  · cases h
    exact clean
  · cases h

/-- The only way into the queue: a call whose checks succeed. -/
theorem keeps_enqueue {x : Except ScriptError Operation}
    (admits : ∀ op, x = .ok op → sc.Admits op) :
    Keeps sc (do enqueue (← liftM x); return .next : Exec Flow) := by
  intro r b r' clean h
  obtain ⟨op, m, hop, h⟩ := bind_ok_iff.mp h
  obtain ⟨accepted, rfl⟩ := lift_ok_iff.mp hop
  obtain ⟨u, m', henq, h⟩ := bind_ok_iff.mp h
  obtain ⟨_, rfl⟩ := pure_ok_iff.mp h
  rw [← modify_ok_iff.mp henq]
  intro op' mem
  rcases List.mem_cons.mp mem with rfl | mem
  · exact admits _ accepted
  · exact clean op' mem

theorem keeps_inScope (depth : Nat) {x : Exec Flow} (hx : Keeps sc x) :
    Keeps sc (inScope sc depth x) := by
  refine keeps_bind (keeps_lift _) fun _ => keeps_bind ?_ fun _ => keeps_bind hx fun _ =>
    keeps_bind (keeps_modify fun _ => rfl) fun _ => keeps_pure _
  intro r b r' clean h
  rw [← (get_ok_iff.mp h).2]
  exact clean

/-- A loop keeps the queue clean if its body does. -/
theorem keeps_loop (name : String) {body : Exec Flow} (hbody : Keeps sc body) (vs : List Value) :
    Keeps sc (loop name body vs) := by
  induction vs with
  | nil => exact keeps_pure _
  | cons v vs ih =>
    refine keeps_bind (keeps_modify fun _ => rfl) fun _ => keeps_bind hbody fun flow =>
      keeps_bind (keeps_modify fun _ => rfl) fun _ => ?_
    cases flow with
    | next => exact ih
    | stop w => exact keeps_pure _

end Run

open Run

/-- A statement that evaluates arguments and then makes a call. -/
theorem keeps_call {sc : Scene} {α β : Type} {e : Expr} {depth : Nat}
    {f : Value → Except ScriptError α} {k : α → Exec β} (hk : ∀ a, Keeps sc (k a)) :
    Keeps sc (do let a ← liftM (f (← evaluate sc e depth)); k a) :=
  keeps_bind (keeps_evaluating _) fun _ => keeps_bind (keeps_lift _) hk

mutual

/-- Every statement keeps the queue clean. -/
theorem Stmt.exec_keeps (sc : Scene) (s : Stmt) (depth : Nat) : Keeps sc (s.exec sc depth) := by
  cases s with
  | letVar name value =>
    rw [Stmt.exec]
    exact keeps_bind (keeps_evaluating _) fun _ => keeps_bind (keeps_evaluating _) fun _ =>
      keeps_bind (keeps_modify fun _ => rfl) fun _ => keeps_pure _
  | selectTargets name sel =>
    rw [Stmt.exec]
    exact keeps_bind (keeps_evaluating _) fun _ =>
      keeps_bind (keeps_modify fun _ => rfl) fun _ => keeps_pure _
  | damagePlayer player amount =>
    rw [Stmt.exec]
    exact keeps_bind (keeps_evaluating _) fun _ => keeps_call fun _ => keeps_call fun _ =>
      keeps_enqueue fun _ => Scene.onPlayer_admits And.intro
  | damageCard card amount =>
    rw [Stmt.exec]
    exact keeps_bind (keeps_evaluating _) fun _ => keeps_call fun _ => keeps_call fun _ =>
      keeps_enqueue fun _ => Scene.onCard_admits fun amount d hd => ⟨amount, d, hd⟩
  | healPlayer player amount =>
    rw [Stmt.exec]
    exact keeps_bind (keeps_evaluating _) fun _ => keeps_call fun _ => keeps_call fun _ =>
      keeps_enqueue fun _ => Scene.onPlayer_admits And.intro
  | healCard card amount =>
    rw [Stmt.exec]
    exact keeps_bind (keeps_evaluating _) fun _ => keeps_call fun _ => keeps_call fun _ =>
      keeps_enqueue fun _ => Scene.onCard_admits fun amount d hd => ⟨amount, d, hd, rfl⟩
  | destroyCard card =>
    rw [Stmt.exec]
    exact keeps_bind (keeps_evaluating _) fun _ => keeps_call fun _ =>
      keeps_enqueue fun _ => Scene.destroyCard_admits
  | log message =>
    rw [Stmt.exec]
    exact keeps_bind (keeps_evaluating _) fun _ => keeps_bind (keeps_evaluating _) fun v =>
      keeps_enqueue (x := .ok (sc.log v.print)) fun _ h => by cases h; rfl
  | drawCard =>
    rw [Stmt.exec]
    exact keeps_bind (keeps_evaluating _) fun _ => keeps_enqueue fun _ => Scene.drawCard_admits
  | gainEnergy amount =>
    rw [Stmt.exec]
    exact keeps_bind (keeps_evaluating _) fun _ => keeps_call fun _ =>
      keeps_enqueue fun _ => Scene.gainEnergy_admits
  | ifElse condition yes no =>
    rw [Stmt.exec]
    refine keeps_bind (keeps_evaluating _) fun _ => keeps_bind (keeps_evaluating _) fun v => ?_
    split
    · exact keeps_inScope _ (Stmt.execAll_keeps sc yes (depth + 1))
    · exact keeps_inScope _ (Stmt.execAll_keeps sc no (depth + 1))
  | forEach name items body =>
    rw [Stmt.exec]
    exact keeps_bind (keeps_evaluating _) fun _ => keeps_call fun vs =>
      keeps_loop name (keeps_inScope _ (Stmt.execAll_keeps sc body (depth + 1))) vs
  | stop value =>
    rw [Stmt.exec]
    exact keeps_bind (keeps_evaluating _) fun _ => keeps_bind (keeps_evaluating _) fun _ =>
      keeps_pure _
  | fail message =>
    rw [Stmt.exec]
    exact keeps_bind (keeps_evaluating _) fun _ => keeps_throw _

theorem Stmt.execAll_keeps (sc : Scene) (body : List Stmt) (depth : Nat) :
    Keeps sc (Stmt.execAll sc body depth) := by
  match body with
  | [] =>
    rw [Stmt.execAll]
    exact keeps_pure _
  | s :: rest =>
    rw [Stmt.execAll]
    refine keeps_bind (Stmt.exec_keeps sc s depth) fun flow => ?_
    cases flow with
    | next => exact Stmt.execAll_keeps sc rest depth
    | stop v => exact keeps_pure _

end

/-- A script that completes hands over admitted operations only. -/
theorem Script.invoke_admits {sc : Scene} {script : Script} {asked asked' : List TargetRequest}
    {ops : List Operation} (h : script.invoke sc asked = (.completed ops, asked')) :
    ∀ op ∈ ops, sc.Admits op := by
  unfold Script.invoke at h
  split at h
  · cases h
  · rename_i flow r _ hexec
    cases h
    have clean := keeps_inScope 0 (Stmt.execAll_keeps sc script.body 0) _ _ _
      (fun _ mem => absurd mem List.not_mem_nil) hexec
    intro op mem
    exact clean op (List.mem_reverse.mp mem)
  · cases h

end CardBattle
