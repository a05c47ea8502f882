import CardBattle.Proofs.Accepted
import CardBattle.Proofs.RunRules

/-!
# Limits are cut-offs

The limits of a run decide where a script is cut off and nothing else. A run that ends below its
limits ends in the same way below greater ones, a script whose nesting is within the limit is never
cut off for its depth, and as each statement costs a step before it queues an operation or makes a
request, a run queues and asks no more than its budget allows.
-/

namespace CardBattle

open Run

/-! ### Greater limits -/

section Cutting

variable {ε σ α β : Type} {e : ε}

/-- The second computation does what the first one does, unless the first fails with one error. -/
def CutOff (e : ε) (x y : EStateM ε σ α) : Prop :=
  ∀ s, (∃ s', x s = .error e s') ∨ x s = y s

theorem cutOff_self (x : EStateM ε σ α) : CutOff e x x :=
  fun _ => Or.inr rfl

/-- Limits that cut off the parts of a computation cut off the whole. -/
theorem cutOff_bind {x y : EStateM ε σ α} {f g : α → EStateM ε σ β} (first : CutOff e x y)
    (rest : ∀ a, CutOff e (f a) (g a)) : CutOff e (x >>= f) (y >>= g) := by
  intro s
  change (∃ s', EStateM.bind x f s = _) ∨ EStateM.bind x f s = EStateM.bind y g s
  unfold EStateM.bind
  rcases first s with ⟨s', cut⟩ | same
  · exact Or.inl ⟨s', by rw [cut]⟩
  · rw [← same]
    cases x s with
    | ok a t => exact rest a t
    | error e t => exact Or.inr rfl

end Cutting

section Greater

variable {e : ScriptError} {sc : Scene} {limits : Limits}

theorem cutOff_evaluating {α : Type} {f g : Vars → Eval α}
    (cut : ∀ vars, CutOff e (f vars) (g vars)) : CutOff e (evaluating f) (evaluating g) := by
  intro r
  unfold evaluating
  rcases cut r.vars r.steps with ⟨steps, exceeded⟩ | same
  · exact Or.inl ⟨{ r with steps }, by rw [exceeded]⟩
  · exact Or.inr (by rw [same])

theorem evalRules_cutOff (tick : CutOff e sc.tick (sc.withLimits limits).tick)
    (enter : ∀ depth, CutOff e (liftM (sc.enter depth) : Eval Unit)
      (liftM ((sc.withLimits limits).enter depth))) (deepest : Nat) :
    EvalRules sc limits deepest (CutOff e) where
  pure _ := cutOff_self _
  bind := cutOff_bind
  lift _ := cutOff_self _
  tick := tick
  enter _ := enter _

theorem execRules_cutOff (tick : CutOff e sc.tick (sc.withLimits limits).tick)
    (enter : ∀ {σ : Type} depth, CutOff e (liftM (sc.enter depth) : EStateM ScriptError σ Unit)
      (liftM ((sc.withLimits limits).enter depth))) (deepest : Nat) :
    ExecRules sc limits deepest fun _ => CutOff e where
  pure _ := cutOff_self _
  bind := cutOff_bind
  lift _ := cutOff_self _
  ticked _ rest := cutOff_bind (cutOff_evaluating fun _ => tick) fun _ => rest
  enter _ := enter _
  evaluate a _ shallow := cutOff_evaluating fun vars =>
    Expr.eval_related (evalRules_cutOff tick enter deepest) vars a _ shallow
  get := cutOff_self _
  rebind _ := cutOff_self _
  enqueue _ := cutOff_self _
  select _ _ := cutOff_self _

/-- A larger budget makes a difference only where the smaller one is exhausted. -/
theorem cutOff_tick {budget : Nat} (more : sc.limits.steps ≤ budget) (depth : Nat) :
    CutOff (.budgetExhausted sc.limits.steps) sc.tick (sc.withLimits ⟨budget, depth⟩).tick := by
  intro steps
  unfold Scene.tick
  by_cases spent : sc.limits.steps < nextCount steps
  · exact Or.inl ⟨nextCount steps, if_pos spent⟩
  · have left : ¬budget < nextCount steps := by omega
    exact Or.inr ((if_neg spent).trans (if_neg left).symm)

/-- A larger depth makes a difference only where the smaller one is exceeded. -/
theorem cutOff_enter {deeper : Nat} (more : sc.limits.depth ≤ deeper) (steps : Nat) {σ : Type}
    (depth : Nat) : CutOff (.tooDeep sc.limits.depth)
      (liftM (sc.enter depth) : EStateM ScriptError σ Unit)
      (liftM ((sc.withLimits ⟨steps, deeper⟩).enter depth)) := by
  intro s
  by_cases deep : sc.limits.depth < depth
  · have refused : sc.enter depth = .error (.tooDeep sc.limits.depth) := if_pos deep
    exact Or.inl ⟨s, by rw [refused]; rfl⟩
  · have reached : ¬deeper < depth := by omega
    have allowed : sc.enter depth = .ok () := if_neg deep
    have allowed' : (sc.withLimits ⟨steps, deeper⟩).enter depth = .ok () := if_neg reached
    exact Or.inr (by rw [allowed, allowed'])

/-- A run that does not end with the error is the run below the greater limits. -/
theorem Script.invoke_of_cutOff {sc' : Scene} {script : Script} {asked : List TargetRequest}
    (cut : CutOff e (Stmt.execBlock sc script.body 0) (Stmt.execBlock sc' script.body 0))
    (below : (script.invoke sc asked).1 ≠ .failed e) :
    script.invoke sc' asked = script.invoke sc asked := by
  rcases cut { asked } with ⟨r, exceeded⟩ | same
  · refine absurd ?_ below
    unfold Script.invoke
    rw [exceeded]
  · unfold Script.invoke
    rw [same]

/-- A script that does not exhaust its budget does the same with a larger one. -/
theorem Script.invoke_more_steps (script : Script) (asked : List TargetRequest) {budget : Nat}
    (more : sc.limits.steps ≤ budget)
    (below : (script.invoke sc asked).1 ≠ .failed (.budgetExhausted sc.limits.steps)) :
    script.invoke (sc.withLimits ⟨budget, sc.limits.depth⟩) asked = script.invoke sc asked := by
  have rules := execRules_cutOff (cutOff_tick more sc.limits.depth) (fun _ => cutOff_self _)
    script.nesting
  exact Script.invoke_of_cutOff (Script.block_related rules script (Nat.le_refl _)) below

/-- A script that does not go too deep does the same if it may go deeper. -/
theorem Script.invoke_deeper (script : Script) (asked : List TargetRequest) {depth : Nat}
    (more : sc.limits.depth ≤ depth)
    (below : (script.invoke sc asked).1 ≠ .failed (.tooDeep sc.limits.depth)) :
    script.invoke (sc.withLimits ⟨sc.limits.steps, depth⟩) asked = script.invoke sc asked := by
  have tick : CutOff (.tooDeep sc.limits.depth) sc.tick
      (sc.withLimits ⟨sc.limits.steps, depth⟩).tick := cutOff_self _
  have rules := execRules_cutOff tick (cutOff_enter more sc.limits.steps) script.nesting
  exact Script.invoke_of_cutOff (Script.block_related rules script (Nat.le_refl _)) below

end Greater

/-! ### Scripts that are not too deep -/

section Shallow

variable {sc : Scene} {σ α β : Type}

def Reaches (x : EStateM ScriptError σ α) : Prop :=
  ∀ s limit s', x s ≠ .error (.tooDeep limit) s'

theorem reaches_bind {x : EStateM ScriptError σ α} {f : α → EStateM ScriptError σ β}
    (first : Reaches x) (rest : ∀ a, Reaches (f a)) : Reaches (x >>= f) := by
  intro s limit s'
  change EStateM.bind x f s ≠ _
  unfold EStateM.bind
  cases h : x s with
  | ok a t => exact rest a t limit s'
  | error e t =>
    rintro ⟨⟩
    exact first s limit _ h

theorem reaches_lift {x : Except ScriptError α} (plain : Plain x) :
    Reaches (liftM x : EStateM ScriptError σ α) := by
  cases x with
  | ok a => exact nofun
  | error e =>
    rintro s limit s' ⟨⟩
    exact plain limit rfl

theorem reaches_tick : Reaches sc.tick := by
  intro steps limit s'
  unfold Scene.tick
  split <;> exact nofun

theorem plain_enter {depth : Nat} (shallow : depth ≤ sc.limits.depth) : Plain (sc.enter depth) := by
  unfold Scene.enter
  rw [if_neg (Nat.not_lt.mpr shallow)]
  exact plain_ok ()

theorem reaches_evaluating {f : Vars → Eval α} (reaches : ∀ vars, Reaches (f vars)) :
    Reaches (evaluating f) := by
  intro r limit r'
  unfold evaluating
  cases h : f r.vars r.steps with
  | ok a steps => exact nofun
  | error e steps =>
    rintro ⟨⟩
    exact reaches r.vars r.steps limit steps h

theorem evalRules_reaches : EvalRules sc sc.limits sc.limits.depth fun x _ => Reaches x where
  pure _ := nofun
  bind := reaches_bind
  lift := reaches_lift
  tick := reaches_tick
  enter shallow := reaches_lift (plain_enter shallow)

theorem execRules_reaches : ExecRules sc sc.limits sc.limits.depth fun _ _ x _ => Reaches x where
  pure _ := nofun
  bind := reaches_bind
  lift := reaches_lift
  ticked _ rest := reaches_bind (reaches_evaluating fun _ => reaches_tick) fun _ => rest
  enter shallow := reaches_lift (plain_enter shallow)
  evaluate a _ shallow := reaches_evaluating fun vars =>
    Expr.eval_related evalRules_reaches vars a _ shallow
  get := nofun
  rebind _ := nofun
  enqueue _ := nofun
  select _ _ := nofun

/-- No script goes deeper than its text is nested. -/
theorem Script.invoke_reaches {script : Script} (shallow : script.nesting ≤ sc.limits.depth)
    (asked : List TargetRequest) (limit : Nat) :
    (script.invoke sc asked).1 ≠ .failed (.tooDeep limit) := by
  have reaches : Reaches (Stmt.execBlock sc script.body 0) :=
    Script.block_related execRules_reaches script shallow
  unfold Script.invoke
  split
  · exact nofun
  · exact nofun
  · rename_i e r h
    rintro ⟨⟩
    exact reaches _ limit r h

end Shallow

/-! ### What the budget pays for -/

section Budget

variable {sc : Scene} {σ α β : Type} {I : σ → Prop}

/-- From a state that meets a condition, the computation leaves a state with some relation to it
whatever comes of it, and one that meets the condition again if it succeeds. -/
def Leads (I : σ → Prop) (R : σ → σ → Prop) (x : EStateM ScriptError σ α) : Prop :=
  ∀ s, I s → (∀ a s', x s = .ok a s' → I s' ∧ R s s') ∧ ∀ e s', x s = .error e s' → R s s'

/-- What two computations lead to, one after the other, is composed of what each leads to. -/
theorem leads_bind {R S T : σ → σ → Prop} {x : EStateM ScriptError σ α}
    {f : α → EStateM ScriptError σ β} (first : Leads I R x) (rest : ∀ a, Leads I S (f a))
    (both : ∀ s t u, R s t → S t u → T s u) (only : ∀ s t, R s t → T s t) :
    Leads I T (x >>= f) := by
  have bound : (x >>= f) = EStateM.bind x f := rfl
  rw [bound]
  intro s before
  obtain ⟨succeeds, fails⟩ := first s before
  unfold EStateM.bind
  cases ran : x s with
  | ok a t =>
    obtain ⟨between, related⟩ := succeeds a t ran
    obtain ⟨succeeds', fails'⟩ := rest a t between
    refine ⟨fun b u h => ?_, fun e u h => both s t u related (fails' e u h)⟩
    obtain ⟨after, related'⟩ := succeeds' b u h
    exact ⟨after, both s t u related related'⟩
  | error e t =>
    refine ⟨nofun, ?_⟩
    rintro _ _ ⟨⟩
    exact only s t (fails e t ran)

theorem leads_modify {R : σ → σ → Prop} {f : σ → σ} (keeps : ∀ s, I s → I (f s))
    (change : ∀ s, R s (f s)) : Leads I R (modify f : EStateM ScriptError σ PUnit) := by
  refine fun s before => ⟨?_, nofun⟩
  rintro a s' ⟨⟩
  exact ⟨keeps s before, change s⟩

theorem leads_lift {R : σ → σ → Prop} (same : ∀ s, R s s) (x : Except ScriptError α) :
    Leads I R (liftM x : EStateM ScriptError σ α) := by
  intro s before
  cases x with
  | ok a =>
    refine ⟨?_, nofun⟩
    rintro b s' ⟨⟩
    exact ⟨before, same s⟩
  | error e =>
    refine ⟨nofun, ?_⟩
    rintro b s' ⟨⟩
    exact same s

theorem leads_evaluating {J : Nat → Prop} {R : Nat → Nat → Prop} {S : Run → Run → Prop}
    {f : Vars → Eval α} (evaluates : ∀ vars, Leads J R (f vars))
    (counts : ∀ r steps, R r.steps steps → S r { r with steps }) :
    Leads (fun r => J r.steps) S (evaluating f) := by
  intro r before
  obtain ⟨succeeds, fails⟩ := evaluates r.vars r.steps before
  unfold evaluating
  cases ran : f r.vars r.steps with
  | ok a steps =>
    refine ⟨?_, nofun⟩
    rintro b r' ⟨⟩
    obtain ⟨after, related⟩ := succeeds a steps ran
    exact ⟨after, counts r steps related⟩
  | error e steps =>
    refine ⟨nofun, ?_⟩
    rintro b r' ⟨⟩
    exact counts r steps (fails e steps ran)

theorem evalRules_steps (counted : sc.limits.steps + 1 < UInt32.size) (deepest : Nat) :
    EvalRules sc sc.limits deepest fun x _ => Leads (· ≤ sc.limits.steps) (· ≤ ·) x where
  pure a := leads_lift Nat.le_refl (.ok a)
  bind first rest := leads_bind first rest (fun _ _ _ => Nat.le_trans) fun _ _ => id
  lift _ := leads_lift Nat.le_refl _
  tick := by
    intro steps left
    have next : nextCount steps = steps + 1 := nextCount_of_lt (by omega)
    unfold Scene.tick
    rw [next]
    split_ifs with spent
    · refine ⟨nofun, ?_⟩
      rintro e n ⟨⟩
      exact Nat.le_succ steps
    · refine ⟨?_, nofun⟩
      rintro u n ⟨⟩
      exact ⟨Nat.not_lt.mp spent, Nat.le_succ steps⟩
  enter _ := leads_lift Nat.le_refl _

/-- What a run has queued and asked for grows no faster than the steps that it has used, up to the
budget and `credit` more. -/
structure Paid (budget credit : Nat) (r r' : Run) : Prop where
  steps : r.steps ≤ r'.steps
  asks : r.asked <:+ r'.asked
  work : r'.queue.length + r'.asked.length + min r.steps budget
    ≤ r.queue.length + r.asked.length + min r'.steps budget + credit

namespace Paid

variable {budget : Nat}

theorem refl (r : Run) : Paid budget 0 r r :=
  ⟨Nat.le_refl _, List.suffix_refl _, Nat.le_refl _⟩

theorem trans {j k : Nat} {r m r' : Run} (first : Paid budget j r m) (rest : Paid budget k m r') :
    Paid budget (j + k) r r' := by
  refine ⟨Nat.le_trans first.steps rest.steps, first.asks.trans rest.asks, ?_⟩
  have before := first.work
  have after := rest.work
  omega

theorem mono {j k : Nat} {r r' : Run} (h : Paid budget j r r') (more : j ≤ k) :
    Paid budget k r r' :=
  ⟨h.steps, h.asks, Nat.le_trans h.work (Nat.add_le_add_left more _)⟩

/-- Steps are used and nothing is done. -/
theorem counted {r : Run} {steps : Nat} (more : r.steps ≤ steps) :
    Paid budget 0 r { r with steps } := by
  refine ⟨more, List.suffix_refl _, ?_⟩
  dsimp only
  omega

end Paid

/-- The runs that have steps of the budget left, or none, but have not gone over it. -/
def Solvent (budget : Nat) (r : Run) : Prop :=
  r.steps ≤ budget

/-- The step taken first pays for what follows; a step over the budget is the end of the run. -/
theorem leads_ticked (counted : sc.limits.steps + 1 < UInt32.size) {k : Nat} {x : Exec α}
    (within : k ≤ 1) (rest : Leads (Solvent sc.limits.steps) (Paid sc.limits.steps k) x) :
    Leads (Solvent sc.limits.steps) (Paid sc.limits.steps 0) (do Run.tick sc; x) := by
  have bound : (do Run.tick sc; x) = EStateM.bind (Run.tick sc) fun _ => x := rfl
  rw [bound]
  intro r left
  have next : nextCount r.steps = r.steps + 1 :=
    nextCount_of_lt (Nat.lt_of_le_of_lt (Nat.succ_le_succ left) counted)
  simp only [EStateM.bind, Run.tick, evaluating, Scene.tick, next]
  by_cases spent : sc.limits.steps < r.steps + 1
  · rw [if_pos spent]
    refine ⟨nofun, ?_⟩
    rintro e r' ⟨⟩
    exact Paid.counted (Nat.le_succ _)
  · rw [if_neg spent]
    obtain ⟨succeeds, fails⟩ := rest { r with steps := r.steps + 1 } (Nat.not_lt.mp spent)
    have pays : ∀ r', Paid sc.limits.steps k { r with steps := r.steps + 1 } r' →
        Paid sc.limits.steps 0 r r' := by
      rintro r' ⟨steps, asks, work⟩
      refine ⟨Nat.le_of_succ_le steps, asks, ?_⟩
      dsimp only at steps work
      omega
    exact ⟨fun b r' h => ⟨(succeeds b r' h).1, pays r' (succeeds b r' h).2⟩,
      fun e r' h => pays r' (fails e r' h)⟩

/-- A choice makes one request at most. -/
theorem paid_select (r : Run) (name : String) (sel : Selector) :
    Paid sc.limits.steps 1 r
      (let (targets, asked) := sel.resolve sc.session sc.catalog sc.caster sc.invocation.source
        sc.chooser r.asked
      { r with vars := (name, .list (targets.map Value.ofTarget)) :: r.vars, asked }) := by
  unfold Selector.resolve
  cases sel.autoTargets sc.session sc.catalog sc.caster with
  | some forced => exact ⟨Nat.le_refl _, List.suffix_refl _, Nat.le_succ _⟩
  | none =>
    refine ⟨Nat.le_refl _, List.suffix_cons _ _, ?_⟩
    simp only [List.length_cons]
    omega

theorem execRules_paid (counted : sc.limits.steps + 1 < UInt32.size) (deepest : Nat) :
    ExecRules sc sc.limits deepest fun k _ x _ =>
      Leads (Solvent sc.limits.steps) (Paid sc.limits.steps k) x where
  pure a := leads_lift Paid.refl (.ok a)
  bind first rest := leads_bind first rest (fun _ _ _ => Paid.trans) fun _ _ h =>
    h.mono (Nat.le_add_right _ _)
  lift _ := leads_lift Paid.refl _
  ticked := leads_ticked counted
  enter _ := leads_lift Paid.refl _
  evaluate a _ shallow := leads_evaluating
    (fun vars => Expr.eval_related (evalRules_steps counted deepest) vars a _ shallow)
    fun _ _ => Paid.counted
  get := by
    refine fun r left => ⟨?_, nofun⟩
    rintro _ _ ⟨⟩
    exact ⟨left, Paid.refl r⟩
  rebind _ := leads_modify (fun _ => id) fun _ =>
    ⟨Nat.le_refl _, List.suffix_refl _, Nat.le_refl _⟩
  enqueue _ := leads_modify (fun _ => id) fun r => by
    refine ⟨Nat.le_refl _, List.suffix_refl _, ?_⟩
    simp only [List.length_cons]
    omega
  select name sel := leads_modify (fun _ => id) fun r => paid_select r name sel

/-- A run queues no more operations, and asks for targets no more often, than its budget has
steps, unless the budget is the greatest count. -/
theorem Script.invoke_paid {sc : Scene} (counted : sc.limits.steps + 1 < UInt32.size)
    (script : Script) (asked : List TargetRequest) :
    (∀ ops, (script.invoke sc asked).1 = .completed ops → ops.length ≤ sc.limits.steps) ∧
    ∃ made, (script.invoke sc asked).2 = made ++ asked ∧ made.length ≤ sc.limits.steps := by
  have leads : Leads (Solvent sc.limits.steps) (Paid sc.limits.steps 0)
      (Stmt.execBlock sc script.body 0) :=
    Script.block_related (execRules_paid counted script.nesting) script (Nat.le_refl _)
  obtain ⟨succeeds, fails⟩ := leads { asked } (Nat.zero_le _)
  have bounds : ∀ r, Paid sc.limits.steps 0 { asked } r → r.queue.length ≤ sc.limits.steps ∧
      ∃ made, r.asked = made ++ asked ∧ made.length ≤ sc.limits.steps := by
    rintro r ⟨-, ⟨made, same⟩, work⟩
    have both := congrArg List.length same
    rw [List.length_append] at both
    simp only [List.length_nil] at work both
    exact ⟨by omega, made, same.symm, by omega⟩
  unfold Script.invoke
  split
  · rename_i r ran
    exact ⟨nofun, (bounds r (succeeds _ _ ran).2).2⟩
  · rename_i flow r _ ran
    obtain ⟨queued, requests⟩ := bounds r (succeeds _ _ ran).2
    refine ⟨?_, requests⟩
    rintro ops ⟨⟩
    rwa [List.length_reverse]
  · rename_i e r ran
    exact ⟨nofun, (bounds r (fails _ _ ran)).2⟩

end Budget

/-! ### Both limits -/

/-- A run that does not exhaust its budget is the run with any greater budget, one that does not go
too deep is the run with any greater depth, with the same requests made. No run of a script whose
nesting is within the limit goes too deep. With any budget but the greatest count, none queues or
asks more than it has steps. -/
theorem Script.limits_cut_off (sc : Scene) (script : Script) (asked : List TargetRequest) :
    (∀ budget, sc.limits.steps ≤ budget →
      (script.invoke sc asked).1 ≠ .failed (.budgetExhausted sc.limits.steps) →
      script.invoke (sc.withLimits ⟨budget, sc.limits.depth⟩) asked = script.invoke sc asked) ∧
    (∀ depth, sc.limits.depth ≤ depth →
      (script.invoke sc asked).1 ≠ .failed (.tooDeep sc.limits.depth) →
      script.invoke (sc.withLimits ⟨sc.limits.steps, depth⟩) asked = script.invoke sc asked) ∧
    (script.nesting ≤ sc.limits.depth →
      ∀ limit, (script.invoke sc asked).1 ≠ .failed (.tooDeep limit)) ∧
    (sc.limits.steps + 1 < UInt32.size →
      (∀ ops, (script.invoke sc asked).1 = .completed ops → ops.length ≤ sc.limits.steps) ∧
      ∃ made, (script.invoke sc asked).2 = made ++ asked ∧ made.length ≤ sc.limits.steps) :=
  ⟨fun _ more => Script.invoke_more_steps script asked more,
    fun _ more => Script.invoke_deeper script asked more,
    fun shallow limit => Script.invoke_reaches shallow asked limit,
    fun counted => Script.invoke_paid counted script asked⟩

/-- Six steps and two levels are enough for a bolt; with five steps, or with one level, it is cut
off. -/
theorem Script.bolt_cut_off :
    let sc : Scene :=
      ⟨Session.showdown, arena.catalog, .first, ⟨.spell, ⟨0⟩, some ⟨1⟩, none⟩, ⟨6, 2⟩⟩
    let bolt : Script := ⟨[.selectTargets "t" .enemyCreature,
      .forEach "c" (.var "t") [.damageCard (.var "c") (.int 3)]]⟩
    bolt.nesting = 2 ∧ (bolt.invoke sc []).1 = .completed [.damageCard ⟨2⟩ 3] ∧
      (bolt.invoke (sc.withLimits ⟨5, 2⟩) []).1 = .failed (.budgetExhausted 5) ∧
      (bolt.invoke (sc.withLimits ⟨6, 1⟩) []).1 = .failed (.tooDeep 1) ∧
      bolt.invoke (sc.withLimits ⟨1000, 2⟩) [] = bolt.invoke sc [] ∧
      bolt.invoke (sc.withLimits ⟨6, 32⟩) [] = bolt.invoke sc [] ∧
      ([Operation.damageCard ⟨2⟩ 3].length ≤ 6 ∧
        ∃ made, (bolt.invoke sc []).2 = made ++ [] ∧ made.length ≤ 6) := by
  intro sc bolt
  have done : (bolt.invoke sc []).1 = .completed [.damageCard ⟨2⟩ 3] := by decide +kernel
  obtain ⟨steps, levels, -, bounds⟩ := Script.limits_cut_off sc bolt []
  obtain ⟨queued, requests⟩ := bounds (by decide)
  refine ⟨by decide +kernel, done, by decide +kernel, by decide +kernel, ?_, ?_,
    queued _ done, requests⟩
  · exact steps 1000 (by decide) (by rw [done]; nofun)
  · exact levels 32 (by decide) (by rw [done]; nofun)

/-! ### The greatest budget -/

section Endless

variable {sc : Scene} {n depth : Nat}

/-- With the greatest budget the count of steps starts again from 0. -/
theorem tick_of_full (full : sc.limits.steps + 1 = UInt32.size) (steps : Nat) :
    sc.tick steps = .ok () (nextCount steps) := by
  have below := nextCount_lt steps
  exact if_neg (by omega)

def Yields (n : Nat) (x : Exec Flow) : Prop :=
  ∀ r, ∃ r', x r = .ok .next r' ∧ r'.queue.length = r.queue.length + n

theorem yields_inScope {x : Exec Flow} (shallow : depth ≤ sc.limits.depth) (h : Yields n x) :
    Yields n (inScope sc depth x) := by
  intro r
  obtain ⟨r', ran, queued⟩ := h r
  have entered : sc.enter depth = .ok () := if_neg (Nat.not_lt.mpr shallow)
  refine ⟨{ r' with vars := r'.vars.drop (r'.vars.length - r.vars.length) }, ?_, queued⟩
  unfold inScope
  rw [entered]
  change (x >>= fun flow => _) r = _
  rw [bind_of_ok ran]
  rfl

theorem yields_block {s : Stmt} (shallow : depth ≤ sc.limits.depth)
    (h : Yields n (s.exec sc depth)) : Yields n (Stmt.execBlock sc [s] depth) := by
  refine yields_inScope shallow fun r => ?_
  obtain ⟨r', ran, queued⟩ := h r
  refine ⟨r', ?_, queued⟩
  unfold Stmt.execAll
  rw [bind_of_ok ran]
  rfl

/-- A loop queues as much for each value as its body does. -/
theorem yields_loop {name : String} {body : Exec Flow} (h : Yields n body) (vs : List Value) :
    Yields (n * vs.length) (loop name body vs) := by
  induction vs with
  | nil => exact fun r => ⟨r, rfl, rfl⟩
  | cons v vs ih =>
    intro r
    obtain ⟨m, ran, queued⟩ := h { r with vars := (name, v) :: r.vars }
    obtain ⟨r', rest, queued'⟩ := ih { m with vars := m.vars.tail }
    refine ⟨r', ?_, ?_⟩
    · unfold loop
      change (body >>= fun flow => _) { r with vars := (name, v) :: r.vars } = _
      rw [bind_of_ok ran]
      exact rest
    · dsimp only at queued queued'
      rw [queued', queued, List.length_cons, Nat.mul_succ]
      omega

def Stmt.often : Nat → Stmt
  | 0 => .drawCard
  | n + 1 => .forEach "c" (.creatures .any) [often n]

theorem ticked_of_full (full : sc.limits.steps + 1 = UInt32.size) {x : Exec Flow} {r : Run} :
    (do Run.tick sc; x) r = x { r with steps := nextCount r.steps } := by
  have ticked : Run.tick sc r = .ok () { r with steps := nextCount r.steps } := by
    simp only [Run.tick, evaluating, tick_of_full full]
  exact bind_of_ok ticked

theorem yields_ticked (full : sc.limits.steps + 1 = UInt32.size) {x : Exec Flow}
    (h : Yields n x) : Yields n (do Run.tick sc; x) := by
  intro r
  rw [ticked_of_full full]
  exact h { r with steps := nextCount r.steps }

/-- With two creatures in play each loop doubles the draws, and no step is refused. -/
theorem yields_often (full : sc.limits.steps + 1 = UInt32.size)
    (ability : sc.invocation.kind = .ability) {v w : Value}
    (two : sc.permanents .any .creature = .list [v, w])
    (shallow : depth + n ≤ sc.limits.depth) :
    Yields (Nat.pow 2 n) ((Stmt.often n).exec sc depth) := by
  induction n generalizing depth with
  | zero =>
    have draws : sc.drawCard = .ok (.drawCard sc.caster) := by
      unfold Scene.drawCard Scene.requireAbility
      rw [ability]
      rfl
    unfold Stmt.often Stmt.exec
    rw [draws]
    exact yields_ticked full fun r =>
      ⟨{ r with queue := .drawCard sc.caster :: r.queue }, rfl, rfl⟩
  | succ n ih =>
    have inner : Yields (Nat.pow 2 n) ((Stmt.often n).exec sc (depth + 1)) := ih (by omega)
    have body := yields_block (by omega) inner
    have loops : Yields (Nat.pow 2 n * 2) (loop "c" _ [v, w]) := yields_loop body [v, w]
    unfold Stmt.often Stmt.exec
    refine yields_ticked full fun r => ?_
    obtain ⟨r', ran, queued⟩ := loops { r with steps := nextCount r.steps }
    refine ⟨r', ?_, queued⟩
    have items : Run.evaluate sc (.creatures .any) (depth + 1) r
        = .ok (.list [v, w]) { r with steps := nextCount r.steps } := by
      have entered : sc.enter (depth + 1) = .ok () := if_neg (by omega)
      simp only [Run.evaluate, evaluating, Expr.eval, bind_of_ok (tick_of_full full r.steps),
        entered, two]
      rfl
    dsimp only
    rw [bind_of_ok items]
    exact ran

/-- With the greatest budget, loops within loops over two creatures queue an operation for every way
through them. -/
theorem Script.invoke_often (full : sc.limits.steps + 1 = UInt32.size)
    (ability : sc.invocation.kind = .ability) {v w : Value}
    (two : sc.permanents .any .creature = .list [v, w]) (shallow : n ≤ sc.limits.depth)
    (asked : List TargetRequest) : ∃ ops,
      (Script.invoke sc ⟨[Stmt.often n]⟩ asked).1 = .completed ops ∧ ops.length = Nat.pow 2 n := by
  have whole : Yields (Nat.pow 2 n) (Stmt.execBlock sc [Stmt.often n] 0) :=
    yields_block (Nat.zero_le _) (yields_often full ability two (by omega))
  obtain ⟨r, ran, queued⟩ := whole { asked }
  refine ⟨r.queue.reverse, ?_, ?_⟩
  · unfold Script.invoke
    rw [ran]
  · rw [List.length_reverse, queued]
    exact Nat.zero_add _

end Endless

/-- The greatest count is a budget that the settings allow, and with it a script goes on as long as
its loops do: here it queues one operation more than it has steps. -/
theorem Script.greatest_budget_overrun :
    let config : Config := { stepBudget := 4294967295 }
    let sc : Scene :=
      ⟨Session.showdown, arena.catalog, .first, ⟨.ability, ⟨0⟩, some ⟨4⟩, none⟩, config.limits⟩
    config.fault? = none ∧ sc.limits.steps = 4294967295 ∧
      ∃ ops, (Script.invoke sc ⟨[Stmt.often 32]⟩ []).1 = .completed ops ∧
        ops.length = 4294967296 := by
  intro config sc
  have two : sc.permanents .any .creature = .list [.card ⟨4⟩, .card ⟨2⟩] := by decide +kernel
  have length : Nat.pow 2 32 = 4294967296 := by decide
  refine ⟨rfl, rfl, ?_⟩
  rw [← length]
  exact Script.invoke_often rfl rfl two (Nat.le_refl 32) []

end CardBattle
