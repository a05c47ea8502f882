import CardBattle.Proofs.Accepted
import CardBattle.Proofs.Outcomes
import CardBattle.Proofs.RunRules

/-!
# The arithmetic of scripts

A formula is an expression made of integers of 64 bits with sums, differences, products, minima and
maxima. Beside its evaluation by the language stands its value over all integers. Where the limits
of the language allow the evaluation to come to an end, it gives that value if the values of all
parts fit into 64 bits, and else it overflows: a part that does not fit is never made good by what
is done with it.
-/

namespace CardBattle

/-- Expressions of integers of 64 bits and operators. -/
inductive Formula where
  | literal (n : Int) (word : inWord n = true)
  | apply (op : Arith) (a b : Formula)

namespace Formula

def expr : Formula → Expr
  | .literal n _ => .int n
  | .apply op a b => .arith op a.expr b.expr

/-- The value of the formula, if there were no largest and no smallest integer. -/
def exact : Formula → Int
  | .literal n _ => n
  | .apply .add a b => a.exact + b.exact
  | .apply .sub a b => a.exact - b.exact
  | .apply .mul a b => a.exact * b.exact
  | .apply .min a b => min a.exact b.exact
  | .apply .max a b => max a.exact b.exact

/-- The formula itself and all those it is made of, one for each step of its evaluation. -/
def parts : Formula → List Formula
  | .literal n word => [.literal n word]
  | .apply op a b => .apply op a b :: (a.parts ++ b.parts)

/-- The values of all parts are integers of 64 bits. -/
def Fits (f : Formula) : Prop :=
  ∀ part ∈ f.parts, inWord part.exact = true

instance (f : Formula) : Decidable f.Fits :=
  inferInstanceAs (Decidable (∀ part ∈ f.parts, inWord part.exact = true))

variable {op : Arith} {a b f : Formula} {m n : Int}

theorem exact_apply (op : Arith) (a b : Formula) :
    (apply op a b).exact = op.exact a.exact b.exact := by
  cases op <;> rfl

theorem fits_literal (word : inWord n = true) : (literal n word).Fits := by
  intro part h
  rw [List.mem_singleton.mp h]
  exact word

/-- A formula fits if its operands do and its own value is an integer of 64 bits. -/
theorem fits_apply_iff :
    (apply op a b).Fits ↔ a.Fits ∧ b.Fits ∧ inWord (op.exact a.exact b.exact) = true := by
  rw [Fits, parts, List.forall_mem_cons, List.forall_mem_append, exact_apply]
  constructor
  · rintro ⟨whole, left, right⟩
    exact ⟨left, right, whole⟩
  · rintro ⟨left, right, whole⟩
    exact ⟨whole, left, right⟩

/-- What does not fit has a part whose value is out of range. -/
theorem not_fits_iff : ¬f.Fits ↔ ∃ part ∈ f.parts, inWord part.exact = false := by
  simp [Fits]

/-! ### One step -/

variable {sc : Scene} {vars : Vars} {depth steps steps' : Nat}

/-- What precedes every evaluation: a step of the budget, and a look at the depth. -/
def gated (sc : Scene) (depth : Nat) (x : Eval Value) : Eval Value := do
  sc.tick
  sc.enter depth
  x

def operate (sc : Scene) (vars : Vars) (op : Arith) (a b : Expr) (depth : Nat) : Eval Value := do
  let m ← (← a.eval sc vars depth).asInt
  let n ← (← b.eval sc vars depth).asInt
  return .int (← op.compute m n)

theorem eval_int (n : Int) :
    (Expr.int n).eval sc vars depth = gated sc depth (pure (.int n)) := by
  rw [Expr.eval]
  rfl

/-- An operation is evaluated by taking a step, looking at the depth and then operating. -/
theorem eval_arith (op : Arith) (a b : Expr) : (Expr.arith op a b).eval sc vars depth
    = gated sc depth (operate sc vars op a b (depth + 1)) := by
  rw [Expr.eval]
  rfl

/-! ### The whole evaluation -/

inductive Outcome (sc : Scene) (f : Formula) (depth steps : Nat) :
    EStateM.Result ScriptError Nat Value → Prop where
  | value (fits : f.Fits) {steps' : Nat} (used : steps' ≤ steps + f.parts.length) :
      Outcome sc f depth steps (.ok (.int f.exact) steps')
  | overflow (unfit : ¬f.Fits) (steps' : Nat) : Outcome sc f depth steps (.error .overflow steps')
  | exhausted (long : sc.limits.steps < steps + f.parts.length) (steps' : Nat) :
      Outcome sc f depth steps (.error (.budgetExhausted sc.limits.steps) steps')
  | tooDeep (deep : sc.limits.depth < depth + f.expr.nesting) (steps' : Nat) :
      Outcome sc f depth steps (.error (.tooDeep sc.limits.depth) steps')

theorem length_parts_pos (f : Formula) : 1 ≤ f.parts.length := by
  cases f <;> simp [parts]

/-- A formula takes at least the step it starts with, and lies at its depth or below. -/
theorem gated_outcome {x : Eval Value}
    (rest : Outcome sc f depth steps (x (nextCount steps))) :
    Outcome sc f depth steps (gated sc depth x steps) := by
  have size := f.length_parts_pos
  have counted := nextCount_le steps
  by_cases long : sc.limits.steps < nextCount steps
  · have refused : sc.tick steps
        = .error (.budgetExhausted sc.limits.steps) (nextCount steps) := if_pos long
    rw [gated, bind_of_error refused]
    exact .exhausted (by omega) _
  · have allowed : sc.tick steps = .ok () (nextCount steps) := if_neg long
    rw [gated, bind_of_ok allowed]
    by_cases deep : sc.limits.depth < depth
    · have refused : sc.enter depth = .error (.tooDeep sc.limits.depth) := if_pos deep
      rw [refused]
      exact .tooDeep (by omega) _
    · have allowed : sc.enter depth = .ok () := if_neg deep
      rw [allowed]
      exact rest

theorem Outcome.of_ok {v : Value} (h : Outcome sc f depth steps (.ok v steps')) :
    f.Fits ∧ v = .int f.exact ∧ steps' ≤ steps + f.parts.length := by
  cases h with
  | value fits used => exact ⟨fits, rfl, used⟩

/-- A formula fails for whatever one of its parts fails for. -/
theorem Outcome.of_part {part : Formula} {depth' start : Nat} {e : ScriptError}
    (h : Outcome sc part depth' start (.error e steps')) (fits : f.Fits → part.Fits)
    (longer : start + part.parts.length ≤ steps + f.parts.length)
    (deeper : depth' + part.expr.nesting ≤ depth + f.expr.nesting) :
    Outcome sc f depth steps (.error e steps') := by
  cases h with
  | overflow unfit => exact .overflow (fun whole => unfit (fits whole)) steps'
  | exhausted long => exact .exhausted (Nat.lt_of_lt_of_le long longer) steps'
  | tooDeep deep => exact .tooDeep (Nat.lt_of_lt_of_le deep deeper) steps'

theorem length_parts_apply (op : Arith) (a b : Formula) :
    (apply op a b).parts.length = a.parts.length + b.parts.length + 1 := by
  rw [parts, List.length_cons, List.length_append]

theorem nesting_apply (op : Arith) (a b : Formula) :
    (apply op a b).expr.nesting = max a.expr.nesting b.expr.nesting + 1 := by
  rw [expr, Expr.nesting]

/-- The last step of an operation, when both operands have their values. -/
theorem compute_outcome (left : a.Fits) (right : b.Fits)
    (used : steps' ≤ steps + (apply op a b).parts.length) :
    Outcome sc (apply op a b) depth steps
      ((do return .int (← op.compute a.exact b.exact) : Eval Value) steps') := by
  by_cases word : inWord (op.exact a.exact b.exact) = true
  · have computed : op.compute a.exact b.exact = .ok (apply op a b).exact := by
      rw [Arith.compute, if_pos word, exact_apply]
    rw [computed]
    exact .value (fits_apply_iff.mpr ⟨left, right, word⟩) used
  · have computed : op.compute a.exact b.exact = .error .overflow := by
      rw [Arith.compute, if_neg word]
    rw [computed]
    exact .overflow (fun fits => word (fits_apply_iff.mp fits).2.2) _

/-- The left operand comes first, then the right one, and the operator last. -/
theorem operate_outcome
    (left : ∀ steps, Outcome sc a (depth + 1) steps (a.expr.eval sc vars (depth + 1) steps))
    (right : ∀ steps, Outcome sc b (depth + 1) steps (b.expr.eval sc vars (depth + 1) steps)) :
    Outcome sc (apply op a b) depth steps
      (operate sc vars op a.expr b.expr (depth + 1) (nextCount steps)) := by
  have size := length_parts_apply op a b
  have nested := nesting_apply op a b
  have counted := nextCount_le steps
  have first := left (nextCount steps)
  rw [operate]
  cases run : a.expr.eval sc vars (depth + 1) (nextCount steps) with
  | error e t =>
    rw [run] at first
    rw [bind_of_error run]
    exact first.of_part (fun fits => (fits_apply_iff.mp fits).1) (by omega) (by omega)
  | ok v t =>
    rw [run] at first
    obtain ⟨fitsLeft, rfl, used⟩ := first.of_ok
    rw [bind_of_ok run]
    have second := right t
    -- what was read as an integer is one, so that the right operand is next
    change Outcome sc (apply op a b) depth steps ((b.expr.eval sc vars (depth + 1) >>= _) t)
    cases run' : b.expr.eval sc vars (depth + 1) t with
    | error e t' =>
      rw [run'] at second
      rw [bind_of_error run']
      exact second.of_part (fun fits => (fits_apply_iff.mp fits).2.1) (by omega) (by omega)
    | ok v t' =>
      rw [run'] at second
      obtain ⟨fitsRight, rfl, used'⟩ := second.of_ok
      rw [bind_of_ok run']
      exact compute_outcome fitsLeft fitsRight (by omega)

/-- The evaluation of a formula ends with its value, by an overflow or at a limit. -/
theorem eval_outcome (f : Formula) (sc : Scene) (vars : Vars) (depth steps : Nat) :
    Outcome sc f depth steps (f.expr.eval sc vars depth steps) := by
  induction f generalizing depth steps with
  | literal n word =>
    rw [expr, eval_int]
    exact gated_outcome (.value (fits_literal word) (nextCount_le steps))
  | apply op a b iha ihb =>
    rw [expr, eval_arith]
    exact gated_outcome (operate_outcome (iha (depth + 1)) (ihb (depth + 1)))

/-- The evaluation was ended by a limit of the language. -/
def Limited (result : EStateM.Result ScriptError Nat Value) : Prop :=
  ∃ limit steps', result = .error (.budgetExhausted limit) steps' ∨
    result = .error (.tooDeep limit) steps'

/-- Limits that are wide enough are not reached. -/
theorem Outcome.not_limited {result : EStateM.Result ScriptError Nat Value}
    (h : Outcome sc f depth steps result) (budget : steps + f.parts.length ≤ sc.limits.steps)
    (level : depth + f.expr.nesting ≤ sc.limits.depth) : ¬Limited result := by
  rintro ⟨limit, steps', rfl | rfl⟩
  · cases h with
    | exhausted long => exact absurd budget (Nat.not_le.mpr long)
  · cases h with
    | tooDeep deep => exact absurd level (Nat.not_le.mpr deep)

/-- Unless a limit ends it, the evaluation has a value if and only if the formula fits, and then its
own. -/
theorem Outcome.ok_iff {result : EStateM.Result ScriptError Nat Value}
    (h : Outcome sc f depth steps result) (ended : ¬Limited result) (v : Value) :
    (∃ steps', result = .ok v steps') ↔ f.Fits ∧ v = .int f.exact := by
  constructor
  · rintro ⟨steps', rfl⟩
    obtain ⟨fits, value, -⟩ := h.of_ok
    exact ⟨fits, value⟩
  · rintro ⟨fits, rfl⟩
    cases h with
    | value => exact ⟨_, rfl⟩
    | overflow unfit => exact absurd fits unfit
    | exhausted long steps' => exact absurd ⟨_, steps', Or.inl rfl⟩ ended
    | tooDeep deep steps' => exact absurd ⟨_, steps', Or.inr rfl⟩ ended

/-- Unless a limit ends it, the evaluation of what does not fit overflows. -/
theorem Outcome.overflow_of_not_fits {result : EStateM.Result ScriptError Nat Value}
    (h : Outcome sc f depth steps result) (ended : ¬Limited result) (unfit : ¬f.Fits) :
    ∃ steps', result = .error .overflow steps' := by
  cases h with
  | value fits used => exact absurd fits unfit
  | overflow _ steps' => exact ⟨steps', rfl⟩
  | exhausted long steps' => exact absurd ⟨_, steps', Or.inl rfl⟩ ended
  | tooDeep deep steps' => exact absurd ⟨_, steps', Or.inr rfl⟩ ended

/-- The evaluation of a formula is exact. It is not ended by a limit if the limits leave room for
all parts. If it is not ended by a limit, then it gives a value exactly if the values of all parts
have 64 bits, which is the value over all integers, and otherwise it overflows. -/
theorem eval_exact (f : Formula) (sc : Scene) (vars : Vars) (depth steps : Nat) :
    (steps + f.parts.length ≤ sc.limits.steps → depth + f.expr.nesting ≤ sc.limits.depth →
      ¬Limited (f.expr.eval sc vars depth steps)) ∧
    (¬Limited (f.expr.eval sc vars depth steps) →
      (∀ v, (∃ steps', f.expr.eval sc vars depth steps = .ok v steps') ↔
        (∀ part ∈ f.parts, inWord part.exact = true) ∧ v = .int f.exact) ∧
      ((∃ part ∈ f.parts, inWord part.exact = false) →
        ∃ steps', f.expr.eval sc vars depth steps = .error .overflow steps')) := by
  have outcome := eval_outcome f sc vars depth steps
  refine ⟨outcome.not_limited, fun ended => ⟨outcome.ok_iff ended, fun unfit => ?_⟩⟩
  exact outcome.overflow_of_not_fits ended (not_fits_iff.mpr unfit)

/-- The difference is in range, but the sum that it is taken from is not. -/
theorem overflow_stays :
    let sc : Scene :=
      ⟨Session.showdown, arena.catalog, .first, ⟨.spell, ⟨0⟩, some ⟨1⟩, none⟩, ⟨5, 3⟩⟩
    let f : Formula := .apply .sub (.apply .add (.literal 9223372036854775807 (by decide))
      (.literal 1 (by decide))) (.literal 1 (by decide))
    let g : Formula := .apply .sub (.apply .add (.literal 2 (by decide))
      (.literal 1 (by decide))) (.literal 1 (by decide))
    f.exact = 9223372036854775807 ∧ (∃ steps', f.expr.eval sc [] 0 0 = .error .overflow steps') ∧
      ∃ steps', g.expr.eval sc [] 0 0 = .ok (.int 2) steps' := by
  intro sc f g
  obtain ⟨room, exact⟩ := eval_exact f sc [] 0 0
  obtain ⟨room', exact'⟩ := eval_exact g sc [] 0 0
  refine ⟨by decide, ?_, ?_⟩
  · exact (exact (room (by decide) (by decide))).2 (by decide)
  · exact ((exact' (room' (by decide) (by decide))).1 (.int 2)).mpr (by decide)

end Formula

end CardBattle
