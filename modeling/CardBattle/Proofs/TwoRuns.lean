import CardBattle.Proofs.Outcomes

/-!
# Two runs side by side

Two computations run in step if, from related states, they give the same answer or the same error
and leave related states behind. Steps that are composed of such steps run in step as well.
-/

namespace CardBattle

section Rules

variable {ε σ α β : Type} {R : σ → σ → Prop}

/-- The same answer or the same error, in related states. -/
inductive Paired (R : σ → σ → Prop) :
    EStateM.Result ε σ α → EStateM.Result ε σ α → Prop where
  | ok (a : α) {s s' : σ} (related : R s s') : Paired R (.ok a s) (.ok a s')
  | error (e : ε) {s s' : σ} (related : R s s') : Paired R (.error e s) (.error e s')

/-- If one computation succeeds, the other does so with the same answer. -/
theorem Paired.of_ok {r : EStateM.Result ε σ α} {a : α} {s : σ}
    (h : Paired R (.ok a s) r) : ∃ s', r = .ok a s' ∧ R s s' := by
  cases h with
  | ok _ related => exact ⟨_, rfl, related⟩

/-- From related states, two computations end alike and in related states. -/
def InStep (R : σ → σ → Prop) (x y : EStateM ε σ α) : Prop :=
  ∀ s s', R s s' → Paired R (x s) (y s')

/-- Computations are in step if their first parts are and, after each answer, their rests. -/
theorem inStep_bind {x y : EStateM ε σ α} {f g : α → EStateM ε σ β} (first : InStep R x y)
    (rest : ∀ a, InStep R (f a) (g a)) : InStep R (x >>= f) (y >>= g) := by
  intro s s' related
  have first := first s s' related
  change Paired R (EStateM.bind x f s) (EStateM.bind y g s')
  unfold EStateM.bind
  generalize x s = r at first ⊢
  generalize y s' = r' at first ⊢
  cases first with
  | ok a related => exact rest a _ _ related
  | error e related => exact .error e related

theorem inStep_pure (a : α) : InStep R (pure a : EStateM ε σ α) (pure a) :=
  fun _ _ related => .ok a related

theorem inStep_throw (e : ε) : InStep R (throw e : EStateM ε σ α) (throw e) :=
  fun _ _ related => .error e related

theorem inStep_ite {p : Prop} [Decidable p] {x x' y y' : EStateM ε σ α} (yes : p → InStep R x x')
    (no : ¬p → InStep R y y') : InStep R (if p then x else y) (if p then x' else y') := by
  split
  · exact yes ‹p›
  · exact no ‹¬p›

/-- A step that is done first under some condition. -/
theorem inStep_first {p : Prop} [Decidable p] {x y : EStateM ε σ PUnit}
    {f g : PUnit → EStateM ε σ α} (first : InStep R x y) (rest : ∀ u, InStep R (f u) (g u)) :
    InStep R (if p then x >>= f else f ⟨⟩) (if p then y >>= g else g ⟨⟩) :=
  inStep_ite (fun _ => inStep_bind first rest) fun _ => rest ⟨⟩

theorem inStep_lift {x y : Except ε α} (same : y = x) :
    InStep R (liftM x : EStateM ε σ α) (liftM y) := by
  subst same
  intro s s' related
  cases y with
  | ok a => exact .ok a related
  | error e => exact .error e related

theorem inStep_modify {f g : σ → σ} (keeps : ∀ s s', R s s' → R (f s) (g s')) :
    InStep R (modify f : EStateM ε σ PUnit) (modify g) :=
  fun s s' related => .ok _ (keeps s s' related)

/-- Two changes of the state are in step if they answer alike and keep states related. -/
theorem inStep_modifyGet {f g : σ → α × σ}
    (keeps : ∀ s s', R s s' → (g s').1 = (f s).1 ∧ R (f s).2 (g s').2) :
    InStep R (modifyGet f : EStateM ε σ α) (modifyGet g) := by
  intro s s' related
  obtain ⟨same, related⟩ := keeps s s' related
  change Paired R (.ok (f s).1 (f s).2) (.ok (g s').1 (g s').2)
  rw [same]
  exact .ok _ related

/-- After the state was read, each run knows its own. -/
theorem inStep_get {f g : σ → EStateM ε σ α}
    (rest : ∀ s s', R s s' → InStep R (f s) (g s')) : InStep R (get >>= f) (get >>= g) :=
  fun s s' related => rest s s' related s s' related

theorem inStep_set {t t' : σ} (related : R t t') :
    InStep R (set t : EStateM ε σ PUnit) (set t') :=
  fun _ _ _ => .ok _ related

end Rules

end CardBattle
