import CardBattle.Ability

/-!
# Steps that succeed

A composed step succeeds exactly when its parts succeed one after another. The lemmas below take a
successful update or play apart into the states that it went through.
-/

namespace CardBattle

variable {ε σ α β : Type}

/-- A computation succeeds if its first part does and the rest succeeds after that. -/
theorem bind_ok_iff {x : EStateM ε σ α} {f : α → EStateM ε σ β} {s s' : σ} {b : β} :
    (x >>= f) s = .ok b s' ↔ ∃ a t, x s = .ok a t ∧ f a t = .ok b s' := by
  change EStateM.bind x f s = _ ↔ _
  unfold EStateM.bind
  cases x s with
  | ok a t =>
    constructor
    · intro h
      exact ⟨a, t, rfl, h⟩
    · rintro ⟨_, _, ⟨rfl, rfl⟩, h⟩
      exact h
  | error e t => simp

/-- A computation fails where one of its parts fails, and the state stays as that part left it. -/
theorem bind_error_iff {x : EStateM ε σ α} {f : α → EStateM ε σ β} {s s' : σ} {e : ε} :
    (x >>= f) s = .error e s' ↔ x s = .error e s' ∨ ∃ a t, x s = .ok a t ∧ f a t = .error e s' := by
  change EStateM.bind x f s = _ ↔ _
  unfold EStateM.bind
  cases x s with
  | ok a t =>
    constructor
    · intro h
      exact Or.inr ⟨a, t, rfl, h⟩
    · rintro (h | ⟨_, _, ⟨rfl, rfl⟩, h⟩)
      · cases h
      · exact h
  | error e t => simp

theorem bind_of_ok {x : EStateM ε σ α} {f : α → EStateM ε σ β} {s t : σ} {a : α}
    (h : x s = .ok a t) : (x >>= f) s = f a t := by
  change EStateM.bind x f s = _
  rw [EStateM.bind, h]

theorem bind_of_error {x : EStateM ε σ α} {f : α → EStateM ε σ β} {s t : σ} {e : ε}
    (h : x s = .error e t) : (x >>= f) s = .error e t := by
  change EStateM.bind x f s = _
  rw [EStateM.bind, h]

/-- Where only success counts, and not the state that it leaves behind. -/
theorem exists_bind_ok_iff {x : EStateM ε σ α} {f : α → EStateM ε σ β} {s : σ} {b : β} :
    (∃ s', (x >>= f) s = .ok b s') ↔ ∃ a t, x s = .ok a t ∧ ∃ s', f a t = .ok b s' := by
  simp only [bind_ok_iff]
  constructor
  · rintro ⟨s', a, t, first, rest⟩
    exact ⟨a, t, first, s', rest⟩
  · rintro ⟨a, t, first, s', rest⟩
    exact ⟨s', a, t, first, rest⟩

theorem run'_eq_some_iff {x : EStateM ε σ α} {s : σ} {a : α} :
    x.run' s = some a ↔ ∃ s', x s = .ok a s' := by
  unfold EStateM.run' EStateM.run
  cases x s with
  | ok b t => simp
  | error e t => simp

theorem pure_ok_iff {a b : α} {s s' : σ} :
    (pure a : EStateM ε σ α) s = .ok b s' ↔ a = b ∧ s = s' := by
  change EStateM.Result.ok a s = _ ↔ _
  simp

theorem throw_ok_iff {e : ε} {b : α} {s s' : σ} :
    (throw e : EStateM ε σ α) s = .ok b s' ↔ False := by
  change EStateM.Result.error e s = _ ↔ _
  simp

theorem get_ok_iff {a s s' : σ} : (get : EStateM ε σ σ) s = .ok a s' ↔ s = a ∧ s = s' := by
  change EStateM.Result.ok s s = _ ↔ _
  simp

theorem set_ok_iff {s s' t : σ} {u : PUnit} :
    (set t : EStateM ε σ PUnit) s = .ok u s' ↔ t = s' := by
  change EStateM.Result.ok _ t = _ ↔ _
  simp

theorem modify_ok_iff {f : σ → σ} {s s' : σ} {u : PUnit} :
    (modify f : EStateM ε σ PUnit) s = .ok u s' ↔ f s = s' := by
  change EStateM.Result.ok _ (f s) = _ ↔ _
  simp

theorem modifyGet_ok_iff {f : σ → α × σ} {a : α} {s s' : σ} :
    (modifyGet f : EStateM ε σ α) s = .ok a s' ↔ (f s).1 = a ∧ (f s).2 = s' := by
  change EStateM.Result.ok (f s).1 (f s).2 = _ ↔ _
  simp

/-- A check leaves the state as it is. -/
theorem lift_ok_iff {x : Except ε α} {a : α} {s s' : σ} :
    (liftM x : EStateM ε σ α) s = .ok a s' ↔ x = .ok a ∧ s = s' := by
  cases x with
  | ok b =>
    change EStateM.Result.ok b s = _ ↔ _
    simp
  | error e =>
    change EStateM.Result.error e s = _ ↔ _
    simp

theorem except_bind_ok_iff {x : Except ε α} {f : α → Except ε β} {b : β} :
    (x >>= f) = .ok b ↔ ∃ a, x = .ok a ∧ f a = .ok b := by
  cases x with
  | ok a => simp [bind, Except.bind]
  | error e => simp [bind, Except.bind]

/-- Another error makes no difference to success. -/
theorem except_mapError_ok_iff {ε' : Type} {x : Except ε α} {f : ε → ε'} {a : α} :
    x.mapError f = .ok a ↔ x = .ok a := by
  cases x with
  | ok b =>
    change Except.ok b = _ ↔ _
    simp
  | error e =>
    change Except.error (f e) = _ ↔ _
    simp

theorem Update.check_ok_iff {f : Session → Except GameError α} {s s' : Session} {a : α} :
    Update.check f s = .ok a s' ↔ f s = .ok a ∧ s = s' := by
  unfold Update.check
  cases f s with
  | ok a => simp
  | error e => simp

namespace Play

variable {t t' : Table} {a : α}

theorem update_ok_iff {u : Update α} : update u t = .ok a t' ↔
    ∃ s, u t.session = .ok a s ∧ { t with session := s } = t' := by
  unfold update
  cases u t.session with
  | ok b s =>
    simp only [EStateM.Result.ok.injEq]
    constructor
    · rintro ⟨rfl, rfl⟩
      exact ⟨s, ⟨rfl, rfl⟩, rfl⟩
    · rintro ⟨_, ⟨rfl, rfl⟩, rfl⟩
      exact ⟨rfl, rfl⟩
  | error e s => simp

theorem check_ok_iff {f : Session → Except GameError α} :
    check f t = .ok a t' ↔ f t.session = .ok a ∧ t = t' := by
  unfold check
  cases f t.session with
  | ok a => simp
  | error e => simp

theorem view_ok_iff {f : Session → α} : view f t = .ok a t' ↔ f t.session = a ∧ t = t' := by
  simp [view]

theorem change_ok_iff {f : Session → Session} {u : Unit} :
    change f t = .ok u t' ↔ { t with session := f t.session } = t' := by
  simp [change]

theorem fire_ok_iff {ctx : Context} {event : TriggerEvent} {o : Occasion} {u : Unit} :
    fire ctx event o t = .ok u t' ↔ (ctx.triggerCard event o t).2 = t' := by
  simp [fire]

theorem fireAll_ok_iff {ctx : Context} {event : TriggerEvent} {player : Seat} {u : Unit} :
    fireAll ctx event player t = .ok u t' ↔ (ctx.triggerAll event player t).2 = t' := by
  simp [fireAll]

end Play

end CardBattle
