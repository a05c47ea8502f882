import CardBattle.Proofs.SessionViews
import CardBattle.Targeting

/-!
# Cards as targets

A card makes a target by the kind of its definition and by its owner. It is there as a target while
it lies on the battlefield of its owner.
-/

namespace CardBattle

namespace Session

variable {K : Catalog} {s : Session} {id : InstanceId} {target : Target}

/-- A copy is a target as the permanent that its definition says. -/
theorem targetOf?_eq_some_iff : s.targetOf? K id = some target ↔
    ∃ c d, s.instance? id = some c ∧ K.get? c.card = some d ∧
      Target.ofCard? d.kind id c.owner = some target := by
  rw [targetOf?]
  cases s.instance? id with
  | none => simp
  | some c =>
    cases hd : K.get? c.card with
    | none => simp [hd]
    | some d => simp [hd]

/-- The target that is made of a copy names that copy. -/
theorem card?_of_targetOf? (h : s.targetOf? K id = some target) : target.card? = some id := by
  obtain ⟨c, d, -, -, made⟩ := targetOf?_eq_some_iff.mp h
  exact (Target.card?_ofCard? made).1

/-- A card is in play as a target when it makes that target and lies on a battlefield. -/
theorem cardInPlayAs_iff : s.cardInPlayAs K id target = true ↔
    s.targetOf? K id = some target ∧ s.zoneOf? id = some .battlefield := by
  rw [targetOf?_eq_some_iff, ← onBattlefield_iff]
  rw [cardInPlayAs]
  cases s.instance? id with
  | none => simp
  | some c =>
    cases hd : K.get? c.card with
    | none => simp [hd]
    | some d =>
      simp only [hd, Bool.and_eq_true, decide_eq_true_eq]
      constructor
      · rintro ⟨⟨owner, inPlay⟩, made⟩
        exact ⟨⟨c, d, rfl, hd, owner ▸ made⟩, inPlay⟩
      · rintro ⟨⟨_, _, ⟨⟩, hd', made⟩, inPlay⟩
        cases hd.symm.trans hd'
        obtain ⟨-, owner⟩ := Target.card?_ofCard? made
        exact ⟨⟨owner.symm, inPlay⟩, owner ▸ made⟩

end Session

end CardBattle
