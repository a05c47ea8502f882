import CardBattle.Action
import CardBattle.Proofs.Outcomes

/-!
# What checks admit

Each check succeeds exactly when what it asks for is the case, and answers with what it looked up.
-/

namespace CardBattle

namespace Catalog

theorem require_ok_iff {c : Catalog} {id : CardId} {d : CardDefinition} :
    c.require id = .ok d ↔ c.get? id = some d := by
  unfold require
  cases c.get? id <;> simp

end Catalog

namespace Session

variable {s : Session} {player : Seat} {id : InstanceId} {u : Unit}

theorem requirePlayer_ok_iff {p : Player} :
    requirePlayer player s = .ok p ↔ s.player? player = some p := by
  unfold requirePlayer
  cases s.player? player <;> simp

theorem requireStatus_ok_iff {expected : Status} :
    requireStatus expected s = .ok u ↔ s.status = expected := by
  unfold requireStatus
  split <;> simp_all

/-- It is a player's turn when the game is on, the player exists and is the current one. -/
theorem requireTurn_ok_iff : requireTurn player s = .ok u ↔
    s.status = .playing ∧ (∃ p, s.player? player = some p) ∧ s.current = player := by
  unfold requireTurn
  cases status : requireStatus .playing s with
  | error e =>
    have other : s.status ≠ .playing := by
      intro h
      rw [requireStatus_ok_iff (u := ()) |>.mpr h] at status
      cases status
    simp [other]
  | ok v =>
    have playing := requireStatus_ok_iff.mp status
    unfold requirePlayer
    cases s.player? player with
    | none => simp
    | some p =>
      simp only [playing, true_and, Option.some.injEq, exists_eq']
      split <;> simp_all

theorem admits_requireTurn_iff : s.admits (requireTurn player) = true ↔
    requireTurn player s = .ok () := by
  unfold admits
  cases requireTurn player s <;> simp

theorem requireInstance_ok_iff {c : CardInstance} :
    requireInstance id s = .ok c ↔ s.instance? id = some c := by
  unfold requireInstance
  cases s.instance? id <;> simp

/-- A copy is usable from a zone by the owner, while it lies there. -/
theorem requireOwnedIn_ok_iff {zone : Zone} {c : CardInstance} :
    requireOwnedIn player id zone s = .ok c ↔
      s.instance? id = some c ∧ c.owner = player ∧ s.zoneOf? id = some zone := by
  unfold requireOwnedIn requireInstance
  cases s.instance? id with
  | none => simp
  | some e =>
    dsimp only
    split
    · rename_i other
      simp only [reduceCtorEq, Option.some.injEq, false_iff, not_and]
      rintro rfl rfl
      exact absurd rfl other
    · rename_i own
      have own := Decidable.not_not.mp own
      split
      · rename_i there
        simp only [Except.ok.injEq, Option.some.injEq, there, and_true]
        constructor
        · rintro rfl
          exact ⟨rfl, own⟩
        · rintro ⟨rfl, -⟩
          rfl
      · rename_i away
        simp [away]

theorem requireDefinition_ok_iff {catalog : Catalog} {d : CardDefinition} :
    requireDefinition catalog id s = .ok d ↔
      ∃ c, s.instance? id = some c ∧ catalog.get? c.card = some d := by
  unfold requireDefinition requireInstance Catalog.require
  cases s.instance? id with
  | none => simp
  | some c =>
    cases h : catalog.get? c.card with
    | none => simp [h]
    | some e => simp [h]

/-- A spell can be cast if it can be paid and has an effect. -/
theorem requireSpell_ok_iff {d : CardDefinition} {script : Script} :
    requireSpell player id d s = .ok script ↔ d.kind = .spell ∧
      (∃ p, s.player? player = some p ∧ d.cost ≤ p.energy) ∧ d.spellEffect = some script := by
  unfold requireSpell
  by_cases spell : d.kind = .spell
  · simp only [spell, ne_eq, not_true_eq_false, if_false, except_bind_ok_iff, requirePlayer_ok_iff,
      true_and]
    constructor
    · rintro ⟨p, hp, h⟩
      by_cases poor : p.energy < d.cost
      · simp only [poor, if_true, except_bind_ok_iff] at h
        obtain ⟨_, h, -⟩ := h
        cases h
      · simp only [poor, if_false] at h
        refine ⟨⟨p, hp, by omega⟩, ?_⟩
        split at h
        · rename_i found
          cases h
          exact found
        · cases h
    · rintro ⟨⟨p, hp, afford⟩, effect⟩
      have rich : ¬ p.energy < d.cost := by omega
      refine ⟨p, hp, ?_⟩
      simp only [rich, if_false, effect]
      rfl
  · simp only [spell, ne_eq, not_false_eq_true, if_true, except_bind_ok_iff, false_and, iff_false]
    rintro ⟨_, h, -⟩
    cases h

/-- An attacker is a creature with a known definition that its owner has in play, not sapped, in the
owner's turn. -/
theorem requireAttacker_ok_iff {ctx : Context} {d : CardDefinition} :
    requireAttacker ctx player id s = .ok d ↔
      requireTurn player s = .ok () ∧ (∃ c, s.instance? id = some c ∧ c.owner = player ∧
        s.zoneOf? id = some .battlefield ∧ c.sapped = false ∧ ctx.catalog.get? c.card = some d) ∧
        d.kind = .creature := by
  unfold requireAttacker
  simp only [except_bind_ok_iff, requireOwnedIn_ok_iff, requireDefinition_ok_iff]
  constructor
  · rintro ⟨_, turn, c, ⟨hc, own, zone⟩, e, ⟨c', hc', he⟩, h⟩
    cases hc.symm.trans hc'
    by_cases creature : e.kind = .creature
    · simp only [creature, ne_eq, not_true_eq_false, if_false] at h
      by_cases tired : c.sapped = true
      · simp only [tired, if_true, except_bind_ok_iff] at h
        obtain ⟨_, h, -⟩ := h
        cases h
      · simp only [tired, Bool.false_eq_true, if_false] at h
        cases h
        exact ⟨turn, ⟨c, hc, own, zone, Bool.eq_false_iff.mpr tired, he⟩, creature⟩
    · simp only [creature, ne_eq, not_false_eq_true, if_true, except_bind_ok_iff] at h
      obtain ⟨_, h, -⟩ := h
      cases h
  · rintro ⟨turn, ⟨c, hc, own, zone, ready, hd⟩, creature⟩
    refine ⟨(), turn, c, ⟨hc, own, zone⟩, d, ⟨c, hc, hd⟩, ?_⟩
    simp [creature, ready]
    rfl

end Session

end CardBattle
