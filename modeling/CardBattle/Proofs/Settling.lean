import CardBattle.Proofs.Lifelines
import CardBattle.Proofs.LogGrowth

/-!
# What a batch and the sweep after it leave alone

Copies change in health and weariness, and remain copies of the same card with the same owner. The
log gains entries about players, cards and the end of the game, and none about an ability: those are
written before the operations of the ability are applied.
-/

namespace CardBattle

/-- Entries that tell how an ability ended. -/
def LogAction.isAbility : LogAction → Bool
  | .ability | .abilityFailed => true
  | _ => false

namespace Session

variable {s s' s'' : Session} {id : InstanceId} {now : Nat} {op : Operation}
  {r : BatchReport}

/-- Copies keep their cards and owners, and no entry tells of an ability. -/
structure Settles (s s' : Session) : Prop where
  cards : ∀ id, (s'.instance? id).map (fun c => (c.card, c.owner))
    = (s.instance? id).map fun c => (c.card, c.owner)
  log : Logs (fun action => action.isAbility = false) s s'

namespace Settles

theorem refl (s : Session) : Settles s s :=
  ⟨fun _ => rfl, .of_same rfl⟩

theorem trans (h : Settles s s') (h' : Settles s' s'') : Settles s s'' :=
  ⟨fun id => (h'.cards id).trans (h.cards id), h.log.trans h'.log⟩

/-- Copies change in all but card and owner. -/
theorem modifyInstance {f : CardInstance → CardInstance}
    (keeps : ∀ c, (f c).card = c.card ∧ (f c).owner = c.owner) :
    Settles s (s.modifyInstance id f) where
  cards := fun _ =>
    map_instance?_modifyInstance s fun c => Prod.ext (keeps c).1 (keeps c).2
  log := .of_same rfl

end Settles

theorem logs_finish {loser : Seat} :
    Logs (fun action => action.isAbility = false) s (s.finish loser now) := by
  rw [finish]
  split
  · exact .of_same rfl
  · exact .of_entry rfl rfl

theorem logs_attempt {α : Type} {u : Update α} {allowed : LogAction → Prop} (atomic : Atomic u)
    (ran : ∀ a s', u s = .ok a s' → Logs allowed s s') : Logs allowed s (s.attempt u).2 := by
  rcases of_attempt (s := s) atomic with same | ⟨a, done⟩
  · rw [same]
    exact .of_same rfl
  · exact ran a _ done

/-- No operation writes of abilities. -/
theorem logs_perform (op : Operation) (now : Nat) (r : BatchReport) (s : Session) :
    Logs (fun action => action.isAbility = false) s (s.perform op now r).2 := by
  cases op with
  | damagePlayer player amount =>
    refine logs_attempt atomic_damagePlayer fun dealt s' ran => ?_
    obtain ⟨p, -, -, rfl⟩ := damagePlayer_ok_iff.mp ran
    split
    · exact logs_finish (s := s.modifyPlayer player fun _ => p.takeDamage amount)
    · exact .of_same rfl
  | healPlayer player amount =>
    refine logs_attempt atomic_healPlayer fun healed s' ran => ?_
    obtain ⟨p, -, -, rfl⟩ := healPlayer_ok_iff.mp ran
    exact .of_same rfl
  | drawCard player =>
    refine logs_attempt atomic_drawCard fun drawn s' ran => ?_
    rw [drawCard] at ran
    split at ran
    · cases ran
    · split at ran <;> cases ran <;> exact .of_entry rfl rfl
  | gainEnergy player amount =>
    refine logs_attempt atomic_gainEnergy fun _ s' ran => ?_
    obtain ⟨p, -, rfl⟩ := gainEnergy_ok_iff.mp ran
    exact .of_entry rfl rfl
  | log player text => exact .of_entry rfl rfl
  | damageCard | healCard | destroyCard =>
    simp only [perform]
    split <;> exact .of_same rfl

/-- An operation changes no copy's card or owner and tells of no ability. -/
theorem settles_perform (op : Operation) (now : Nat) (r : BatchReport) (s : Session) :
    Settles s (s.perform op now r).2 where
  cards := by
    intro id
    rw [perform_copies, Option.map_map]
    congr 1
    funext c
    simp only [Function.comp_apply]
    split
    · rw [op.changed_eq]
    · rfl
  log := logs_perform op now r s

theorem settles_applyOne (state : BatchReport × Session) (op : Operation) :
    Settles state.2 (applyOne now state op).2 := by
  simp only [applyOne]
  split
  · exact .refl _
  · split
    · exact settles_perform op now state.1 state.2
    · exact .refl _

theorem settles_batch (ops : List Operation) (state : BatchReport × Session) :
    Settles state.2 (ops.foldl (applyOne now) state).2 := by
  induction ops generalizing state with
  | nil => exact .refl _
  | cons op ops ih => exact (settles_applyOne state op).trans (ih _)

theorem settles_destroy (id : InstanceId) (s : Session) : Settles s (s.destroy id).2 := by
  rw [destroy]
  split
  · exact .refl s
  · rename_i c hc
    split
    · exact .refl s
    · split
      · exact .refl s
      · exact ⟨fun _ => rfl, .of_same rfl⟩
      · rename_i p hp zones moved
        have carried : Settles s (s.setZones c.owner zones) := ⟨fun _ => rfl, .of_same rfl⟩
        exact carried.trans (.modifyInstance fun _ => ⟨rfl, rfl⟩)

theorem settles_bury (catalog : Catalog) (id : InstanceId) (s : Session) :
    Settles s (bury catalog now s id) := by
  rw [bury]
  split
  · exact .refl s
  · rename_i c hc
    dsimp only
    split
    · refine (settles_destroy id s).trans ⟨fun _ => rfl, .of_entry rfl ?_⟩
      rw [(destroyEntry_spec catalog c id now).2]
      rfl
    · exact settles_destroy id s

theorem settles_sweep (catalog : Catalog) (ids : List InstanceId) (s : Session) :
    Settles s (ids.foldl (bury catalog now) s) := by
  induction ids generalizing s with
  | nil => exact .refl s
  | cons id ids ih => exact (settles_bury catalog id s).trans (ih _)

/-- A batch that is settled changes no copy's card or owner and tells of no ability. -/
theorem settles_settle (catalog : Catalog) (ops : List Operation) (now : Nat) (s : Session) :
    Settles s (s.settle catalog ops now) :=
  (settles_batch ops ({}, s)).trans (settles_sweep catalog _ _)

end Session

end CardBattle
