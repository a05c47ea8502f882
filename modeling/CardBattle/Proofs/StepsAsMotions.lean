import CardBattle.Proofs.LogGrowth
import CardBattle.Proofs.TurnSteps

/-!
# Play as it concerns players and the log

Who looks at players and the log only need not know where the copies lie. Seen in this way the
steps of a turn come down to a few motions, in any session: a batch is a motion for each operation,
and a sweep is at most three for each of the dead.
-/

namespace CardBattle

open Relation

def LogAction.payments : List LogAction :=
  [.playCard, .castSpell]

namespace Session

/-- What happens to players and the log. Copies may change in any way. -/
inductive Motion (K : Catalog) : Session → Session → Prop where
  | write {s : Session} (e : LogEntry) (plain : e.action.isPlain = true ∨ e.action = .destroy) :
      Motion K s (s.record e)
  | hurt {s s' : Session} {player : Seat} {amount dealt : Int} {now : Nat}
      (h : damagePlayer player amount now s = .ok dealt s') : Motion K s s'
  | mend {s s' : Session} {player : Seat} {amount healed : Int}
      (h : healPlayer player amount s = .ok healed s') : Motion K s s'
  | gain {s s' : Session} {player : Seat} {amount : Int} {now : Nat}
      (h : gainEnergy player amount now s = .ok () s') : Motion K s s'
  | draw {s s' : Session} {player : Seat} {drawn : Option InstanceId} {now : Nat}
      (h : drawCard player now s = .ok drawn s') : Motion K s s'
  | pay {s : Session} {player : Seat} {card : CardId} {d : CardDefinition} {e : LogEntry}
      (hd : K.get? card = some d) (by_owner : e.player = player)
      (action : e.action ∈ LogAction.payments) (cost : e.amount = some d.cost) :
      Motion K s ((s.charge player d.cost).record e)
  | lay {s : Session} (player : Seat) (zones : Zones) : Motion K s (s.setZones player zones)
  | copy {s : Session} (instances : KeyMap CardInstance) : Motion K s { s with instances }

abbrev Motions (K : Catalog) : Session → Session → Prop :=
  ReflTransGen (Motion K)

variable {K : Catalog} {s s' : Session} {id : InstanceId} {player : Seat} {now : Nat}

/-! ### Single changes -/

theorem motions_note (e : LogEntry) (plain : e.action.isPlain = true) : Motions K s (s.record e) :=
  .single (.write e (.inl plain))

/-- A card that leaves the hand is paid for, and where it goes makes no difference. -/
theorem motions_paid {card : CardId} {d : CardDefinition} {e : LogEntry}
    (hd : K.get? card = some d) (by_owner : e.player = player)
    (action : e.action ∈ LogAction.payments) (cost : e.amount = some d.cost)
    (instances : KeyMap CardInstance) (zones : Zones) :
    Motions K s ((({ s.charge player d.cost with instances }).setZones player zones).record e) := by
  have paid : Motions K s ((s.charge player d.cost).record e) :=
    .single (.pay hd by_owner action cost)
  exact (paid.tail (.copy instances)).tail (.lay player zones)

/-- What a change does to players and the log is made of motions. -/
theorem Change.motions (h : Change K s s') : Motions K s s' := by
  cases h with
  | note e plain => exact motions_note e plain
  | hurt _ h => exact .single (.hurt h)
  | mend _ h => exact .single (.mend h)
  | gain _ h => exact .single (.gain h)
  | draw _ h => exact .single (.draw h)
  | heal amount _ _ _ _ => exact .single (.copy _)
  | sap _ _ => exact .single (.copy _)
  | enter _ _ _ hd _ _ _ by_owner action cost =>
    exact motions_paid hd by_owner (by rw [action]; decide) cost _ _
  | cast _ _ _ hd _ _ _ by_owner action cost =>
    exact motions_paid hd by_owner (by rw [action]; decide) cost s.instances _
  | @bury p id c e _ _ _ _ _ action =>
    have gone : Motions K s (s.modifyInstance id (·.buried)) := .single (.copy _)
    have fallen := gone.tail (.lay c.owner (p.zones.carry id .battlefield .graveyard))
    exact fallen.tail (.write e (.inr action))

/-! ### Batches and sweeps -/

theorem attempt_motions {α : Type} {u : Update α} (atomic : Atomic u)
    (ran : ∀ a s', u s = .ok a s' → Motion K s s') : Motions K s (s.attempt u).2 := by
  rcases of_attempt (s := s) atomic with same | ⟨a, done⟩
  · rw [same]
  · exact .single (ran a _ done)

theorem perform_motions (op : Operation) (now : Nat) (r : BatchReport) :
    Motions K s (s.perform op now r).2 := by
  cases op with
  | damagePlayer player amount => exact attempt_motions atomic_damagePlayer fun _ _ => .hurt
  | healPlayer player amount => exact attempt_motions atomic_healPlayer fun _ _ => .mend
  | drawCard player => exact attempt_motions atomic_drawCard fun _ _ => .draw
  | gainEnergy player amount => exact attempt_motions atomic_gainEnergy fun _ _ => .gain
  | log player text => exact motions_note _ rfl
  | damageCard | healCard | destroyCard =>
    simp only [perform]
    split
    · exact .refl
    · exact .single (.copy _)

theorem applyOne_motions (op : Operation) (now : Nat) (r : BatchReport) :
    Motions K s (applyOne now (r, s) op).2 := by
  simp only [applyOne]
  split
  · exact .refl
  · split
    · exact perform_motions op now r
    · exact .refl

theorem foldl_applyOne_motions (ops : List Operation) (r : BatchReport) :
    Motions K s (ops.foldl (applyOne now) (r, s)).2 := by
  induction ops generalizing r s with
  | nil => exact .refl
  | cons op ops ih =>
    rw [List.foldl_cons]
    have first : Motions K s (applyOne now (r, s) op).2 := applyOne_motions op now r
    generalize applyOne now (r, s) op = next at first ⊢
    obtain ⟨r', m⟩ := next
    exact first.trans (ih r')

theorem destroy_motions (id : InstanceId) : Motions K s (s.destroy id).2 := by
  rw [destroy]
  split
  · exact .refl
  · rename_i c hc
    split
    · exact .refl
    · split
      · exact .refl
      · exact .single (.lay _ _)
      · rename_i zones moved
        have laid : Motions K s (s.setZones c.owner zones) := .single (.lay _ _)
        exact laid.tail (.copy _)

theorem bury_motions (catalog : Catalog) (now : Nat) (id : InstanceId) :
    Motions K s (bury catalog now s id) := by
  rw [bury]
  split
  · exact .refl
  · rename_i c hc
    dsimp only
    split
    · have action := (destroyEntry_spec catalog c id now).2
      exact (destroy_motions id).tail (.write _ (.inr action))
    · exact destroy_motions id

theorem foldl_bury_motions (catalog : Catalog) (now : Nat) (ids : List InstanceId) :
    Motions K s (ids.foldl (bury catalog now) s) := by
  induction ids generalizing s with
  | nil => exact .refl
  | cons id ids ih =>
    rw [List.foldl_cons]
    exact (bury_motions catalog now id).trans ih

/-- What a batch and its sweep do to players and the log is made of motions. -/
theorem settle_motions (catalog : Catalog) (ops : List Operation) (now : Nat) :
    Motions K s (s.settle catalog ops now) := by
  have applied : Motions K s (s.applyOperations ops now).2 := foldl_applyOne_motions ops {}
  exact applied.trans (foldl_bury_motions catalog now _)

/-! ### Steps -/

theorem Step.motions (h : Step K s s') : Motions K s s' := by
  cases h with
  | change h => exact h.motions
  | settle catalog ops now _ => exact settle_motions catalog ops now

/-- What happens within a turn is made of motions. -/
theorem Steps.motions (h : Steps K s s') : Motions K s s' := by
  induction h with
  | refl => exact .refl
  | tail _ step ih => exact ih.trans step.motions

/-! ### Turn and log -/

theorem Motion.sameTurn (h : Motion K s s') : SameTurn s s' := by
  cases h with
  | hurt h => exact sameTurn_damagePlayer h
  | mend h => exact sameTurn_healPlayer h
  | gain h => exact sameTurn_gainEnergy h
  | draw h => exact sameTurn_drawCard h
  | _ => exact ⟨rfl, rfl, rfl, rfl, rfl⟩

theorem Motions.sameTurn (h : Motions K s s') : SameTurn s s' := by
  induction h with
  | refl => exact .refl s
  | tail _ motion ih => exact ih.trans motion.sameTurn

/-- Motions write into the log and take nothing out. -/
theorem Motion.logs (h : Motion K s s') : Logs (fun _ => True) s s' := by
  cases h with
  | write e _ => exact .of_entry rfl trivial
  | hurt h =>
    obtain ⟨p, -, -, rfl⟩ := damagePlayer_ok_iff.mp h
    split
    · rw [finish]
      split
      · exact .of_same rfl
      · exact .of_entry rfl trivial
    · exact .of_same rfl
  | mend h =>
    obtain ⟨p, -, -, rfl⟩ := healPlayer_ok_iff.mp h
    exact .of_same rfl
  | gain h =>
    obtain ⟨p, -, rfl⟩ := gainEnergy_ok_iff.mp h
    exact .of_entry rfl trivial
  | draw h =>
    rw [drawCard] at h
    split at h
    · cases h
    · split at h <;> cases h <;> exact .of_entry rfl trivial
  | pay => exact .of_entry rfl trivial
  | lay => exact .of_same rfl
  | copy => exact .of_same rfl

theorem Motions.logs (h : Motions K s s') : Logs (fun _ => True) s s' := by
  induction h with
  | refl => exact .of_same rfl
  | tail _ motion ih => exact ih.trans motion.logs

end Session

end CardBattle
