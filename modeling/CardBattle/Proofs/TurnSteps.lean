import CardBattle.Proofs.RulesAsSteps

/-!
# The change of turn

The end of a turn fires abilities, passes the turn, fires abilities again, and then lets the next
player draw, refreshes and heals their permanents, and renews energy. It stops where the game ends.
-/

namespace CardBattle

open Relation

/-- After the last seat comes the first. -/
theorem SeatMap.nextSeat_eq {α : Type} {m : SeatMap α} {seat : Seat}
    (inside : seat.index < m.count) (few : m.count ≤ Seat.bound) :
    m.nextSeat seat = if seat.index + 1 = m.count then (⟨0⟩, true)
      else (⟨seat.index + 1⟩, false) := by
  unfold nextSeat
  by_cases last : seat.index + 1 = m.count
  · rw [if_pos (by omega), if_pos last]
  · rw [if_neg (by omega), if_neg last, Seat.ofIndex_of_lt (by omega)]

/-- With two players or more, the turn passes to somebody else. -/
theorem SeatMap.nextSeat_ne {α : Type} {m : SeatMap α} {seat : Seat}
    (inside : seat.index < m.count) (few : m.count < Seat.bound) (many : 2 ≤ m.count) :
    (m.nextSeat seat).1 ≠ seat := by
  rw [nextSeat_eq inside (Nat.le_of_lt few)]
  intro same
  have same := congrArg Seat.index same
  split_ifs at same with last
  · change 0 = seat.index at same
    omega
  · change seat.index + 1 = seat.index at same
    omega

namespace Session

/-- A step of play: within a turn, or from one turn to the next. -/
inductive Stage (config : Config) (K : Catalog) : Session → Session → Prop where
  | step {s s' : Session} (h : Step K s s') : Stage config K s s'
  | pass {s s' : Session} {next : Seat × Bool} {now : Nat} (going : s.status ≠ .finished)
      (h : passTurn now s = .ok next s') : Stage config K s s'
  | renew {s s' : Session} {player : Seat} {wrapped : Bool} (going : s.status ≠ .finished)
      (h : renewEnergy config player wrapped s = .ok () s') : Stage config K s s'
  | refresh {s : Session} {player : Seat} {id : InstanceId}
      (going : s.status ≠ .finished) (mem : id ∈ s.battlefield player) :
      Stage config K s (s.modifyInstance id CardInstance.refresh)

variable {config : Config} {K : Catalog} {s s' : Session} {player : Seat} {id : InstanceId}

theorem stages_of_steps (h : Steps K s s') : ReflTransGen (Stage config K) s s' :=
  h.lift id fun _ _ => .step

/-! ### Permanents at the start of a turn -/

theorem healCreature_cases (catalog : Catalog) (amount total : Int) (id : InstanceId) :
    (healCreature catalog amount (total, s) id).2 = s ∨
      ∃ c d, s.instance? id = some c ∧ catalog.get? c.card = some d ∧
        (healCreature catalog amount (total, s) id).2
          = s.modifyInstance id fun c => c.heal amount d.health := by
  unfold healCreature
  dsimp only
  split
  · exact Or.inl rfl
  · rename_i c hc
    split
    · exact Or.inl rfl
    · rename_i d hd
      split
      · exact Or.inr ⟨c, d, hc, hd, modifyInstance_congr hc rfl⟩
      · exact Or.inl rfl

theorem foldl_healCreature_steps {catalog : Catalog} (known : catalog.Within K) (amount : Int)
    (ids : List InstanceId) (total : Int) (going : s.status ≠ .finished)
    (mem : ∀ id ∈ ids, id ∈ s.battlefield player) :
    Steps K s (ids.foldl (healCreature catalog amount) (total, s)).2 ∧
      (ids.foldl (healCreature catalog amount) (total, s)).2.status = s.status := by
  induction ids generalizing total s with
  | nil => exact ⟨.refl, rfl⟩
  | cons id ids ih =>
    rw [List.foldl_cons]
    have first := healCreature_cases (s := s) catalog amount total id
    generalize healCreature catalog amount (total, s) id = next at first ⊢
    obtain ⟨total', m⟩ := next
    have others : ∀ id ∈ ids, id ∈ s.battlefield player := fun id' h =>
      mem id' (List.mem_cons_of_mem _ h)
    rcases first with rfl | ⟨c, d, hc, hd, rfl⟩
    · exact ih total' going others
    · obtain ⟨steps, status⟩ := ih total' (s := s.modifyInstance id _) going others
      refine ⟨.head (.change ?_) steps, status⟩
      exact .heal amount going (mem id List.mem_cons_self) hc (known _ _ hd)

/-- Creatures are healed by steps, and the game goes on. -/
theorem healCreatures_steps {catalog : Catalog} (known : catalog.Within K) (player : Seat)
    (amount : Int) (going : s.status ≠ .finished) :
    Steps K s (s.healCreatures catalog player amount).2 ∧
      (s.healCreatures catalog player amount).2.status = s.status :=
  foldl_healCreature_steps known amount _ 0 going fun _ h => h

/-- Only copies are healed. -/
theorem healCreatures_rest (s : Session) (catalog : Catalog) (player : Seat) (amount : Int) :
    (s.healCreatures catalog player amount).2
      = { s with instances := (s.healCreatures catalog player amount).2.instances } := by
  suffices fold : ∀ (ids : List InstanceId) (total : Int) (s : Session),
      (ids.foldl (healCreature catalog amount) (total, s)).2 = { s with
        instances := (ids.foldl (healCreature catalog amount) (total, s)).2.instances } from
    fold _ 0 s
  intro ids
  induction ids with
  | nil => exact fun _ _ => rfl
  | cons id ids ih =>
    intro total s
    rw [List.foldl_cons]
    have first := healCreature_cases (s := s) catalog amount total id
    generalize healCreature catalog amount (total, s) id = next at first ⊢
    obtain ⟨total', m⟩ := next
    rcases first with rfl | ⟨c, d, -, -, rfl⟩
    · exact ih total' m
    · exact ih total' (s.modifyInstance id _)

theorem foldl_refresh_stages (ids : List InstanceId) (going : s.status ≠ .finished)
    (mem : ∀ id ∈ ids, id ∈ s.battlefield player) : ReflTransGen (Stage config K) s
      (ids.foldl (fun s id => s.modifyInstance id CardInstance.refresh) s) := by
  induction ids generalizing s with
  | nil => exact .refl
  | cons id ids ih =>
    refine .head (.refresh going (mem id List.mem_cons_self)) ?_
    exact ih going fun id' h => mem id' (List.mem_cons_of_mem _ h)

/-- Creatures are refreshed by stages of play. -/
theorem refreshBattlefield_stages (player : Seat) (going : s.status ≠ .finished) :
    ReflTransGen (Stage config K) s (s.refreshBattlefield player) :=
  foldl_refresh_stages _ going fun _ h => h

theorem foldl_refresh_rest (ids : List InstanceId) (s : Session) :
    ids.foldl (fun s id => s.modifyInstance id CardInstance.refresh) s = { s with
      instances :=
        (ids.foldl (fun s id => s.modifyInstance id CardInstance.refresh) s).instances } := by
  induction ids generalizing s with
  | nil => rfl
  | cons id ids ih => exact ih (s.modifyInstance id CardInstance.refresh)

/-- Only copies are refreshed. -/
theorem refreshBattlefield_rest (s : Session) (player : Seat) : s.refreshBattlefield player
    = { s with instances := (s.refreshBattlefield player).instances } :=
  foldl_refresh_rest _ s

/-! ### Turns and energy -/

theorem contains_iff_player? : s.players.contains player = true ↔
    ∃ p, s.player? player = some p := by
  rw [SeatMap.contains_iff]
  constructor
  · intro h
    exact ⟨_, List.getElem?_eq_getElem h⟩
  · rintro ⟨p, hp⟩
    exact index_lt_of_player? hp

theorem present_next {seat : Seat} (inside : seat.index < s.players.count) :
    ∃ p, s.player? (s.players.nextSeat seat).1 = some p := by
  rw [← contains_iff_player?, SeatMap.contains_iff, SeatMap.nextSeat]
  split_ifs with last
  · exact Nat.lt_of_le_of_lt (Nat.zero_le _) inside
  · exact Nat.lt_of_le_of_lt (Nat.mod_le _ _) (Nat.not_le.mp last)

/-- The turn passes to the next seat, and rounds are counted where they begin. -/
theorem passTurn_ok_iff {next : Seat × Bool} {now : Nat} : passTurn now s = .ok next s' ↔
    ∃ p, s.player? next.1 = some p ∧ next = s.players.nextSeat s.current ∧
      s' = { s with
        current := next.1, turn := if next.2 then nextCount s.turn else s.turn }.record
        { player := next.1, action := .startTurn
          description := "Turn " ++ toString (if next.2 then nextCount s.turn else s.turn) ++ ": "
            ++ p.name ++ "'s turn"
          timestamp := now } := by
  simp only [passTurn, bind_ok_iff, get_ok_iff, set_ok_iff, modify_ok_iff, pure_ok_iff,
    Update.check_ok_iff, requirePlayer_ok_iff]
  constructor
  · rintro ⟨_, _, ⟨rfl, rfl⟩, _, _, rfl, p, _, ⟨hp, rfl⟩, _, _, rfl, rfl, rfl⟩
    exact ⟨p, hp, rfl, rfl⟩
  · rintro ⟨p, hp, rfl, rfl⟩
    exact ⟨_, _, ⟨rfl, rfl⟩, (), _, rfl, p, _, ⟨hp, rfl⟩, (), _, rfl, rfl, rfl⟩

/-- In a new round everyone's energy is raised and restored, and otherwise the player's is restored.
-/
theorem renewEnergy_ok_iff {wrapped : Bool} {u : Unit} :
    renewEnergy config player wrapped s = .ok u s' ↔
      (wrapped = true ∧ s' = { s with players := s.players.map fun p =>
        (p.raiseMaxEnergy config.energyPerRound config.maxEnergyCap).restoreEnergy }) ∨
      (wrapped = false ∧ (∃ p, s.player? player = some p) ∧
        s' = s.modifyPlayer player Player.restoreEnergy) := by
  unfold renewEnergy
  cases wrapped with
  | true =>
    simp only [if_true, modify_ok_iff, true_and, Bool.true_eq_false, false_and, or_false]
    exact eq_comm
  | false =>
    simp only [Bool.false_eq_true, if_false, bind_ok_iff, Update.check_ok_iff, modify_ok_iff,
      requirePlayer_ok_iff, false_and, true_and, false_or]
    constructor
    · rintro ⟨p, _, ⟨hp, rfl⟩, rfl⟩
      exact ⟨⟨p, hp⟩, rfl⟩
    · rintro ⟨⟨p, hp⟩, rfl⟩
      exact ⟨p, s, ⟨hp, rfl⟩, rfl⟩

/-! ### Runs of stages -/

theorem continues_passTurn {next : Seat × Bool} {now : Nat}
    (ran : passTurn now s = .ok next s') : Continues K s s' := by
  obtain ⟨p, -, -, rfl⟩ := passTurn_ok_iff.mp ran
  exact Continues.of_same rfl rfl rfl

theorem player?_map {f : Player → Player} :
    ({ s with players := s.players.map f } : Session).player? player
      = (s.player? player).map f := by
  simp [player?, SeatMap.get?, SeatMap.map]

theorem continues_renewEnergy {wrapped : Bool}
    (ran : renewEnergy config player wrapped s = .ok () s') : Continues K s s' := by
  rcases renewEnergy_ok_iff.mp ran with ⟨-, rfl⟩ | ⟨-, -, rfl⟩
  · refine Continues.of_players rfl rfl (by simp [SeatMap.map, SeatMap.count]) ?_
    intro seat p hp
    rw [player?_map, hp]
    exact ⟨_, rfl, rfl, rfl, rfl⟩
  · exact Continues.modifyPlayer fun _ => ⟨rfl, rfl, rfl⟩

theorem Step.continues (housed : s.Housed) (step : Step K s s') : Continues K s s' := by
  cases step with
  | change change => exact change.continues housed
  | settle catalog ops now capped =>
    obtain ⟨m, batch, sweep, -⟩ := settle_changes now housed catalog capped
    have first := Continues.of_steps (fun _ _ housed h => Touch.continues housed h) housed batch
    exact first.trans (Continues.of_steps (fun _ _ housed h => Change.continues housed h)
      (first.housed housed) sweep)

theorem Steps.continues (housed : s.Housed) (steps : Steps K s s') : Continues K s s' :=
  Continues.of_steps (fun _ _ housed h => Step.continues housed h) housed steps

/-- A game continues through every stage. -/
theorem Stage.continues (housed : s.Housed) (stage : Stage config K s s') : Continues K s s' := by
  cases stage with
  | step step => exact step.continues housed
  | pass _ ran => exact continues_passTurn ran
  | renew _ ran => exact continues_renewEnergy ran
  | refresh _ mem => exact housed.modify_in_play mem fun _ => ⟨rfl, rfl, rfl⟩

/-- What changes and harms preserve is preserved within a turn. -/
theorem Step.preserves {P : Session → Prop}
    (change : ∀ s s', s.Housed → P s → Change K s s' → P s')
    (harm : ∀ s s', s.Housed → P s → Harm s s' → P s')
    (housed : s.Housed) (h : P s) (step : Step K s s') : P s' := by
  have alongChanges : ∀ {a b}, a.Housed → P a → ReflTransGen (Change K) a b → b.Housed ∧ P b := by
    intro a b housed h run
    induction run with
    | refl => exact ⟨housed, h⟩
    | tail _ last ih => exact ⟨(last.continues ih.1).housed ih.1, change _ _ ih.1 ih.2 last⟩
  have alongTouches : ∀ {a b}, a.Housed → P a → ReflTransGen (Touch K) a b → b.Housed ∧ P b := by
    intro a b housed h run
    induction run with
    | refl => exact ⟨housed, h⟩
    | tail _ last ih =>
      refine ⟨(last.continues ih.1).housed ih.1, ?_⟩
      rcases last with last | last
      · exact change _ _ ih.1 ih.2 last
      · exact harm _ _ ih.1 ih.2 last
  cases step with
  | change last => exact change _ _ housed h last
  | settle catalog ops now capped =>
    obtain ⟨m, batch, sweep, -⟩ := settle_changes now housed catalog capped
    obtain ⟨housed', h'⟩ := alongTouches housed h batch
    exact (alongChanges housed' h' sweep).2

/-- What changes and harm preserve is preserved by any number of steps. -/
theorem Steps.preserves {P : Session → Prop}
    (change : ∀ s s', s.Housed → P s → Change K s s' → P s')
    (harm : ∀ s s', s.Housed → P s → Harm s s' → P s')
    (housed : s.Housed) (h : P s) (steps : Steps K s s') : P s' := by
  suffices both : s'.Housed ∧ P s' from both.2
  induction steps with
  | refl => exact ⟨housed, h⟩
  | tail _ last ih =>
    exact ⟨(last.continues ih.1).housed ih.1, last.preserves change harm ih.1 ih.2⟩

/-- Steps within a turn do not pass it. -/
theorem Steps.sameTurn (housed : s.Housed) (steps : Steps K s s') : SameTurn s s' := by
  refine Steps.preserves (P := fun m => SameTurn s m) ?_ ?_ housed (.refl s) steps
  · exact fun _ _ _ before change => before.trans change.sameTurn
  · exact fun _ _ _ before harm => before.trans harm.sameTurn

/-- Within a turn the seat that is next stays the same. -/
theorem Steps.nextSeat (housed : s.Housed) (steps : Steps K s s') :
    s'.players.nextSeat s'.current = s.players.nextSeat s.current := by
  rw [(steps.sameTurn housed).current]
  simp only [SeatMap.nextSeat, (steps.continues housed).count]

theorem sameTurn_renewEnergy {wrapped : Bool}
    (ran : renewEnergy config player wrapped s = .ok () s') : SameTurn s s' := by
  rcases renewEnergy_ok_iff.mp ran with ⟨-, rfl⟩ | ⟨-, -, rfl⟩
  · exact ⟨rfl, rfl, rfl, rfl, rfl⟩
  · exact ⟨rfl, rfl, rfl, rfl, rfl⟩

theorem Steps.keeps {α : Type} {view : Player → α}
    (blind : ∀ (p : Player) health energy zones, view { p with health, energy, zones } = view p)
    (housed : s.Housed) (steps : Steps K s s') : Keeps view s s' := by
  refine Steps.preserves (P := fun m => Keeps view s m) ?_ ?_ housed (.of_players rfl) steps
  · exact fun _ _ _ before change => before.trans (change.keeps blind)
  · exact fun _ _ _ before harm => before.trans harm.keeps

/-- What changes and harms preserve, and the change of turn too, is preserved by all stages. -/
theorem Stage.preserves {P : Session → Prop}
    (change : ∀ s s', s.Housed → P s → Change K s s' → P s')
    (harm : ∀ s s', s.Housed → P s → Harm s s' → P s')
    (pass : ∀ s s' next now, s.Housed → P s → passTurn now s = .ok next s' → P s')
    (renew : ∀ s s' player wrapped, s.Housed → P s →
      renewEnergy config player wrapped s = .ok () s' → P s')
    (refresh : ∀ s player id, s.Housed → P s → id ∈ s.battlefield player →
      P (s.modifyInstance id CardInstance.refresh))
    (housed : s.Housed) (h : P s) (stage : Stage config K s s') : P s' := by
  cases stage with
  | step step => exact step.preserves change harm housed h
  | pass _ ran => exact pass _ _ _ _ housed h ran
  | renew _ ran => exact renew _ _ _ _ housed h ran
  | refresh _ mem => exact refresh _ _ _ housed h mem

abbrev Stages (config : Config) (K : Catalog) : Session → Session → Prop :=
  ReflTransGen (Stage config K)

/-- A game continues through any number of stages. -/
theorem Stages.continues (housed : s.Housed) (stages : Stages config K s s') :
    Continues K s s' :=
  Continues.of_steps (fun _ _ housed h => Stage.continues housed h) housed stages

/-! ### Status -/

theorem status_finish {loser : Seat} {now : Nat} : (s.finish loser now).status = .finished := by
  unfold finish
  split
  · rename_i halted
    simpa [isFinished] using halted
  · rfl

theorem status_drawCard {now : Nat} {drawn : Option InstanceId}
    (h : drawCard player now s = .ok drawn s') : s'.status = s.status := by
  unfold drawCard at h
  split at h
  · cases h
  · split at h <;> cases h <;> rfl

/-- A change leaves the status as it is or ends the game. -/
theorem Change.status (h : Change K s s') :
    s'.status = s.status ∨ s.status ≠ .finished ∧ s'.status = .finished := by
  cases h with
  | hurt going h =>
    obtain ⟨p, -, -, rfl⟩ := damagePlayer_ok_iff.mp h
    split
    · exact Or.inr ⟨going, status_finish⟩
    · exact Or.inl rfl
  | mend _ h =>
    obtain ⟨p, -, -, rfl⟩ := healPlayer_ok_iff.mp h
    exact Or.inl rfl
  | gain _ h =>
    obtain ⟨p, -, rfl⟩ := gainEnergy_ok_iff.mp h
    exact Or.inl rfl
  | draw _ h => exact Or.inl (status_drawCard h)
  | _ => exact Or.inl rfl

/-- No harm to a permanent ends a game. -/
theorem Harm.status (h : Harm s s') : s'.status = s.status := by
  cases h <;> rfl

end Session

namespace Play

open Session

variable {K : Catalog} {ctx : Context} {t t' : Table} {player : Seat} {u : Unit}

theorem healCreatures_steps (known : ctx.catalog.Within K) {amount : Int}
    (h : Play.healCreatures ctx player amount t = .ok u t') : Steps K t.session t'.session := by
  simp only [Play.healCreatures, bind_ok_iff, check_ok_iff, requireStatus_ok_iff] at h
  obtain ⟨_, _, ⟨playing, rfl⟩, h⟩ := h
  have going : t.session.status ≠ .finished := by
    rw [playing]
    decide
  split at h
  · obtain ⟨_, _, refused, -⟩ := bind_ok_iff.mp h
    exact (throw_ok_iff.mp refused).elim
  · simp only [bind_ok_iff, check_ok_iff, modifyGet_ok_iff] at h
    obtain ⟨p, _, ⟨-, rfl⟩, healed, _, ⟨-, rfl⟩, noted⟩ := h
    exact (Session.healCreatures_steps known player amount going).1.trans
      (change_steps noted (steps_note _ rfl))

/-- What the end of a turn goes through, unless the game ends on the way. -/
theorem endTurn_parts (known : ctx.catalog.Within K) (h : endTurn ctx t = .ok u t') :
    t.session.status = .playing ∧ ∃ s₁, Steps K t.session s₁ ∧
      (s₁.status = .finished ∧ t'.session = s₁ ∨ s₁.status ≠ .finished ∧
        ∃ next s₂ s₃, passTurn (ctx.now s₁) s₁ = .ok next s₂ ∧ Steps K s₂ s₃ ∧
          (s₃.status = .finished ∧ t'.session = s₃ ∨ s₃.status ≠ .finished ∧
            ∃ drawn s₄ s₅, drawCard next.1 (ctx.now s₃) s₃ = .ok drawn s₄ ∧ s₅
              = ((s₄.refreshBattlefield next.1).healCreatures ctx.catalog next.1
                  ctx.config.creatureRegen).2 ∧
              renewEnergy ctx.config next.1 next.2 s₅ = .ok () t'.session)) := by
  have over_iff : ∀ {s : Session}, s.isFinished = true ↔ s.status = .finished := by
    simp [isFinished]
  simp only [endTurn, bind_ok_iff, check_ok_iff, view_ok_iff, requireStatus_ok_iff] at h
  obtain ⟨_, _, ⟨playing, rfl⟩, _, _, ⟨rfl, rfl⟩, p, _, ⟨-, rfl⟩, _, t₁, noted, _, t₂, fired,
    halted, _, ⟨isOver, rfl⟩, h⟩ := h
  refine ⟨playing, t₂.session, (change_steps noted (steps_note _ rfl)).trans
    (fireAll_steps known fired), ?_⟩
  split at h
  · rename_i ended
    obtain ⟨-, rfl⟩ := pure_ok_iff.mp h
    exact Or.inl ⟨over_iff.mp (isOver.trans ended), rfl⟩
  · rename_i goesOn
    have going : t₂.session.status ≠ .finished := fun done =>
      goesOn (isOver.symm.trans (over_iff.mpr done))
    simp only [bind_ok_iff, update_ok_iff, view_ok_iff] at h
    obtain ⟨_, _, ⟨rfl, rfl⟩, next, _, ⟨s₂, passed, rfl⟩, _, t₃, fired', halted', _,
      ⟨isOver', rfl⟩, h⟩ := h
    refine Or.inr ⟨going, next, s₂, t₃.session, passed, fireAll_steps known fired', ?_⟩
    split at h
    · rename_i ended
      obtain ⟨-, rfl⟩ := pure_ok_iff.mp h
      exact Or.inl ⟨over_iff.mp (isOver'.trans ended), rfl⟩
    · rename_i goesOn'
      have going' : t₃.session.status ≠ .finished := fun done =>
        goesOn' (isOver'.symm.trans (over_iff.mpr done))
      simp only [bind_ok_iff, update_ok_iff, change_ok_iff, view_ok_iff] at h
      obtain ⟨_, _, ⟨rfl, rfl⟩, drawn, _, ⟨s₄, draws, rfl⟩, _, _, rfl, _, _, rfl, s₆, renewed,
        rfl⟩ := h
      exact Or.inr ⟨going', drawn, s₄, _, draws, rfl, renewed⟩

/-- The end of a turn passes it to the next seat, unless the game ends before. -/
theorem endTurn_passes (known : ctx.catalog.Within K) (housed : t.session.Housed)
    (h : endTurn ctx t = .ok u t') : Steps K t.session t'.session ∨
      t'.session.current = (t.session.players.nextSeat t.session.current).1 := by
  obtain ⟨-, s₁, first, stops | ⟨-, next, s₂, s₃, passed, second, rest⟩⟩ := endTurn_parts known h
  · rw [stops.2]
    exact Or.inl first
  · have housed₁ := (first.continues housed).housed housed
    have housed₂ := (continues_passTurn (K := K) passed).housed housed₁
    obtain ⟨p, -, seat, rfl⟩ := passTurn_ok_iff.mp passed
    rw [first.nextSeat housed] at seat
    right
    rw [← seat]
    rcases rest with stops | ⟨going, drawn, s₄, s₅, draws, healed, renewed⟩
    · rw [stops.2]
      exact (second.sameTurn housed₂).current
    · have later : Steps K _ s₄ := second.tail (.change (.draw going draws))
      have same : s₅.current = s₄.current := by
        rw [healed, healCreatures_rest, refreshBattlefield_rest]
      rw [(sameTurn_renewEnergy renewed).current, same]
      exact (later.sameTurn housed₂).current

end Play

end CardBattle
