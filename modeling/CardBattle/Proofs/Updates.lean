import CardBattle.Action
import CardBattle.Proofs.Outcomes
import CardBattle.Proofs.SessionViews

/-!
# What updates make of a session

Each update that succeeds leaves the session with a few plain changes: a player or a copy replaced,
a copy carried to another zone, an entry at the end of the log.
-/

namespace CardBattle

namespace Session

variable {s s' : Session} {player : Seat} {id : InstanceId} {now : Nat} {u : Unit}

/-! ### Players -/

/-- Damage is done to a player who is there, and ends the game if no health is left. -/
theorem damagePlayer_ok_iff {amount dealt : Int} : damagePlayer player amount now s = .ok dealt s' ↔
    ∃ p, s.player? player = some p ∧ dealt = p.health - (p.takeDamage amount).health ∧
      s' = if (p.takeDamage amount).isDefeated then
        (s.modifyPlayer player fun _ => p.takeDamage amount).finish player now
      else s.modifyPlayer player fun _ => p.takeDamage amount := by
  unfold damagePlayer
  cases s.player? player with
  | none => simp
  | some p =>
    simp only [EStateM.Result.ok.injEq, Option.some.injEq, exists_eq_left']
    constructor
    · rintro ⟨rfl, rfl⟩
      exact ⟨rfl, rfl⟩
    · rintro ⟨rfl, rfl⟩
      exact ⟨rfl, rfl⟩

theorem healPlayer_ok_iff {amount healed : Int} : healPlayer player amount s = .ok healed s' ↔
    ∃ p, s.player? player = some p ∧ healed = (p.heal amount).health - p.health ∧
      s' = s.modifyPlayer player fun _ => p.heal amount := by
  unfold healPlayer
  cases s.player? player with
  | none => simp
  | some p =>
    simp only [EStateM.Result.ok.injEq, Option.some.injEq, exists_eq_left']
    constructor
    · rintro ⟨rfl, rfl⟩
      exact ⟨rfl, rfl⟩
    · rintro ⟨rfl, rfl⟩
      exact ⟨rfl, rfl⟩

/-- A cost can be paid by those who have as much. -/
theorem payEnergy_ok_iff {cost : Int} : payEnergy player cost s = .ok u s' ↔
    ∃ p, s.player? player = some p ∧ cost ≤ p.energy ∧
      s' = s.modifyPlayer player fun _ => { p with energy := p.energy - max cost 0 } := by
  unfold payEnergy Player.spendEnergy
  cases s.player? player with
  | none => simp
  | some p =>
    by_cases poor : p.energy < cost
    · have short : ¬cost ≤ p.energy := Int.not_le.mpr poor
      simp [poor, short]
    · simp only [poor, if_false, EStateM.Result.ok.injEq, true_and, Option.some.injEq,
        exists_eq_left']
      constructor
      · rintro rfl
        exact ⟨by omega, rfl⟩
      · rintro ⟨-, rfl⟩
        rfl

/-- The entry names the energy gained. -/
theorem gainEnergy_ok_iff {amount : Int} : gainEnergy player amount now s = .ok u s' ↔
    ∃ p, s.player? player = some p ∧
      s' = (s.modifyPlayer player fun _ => p.gainEnergy amount).record
      { player, action := .gainEnergy, amount := some ((p.gainEnergy amount).energy - p.energy)
        description := p.name ++ " gains " ++ toString ((p.gainEnergy amount).energy - p.energy)
          ++ " energy"
        timestamp := now } := by
  unfold gainEnergy
  cases s.player? player with
  | none => simp
  | some p =>
    simp only [EStateM.Result.ok.injEq, true_and, Option.some.injEq, exists_eq_left']
    exact eq_comm

/-! ### Copies -/

theorem sapInstance_ok_iff : sapInstance id s = .ok u s' ↔
    ∃ c, s.instance? id = some c ∧ s' = s.modifyInstance id CardInstance.sap := by
  unfold sapInstance
  cases s.instance? id with
  | none => simp
  | some c =>
    simp only [EStateM.Result.ok.injEq, true_and, Option.some.injEq, exists_eq_left']
    exact eq_comm

/-- A move carries a copy between zones of its owner. -/
theorem of_moveInstance {source destination : Zone}
    (h : moveInstance id source destination s = .ok u s') :
    ∃ c p, s.instance? id = some c ∧ s.player? c.owner = some p ∧ id ∈ p.zones.cards source ∧
      s' = s.setZones c.owner (p.zones.carry id source destination) := by
  unfold moveInstance at h
  split at h
  · cases h
  · rename_i c hc
    split at h
    · cases h
    · rename_i p hp
      split at h
      · rename_i zones moved
        cases h
        obtain ⟨mem, rfl⟩ := Zones.of_move moved
        exact ⟨c, p, hc, hp, mem, rfl⟩
      · cases h
      · cases h

def drawEntry (player : Seat) (description : String) (now : Nat) : LogEntry :=
  { player, action := .drawCard, description, timestamp := now }

/-- A draw carries the top card of the deck to the hand, unless the deck is empty. -/
theorem of_drawCard {drawn : Option InstanceId}
    (apart : ∀ p, s.player? player = some p → p.zones.allInstances.Nodup)
    (h : drawCard player now s = .ok drawn s') :
    ∃ p, s.player? player = some p ∧
      (drawn = none ∧ p.zones.deck = [] ∧
          s' = s.record (drawEntry player (p.name ++ "'s deck is empty") now) ∨
        ∃ id, drawn = some id ∧ p.zones.deck.getLast? = some id ∧ id ∈ p.zones.cards .deck ∧
          s' = (s.setZones player (p.zones.carry id .deck .hand)).record
            (drawEntry player (p.name ++ " draws a card") now)) := by
  unfold drawCard at h
  split at h
  · cases h
  · rename_i p hp
    refine ⟨p, hp, ?_⟩
    split at h
    · rename_i empty
      cases h
      exact Or.inl ⟨rfl, Zones.popTop?_eq_none_iff.mp empty, rfl⟩
    · rename_i id rest popped
      obtain ⟨mem, pushed⟩ := Zones.push_of_popTop (apart p hp) popped
      rw [pushed] at h
      cases h
      exact Or.inr ⟨id, rfl, Zones.getLast?_of_popTop popped, mem, rfl⟩

/-! ### The end of the game -/

theorem finish_of_going {loser : Seat} (going : s.status ≠ .finished) :
    s.finish loser now = { s with status := .finished, winner := s.survivor? loser }.record
      { player := loser, action := .gameEnd
        description := "Player defeated: " ++ s.nameOf loser, timestamp := now } := by
  simp [finish, isFinished, going]

theorem isFinished_eq_false_iff : s.isFinished = false ↔ s.status ≠ .finished := by
  simp [isFinished]

end Session

end CardBattle
