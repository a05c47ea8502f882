import CardBattle.Proofs.LogGrowth
import CardBattle.Proofs.TurnSteps

/-!
# The end of a game

While a game goes on everyone has health left. The blow that takes a player's last health ends the
game at once, and no blow comes after it, so that a finished game has one loser, one entry that says
so, and the first of the other seats as its winner.
-/

namespace CardBattle

namespace Session

structure Ongoing (s : Session) : Prop where
  alive : ∀ seat p, s.player? seat = some p → 1 ≤ p.health
  winner : s.winner = none
  log : ∀ e ∈ s.log, e.action ≠ .gameEnd

/-- One player has lost. -/
structure Decided (s : Session) (loser : Seat) : Prop where
  lost : ∃ p, s.player? loser = some p ∧ p.health = 0
  others : ∀ seat p, s.player? seat = some p → seat ≠ loser → 1 ≤ p.health
  log : ∃ e, s.log.filter (fun e => decide (e.action = .gameEnd)) = [e] ∧ e.player = loser
  winner : ∃ seat, s.winner = some seat ∧ seat ≠ loser ∧ (∃ p, s.player? seat = some p) ∧
    ∀ other p, s.player? other = some p → other ≠ loser → seat.index ≤ other.index

/-- A game is decided when it is finished, and not before. -/
structure Ending (s : Session) : Prop where
  many : 2 ≤ s.players.count
  ongoing : s.status ≠ .finished → s.Ongoing
  decided : s.status = .finished → ∃ loser, s.Decided loser

variable {config : Config} {K : Catalog} {s s' : Session} {player : Seat}

/-! ### Changes that hurt nobody -/

structure Spares (s s' : Session) : Prop where
  status : s'.status = s.status
  winner : s'.winner = s.winner
  count : s'.players.count = s.players.count
  health : ∀ seat, (s'.player? seat).map (·.health) = (s.player? seat).map (·.health)
  log : Logs (· ≠ .gameEnd) s s'

namespace Spares

theorem of_player? (h : Spares s s') {q : Player} (hq : s'.player? player = some q) :
    ∃ p, s.player? player = some p ∧ q.health = p.health := by
  have same := h.health player
  rw [hq] at same
  obtain ⟨p, hp, eq⟩ := Option.map_eq_some_iff.mp same.symm
  exact ⟨p, hp, eq.symm⟩

theorem player? (h : Spares s s') {p : Player} (hp : s.player? player = some p) :
    ∃ q, s'.player? player = some q ∧ q.health = p.health := by
  have same := h.health player
  rw [hp] at same
  exact Option.map_eq_some_iff.mp same

/-- What spares all that an ending is about keeps the ending proper. -/
theorem ending (h : Spares s s') (before : s.Ending) : s'.Ending where
  many := h.count ▸ before.many
  ongoing := by
    intro going
    have was := before.ongoing (h.status ▸ going)
    refine ⟨?_, h.winner.trans was.winner, ?_⟩
    · intro seat q hq
      obtain ⟨p, hp, eq⟩ := h.of_player? hq
      exact eq ▸ was.alive seat p hp
    · intro e mem
      rcases h.log.of_mem mem with old | quiet
      · exact was.log e old
      · exact quiet
  decided := by
    intro finished
    obtain ⟨loser, was⟩ := before.decided (h.status ▸ finished)
    refine ⟨loser, ?_, ?_, ?_, ?_⟩
    · obtain ⟨p, hp, dead⟩ := was.lost
      obtain ⟨q, hq, eq⟩ := h.player? hp
      exact ⟨q, hq, eq.trans dead⟩
    · intro seat q hq ne
      obtain ⟨p, hp, eq⟩ := h.of_player? hq
      exact eq ▸ was.others seat p hp ne
    · rw [h.log.filter_eq]
      exact was.log
    · obtain ⟨seat, wins, ne, ⟨p, hp⟩, first⟩ := was.winner
      obtain ⟨q, hq, -⟩ := h.player? hp
      refine ⟨seat, h.winner.trans wins, ne, ⟨q, hq⟩, ?_⟩
      intro other r hr
      obtain ⟨r', hr', -⟩ := h.of_player? hr
      exact first other r' hr'

theorem of_same (status : s'.status = s.status) (winner : s'.winner = s.winner)
    (players : s'.players = s.players) (log : Logs (· ≠ .gameEnd) s s') : Spares s s' where
  status := status
  winner := winner
  count := by rw [players]
  health := by
    intro seat
    rw [Session.player?, players]
    rfl
  log := log

/-- What two changes spare, they spare together. -/
theorem trans {s'' : Session} (h : Spares s s') (h' : Spares s' s'') : Spares s s'' where
  status := h'.status.trans h.status
  winner := h'.winner.trans h.winner
  count := h'.count.trans h.count
  health := fun seat => (h'.health seat).trans (h.health seat)
  log := h.log.trans h'.log

theorem record {e : LogEntry} (quiet : e.action ≠ .gameEnd) : Spares s (s.record e) :=
  of_same rfl rfl rfl (.of_entry rfl quiet)

theorem modifyInstance {id : InstanceId} {f : CardInstance → CardInstance} :
    Spares s (s.modifyInstance id f) :=
  of_same rfl rfl rfl (.of_same rfl)

theorem modifyPlayer {f : Player → Player}
    (keeps : ∀ p, s.player? player = some p → (f p).health = p.health) :
    Spares s (s.modifyPlayer player f) where
  status := rfl
  winner := rfl
  count := count_modifyPlayer _ _
  health := by
    intro seat
    by_cases same : player = seat
    · subst same
      rw [player?_modifyPlayer_self]
      cases hp : s.player? player with
      | none => rfl
      | some p => simp [keeps p hp]
    · rw [player?_modifyPlayer_of_ne _ _ same]
  log := .of_same rfl

theorem charge {cost : Int} : Spares s (s.charge player cost) :=
  modifyPlayer fun _ _ => rfl

end Spares

/-! ### The last blow -/

/-- The opponents of a player are all other players. -/
theorem mem_opponents_iff (few : s.players.count < Seat.bound) {seat other : Seat} :
    seat ∈ s.opponents other ↔ (∃ p, s.player? seat = some p) ∧ seat ≠ other := by
  rw [opponents, List.mem_filter, mem_seats_iff few, ← SeatMap.contains_iff, contains_iff_player?]
  simp

/-- With two players or more, everyone has an opponent. -/
theorem exists_opponent (few : s.players.count < Seat.bound) (many : 2 ≤ s.players.count)
    (player : Seat) : ∃ seat, seat ∈ s.opponents player := by
  obtain ⟨seat, inside, ne⟩ : ∃ seat : Seat, seat.index < s.players.count ∧ seat ≠ player := by
    by_cases first : player = ⟨0⟩
    · exact ⟨⟨1⟩, by simp only; omega, by rw [first]; decide⟩
    · exact ⟨⟨0⟩, by simp only; omega, fun same => first same.symm⟩
  have present := contains_iff_player?.mp ((SeatMap.contains_iff _ _).mpr inside)
  exact ⟨seat, (mem_opponents_iff few).mpr ⟨present, ne⟩⟩

/-- When all others have health left, the first of them survives. -/
theorem survivor?_spec {loser : Seat} (few : s.players.count < Seat.bound)
    (many : 2 ≤ s.players.count)
    (others : ∀ seat p, s.player? seat = some p → seat ≠ loser → 1 ≤ p.health) :
    ∃ seat, s.survivor? loser = some seat ∧ seat ≠ loser ∧ (∃ p, s.player? seat = some p) ∧
      ∀ other p, s.player? other = some p → other ≠ loser → seat.index ≤ other.index := by
  have standing : ∀ seat ∈ s.opponents loser, ∃ p, s.player? seat = some p ∧
      p.isDefeated = false := by
    intro seat mem
    obtain ⟨⟨p, hp⟩, ne⟩ := (mem_opponents_iff few).mp mem
    have health := others seat p hp ne
    refine ⟨p, hp, ?_⟩
    simp only [Player.isDefeated, decide_eq_false_iff_not]
    omega
  have sorted : (s.opponents loser).Pairwise fun a b => a.index < b.index :=
    pairwise_seats.filter _
  cases found : s.survivor? loser with
  | none =>
    obtain ⟨seat, present⟩ := exists_opponent few many loser
    obtain ⟨p, hp, stands⟩ := standing seat present
    have down := List.find?_eq_none.mp found seat present
    simp [hp, stands] at down
  | some seat =>
    obtain ⟨_, before, after, split, skipped⟩ := List.find?_eq_some_iff_append.mp found
    have first : before = [] := by
      apply List.eq_nil_iff_forall_not_mem.mpr
      intro a mem
      obtain ⟨p, hp, stands⟩ := standing a (split ▸ List.mem_append_left _ mem)
      have down := skipped a mem
      simp [hp, stands] at down
    subst first
    rw [List.nil_append] at split
    obtain ⟨inside, ne⟩ := (mem_opponents_iff few).mp (split ▸ List.mem_cons_self)
    refine ⟨seat, rfl, ne, inside, ?_⟩
    intro other p hp ne'
    have mem := (mem_opponents_iff few).mpr ⟨⟨p, hp⟩, ne'⟩
    rw [split] at mem sorted
    rcases List.mem_cons.mp mem with rfl | later
    · exact Nat.le_refl _
    · exact Nat.le_of_lt ((List.pairwise_cons.mp sorted).1 other later)

theorem filter_log_record_end (none : ∀ e ∈ s.log, e.action ≠ .gameEnd) {e : LogEntry}
    (ends : e.action = .gameEnd) :
    (s.record e).log.filter (fun e => decide (e.action = .gameEnd)) = [e] := by
  have before : s.log.filter (fun e => decide (e.action = .gameEnd)) = [] := by
    rw [List.filter_eq_nil_iff]
    intro e mem
    simpa using none e mem
  rw [log_record, List.filter_append, before]
  simp [ends]

/-- Damage ends a game properly or leaves it going. -/
theorem ending_damagePlayer (few : s.players.count < Seat.bound) (before : s.Ending)
    (going : s.status ≠ .finished) {amount dealt : Int} {now : Nat}
    (ran : damagePlayer player amount now s = .ok dealt s') : s'.Ending := by
  have was := before.ongoing going
  obtain ⟨p, hp, -, rfl⟩ := damagePlayer_ok_iff.mp ran
  have count : (s.modifyPlayer player fun _ => p.takeDamage amount).players.count
      = s.players.count := count_modifyPlayer _ _
  have others : ∀ seat q,
      (s.modifyPlayer player fun _ => p.takeDamage amount).player? seat = some q →
        seat ≠ player → 1 ≤ q.health := by
    intro seat q hq ne
    obtain ⟨r, hr, ⟨rfl, -⟩ | ⟨-, same⟩⟩ := of_player?_modifyPlayer hq
    · exact was.alive seat q hr
    · exact absurd same.symm ne
  have self : (s.modifyPlayer player fun _ => p.takeDamage amount).player? player
      = some (p.takeDamage amount) := by
    rw [player?_modifyPlayer_self, hp]
    rfl
  have nonneg := p.takeDamage_nonneg amount
  by_cases dead : (p.takeDamage amount).isDefeated = true
  · rw [if_pos dead, finish_of_going (by exact going)]
    have zero : (p.takeDamage amount).health = 0 := by
      simp only [Player.isDefeated, decide_eq_true_eq] at dead
      omega
    refine ⟨count.symm ▸ before.many, fun h => absurd rfl h, fun _ => ⟨player, ?_, others, ?_, ?_⟩⟩
    · exact ⟨_, self, zero⟩
    · exact ⟨_, filter_log_record_end was.log rfl, rfl⟩
    · exact survivor?_spec (count.symm ▸ few) (count.symm ▸ before.many) others
  · rw [if_neg dead]
    refine ⟨count.symm ▸ before.many, fun _ => ⟨?_, was.winner, was.log⟩, fun h => absurd h going⟩
    intro seat q hq
    by_cases same : seat = player
    · subst same
      cases self.symm.trans hq
      simp only [Player.isDefeated, decide_eq_true_eq] at dead
      omega
    · exact others seat q hq same

/-! ### Every stage -/

theorem spares_drawCard {now : Nat} {drawn : Option InstanceId}
    (ran : drawCard player now s = .ok drawn s') : Spares s s' := by
  unfold drawCard at ran
  split at ran
  · cases ran
  · split at ran
    · cases ran
      refine .record ?_
      simp
    · cases ran
      refine .trans ?_ (.record ?_)
      · exact .modifyPlayer fun _ _ => rfl
      · simp

/-- A single change ends a game properly or not at all. -/
theorem Change.ending (housed : s.Housed) (before : s.Ending) (h : Change K s s') : s'.Ending := by
  cases h with
  | note e plain =>
    refine (Spares.record ?_).ending before
    intro ends
    rw [ends] at plain
    cases plain
  | hurt going ran => exact ending_damagePlayer housed.few before going ran
  | mend going ran =>
    obtain ⟨p, hp, -, rfl⟩ := healPlayer_ok_iff.mp ran
    have was := before.ongoing going
    refine ⟨(count_modifyPlayer s _).symm ▸ before.many, fun _ => ⟨?_, was.winner, was.log⟩,
      fun h => absurd h going⟩
    intro seat q hq
    obtain ⟨r, hr, ⟨rfl, -⟩ | ⟨rfl, rfl⟩⟩ := of_player?_modifyPlayer hq
    · exact was.alive seat q hr
    · exact Int.le_trans (was.alive _ p hp) (p.health_le_heal _)
  | gain _ ran =>
    obtain ⟨p, hp, rfl⟩ := gainEnergy_ok_iff.mp ran
    refine ((Spares.modifyPlayer ?_).trans (.record (by simp))).ending before
    intro q hq
    cases hp.symm.trans hq
    rfl
  | draw _ ran => exact (spares_drawCard ran).ending before
  | heal => exact Spares.modifyInstance.ending before
  | sap => exact Spares.modifyInstance.ending before
  | enter _ _ _ _ _ _ _ _ action _ =>
    refine Spares.ending ?_ before
    refine Spares.trans ?_ (.record (by simp [action]))
    exact (Spares.charge.trans .modifyInstance).trans (.modifyPlayer fun _ _ => rfl)
  | cast _ _ _ _ _ _ _ _ action _ =>
    refine Spares.ending ?_ before
    refine Spares.trans ?_ (.record (by simp [action]))
    exact Spares.charge.trans (.modifyPlayer fun _ _ => rfl)
  | bury _ _ _ _ _ action =>
    refine Spares.ending ?_ before
    refine Spares.trans ?_ (.record (by simp [action]))
    exact Spares.modifyInstance.trans (Spares.modifyPlayer fun _ _ => rfl)

theorem Harm.ending (before : s.Ending) (h : Harm s s') : s'.Ending := by
  cases h <;> exact Spares.modifyInstance.ending before

/-- A stage of play ends a game properly or not at all. -/
theorem Stage.ending (housed : s.Housed) (before : s.Ending) (h : Stage config K s s') :
    s'.Ending := by
  refine Stage.preserves (fun _ _ housed before h => h.ending housed before)
    (fun _ _ _ before h => h.ending before) ?_ ?_ ?_ housed before h
  · intro s s' next now _ before ran
    obtain ⟨p, -, -, rfl⟩ := passTurn_ok_iff.mp ran
    refine Spares.ending ?_ before
    exact .of_same rfl rfl rfl (.of_entry rfl (by simp))
  · intro s s' player wrapped _ before ran
    refine Spares.ending ?_ before
    rcases renewEnergy_ok_iff.mp ran with ⟨-, rfl⟩ | ⟨-, -, rfl⟩
    · refine ⟨rfl, rfl, by simp [SeatMap.map, SeatMap.count], ?_, .of_same rfl⟩
      intro seat
      rw [player?_map, Option.map_map]
      rfl
    · exact .modifyPlayer fun _ _ => rfl
  · intro s player id _ before _
    exact Spares.modifyInstance.ending before

end Session

end CardBattle
