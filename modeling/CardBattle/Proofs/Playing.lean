import CardBattle.Engine
import CardBattle.Proofs.Openings

/-!
# What accepted calls do

In a waiting game a call hands in a deck, and with the last deck it opens the game. In a game that
is played every call is a run of stages. A finished game accepts no call.
-/

namespace CardBattle

open Relation

open Session

namespace Play

variable {K : Catalog} {ctx : Context} {t t' : Table} {player : Seat} {u : Unit}

/-- The end of a turn is made of stages of play. -/
theorem endTurn_stages (known : ctx.catalog.Within K) (h : endTurn ctx t = .ok u t') :
    Stages ctx.config K t.session t'.session := by
  obtain ⟨-, s₁, before, ended | ⟨going, next, s₂, s₃, passed, between, rest⟩⟩ :=
    endTurn_parts known h
  · rw [ended.2]
    exact stages_of_steps before
  · have second : Stages ctx.config K t.session s₃ :=
      ((stages_of_steps before).tail (.pass going passed)).trans (stages_of_steps between)
    rcases rest with ended | ⟨going', drawn, s₄, s₅, draws, eq, renewed⟩
    · rw [ended.2]
      exact second
    · have going₄ : s₄.status ≠ .finished := by
        rw [status_drawCard draws]
        exact going'
      have refreshed : Stages ctx.config K s₄ (s₄.refreshBattlefield next.1) :=
        refreshBattlefield_stages next.1 going₄
      have status : (s₄.refreshBattlefield next.1).status = s₄.status := by
        rw [refreshBattlefield_rest]
      obtain ⟨healed, status'⟩ := Session.healCreatures_steps known next.1
        ctx.config.creatureRegen (status ▸ going₄)
      rw [← eq] at healed status'
      have last : s₅.status ≠ .finished := by
        rw [status', status]
        exact going₄
      have drawn := second.trans (stages_of_steps (steps_change (.draw going' draws)))
      exact ((drawn.trans refreshed).trans (stages_of_steps healed)).tail (.renew last renewed)

end Play

namespace Call

variable {config : Config} {K : Catalog} {ctx : Context} {t t' : Table} {call : Call} {u : Unit}

/-- What a call that succeeds makes of a session. -/
inductive Effect (config : Config) (K : Catalog) (s s' : Session) : Prop where
  | handsIn (player : Seat) (deck : List CardId) (catalog : Catalog)
      (ran : submitDeck catalog player deck s = .ok false s')
  | opens (player : Seat) (deck : List CardId) (ctx : Context) (asked asked' : List TargetRequest)
      (m : Session) (known : ctx.catalog.Within K)
      (ran : submitDeck ctx.catalog player deck s = .ok true m)
      (starts : Play.startGame ctx m.starting ⟨m, asked⟩ = .ok () ⟨s', asked'⟩)
  | plays (playing : s.status = .playing) (stages : Stages config K s s')

/-- After the beginning of a game calls are stages of it. -/
theorem Effect.of_begun {s s' : Session} (h : Effect config K s s') (begun : s.status ≠ .waiting) :
    s.status = .playing ∧ Stages config K s s' := by
  cases h with
  | handsIn player deck catalog ran => exact absurd (of_submitDeck ran).1 begun
  | opens player deck ctx asked asked' m known ran starts =>
    exact absurd (of_submitDeck ran).1 begun
  | plays playing stages => exact ⟨playing, stages⟩

/-- In a waiting game a call leaves the game waiting or opens it. -/
theorem Effect.of_waiting {s s' : Session} (definitions : K.Sound) (h : Effect config K s s')
    (before : s.Waiting config) :
    s'.Waiting config ∨ ∃ m : Session, m.Waiting config ∧ Opened K m.starting m s' := by
  cases h with
  | handsIn player deck catalog ran => exact Or.inl (before.submitDeck ran)
  | opens player deck ctx asked asked' m known ran starts =>
    have waiting := before.submitDeck ran
    exact Or.inr ⟨m, waiting, Play.opened_of_startGame known definitions.filed waiting starts⟩
  | plays playing _ =>
    rw [before.status] at playing
    cases playing

/-- A deck that starts a game is handed in while the game waits. -/
theorem waiting_of_play {player : Seat} {deck : List CardId}
    (h : (startWithDeck player deck).play ctx t = .ok u t') : t.session.status = .waiting := by
  obtain ⟨all, t₁, submitted, -⟩ := bind_ok_iff.mp h
  obtain ⟨m, ran, -⟩ := Play.update_ok_iff.mp submitted
  exact (of_submitDeck ran).1

/-- Only decks are handed in, and rematches asked for, where no game is played. -/
theorem playing_of_play (known : ctx.catalog.Within K) (other : call ≠ .rematch)
    (later : ∀ player deck, call ≠ .startWithDeck player deck) (h : call.play ctx t = .ok u t') :
    t.session.status = .playing := by
  cases call with
  | startWithDeck player deck => exact absurd rfl (later player deck)
  | playCard player card =>
    simp only [play, Play.playCard, bind_ok_iff, Play.check_ok_iff] at h
    obtain ⟨_, _, ⟨turn, -⟩, -⟩ := h
    exact (requireTurn_ok_iff.mp turn).1
  | castSpell player card => exact (requireTurn_ok_iff.mp (Play.castSpell_ok_iff.mp h).1).1
  | attackPlayer player attacker target =>
    obtain ⟨⟨d, ready⟩, -⟩ := Play.attackPlayerWith_steps known h
    exact (requireTurn_ok_iff.mp (requireAttacker_ok_iff.mp ready).1).1
  | attackCard player attacker defender =>
    obtain ⟨⟨d, ready⟩, -⟩ := Play.attackCardWith_steps known h
    exact (requireTurn_ok_iff.mp (requireAttacker_ok_iff.mp ready).1).1
  | endTurn player =>
    simp only [play, Play.endTurnOf, bind_ok_iff, Play.check_ok_iff] at h
    obtain ⟨_, _, ⟨turn, -⟩, -⟩ := h
    exact (requireTurn_ok_iff.mp turn).1
  | healCreatures player amount =>
    simp only [play, Play.healCreatures, bind_ok_iff, Play.check_ok_iff, requireStatus_ok_iff] at h
    obtain ⟨_, _, ⟨playing, -⟩, -⟩ := h
    exact playing
  | rematch => exact absurd rfl other

/-- All calls in a game but the end of a turn are steps within the turn. -/
theorem steps_of_play (known : ctx.catalog.Within K) (playing : t.session.status = .playing)
    (sameTurn : ∀ player, call ≠ .endTurn player) (h : call.play ctx t = .ok u t') :
    Steps K t.session t'.session := by
  cases call with
  | startWithDeck player deck =>
    rw [waiting_of_play h] at playing
    cases playing
  | playCard player card => exact Play.playCard_steps known h
  | castSpell player card => exact Play.castSpell_steps known h
  | attackPlayer player attacker target =>
    obtain ⟨⟨d, ready⟩, after⟩ := Play.attackPlayerWith_steps known h
    exact Play.steps_of_attacker ready after
  | attackCard player attacker defender =>
    obtain ⟨⟨d, ready⟩, after⟩ := Play.attackCardWith_steps known h
    exact Play.steps_of_attacker ready after
  | endTurn player => exact absurd rfl (sameTurn player)
  | healCreatures player amount => exact Play.healCreatures_steps known h
  | rematch =>
    obtain ⟨-, rfl⟩ := pure_ok_iff.mp h
    exact .refl

/-- A call that succeeds has one of these effects. -/
theorem effect_of_play (known : ctx.catalog.Within K) (other : call ≠ .rematch)
    (h : call.play ctx t = .ok u t') : Effect ctx.config K t.session t'.session := by
  cases call with
  | startWithDeck player deck =>
    obtain ⟨all, t₁, submitted, h⟩ := bind_ok_iff.mp h
    obtain ⟨m, ran, rfl⟩ := Play.update_ok_iff.mp submitted
    split at h
    · rename_i everyone
      obtain ⟨_, _, viewed, starts⟩ := bind_ok_iff.mp h
      obtain ⟨rfl, rfl⟩ := Play.view_ok_iff.mp viewed
      exact .opens player deck ctx t.asked t'.asked m known (everyone ▸ ran) starts
    · rename_i notYet
      obtain ⟨-, rfl⟩ := pure_ok_iff.mp h
      exact .handsIn player deck ctx.catalog (Bool.eq_false_iff.mpr notYet ▸ ran)
  | endTurn player =>
    obtain ⟨_, _, checked, ended⟩ := bind_ok_iff.mp h
    obtain ⟨turn, rfl⟩ := Play.check_ok_iff.mp checked
    exact .plays (requireTurn_ok_iff.mp turn).1 (Play.endTurn_stages known ended)
  | _ =>
    have playing := playing_of_play known other (by simp) h
    exact .plays playing (stages_of_steps (steps_of_play known playing (by simp) h))

end Call

end CardBattle
