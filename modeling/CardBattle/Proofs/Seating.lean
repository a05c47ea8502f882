import CardBattle.Proofs.DocumentHistory
import CardBattle.Proofs.Starts
import CardBattle.Proofs.StepsAsMotions

/-!
# Seats stay

Nobody joins or leaves a game once it is made, and the player who goes first is settled with the
new game: opening it, playing it and refusing calls on it change neither, whatever the session
looks like.
-/

namespace CardBattle

open Relation

namespace Session

/-- As many seats, and the same player went first. -/
structure SameSeats (s s' : Session) : Prop where
  count : s'.players.count = s.players.count
  starting : s'.starting = s.starting

variable {config : Config} {K : Catalog} {s s' s'' : Session} {player : Seat}

namespace SameSeats

theorem refl (s : Session) : SameSeats s s :=
  ⟨rfl, rfl⟩

/-- Seats that are kept from time to time are kept throughout. -/
theorem trans (h : SameSeats s s') (h' : SameSeats s' s'') : SameSeats s s'' :=
  ⟨h'.count.trans h.count, h'.starting.trans h.starting⟩

/-- Whoever sat at the table still does. -/
theorem present (h : SameSeats s s') {p : Player} (hp : s.player? player = some p) :
    ∃ q, s'.player? player = some q := by
  refine ⟨_, List.getElem?_eq_getElem ?_⟩
  rw [← SeatMap.count, h.count]
  exact (List.getElem?_eq_some_iff.mp hp).1

theorem modifyPlayer (f : Player → Player) : SameSeats s (s.modifyPlayer player f) :=
  ⟨count_modifyPlayer s f, rfl⟩

theorem finish {loser : Seat} {now : Nat} : SameSeats s (s.finish loser now) := by
  rw [Session.finish]
  split
  · exact .refl s
  · exact ⟨rfl, rfl⟩

end SameSeats

/-- Nobody takes or leaves a seat within a turn. -/
theorem Motion.sameSeats (h : Motion K s s') : SameSeats s s' := by
  cases h with
  | write => exact ⟨rfl, rfl⟩
  | hurt h =>
    obtain ⟨p, -, -, rfl⟩ := damagePlayer_ok_iff.mp h
    split
    · exact (SameSeats.modifyPlayer _).trans .finish
    · exact .modifyPlayer _
  | mend h =>
    obtain ⟨p, -, -, rfl⟩ := healPlayer_ok_iff.mp h
    exact .modifyPlayer _
  | gain h =>
    obtain ⟨p, -, rfl⟩ := gainEnergy_ok_iff.mp h
    exact .trans (.modifyPlayer _) ⟨rfl, rfl⟩
  | draw h =>
    have deals := dealing_drawCard _ _ _ _ _ h
    exact ⟨deals.count, deals.starting⟩
  | pay => exact .trans (.modifyPlayer _) ⟨rfl, rfl⟩
  | lay => exact .modifyPlayer _
  | copy => exact ⟨rfl, rfl⟩

theorem Motions.sameSeats (h : Motions K s s') : SameSeats s s' := by
  induction h with
  | refl => exact .refl s
  | tail _ motion ih => exact ih.trans motion.sameSeats

theorem Stage.sameSeats (h : Stage config K s s') : SameSeats s s' := by
  cases h with
  | step h => exact h.motions.sameSeats
  | pass _ h =>
    obtain ⟨p, -, -, rfl⟩ := passTurn_ok_iff.mp h
    exact ⟨rfl, rfl⟩
  | renew _ h =>
    rcases renewEnergy_ok_iff.mp h with ⟨-, rfl⟩ | ⟨-, -, rfl⟩
    · exact ⟨List.length_map _, rfl⟩
    · exact .modifyPlayer _
  | refresh => exact ⟨rfl, rfl⟩

/-- Nobody takes or leaves a seat during play. -/
theorem Stages.sameSeats (h : Stages config K s s') : SameSeats s s' := by
  induction h with
  | refl => exact .refl s
  | tail _ stage ih => exact ih.trans stage.sameSeats

/-- With the last deck the game is opened for the player who is to go first anyway. -/
theorem sameSeats_startGame {ctx : Context} {t t' : Table}
    (h : Play.startGame ctx t.session.starting t = .ok () t') : SameSeats t.session t'.session := by
  obtain ⟨_, t₁, opens, fires⟩ := bind_ok_iff.mp h
  obtain ⟨s', opened, rfl⟩ := Play.update_ok_iff.mp opens
  obtain ⟨-, -, -, m, name, now, deals, rfl⟩ := of_openGame opened
  have played := (Play.fireAll_steps (fun _ _ hd => hd) fires).motions.sameSeats
  exact ⟨played.count.trans deals.count, played.starting⟩

theorem sameSeats_of_effect (h : Call.Effect config K s s') : SameSeats s s' := by
  cases h with
  | handsIn player deck catalog ran =>
    obtain ⟨-, -, -, -, rfl, -⟩ := of_submitDeck ran
    exact .modifyPlayer _
  | opens player deck ctx asked asked' m known ran starts =>
    obtain ⟨-, -, -, -, handed, -⟩ := of_submitDeck ran
    have submitted : SameSeats s m := handed ▸ .modifyPlayer _
    exact submitted.trans (sameSeats_startGame starts)
  | plays playing stages => exact stages.sameSeats

/-- A document keeps its seats. -/
theorem Next.sameSeats (h : Next config K s s') : SameSeats s s' := by
  cases h with
  | accepted m effect => exact (sameSeats_of_effect effect).trans ⟨rfl, rfl⟩
  | refused e failure => exact ⟨rfl, rfl⟩
  | touched => exact ⟨rfl, rfl⟩

end Session

end CardBattle
