import CardBattle.Proofs.Playing
import CardBattle.Proofs.Starts
import CardBattle.Proofs.StepsAsMotions

/-!
# Calls only write into the log

Whatever the session looks like, a call that succeeds leaves every entry of the log where it was,
and adds others at the end. Only success counts: what a failed call did is thrown away.
-/

namespace CardBattle

open Relation

namespace Session

variable {K : Catalog} {config : Config} {s s' : Session}

/-- A log that entries were added to begins with the old log. -/
theorem Logs.log_prefix {allowed : LogAction → Prop} (h : Logs allowed s s') :
    s.log <+: s'.log := by
  obtain ⟨entries, log, -⟩ := h
  exact ⟨entries, log.symm⟩

theorem log_prefix_record (e : LogEntry) : s.log <+: (s.record e).log :=
  List.prefix_append _ _

theorem log_prefix_openGame {ctx : Context} {starting : Seat} {u : Unit}
    (h : openGame ctx starting s = .ok u s') : s.log <+: s'.log := by
  obtain ⟨-, -, -, m, name, now, deals, rfl⟩ := of_openGame h
  have dealt : s.log <+: m.log := deals.log.log_prefix
  exact dealt.trans (log_prefix_record (s := m) _)

/-! ### The turns of a game -/

theorem Stage.logs (h : Stage config K s s') : Logs (fun _ => True) s s' := by
  cases h with
  | step h => exact h.motions.logs
  | pass _ h =>
    obtain ⟨p, -, -, rfl⟩ := passTurn_ok_iff.mp h
    exact .of_entry rfl trivial
  | renew _ h =>
    rcases renewEnergy_ok_iff.mp h with ⟨-, rfl⟩ | ⟨-, -, rfl⟩
    · exact .of_same rfl
    · exact .of_same rfl
  | refresh => exact .of_same rfl

/-- The stages of a game only ever add to its log. -/
theorem Stages.logs (h : Stages config K s s') : Logs (fun _ => True) s s' := by
  induction h with
  | refl => exact .of_same rfl
  | tail _ stage ih => exact ih.trans stage.logs

end Session

open Session

theorem Play.log_prefix_startGame {ctx : Context} {starting : Seat} {t t' : Table}
    (h : startGame ctx starting t = .ok () t') : t.session.log <+: t'.session.log := by
  obtain ⟨_, t₁, opens, fires⟩ := bind_ok_iff.mp h
  obtain ⟨s', opened, rfl⟩ := update_ok_iff.mp opens
  have steps := fireAll_steps (fun _ _ hd => hd) fires
  exact (log_prefix_openGame opened).trans steps.motions.logs.log_prefix

/-- A call that succeeds only writes into the log. -/
theorem Call.log_prefix_play {call : Call} {ctx : Context} {t t' : Table}
    (h : call.play ctx t = .ok () t') : t.session.log <+: t'.session.log := by
  by_cases again : call = .rematch
  · subst again
    obtain ⟨-, rfl⟩ := pure_ok_iff.mp h
    exact List.prefix_rfl
  · have effect := effect_of_play (fun _ _ hd => hd) again h
    cases effect with
    | handsIn player deck catalog ran =>
      obtain ⟨-, -, -, -, same, -⟩ := of_submitDeck ran
      rw [same]
      exact List.prefix_rfl
    | opens player deck ctx asked asked' m known ran starts =>
      obtain ⟨-, -, -, -, same, -⟩ := of_submitDeck ran
      have opened := Play.log_prefix_startGame starts
      rwa [same] at opened
    | plays playing stages => exact stages.logs.log_prefix

end CardBattle
