import CardBattle.Proofs.Endings
import CardBattle.Proofs.NewGames

/-!
# Games that end

Seen from outside, a game waits, is played, and is finished, in this order. Nobody is without health
before the end, and at the end exactly one player is. After the end a document gains entries for
refused calls and revisions, and nothing else.
-/

namespace CardBattle

open Relation

/-- What a status may be followed by. -/
inductive Status.Next : Status → Status → Prop where
  | starts : Next .waiting .playing
  | ends : Next .playing .finished

namespace Session

variable {config : Config} {K : Catalog} {s s' : Session} {starting : Seat}

/-! ### Endings during a run -/

theorem Waiting.ending (h : s.Waiting config) (valid : config.fault? = none) : s.Ending where
  many := h.many
  ongoing := by
    intro _
    obtain ⟨health, -⟩ := Config.fault?_eq_none_iff.mp valid
    refine ⟨?_, h.winner, ?_⟩
    · intro seat p hp
      rw [(h.players seat p hp).health]
      omega
    · intro e mem
      rw [h.log e mem]
      decide
  decided := by
    intro finished
    rw [h.status] at finished
    cases finished

/-- Nobody has lost when a game starts. -/
theorem Opened.ending (h : Opened K starting s s') (waiting : s.Waiting config)
    (valid : config.fault? = none) : s'.Ending where
  many := h.count ▸ waiting.many
  ongoing := by
    intro _
    have before := (waiting.ending valid).ongoing (by rw [waiting.status]; decide)
    refine ⟨?_, h.winner.trans before.winner, ?_⟩
    · intro seat q hq
      obtain ⟨p, hp, eq⟩ := h.player?_before hq
      rw [eq]
      exact before.alive seat p hp
    · intro e mem
      rcases h.log e mem with old | drawn | start
      · exact before.log e old
      · rw [drawn]
        decide
      · rw [start]
        decide
  decided := by
    intro finished
    rw [h.status] at finished
    cases finished

/-- Neither a failure entry nor a new revision ends a game. -/
theorem Annotates.ending (h : Annotates s s') (before : s.Ending) : s'.Ending := by
  refine (Spares.of_same h.status h.winner h.players (h.log.mono ?_)).ending before
  rintro action rfl
  decide

/-- The stages of a game keep its ending proper. -/
theorem Stages.ending (housed : s.Housed) (before : s.Ending) (stages : Stages config K s s') :
    s'.Ending := by
  induction stages with
  | refl => exact before
  | tail played stage ih =>
    have housed := (Stages.continues housed played).housed housed
    exact stage.ending housed ih

/-- At every time, a game is finished if and only if it is decided. -/
theorem Reachable.ending (definitions : K.Sound) (h : Reachable config K s) : s.Ending := by
  have valid := h.fault?
  rcases h.cases (P := Ending) definitions
    (fun _ _ _ waiting opened => opened.ending waiting valid)
    (fun _ _ housed before stages => Stages.ending housed before stages)
    (fun _ _ before annotates => annotates.ending before) with waiting | ⟨-, -, ending⟩
  · exact waiting.ending valid
  · exact ending

/-! ### Status during a run -/

/-- A change leaves the status or takes it one step further. -/
theorem Next.status (definitions : K.Sound) (reachable : Reachable config K s)
    (h : Next config K s s') : ReflGen Status.Next s.status s'.status := by
  rcases reachable.cases (P := fun _ => True) definitions (fun _ _ _ _ _ => trivial)
    (fun _ _ _ _ _ => trivial) (fun _ _ _ _ => trivial) with waiting | ⟨housed, begun, -⟩
  · rcases h.of_waiting definitions waiting with waiting' | ⟨m, s₁, -, opened, annotates⟩
    · rw [waiting.status, waiting'.status]
    · rw [waiting.status, annotates.status, opened.status]
      exact .single .starts
  · obtain ⟨m, rfl | ⟨playing, stages⟩, annotates⟩ := h.of_begun begun
    · rw [annotates.status]
    · have begun' := (Stages.begun housed begun stages).2
      rw [annotates.status, playing]
      cases after : m.status with
      | waiting => exact absurd after begun'
      | playing => exact .refl
      | finished => exact .single .ends

theorem Reachable.status_later (definitions : K.Sound) (reachable : Reachable config K s)
    (later : ReflTransGen (Next config K) s s') :
    ReflTransGen Status.Next s.status s'.status := by
  induction later with
  | refl => exact .refl
  | tail before last ih =>
    exact ih.trans (last.status definitions (reachable.tail before)).to_reflTransGen

/-- A finished game stays as it is, apart from refusals and revisions. -/
theorem annotates_of_finished (finished : s.status = .finished)
    (later : ReflTransGen (Next config K) s s') : Annotates s s' := by
  induction later with
  | refl => exact .refl s
  | tail _ last ih => exact ih.trans (last.of_finished (ih.status.trans finished))

end Session

namespace Site

variable {config : Config} {site : Site}

/-- Every document waits, is played and is finished in this order, is decided exactly when it is
finished, and is then changed in its log and its revision only. -/
theorem documents_end_once (new : site.New config) (moves : List Move) {id : SessionId}
    {s : Session} (follows : site.Follows id)
    (found : (site.run moves).world.documents.find? id = some s) :
    s.Ending ∧
      (∀ m, ∃ s', (site.run (moves ++ [m])).world.documents.find? id = some s' ∧
        ReflGen Status.Next s.status s'.status) ∧
      ∀ later, ∃ s', (site.run (moves ++ later)).world.documents.find? id = some s' ∧
        ReflTransGen Status.Next s.status s'.status ∧
        (s.status = .finished → s' = { s with log := s'.log, revision := s'.revision }) := by
  have reachable := new.reachable moves follows (Catalog.Within.refl _) found
  refine ⟨reachable.ending (new.definitions moves), ?_, ?_⟩
  · intro m
    have definitions := new.definitions (moves ++ [m])
    obtain ⟨reachable', -⟩ := new.two_times moves [m] follows found (Catalog.Within.refl _)
    obtain ⟨s', found', once⟩ := new.one_move moves m found (Catalog.Within.refl _)
    refine ⟨s', found', ?_⟩
    cases once with
    | refl => exact .refl
    | single next => exact next.status definitions reachable'
  · intro later
    have definitions := new.definitions (moves ++ later)
    obtain ⟨reachable', s', found', changes⟩ :=
      new.two_times moves later follows found (Catalog.Within.refl _)
    refine ⟨s', found', reachable'.status_later definitions changes, ?_⟩
    exact fun finished => (Session.annotates_of_finished finished changes).rest

theorem duel_ends : ∃ s s', (duel.run hunt).world.documents.find? ⟨1⟩ = some s ∧
    s.status = .finished ∧ s.Ending ∧
    (duel.run (hunt ++ [.call (.endTurn ⟨0⟩)])).world.documents.find? ⟨1⟩ = some s' ∧
    s' = { s with log := s'.log, revision := s'.revision } := by
  obtain ⟨s, found, finished⟩ := Option.map_eq_some_iff.mp status_hunt
  obtain ⟨ending, -, later⟩ := documents_end_once duel_new hunt (Nat.le_refl 1) found
  obtain ⟨s', found', -, frozen⟩ := later [.call (.endTurn ⟨0⟩)]
  exact ⟨s, s', found, finished, ending, found', frozen finished⟩

end Site

end CardBattle
