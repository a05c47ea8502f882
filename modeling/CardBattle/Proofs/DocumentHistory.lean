import CardBattle.Proofs.Playing

/-!
# The history of a document

A document is born as a waiting game, or as the opened game of a rematch. From then on each change
takes over what an accepted call made of it, logs a refused call, or does no more than raise the
revision. What holds at every opening and survives every stage therefore holds of every document
whose game has begun.
-/

namespace CardBattle

open Relation

namespace Session

/-- One change of a document. -/
inductive Next (config : Config) (K : Catalog) (s : Session) : Session → Prop where
  | accepted (m : Session) (effect : Call.Effect config K s m) :
      Next config K s { m with revision := s.revision + 1 }
  | refused (e : LogEntry) (failure : e.action = .failure) :
      Next config K s { s.record e with revision := s.revision + 1 }
  | touched : Next config K s { s with revision := s.revision + 1 }

inductive Born (config : Config) (K : Catalog) (s : Session) : Prop where
  | named (names : List String) (made : ofNames names config = .ok s)
  | replayed (previous fresh : Session) (starting : Seat) (ctx : Context)
      (asked asked' : List TargetRequest) (known : ctx.catalog.Within K)
      (made : @rematch ctx.random previous config = .ok (fresh, starting))
      (starts : Play.startGame ctx starting ⟨fresh, asked⟩ = .ok () ⟨s, asked'⟩)

/-- What a document may look like at some time. -/
def Reachable (config : Config) (K : Catalog) (s : Session) : Prop :=
  ∃ first, Born config K first ∧ ReflTransGen (Next config K) first s

/-- Two sessions that differ in their revision and in failure entries only. -/
structure Annotates (s s' : Session) : Prop where
  rest : s' = { s with log := s'.log, revision := s'.revision }
  log : Logs (· = .failure) s s'

variable {config : Config} {K : Catalog} {s s' : Session}

namespace Annotates

theorem refl (s : Session) : Annotates s s :=
  ⟨rfl, .of_same rfl⟩

theorem revision (s : Session) (n : Nat) : Annotates s { s with revision := n } :=
  ⟨rfl, .of_same rfl⟩

theorem refusal (e : LogEntry) (failure : e.action = .failure) (n : Nat) :
    Annotates s { s.record e with revision := n } :=
  ⟨rfl, .of_entry rfl failure⟩

theorem trans {s'' : Session} (h : Annotates s s') (h' : Annotates s' s'') : Annotates s s'' := by
  refine ⟨?_, h.log.trans h'.log⟩
  rw [h'.rest, h.rest]

theorem players (h : Annotates s s') : s'.players = s.players := by
  rw [h.rest]

theorem instances (h : Annotates s s') : s'.instances = s.instances := by
  rw [h.rest]

theorem nextId (h : Annotates s s') : s'.nextId = s.nextId := by
  rw [h.rest]

theorem status (h : Annotates s s') : s'.status = s.status := by
  rw [h.rest]

theorem current (h : Annotates s s') : s'.current = s.current := by
  rw [h.rest]

theorem winner (h : Annotates s s') : s'.winner = s.winner := by
  rw [h.rest]

/-- Failure entries and revisions do not interrupt a game. -/
theorem continues (h : Annotates s s') : Continues K s s' :=
  .of_same h.players h.instances h.nextId

theorem player? (h : Annotates s s') (player : Seat) : s'.player? player = s.player? player := by
  rw [Session.player?, h.players]
  rfl

theorem instance? (h : Annotates s s') (id : InstanceId) : s'.instance? id = s.instance? id := by
  rw [Session.instance?, h.instances]
  rfl

theorem zoneOf? (h : Annotates s s') (id : InstanceId) : s'.zoneOf? id = s.zoneOf? id :=
  zoneOf?_congr (by rw [h.instance?]) fun seat => by rw [h.player?]

/-- A game that waits goes on waiting when failures are logged. -/
theorem waiting (h : Annotates s s') (before : s.Waiting config) : s'.Waiting config where
  status := h.status.trans before.status
  few := h.players.symm ▸ before.few
  many := h.players.symm ▸ before.many
  players := fun seat p hp => before.players seat p (h.player? seat ▸ hp)
  current := h.current.trans before.current
  starting := by
    rw [h.rest]
    exact before.starting
  turn := by
    rw [h.rest]
    exact before.turn
  winner := h.winner.trans before.winner
  instances := h.instances.trans before.instances
  nextId := h.nextId.trans before.nextId
  log := by
    intro e mem
    rcases h.log.of_mem mem with old | failure
    · exact before.log e old
    · exact failure

end Annotates

/-! ### One change -/

/-- The next state of a waiting document is a waiting or an opened game. -/
theorem Next.of_waiting (definitions : K.Sound) (before : s.Waiting config)
    (h : Next config K s s') : s'.Waiting config ∨
      ∃ m s₁, m.Waiting config ∧ Opened K m.starting m s₁ ∧ Annotates s₁ s' := by
  cases h with
  | accepted m effect =>
    rcases effect.of_waiting definitions before with waiting | ⟨m₁, waiting, opened⟩
    · exact Or.inl ((Annotates.revision m _).waiting waiting)
    · exact Or.inr ⟨m₁, m, waiting, opened, .revision m _⟩
  | refused e failure => exact Or.inl ((Annotates.refusal e failure _).waiting before)
  | touched => exact Or.inl ((Annotates.revision s _).waiting before)

/-- The next state of a document whose game has begun. -/
theorem Next.of_begun (begun : s.status ≠ .waiting) (h : Next config K s s') :
    ∃ m, (m = s ∨ s.status = .playing ∧ Stages config K s m) ∧ Annotates m s' := by
  cases h with
  | accepted m effect =>
    obtain ⟨playing, stages⟩ := effect.of_begun begun
    exact ⟨m, Or.inr ⟨playing, stages⟩, .revision m _⟩
  | refused e failure => exact ⟨s, Or.inl rfl, .refusal e failure _⟩
  | touched => exact ⟨s, Or.inl rfl, .revision s _⟩

/-- A document of a finished game changes in its revision and by failure entries only. -/
theorem Next.of_finished (finished : s.status = .finished) (h : Next config K s s') :
    Annotates s s' := by
  obtain ⟨m, rfl | ⟨playing, -⟩, annotates⟩ := h.of_begun (by rw [finished]; decide)
  · exact annotates
  · rw [finished] at playing
    cases playing

/-! ### All changes -/

/-- A game that has begun stays begun. -/
theorem Stages.begun (housed : s.Housed) (begun : s.status ≠ .waiting)
    (stages : Stages config K s s') : s'.Housed ∧ s'.status ≠ .waiting := by
  induction stages with
  | refl => exact ⟨housed, begun⟩
  | tail _ last ih =>
    obtain ⟨housed, begun⟩ := ih
    refine ⟨(last.continues housed).housed housed, ?_⟩
    refine Stage.preserves (P := fun s => s.status ≠ .waiting) ?_ ?_ ?_ ?_ ?_ housed begun last
    · intro s s' _ begun change
      rcases change.status with same | ⟨-, finished⟩
      · rwa [same]
      · rw [finished]
        decide
    · intro s s' _ begun harm
      rwa [harm.status]
    · intro s s' next now _ begun ran
      obtain ⟨p, -, -, rfl⟩ := passTurn_ok_iff.mp ran
      exact begun
    · intro s s' player wrapped _ begun ran
      rcases renewEnergy_ok_iff.mp ran with ⟨-, rfl⟩ | ⟨-, -, rfl⟩
      · exact begun
      · exact begun
    · intro s player id _ begun _
      exact begun

/-- A document is a waiting game, or its game has begun and satisfies whatever openings establish
and stages preserve. -/
theorem Reachable.cases {P : Session → Prop} (definitions : K.Sound)
    (opened : ∀ m s' starting, m.Waiting config → Opened K starting m s' → P s')
    (stages : ∀ s s', s.Housed → P s → Stages config K s s' → P s')
    (annotated : ∀ s s', P s → Annotates s s' → P s') (h : Reachable config K s) :
    s.Waiting config ∨ s.Housed ∧ s.status ≠ .waiting ∧ P s := by
  have start : ∀ {m s' starting}, m.Waiting config → Opened K starting m s' →
      s'.Housed ∧ s'.status ≠ .waiting ∧ P s' := by
    intro m s' starting waiting opening
    refine ⟨opening.dealt.housed, ?_, opened m s' starting waiting opening⟩
    rw [opening.status]
    decide
  have annotate : ∀ {s s' : Session}, s.Housed ∧ s.status ≠ .waiting ∧ P s → Annotates s s' →
      s'.Housed ∧ s'.status ≠ .waiting ∧ P s' := by
    rintro s s' ⟨housed, begun, property⟩ annotates
    exact ⟨(annotates.continues (K := K)).housed housed, annotates.status.symm ▸ begun,
      annotated s s' property annotates⟩
  obtain ⟨first, born, changes⟩ := h
  induction changes with
  | refl =>
    cases born with
    | named names made => exact Or.inl (waiting_ofNames made)
    | replayed previous fresh starting ctx asked asked' known made starts =>
      have waiting := (waiting_rematch made).2.1
      exact Or.inr (start waiting (Play.opened_of_startGame known definitions.filed waiting starts))
  | tail _ last ih =>
    rcases ih with waiting | ⟨housed, begun, property⟩
    · rcases last.of_waiting definitions waiting with waiting' | ⟨m, s₁, waiting', opening, after⟩
      · exact Or.inl waiting'
      · exact Or.inr (annotate (start waiting' opening) after)
    · obtain ⟨m, rfl | ⟨-, played⟩, after⟩ := last.of_begun begun
      · exact Or.inr (annotate ⟨housed, begun, property⟩ after)
      · obtain ⟨housed', begun'⟩ := Stages.begun housed begun played
        exact Or.inr (annotate ⟨housed', begun', stages _ m housed property played⟩ after)

theorem Reachable.tail (h : Reachable config K s) (later : ReflTransGen (Next config K) s s') :
    Reachable config K s' := by
  obtain ⟨first, born, changes⟩ := h
  exact ⟨first, born, changes.trans later⟩

end Session

end CardBattle
