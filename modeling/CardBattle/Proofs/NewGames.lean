import CardBattle.Proofs.SiteRuns
import CardBattle.Random.Shuffle

/-!
# Runs from a new game

A run begins when an engine has just made a new game. From then on the document of that game, and
every document made later, has a history that started at a birth with the same sound settings. The
definitions that the history relies on are those in the cache at the end of the run.
-/

namespace CardBattle

open Relation

/-- What a configuration has to satisfy for a game to be played by it. -/
theorem Config.fault?_eq_none_iff {c : Config} : c.fault? = none ↔
    0 < c.startingHealth ∧ (0 ≤ c.startingEnergy ∧ 0 ≤ c.energyPerRound ∧ 0 ≤ c.creatureRegen) ∧
      c.startingEnergy ≤ c.maxEnergyCap ∧ 0 < c.stepBudget ∧ 0 < c.maxDepth := by
  unfold fault?
  split
  · simp only [reduceCtorEq, false_iff]
    omega
  · split
    · simp only [reduceCtorEq, false_iff]
      omega
    · split
      · simp only [reduceCtorEq, false_iff]
        omega
      · split
        · simp only [reduceCtorEq, false_iff]
          omega
        · simp only [true_iff]
          omega

/-- Only settings without fault give birth to a document. -/
theorem Session.Born.fault? {config : Config} {K : Catalog} {s : Session}
    (h : Session.Born config K s) : config.fault? = none := by
  cases h with
  | named names made => exact (ofNames_ok_iff.mp made).1
  | replayed previous fresh starting ctx asked asked' known made starts =>
    exact (waiting_rematch made).2.2.2

/-- Games are only played by configurations without a fault. -/
theorem Session.Reachable.fault? {config : Config} {K : Catalog} {s : Session}
    (h : Session.Reachable config K s) : config.fault? = none := by
  obtain ⟨first, born, -⟩ := h
  exact born.fault?

/-- A new game is made if names and configuration allow a first session. -/
theorem Engine.newGame_ok_iff {random : Random.Source} {names : List String} {config : Config}
    {source : DefinitionSource} {chooser : Chooser} {w w' : World} {e : Engine} :
    newGame names config source chooser w = .ok (e, w') ↔
      ∃ s, Session.ofNames names config = .ok s ∧
        e = ⟨(w.documents.create s).1, config, source, chooser⟩ ∧
        w' = { w with documents := (w.documents.create s).2 } := by
  unfold newGame
  cases Session.ofNames names config with
  | error error => simp
  | ok s => simp [eq_comm]

namespace Site

/-- The sites where an engine has just made a new game. -/
inductive New (config : Config) : Site → Prop where
  | made {random : Random.Source} {names : List String} {source : DefinitionSource}
    {chooser : Chooser} {w w' : World} {e : Engine} (cache : w.definitions.Reached)
    (new : Engine.newGame names config source chooser w = .ok (e, w')) : New config ⟨e, w'⟩

def duel : Site where
  engine :=
    { document := ⟨1⟩, config := { startingHealth := 2 }, chooser := .first
      source := .ofCatalog (.ofList [.creature ⟨1⟩ "Wolf" 1 2 2]) }
  world :=
    { definitions := .empty, clock := .still 0, asked := []
      documents := (DocumentStore.empty.create {
        status := .waiting
        players := ⟨[.ofConfig ⟨0⟩ "Ann" { startingHealth := 2 },
          .ofConfig ⟨1⟩ "Bob" { startingHealth := 2 }]⟩
        current := ⟨0⟩
        starting := ⟨0⟩
        turn := 1
        log := []
        winner := none
        revision := 0
        rng := .ofSeed 0
        instances := .empty
        nextId := .first }).2 }

theorem duel_new : duel.New { startingHealth := 2 } :=
  .made .empty (show Engine.newGame ["Ann", "Bob"] { startingHealth := 2 } duel.engine.source .first
    ⟨.empty, .empty, .still 0, []⟩ = .ok (duel.engine, duel.world) from rfl)

def hunt : List Move :=
  [.call (.startWithDeck ⟨0⟩ [⟨1⟩]), .call (.startWithDeck ⟨1⟩ [⟨1⟩]), .call (.playCard ⟨0⟩ ⟨1⟩),
    .call (.endTurn ⟨0⟩), .call (.endTurn ⟨1⟩), .call (.attackPlayer ⟨0⟩ ⟨1⟩ ⟨1⟩)]

theorem status_hunt :
    ((duel.run hunt).world.documents.find? ⟨1⟩).map (·.status) = some .finished := by
  decide +kernel

def Follows (site : Site) (id : SessionId) : Prop :=
  site.engine.document.number ≤ id.number

variable {config : Config} {site : Site} {K : Catalog} {s : Session} {id : SessionId}

namespace New

theorem config_eq (new : site.New config) : site.engine.config = config := by
  obtain ⟨cache, new⟩ := new
  obtain ⟨s, -, rfl, -⟩ := Engine.newGame_ok_iff.mp new
  rfl

theorem sound (new : site.New config) : site.world.definitions.cached.Sound := by
  obtain ⟨cache, new⟩ := new
  obtain ⟨s, -, -, rfl⟩ := Engine.newGame_ok_iff.mp new
  exact cache.sound

/-- The document of a new game is there from the beginning. -/
theorem found (new : site.New config) :
    ∃ s, site.world.documents.find? site.engine.document = some s ∧
      Session.Born config K s := by
  obtain ⟨cache, new⟩ := new
  obtain ⟨s, named, rfl, rfl⟩ := Engine.newGame_ok_iff.mp new
  exact ⟨s, DocumentStore.find?_create_self, .named _ named⟩

/-- At first the new document is the last one. -/
theorem born (new : site.New config) (follows : site.Follows id)
    (found : site.world.documents.find? id = some s) : Session.Born config K s := by
  obtain ⟨s', found', born⟩ := new.found (K := K)
  suffices same : id = site.engine.document by
    rw [same, found'] at found
    cases found
    exact born
  cases new with
  | @made _ _ _ _ w _ _ cache new =>
    obtain ⟨r, -, rfl, rfl⟩ := Engine.newGame_ok_iff.mp new
    have last := (DocumentStore.find?_isSome_iff.mp ⟨s, found⟩).2
    rw [DocumentStore.size_create] at last
    have first : w.documents.size + 1 ≤ id.number := follows
    cases id
    exact congrArg SessionId.mk (Nat.le_antisymm last first)

/-- The documents of a run, at the end of it. -/
theorem reachable (new : site.New config) (moves : List Move) (follows : site.Follows id)
    (known : (site.run moves).world.definitions.cached.Within K)
    (found : (site.run moves).world.documents.find? id = some s) :
    Session.Reachable config K s := by
  have documents := run_documents moves new.sound known
  rw [new.config_eq] at documents
  cases first : site.world.documents.find? id with
  | none => exact documents.born id s first found
  | some s₀ =>
    obtain ⟨s', found', later⟩ := documents.kept id s₀ first
    cases found.symm.trans found'
    exact ⟨s₀, new.born follows first, later⟩

/-- The definitions at the end of a run. -/
theorem definitions (new : site.New config) (moves : List Move) :
    (site.run moves).world.definitions.cached.Sound :=
  (run_grows moves new.sound).sound new.sound

/-- A document at two times of a run, seen with the definitions at the end. -/
theorem two_times (new : site.New config) (moves later : List Move) (follows : site.Follows id)
    (found : (site.run moves).world.documents.find? id = some s)
    (known : (site.run (moves ++ later)).world.definitions.cached.Within K) :
    Session.Reachable config K s ∧
      ∃ s', (site.run (moves ++ later)).world.documents.find? id = some s' ∧
        ReflTransGen (Session.Next config K) s s' := by
  rw [run_append] at known ⊢
  have sound := new.definitions moves
  have before := (run_grows later sound).within.trans known
  refine ⟨new.reachable moves follows before found, ?_⟩
  have documents := run_documents later sound known
  rw [run_config, new.config_eq] at documents
  exact documents.kept id s found

/-- A document before and after a move, seen with the definitions after it. -/
theorem one_move (new : site.New config) (moves : List Move) (m : Move)
    (found : (site.run moves).world.documents.find? id = some s)
    (known : (site.run (moves ++ [m])).world.definitions.cached.Within K) :
    ∃ s', (site.run (moves ++ [m])).world.documents.find? id = some s' ∧
      ReflGen (Session.Next config K) s s' := by
  rw [run_append] at known ⊢
  have documents := (move_spec (new.definitions moves) m known).1
  rw [run_config, new.config_eq] at documents
  exact documents.kept id s found

end New

end Site

end CardBattle
