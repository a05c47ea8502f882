import CardBattle.Proofs.DefinitionLoads
import CardBattle.Proofs.DocumentHistory
import CardBattle.Proofs.Verdicts

/-!
# Runs of an engine

A site is an engine in a world. Between the calls on the engine come queries, changes of the
document that it is bound to, changes made by others, and time. Whatever the run, every document
that was made during it has a history in which each change follows the rules.
-/

namespace CardBattle

open Relation

structure Site where
  engine : Engine
  world : World

/-- What may be done with an engine, and what may happen meanwhile. -/
inductive Move where
  | call (call : Call)
  | playableCards (player : Seat)
  | availableAttackers (player : Seat)
  | attackTargets (attacker : InstanceId)
  /-- The engine is bound to another document, if it exists. -/
  | switch (document : SessionId)
  /-- Someone else raises the revision of a document. -/
  | touch (document : SessionId)
  /-- Time passes, and the clock goes on as it likes. -/
  | wait (clock : Clock)

namespace Site

/-- The site after a move. -/
def move (site : Site) : Move → Site
  | .call call => { site with world := (site.engine.perform call site.world).2 }
  | .playableCards player =>
    { site with world := (site.engine.playableCards player site.world).2 }
  | .availableAttackers player =>
    { site with world := (site.engine.availableAttackers player site.world).2 }
  | .attackTargets attacker =>
    { site with world := (site.engine.attackTargets attacker site.world).2 }
  | .switch document =>
    match site.engine.switch document site.world with
    | .ok engine => { site with engine }
    | .error _ => site
  | .touch document =>
    { site with world := { site.world with documents := site.world.documents.touch document } }
  | .wait clock => { site with world := { site.world with clock } }

/-- The site after some moves. -/
def run (site : Site) (moves : List Move) : Site :=
  moves.foldl move site

end Site

namespace Engine

variable {e : Engine} {call : Call} {w w' : World} {s fresh : Session} {starting : Seat}
  {extra : List CardId} {catalog : Catalog}

/-! ### Definitions during a call -/

/-- Definitions that were loaded stay loaded. -/
theorem loadCatalog_grows (e : Engine) (s : Session) (extra : List CardId) (w : World) :
    w.definitions.Grows (e.loadCatalog s extra w).2.definitions :=
  DefinitionCache.loadAll_grows _ _ _

/-- A call works with definitions from the cache. -/
theorem loadCatalog_within (sound : w.definitions.cached.Sound)
    (h : (e.loadCatalog s extra w).1 = .ok catalog) :
    catalog.Within (e.loadCatalog s extra w).2.definitions.cached := by
  have loaded : w.definitions.loadAll e.source (referenced s ++ extra)
      = (.ok catalog, (e.loadCatalog s extra w).2.definitions) :=
    Prod.ext (except_mapError_ok_iff.mp h) rfl
  exact DefinitionCache.loadAll_within sound loaded

theorem work_definitions {step : Context → Play Unit} :
    (e.work catalog s w step).2.definitions = w.definitions := by
  unfold work
  split <;> rfl

theorem prepare_definitions (e : Engine) (s : Session) (extra : List CardId) (w : World)
    (step : Context → Play Unit) :
    (e.prepare s extra step w).2.definitions = (e.loadCatalog s extra w).2.definitions := by
  unfold prepare
  split
  · rename_i loaded
    rw [loaded]
  · rename_i loaded
    rw [work_definitions, loaded]

theorem judge_definitions (other : call ≠ .rematch) : (e.judge call s w).2.definitions
    = (e.loadCatalog s call.cards w).2.definitions := by
  have prepared := prepare_definitions e s call.cards w call.play
  unfold judge
  split
  · exact absurd rfl other
  · split
    · rename_i h
      rw [h] at prepared
      exact prepared
    · rename_i h
      rw [h] at prepared
      exact prepared

theorem judge_definitions_rematch (made : e.rematch s = .ok (fresh, starting)) :
    (e.judge .rematch s w).2.definitions = (e.loadCatalog fresh [] w).2.definitions := by
  have prepared := prepare_definitions e fresh [] w fun ctx => Play.startGame ctx starting
  unfold judge
  rw [made]
  dsimp only
  split
  · rename_i h
    rw [h] at prepared
    exact prepared
  · rename_i h
    rw [h] at prepared
    exact prepared

/-- A call loads definitions once at most. -/
theorem judge_loads (e : Engine) (call : Call) (s : Session) (w : World) :
    (e.judge call s w).2.definitions = w.definitions ∨ ∃ s' extra,
      (e.judge call s w).2.definitions = (e.loadCatalog s' extra w).2.definitions := by
  by_cases again : call = .rematch
  · subst again
    cases made : e.rematch s with
    | error error =>
      left
      simp only [judge, made]
    | ok next => exact Or.inr ⟨_, _, judge_definitions_rematch made⟩
  · exact Or.inr ⟨_, _, judge_definitions again⟩

/-- A call takes nothing from the cache. -/
theorem judge_grows (e : Engine) (call : Call) (s : Session) (w : World) :
    w.definitions.Grows (e.judge call s w).2.definitions := by
  rcases judge_loads e call s w with same | ⟨s', extra, loads⟩
  · rw [same]
    exact .refl _
  · rw [loads]
    exact loadCatalog_grows e s' extra w

theorem finish_definitions {p : Pending} : (e.finish p w).2.definitions = w.definitions := by
  change (e.conclude p w).2.definitions = _
  unfold conclude
  split
  · rfl
  · rfl
  · split <;> rfl

theorem perform_definitions (found : w.documents.find? e.document = some s)
    (other : call ≠ .rematch) :
    (e.perform call w).2.definitions = (e.loadCatalog s call.cards w).2.definitions := by
  rw [perform_of_some found, finish_definitions, judge_definitions other]

/-- A question changes no document and takes nothing from the cache. -/
theorem query_spec {α : Type} (e : Engine) (ask : Session → Catalog → List α) (w : World) :
    (e.query ask w).2.documents = w.documents ∧
      w.definitions.Grows (e.query ask w).2.definitions := by
  unfold query
  split
  · exact ⟨rfl, .refl _⟩
  · rename_i s _
    have grows := loadCatalog_grows e s [] w
    split
    · rename_i loaded
      rw [loaded] at grows
      rw [of_loadCatalog loaded] at grows ⊢
      exact ⟨rfl, grows⟩
    · rename_i loaded
      rw [loaded] at grows
      rw [of_loadCatalog loaded] at grows ⊢
      exact ⟨rfl, grows⟩

end Engine

open DocumentStore

/-- What becomes of the documents of a store: those that there are change in some way, and the new
ones come about in some other. -/
structure DocumentStore.Develops (changes : Session → Session → Prop) (arises : Session → Prop)
    (before after : DocumentStore) : Prop where
  kept : ∀ id s, before.find? id = some s → ∃ s', after.find? id = some s' ∧ changes s s'
  born : ∀ id s', before.find? id = none → after.find? id = some s' → arises s'

/-- Documents during one move: each changes once at most. -/
abbrev DocumentStore.Moves (config : Config) (K : Catalog) : DocumentStore → DocumentStore → Prop :=
  Develops (ReflGen (Session.Next config K)) (Session.Born config K)

abbrev DocumentStore.Runs (config : Config) (K : Catalog) : DocumentStore → DocumentStore → Prop :=
  Develops (ReflTransGen (Session.Next config K)) (Session.Reachable config K)

namespace DocumentStore

variable {config : Config} {K : Catalog} {store store' store'' : DocumentStore}

theorem Develops.refl {changes : Session → Session → Prop} {arises : Session → Prop}
    (same : ∀ s, changes s s) (store : DocumentStore) : store.Develops changes arises store where
  kept := fun _ s h => ⟨s, h, same s⟩
  born := by
    intro id s' none found
    rw [none] at found
    cases found

theorem Moves.refl (store : DocumentStore) : store.Moves config K store :=
  Develops.refl (fun _ => .refl) store

theorem Moves.change {id : SessionId} {f : Session → Session}
    (next : ∀ s, store.find? id = some s → Session.Next config K s (f s)) :
    store.Moves config K (store.change id f) where
  kept := by
    intro other s found
    by_cases same : id = other
    · subst same
      exact ⟨f s, find?_change_self found, .single (next s found)⟩
    · exact ⟨s, (find?_change_of_ne same).trans found, .refl⟩
  born := by
    intro other s' none found
    by_cases same : id = other
    · subst same
      rw [change_of_none none, none] at found
      cases found
    · rw [find?_change_of_ne same, none] at found
      cases found

/-- A store moves on by a new document. -/
theorem Moves.create {s : Session} (born : Session.Born config K s) :
    store.Moves config K (store.create s).2 where
  kept := fun _ r found => ⟨r, find?_create_of_some found s, .refl⟩
  born := by
    intro id s' none found
    by_cases same : (store.create s).1 = id
    · subst same
      cases find?_create_self.symm.trans found
      exact born
    · rw [find?_create_of_ne same, none] at found
      cases found

theorem Runs.refl (store : DocumentStore) : store.Runs config K store :=
  Develops.refl (fun _ => .refl) store

/-- A run is one move after another. -/
theorem Runs.cons (move : store.Moves config K store') (run : store'.Runs config K store'') :
    store.Runs config K store'' where
  kept := by
    intro id s found
    obtain ⟨s', found', once⟩ := move.kept id s found
    obtain ⟨s'', found'', later⟩ := run.kept id s' found'
    exact ⟨s'', found'', once.to_reflTransGen.trans later⟩
  born := by
    intro id s'' none found
    cases middle : store'.find? id with
    | none => exact run.born id s'' middle found
    | some s' =>
      obtain ⟨r, found', later⟩ := run.kept id s' middle
      cases found.symm.trans found'
      exact ⟨s', move.born id s' none middle, later⟩

end DocumentStore

namespace Engine

variable {e : Engine} {call : Call} {w w' : World} {s : Session} {K : Catalog}

/-- The final step of a call brings every document to a next state, or makes a document. -/
theorem finish_moves {p : Pending}
    (commits : ∀ base session, p.verdict = .commit base session → ∀ d,
      w.documents.find? e.document = some d → d.revision = base →
        Call.Effect e.config K d session)
    (creates : ∀ session, p.verdict = .create session → Session.Born e.config K session) :
    w.documents.Moves e.config K (e.finish p w).2.documents := by
  cases outcome : p.verdict with
  | reject error =>
    rw [finish_reject outcome]
    exact .change fun s _ => .refused _ rfl
  | create session =>
    rw [finish_create outcome]
    exact .create (creates session outcome)
  | commit base session =>
    cases found : w.documents.find? e.document with
    | none =>
      rw [finish_missing outcome found]
      exact .refl _
    | some d =>
      by_cases current : d.revision = base
      · rw [finish_current outcome found current]
        refine .change fun s found' => ?_
        cases found.symm.trans found'
        have effect := commits base session outcome d found current
        rw [committed, if_pos current, ← current]
        exact .accepted session effect
      · rw [finish_stale outcome found current]
        exact .change fun s _ => .refused _ rfl

/-- A call that nobody interferes with. -/
theorem perform_moves (sound : w.definitions.cached.Sound)
    (known : (e.perform call w).2.definitions.cached.Within K) :
    w.documents.Moves e.config K (e.perform call w).2.documents ∧
      w.definitions.Grows (e.perform call w).2.definitions := by
  unfold perform performAmid at known ⊢
  split
  · rename_i w' started
    unfold start at started
    split at started
    · cases started
      exact ⟨.refl _, .refl _⟩
    · cases started
  · rename_i p w' started
    rw [started] at known
    obtain ⟨snapshot, found, rfl, rfl⟩ := start_eq_some started
    dsimp only at known ⊢
    rw [finish_definitions] at known ⊢
    have grows := judge_grows e call snapshot w
    have documents := judge_documents e call snapshot w
    refine ⟨?_, grows⟩
    rw [← documents]
    apply finish_moves
    · intro base session verdict d found' current
      obtain ⟨other, rfl, catalog, t, loaded, ran, rfl⟩ := judge_commit verdict
      rw [documents, found] at found'
      cases found'
      rw [judge_definitions other] at known
      exact Call.effect_of_play ((loadCatalog_within sound loaded).trans known) other ran
    · intro session verdict
      obtain ⟨rfl, fresh, starting, catalog, t, made, loaded, ran, rfl⟩ := judge_create verdict
      rw [judge_definitions_rematch made] at known
      exact .replayed snapshot fresh starting (e.context catalog w) w.asked t.asked
        ((loadCatalog_within sound loaded).trans known) made ran

end Engine

namespace Site

variable {site : Site} {K : Catalog}

theorem move_config (site : Site) (m : Move) :
    (site.move m).engine.config = site.engine.config := by
  cases m with
  | switch document =>
    simp only [move]
    split
    · rename_i engine switched
      unfold Engine.switch at switched
      split at switched <;> cases switched
      rfl
    · rfl
  | _ => rfl

/-- A move changes each document once at most, and takes nothing from the cache. -/
theorem move_spec (sound : site.world.definitions.cached.Sound) (m : Move)
    (known : (site.move m).world.definitions.cached.Within K) :
    site.world.documents.Moves site.engine.config K (site.move m).world.documents ∧
      site.world.definitions.Grows (site.move m).world.definitions := by
  cases m with
  | call call => exact Engine.perform_moves sound known
  | playableCards player =>
    obtain ⟨documents, grows⟩ := Engine.query_spec site.engine
      (fun s catalog => s.playableCards catalog player) site.world
    exact ⟨by rw [move, Engine.playableCards, documents]; exact .refl _, grows⟩
  | availableAttackers player =>
    obtain ⟨documents, grows⟩ := Engine.query_spec site.engine
      (fun s catalog => s.availableAttackers catalog player) site.world
    exact ⟨by rw [move, Engine.availableAttackers, documents]; exact .refl _, grows⟩
  | attackTargets attacker =>
    obtain ⟨documents, grows⟩ := Engine.query_spec site.engine
      (fun s catalog => s.attackTargets catalog attacker) site.world
    exact ⟨by rw [move, Engine.attackTargets, documents]; exact .refl _, grows⟩
  | switch document =>
    simp only [move]
    split
    · exact ⟨.refl _, .refl _⟩
    · exact ⟨.refl _, .refl _⟩
  | touch document => exact ⟨.change fun _ _ => .touched, .refl _⟩
  | wait clock => exact ⟨.refl _, .refl _⟩

/-- An engine keeps its configuration. -/
theorem run_config (moves : List Move) (site : Site) :
    (site.run moves).engine.config = site.engine.config := by
  induction moves generalizing site with
  | nil => rfl
  | cons m moves ih => exact (ih (site.move m)).trans (move_config site m)

/-- Over a run, nothing is taken from the cache. -/
theorem run_grows (moves : List Move) (sound : site.world.definitions.cached.Sound) :
    site.world.definitions.Grows (site.run moves).world.definitions := by
  induction moves generalizing site with
  | nil => exact .refl _
  | cons m moves ih =>
    have grows := (move_spec sound m (Catalog.Within.refl _)).2
    exact grows.trans (ih (grows.sound sound))

/-- The documents of a store develop along every run. -/
theorem run_documents (moves : List Move) (sound : site.world.definitions.cached.Sound)
    (known : (site.run moves).world.definitions.cached.Within K) :
    site.world.documents.Runs site.engine.config K (site.run moves).world.documents := by
  induction moves generalizing site with
  | nil => exact .refl _
  | cons m moves ih =>
    have grows := (move_spec sound m (Catalog.Within.refl _)).2
    have sound' := grows.sound sound
    have later := (run_grows moves sound').within
    have first := (move_spec sound m (later.trans known)).1
    have rest := ih sound' known
    rw [move_config] at rest
    exact .cons first rest

theorem run_append (moves later : List Move) :
    site.run (moves ++ later) = (site.run moves).run later :=
  List.foldl_append

end Site

end CardBattle
