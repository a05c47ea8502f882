import CardBattle.Proofs.DefinitionLoads

/-!
# Sources that do not change

A source that answers a request the same at all times makes one table together with a cache: the
cached definitions, and what the source gives for the other cards. Loading moves definitions into
the cache and leaves the table as it is, so that no load makes a difference to a later one.
-/

namespace CardBattle

/-- What the source answers does not depend on earlier requests. -/
def DefinitionSource.Static (source : DefinitionSource) : Prop :=
  ∀ fetches fetches' id, source.fetch fetches id = source.fetch fetches' id

theorem DefinitionSource.static_ofCatalog (c : Catalog) : (ofCatalog c).Static :=
  fun _ _ _ => rfl

namespace DefinitionCache

variable {source : DefinitionSource} {c c' : DefinitionCache} {id : CardId}

def answer (source : DefinitionSource) (c : DefinitionCache) (id : CardId) :
    Except CatalogError CardDefinition :=
  (c.resolve source id).1

/-- The cache answers for the cards it has. -/
theorem answer_of_some {d : CardDefinition} (hit : c.cached.get? id = some d) :
    c.answer source id = .ok d := by
  simp [answer, resolve, hit]

/-- The source answers for the cards that the cache has not. -/
theorem answer_of_none (miss : c.cached.get? id = none) :
    c.answer source id = accept id (source.fetch c.fetches id) := by
  simp only [answer, resolve, miss]
  cases accept id (source.fetch c.fetches id) <;> rfl

/-- The rest of the cache and the requests made do not matter. -/
theorem answer_congr (static : source.Static) (same : c'.cached.get? id = c.cached.get? id) :
    c'.answer source id = c.answer source id := by
  cases there : c.cached.get? id with
  | some d => rw [answer_of_some there, answer_of_some (same.trans there)]
  | none =>
    rw [answer_of_none there, answer_of_none (same.trans there), static c'.fetches c.fetches]

/-- A request changes no answer. -/
theorem answer_resolve (static : source.Static) (id : CardId) (c : DefinitionCache) :
    (c.resolve source id).2.answer source = c.answer source := by
  funext other
  unfold resolve
  cases miss : c.cached.get? id with
  | some d => rfl
  | none =>
    dsimp only
    cases accepted : accept id (source.fetch c.fetches id) with
    | error e => exact answer_congr static rfl
    | ok d =>
      obtain ⟨-, rfl, -⟩ := accept_ok_iff.mp accepted
      by_cases asked : d.id = other
      · subst asked
        rw [answer_of_none miss, accepted]
        exact answer_of_some (Catalog.get?_insert_self _ _)
      · exact answer_congr static (Catalog.get?_insert_of_ne c.cached d asked)

/-- No load changes the table. -/
theorem answer_loadInto (static : source.Static) (loaded : Catalog) (ids : List CardId)
    (c : DefinitionCache) : (loadInto source loaded ids c).2.answer source = c.answer source := by
  induction ids generalizing loaded c with
  | nil => rfl
  | cons id ids ih =>
    have first := answer_resolve static id c
    rw [loadInto]
    split
    · exact ih loaded c
    · split
      · rename_i resolved
        rw [resolved] at first
        exact first
      · rename_i resolved
        rw [resolved] at first
        exact (ih _ _).trans first

/-- What is loaded is read off the table. -/
theorem loadInto_congr (static : source.Static) (same : c.answer source = c'.answer source)
    (loaded : Catalog) (ids : List CardId) :
    (loadInto source loaded ids c).1 = (loadInto source loaded ids c').1 := by
  induction ids generalizing loaded c c' with
  | nil => rfl
  | cons id ids ih =>
    have answers : (c.resolve source id).1 = (c'.resolve source id).1 := congrFun same id
    have after := answer_resolve static id c
    have after' := answer_resolve static id c'
    rw [loadInto, loadInto]
    split
    · exact ih same loaded
    · generalize c.resolve source id = r at answers after
      generalize c'.resolve source id = r' at answers after'
      obtain ⟨a, d⟩ := r
      obtain ⟨a', d'⟩ := r'
      cases answers
      cases a with
      | error e => rfl
      | ok found => exact ih (after.trans (same.trans after'.symm)) _

/-- All cards of a list can be loaded if the table has each of them. -/
theorem loadInto_ok_iff (static : source.Static) (sound : c.cached.Sound) (loaded : Catalog)
    (ids : List CardId) : (∃ catalog, (loadInto source loaded ids c).1 = .ok catalog) ↔
      ∀ id ∈ ids, loaded.contains id = true ∨ ∃ d, c.answer source id = .ok d := by
  induction ids generalizing loaded c with
  | nil => exact ⟨fun _ => nofun, fun _ => ⟨loaded, rfl⟩⟩
  | cons id ids ih =>
    rw [loadInto, List.forall_mem_cons]
    split
    · rename_i there
      rw [ih sound]
      exact ⟨fun rest => ⟨Or.inl there, rest⟩, fun h => h.2⟩
    · rename_i new
      have table := answer_resolve static id c
      have grows := resolve_grows source id c
      split
      · rename_i e m resolved
        have missing : c.answer source id = .error e := congrArg Prod.fst resolved
        simp [missing, new]
      · rename_i d m resolved
        have found : c.answer source id = .ok d := congrArg Prod.fst resolved
        rw [resolved] at table grows
        obtain ⟨rfl, -⟩ := get?_of_resolve sound resolved
        rw [ih (grows.sound sound), table]
        have either : ∀ other, ((loaded.insert d).contains other = true ∨
            ∃ e, c.answer source other = .ok e) ↔
              (loaded.contains other = true ∨ ∃ e, c.answer source other = .ok e) := by
          intro other
          by_cases same : d.id = other
          · subst same
            exact ⟨fun _ => Or.inr ⟨d, found⟩, fun _ => Or.inr ⟨d, found⟩⟩
          · simp only [Catalog.contains_iff, Catalog.get?_insert_of_ne loaded d same]
        simp only [either]
        exact ⟨fun rest => ⟨Or.inr ⟨d, found⟩, rest⟩, fun h => h.2⟩

/-- Cards can be loaded if the table has all of them. -/
theorem loadAll_ok_iff (static : source.Static) (sound : c.cached.Sound) (ids : List CardId) :
    (∃ catalog, (c.loadAll source ids).1 = .ok catalog) ↔
      ∀ id ∈ ids, ∃ d, c.answer source id = .ok d := by
  rw [loadAll, loadInto_ok_iff static sound]
  have empty : ∀ id, Catalog.empty.contains id = false := fun _ => rfl
  simp [empty]

/-- A catalog that was loaded has the cards that were asked for, as the table has them. -/
theorem get?_of_loadAll (static : source.Static) (sound : c.cached.Sound) {catalog : Catalog}
    {ids : List CardId} (h : c.loadAll source ids = (.ok catalog, c')) (id : CardId)
    (d : CardDefinition) :
    catalog.get? id = some d ↔ id ∈ ids ∧ c.answer source id = .ok d := by
  obtain ⟨covered, only⟩ := loadAll_covers sound h
  have table : c'.answer source = c.answer source := by
    have after := answer_loadInto static Catalog.empty ids c
    rw [show loadInto source Catalog.empty ids c = _ from h] at after
    exact after
  have read : ∀ e, catalog.get? id = some e → c.answer source id = .ok e := by
    intro e he
    rw [← table]
    exact answer_of_some (loadAll_within sound h id e he)
  constructor
  · intro hd
    exact ⟨only id d hd, read d hd⟩
  · rintro ⟨asked, answer⟩
    obtain ⟨e, he⟩ := covered id asked
    cases (read e he).symm.trans answer
    exact he

end DefinitionCache

end CardBattle
