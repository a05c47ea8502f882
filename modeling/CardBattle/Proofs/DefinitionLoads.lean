import CardBattle.Catalog.Cache
import CardBattle.Proofs.Checks
import CardBattle.Proofs.KeyMapEntries
import CardBattle.Proofs.Soundness

/-!
# Loading definitions

A cache takes over only what was asked for and has no fault, and never drops what it has. A catalog
loaded through it agrees with it.
-/

namespace CardBattle

namespace Catalog

variable {c K : Catalog} {d : CardDefinition}

theorem Within.refl (c : Catalog) : c.Within c :=
  fun _ _ h => h

theorem Within.trans {L : Catalog} (h : c.Within K) (h' : K.Within L) : c.Within L :=
  fun id d hd => h' id d (h id d hd)

/-- A definition that is found in a larger catalog is the new one or was there before. -/
theorem get?_insert {id : CardId} {found : CardDefinition} (h : (c.insert d).get? id = some found) :
    d.id = id ∧ found = d ∨ d.id ≠ id ∧ c.get? id = some found := by
  by_cases same : d.id = id
  · subst same
    rw [get?_insert_self] at h
    exact Or.inl ⟨rfl, (Option.some.inj h).symm⟩
  · rw [get?_insert_of_ne c d same] at h
    exact Or.inr ⟨same, h⟩

theorem within_insert (new : c.get? d.id = none) : c.Within (c.insert d) := by
  intro id e he
  rw [get?_insert_of_ne c d]
  · exact he
  · rintro rfl
    rw [new] at he
    cases he

theorem insert_within (h : c.Within K) (hd : K.get? d.id = some d) : (c.insert d).Within K := by
  intro id e he
  rcases get?_insert he with ⟨rfl, rfl⟩ | ⟨-, he⟩
  · exact hd
  · exact h id e he

theorem contains_iff {id : CardId} : c.contains id = true ↔ ∃ d, c.get? id = some d :=
  Option.isSome_iff_exists

theorem sound_empty : Catalog.empty.Sound := by
  intro id d h
  cases h

theorem Sound.insert (h : c.Sound) (good : d.fault? = none) : (c.insert d).Sound := by
  intro id e he
  rcases get?_insert he with ⟨rfl, rfl⟩ | ⟨-, he⟩
  · exact ⟨rfl, good⟩
  · exact h id e he

end Catalog

namespace DefinitionCache

variable {source : DefinitionSource} {c c' : DefinitionCache} {id : CardId} {d : CardDefinition}

/-- An answer is accepted if it is a valid definition of the card asked for. -/
theorem accept_ok_iff {answer : Except CatalogError CardDefinition} :
    accept id answer = .ok d ↔ answer = .ok d ∧ d.id = id ∧ d.fault? = none := by
  unfold accept CardDefinition.validate
  cases answer with
  | error e => simp
  | ok e =>
    dsimp only
    by_cases same : e.id = id
    · rw [if_pos same]
      cases fault : e.fault? with
      | some f =>
        simp only [Except.ok.injEq, reduceCtorEq, false_iff]
        rintro ⟨rfl, -, good⟩
        rw [fault] at good
        cases good
      | none =>
        simp only [Except.ok.injEq]
        constructor
        · rintro rfl
          exact ⟨rfl, same, fault⟩
        · rintro ⟨rfl, -⟩
          rfl
    · rw [if_neg same]
      simp only [Except.ok.injEq, reduceCtorEq, false_iff]
      rintro ⟨rfl, same', -⟩
      exact same same'

structure Grows (c c' : DefinitionCache) : Prop where
  within : c.cached.Within c'.cached
  sound : c.cached.Sound → c'.cached.Sound

theorem Grows.refl (c : DefinitionCache) : c.Grows c :=
  ⟨.refl _, fun h => h⟩

theorem Grows.trans {c'' : DefinitionCache} (h : c.Grows c') (h' : c'.Grows c'') : c.Grows c'' :=
  ⟨h.within.trans h'.within, fun sound => h'.sound (h.sound sound)⟩

/-- Asking for a card takes nothing from the cache. -/
theorem resolve_grows (source : DefinitionSource) (id : CardId) (c : DefinitionCache) :
    c.Grows (c.resolve source id).2 := by
  unfold resolve
  split
  · exact .refl c
  · rename_i new
    dsimp only
    split
    · exact ⟨.refl _, fun sound => sound⟩
    · rename_i d accepted
      obtain ⟨-, same, good⟩ := accept_ok_iff.mp accepted
      exact ⟨Catalog.within_insert (same ▸ new), fun sound => sound.insert good⟩

/-- A card that is resolved is in the cache from then on. -/
theorem get?_of_resolve (sound : c.cached.Sound) (h : c.resolve source id = (.ok d, c')) :
    d.id = id ∧ c'.cached.get? id = some d := by
  unfold resolve at h
  split at h
  · rename_i found
    cases h
    exact ⟨(sound id d found).1, found⟩
  · dsimp only at h
    split at h
    · cases h
    · rename_i e accepted
      cases h
      obtain ⟨-, rfl, -⟩ := accept_ok_iff.mp accepted
      exact ⟨rfl, Catalog.get?_insert_self _ _⟩

/-- A load does what the resolving of some cards does, one after another. -/
theorem loadInto_induct {R : DefinitionCache → DefinitionCache → Prop} (refl : ∀ c, R c c)
    (trans : ∀ {a b c}, R a b → R b c → R a c) (source : DefinitionSource)
    (resolves : ∀ id c, R c (c.resolve source id).2) (ids : List CardId) (loaded : Catalog)
    (c : DefinitionCache) : R c (loadInto source loaded ids c).2 := by
  induction ids generalizing loaded c with
  | nil => exact refl c
  | cons id ids ih =>
    rw [loadInto]
    split
    · exact ih loaded c
    · have first := resolves id c
      split
      · rename_i resolved
        rw [resolved] at first
        exact first
      · rename_i resolved
        rw [resolved] at first
        exact trans first (ih _ _)

/-- What is loaded is cached. -/
theorem loadInto_within (sound : c.cached.Sound) {loaded catalog : Catalog} {ids : List CardId}
    (within : loaded.Within c.cached) (h : loadInto source loaded ids c = (.ok catalog, c')) :
    catalog.Within c'.cached := by
  induction ids generalizing loaded c with
  | nil =>
    cases h
    exact within
  | cons id ids ih =>
    rw [loadInto] at h
    split at h
    · exact ih sound within h
    · split at h
      · cases h
      · rename_i d m resolved
        have first := resolve_grows source id c
        rw [resolved] at first
        obtain ⟨same, found⟩ := get?_of_resolve sound resolved
        exact ih (first.sound sound)
          (Catalog.insert_within (within.trans first.within) (same.symm ▸ found)) h

/-- Every card that is asked for is loaded, and no other comes in. -/
theorem loadInto_covers (sound : c.cached.Sound) {loaded catalog : Catalog} {ids : List CardId}
    (h : loadInto source loaded ids c = (.ok catalog, c')) : loaded.Within catalog ∧
      (∀ id ∈ ids, ∃ d, catalog.get? id = some d) ∧
      ∀ id d, catalog.get? id = some d → loaded.get? id = some d ∨ id ∈ ids := by
  induction ids generalizing loaded c with
  | nil =>
    cases h
    exact ⟨.refl _, nofun, fun _ _ hd => Or.inl hd⟩
  | cons first ids ih =>
    rw [loadInto] at h
    split at h
    · rename_i there
      obtain ⟨within, covered, only⟩ := ih sound h
      obtain ⟨d, hd⟩ := Catalog.contains_iff.mp there
      refine ⟨within, List.forall_mem_cons.mpr ⟨⟨d, within first d hd⟩, covered⟩, ?_⟩
      intro id e he
      exact (only id e he).imp_right (List.mem_cons_of_mem first)
    · rename_i new
      split at h
      · cases h
      · rename_i d m resolved
        have grows := resolve_grows source first c
        rw [resolved] at grows
        obtain ⟨rfl, -⟩ := get?_of_resolve sound resolved
        obtain ⟨within, covered, only⟩ := ih (grows.sound sound) h
        have absent : loaded.get? d.id = none := by
          rw [← Option.not_isSome_iff_eq_none]
          exact new
        have added : catalog.get? d.id = some d :=
          within d.id d (Catalog.get?_insert_self _ _)
        refine ⟨(Catalog.within_insert absent).trans within,
          List.forall_mem_cons.mpr ⟨⟨d, added⟩, covered⟩, ?_⟩
        intro id e he
        rcases only id e he with before | asked
        · rcases Catalog.get?_insert before with ⟨rfl, -⟩ | ⟨-, before⟩
          · exact Or.inr List.mem_cons_self
          · exact Or.inl before
        · exact Or.inr (List.mem_cons_of_mem _ asked)

/-- The caches that requests can lead to. -/
inductive Reached : DefinitionCache → Prop where
  | empty : Reached empty
  | resolve (source : DefinitionSource) (id : CardId) {c : DefinitionCache} (before : Reached c) :
    Reached (c.resolve source id).2

/-- However it came about, a cache holds valid definitions under their own numbers. -/
theorem Reached.sound (h : c.Reached) : c.cached.Sound := by
  induction h with
  | empty => exact Catalog.sound_empty
  | resolve source id _ ih => exact (resolve_grows source id _).sound ih

theorem loadAll_grows (source : DefinitionSource) (ids : List CardId) (c : DefinitionCache) :
    c.Grows (c.loadAll source ids).2 :=
  loadInto_induct .refl .trans source (resolve_grows source) ids _ c

theorem loadAll_within (sound : c.cached.Sound) {catalog : Catalog} {ids : List CardId}
    (h : c.loadAll source ids = (.ok catalog, c')) : catalog.Within c'.cached :=
  loadInto_within sound (fun _ _ h => by cases h) h

/-- A catalog that was loaded has the cards asked for and no others. -/
theorem loadAll_covers (sound : c.cached.Sound) {catalog : Catalog} {ids : List CardId}
    (h : c.loadAll source ids = (.ok catalog, c')) : (∀ id ∈ ids, ∃ d, catalog.get? id = some d) ∧
      ∀ id d, catalog.get? id = some d → id ∈ ids := by
  obtain ⟨-, covered, only⟩ := loadInto_covers sound h
  exact ⟨covered, fun id d hd => (only id d hd).resolve_left nofun⟩

end DefinitionCache

end CardBattle
