import CardBattle.Catalog

/-!
# The definition cache

Definitions come from an outside source that may answer differently each time. A cache keeps the
first sound answer for each card and asks no more. The requests made so far are remembered, latest
first, and are all that a source may depend on.
-/

namespace CardBattle

/-- An outside source: the answer to a request, given the earlier requests, latest first. -/
structure DefinitionSource where
  fetch : List CardId → CardId → Except CatalogError CardDefinition

/-- A source that answers from a catalog, whatever was asked before. -/
def DefinitionSource.ofCatalog (c : Catalog) : DefinitionSource :=
  ⟨fun _ id => c.require id⟩

/-- What has been fetched, and the requests made, latest first. -/
structure DefinitionCache where
  cached : Catalog
  fetches : List CardId
  deriving Inhabited

namespace DefinitionCache

def empty : DefinitionCache := ⟨Catalog.empty, []⟩

/-- Takes a definition from a source: it must be the card asked for, and without a fault. -/
def accept (id : CardId) (answer : Except CatalogError CardDefinition) :
    Except CatalogError CardDefinition :=
  match answer with
  | .error e => .error e
  | .ok d =>
    if d.id = id then
      match d.validate with
      | .error e => .error e
      | .ok () => .ok d
    else .error (.invalid (.otherCard d.id id))

/-- The definition of a card: the cached one, or else one fetched, checked and cached. -/
def resolve (source : DefinitionSource) (id : CardId) (c : DefinitionCache) :
    Except CatalogError CardDefinition × DefinitionCache :=
  match c.cached.get? id with
  | some d => (.ok d, c)
  | none =>
    let fetches := id :: c.fetches
    match accept id (source.fetch c.fetches id) with
    | .error e => (.error e, { c with fetches })
    | .ok d => (.ok d, { cached := c.cached.insert d, fetches })

/-- Adds the definitions of cards to a catalog, up to the first that cannot be had. -/
def loadInto (source : DefinitionSource) (loaded : Catalog) :
    List CardId → DefinitionCache → Except CatalogError Catalog × DefinitionCache
  | [], c => (.ok loaded, c)
  | id :: ids, c =>
    if loaded.contains id then loadInto source loaded ids c
    else
      match c.resolve source id with
      | (.error e, c) => (.error e, c)
      | (.ok d, c) => loadInto source (loaded.insert d) ids c

/-- The catalog of exactly the cards asked for. -/
def loadAll (source : DefinitionSource) (ids : List CardId) (c : DefinitionCache) :
    Except CatalogError Catalog × DefinitionCache :=
  loadInto source Catalog.empty ids c

end DefinitionCache

end CardBattle
