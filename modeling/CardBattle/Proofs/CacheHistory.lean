import CardBattle.Proofs.DefinitionLoads

/-!
# What a cache has been asked

A cache is only ever asked to resolve one card or to load several. The source behind it may answer
each request differently, fail, or give a definition that is not acceptable. Whatever was asked, the
cache holds for each card the one answer it has accepted; once there is one the card is never
fetched again. A load that fails has cached what comes before the card it failed at.
-/

namespace CardBattle

theorem Catalog.mem_ids_iff {c : Catalog} {id : CardId} :
    id ∈ c.ids ↔ ∃ d, c.get? id = some d := by
  obtain ⟨number⟩ := id
  simp only [ids, List.mem_map, CardId.mk.injEq, exists_eq_right, get?]
  exact KeyMap.mem_keys_iff

theorem CardDefinition.validate_eq_ok_iff {d : CardDefinition} :
    d.validate = .ok () ↔ d.fault? = none := by
  cases fault : d.fault? with
  | none => simp only [validate, fault]
  | some f => simp only [validate, fault, reduceCtorEq]

namespace DefinitionCache

inductive Request where
  | resolve (id : CardId)
  | loadAll (ids : List CardId)

def serve (source : DefinitionSource) (c : DefinitionCache) : Request → DefinitionCache
  | .resolve id => (c.resolve source id).2
  | .loadAll ids => (c.loadAll source ids).2

def after (source : DefinitionSource) (requests : List Request) : DefinitionCache :=
  requests.foldl (serve source) empty

/-- The answers for one card that were accepted, latest first, read off the fetches made. -/
def accepted (source : DefinitionSource) (id : CardId) : List CardId → List CardDefinition
  | [] => []
  | asked :: earlier =>
    if asked = id then
      match accept id (source.fetch earlier id) with
      | .ok d => d :: accepted source id earlier
      | .error _ => accepted source id earlier
    else accepted source id earlier

structure Loaded (c : DefinitionCache) (ids : List CardId) (catalog : Catalog)
    (c' : DefinitionCache) : Prop where
  covers : ∀ id, id ∈ catalog.ids ↔ id ∈ ids
  mapped : ∀ id ∈ ids, ∃ d, catalog.get? id = some d ∧ c'.cached.get? id = some d
  cached : ∀ id, id ∈ c'.cached.ids ↔ id ∈ c.cached.ids ∨ id ∈ ids

/-- A load that failed at a card: those before it can be loaded, and then this one cannot be
resolved. -/
structure StoppedAt (source : DefinitionSource) (c : DefinitionCache) (ids : List CardId)
    (e : CatalogError) (c' : DefinitionCache) (before : List CardId) (id : CardId) : Prop where
  order : ∃ rest, ids = before ++ id :: rest
  error : ∃ catalog between, c.loadAll source before = (.ok catalog, between) ∧
    between.resolve source id = (.error e, c')
  missing : id ∉ c'.cached.ids
  cached : ∀ other, other ∈ c'.cached.ids ↔ other ∈ c.cached.ids ∨ other ∈ before

variable {source : DefinitionSource} {c c' c'' : DefinitionCache} {id : CardId}
  {d : CardDefinition} {e : CatalogError} {ids : List CardId} {loaded catalog : Catalog}

/-! ### One card -/

/-- A card is found, or its answer is refused, or its answer is accepted and added. -/
inductive Resolved (source : DefinitionSource) (id : CardId) (c : DefinitionCache) :
    Except CatalogError CardDefinition × DefinitionCache → Prop where
  | found {d : CardDefinition} (hit : c.cached.get? id = some d) : Resolved source id c (.ok d, c)
  | refused {e : CatalogError} (miss : c.cached.get? id = none)
      (answer : accept id (source.fetch c.fetches id) = .error e) :
      Resolved source id c (.error e, { c with fetches := id :: c.fetches })
  | added {d : CardDefinition} (miss : c.cached.get? id = none)
      (answer : accept id (source.fetch c.fetches id) = .ok d) :
      Resolved source id c (.ok d, ⟨c.cached.insert d, id :: c.fetches⟩)

/-- A request for one card ends in one of these ways. -/
theorem resolved (source : DefinitionSource) (id : CardId) (c : DefinitionCache) :
    Resolved source id c (c.resolve source id) := by
  cases lookup : c.cached.get? id with
  | some d =>
    simp only [resolve, lookup]
    exact .found lookup
  | none =>
    cases answer : accept id (source.fetch c.fetches id) with
    | error e =>
      simp only [resolve, lookup, answer]
      exact .refused lookup answer
    | ok d =>
      simp only [resolve, lookup, answer]
      exact .added lookup answer

/-- A card that is missing is asked for, and an answer is kept and given if it can be accepted. -/
theorem resolve_of_none (miss : c.cached.get? id = none) :
    (∀ d, source.fetch c.fetches id = .ok d → d.id = id → d.validate = .ok () →
      c.resolve source id = (.ok d, ⟨c.cached.insert d, id :: c.fetches⟩)) ∧
    (∀ e, accept id (source.fetch c.fetches id) = .error e →
      c.resolve source id = (.error e, { c with fetches := id :: c.fetches })) := by
  constructor
  · intro d answer same good
    have taken : accept id (source.fetch c.fetches id) = .ok d := by
      simp only [accept, answer, same, good, if_true]
    simp only [resolve, miss, taken]
  · intro e refused
    simp only [resolve, miss, refused]

theorem resolve_of_some (hit : c.cached.get? id = some d) : c.resolve source id = (.ok d, c) := by
  simp only [resolve, hit]

def Faithful (source : DefinitionSource) (c : DefinitionCache) : Prop :=
  ∀ id, accepted source id c.fetches = (c.cached.get? id).toList

/-- What later requests leave of a cache: it loses nothing, and fetches only what it has not. -/
structure Later (source : DefinitionSource) (c c' : DefinitionCache) : Prop where
  grows : c.Grows c'
  fetched : ∃ asked, c'.fetches = asked ++ c.fetches ∧ ∀ id ∈ asked, c.cached.get? id = none
  faithful : c.Faithful source → c'.Faithful source

theorem Later.refl (source : DefinitionSource) (c : DefinitionCache) : Later source c c where
  grows := .refl c
  fetched := ⟨[], rfl, fun _ h => absurd h List.not_mem_nil⟩
  faithful := fun h => h

theorem get?_of_within {K L : Catalog} (h : K.Within L) (missing : L.get? id = none) :
    K.get? id = none := by
  cases lookup : K.get? id with
  | none => rfl
  | some d =>
    rw [h id d lookup] at missing
    cases missing

/-- What later requests leave, still later ones leave too. -/
theorem Later.trans (h : Later source c c') (h' : Later source c' c'') : Later source c c'' where
  grows := h.grows.trans h'.grows
  fetched := by
    obtain ⟨asked, fetches, new⟩ := h.fetched
    obtain ⟨asked', fetches', new'⟩ := h'.fetched
    refine ⟨asked' ++ asked, by rw [fetches', fetches, List.append_assoc], fun id mem => ?_⟩
    rcases List.mem_append.mp mem with mem | mem
    · exact get?_of_within h.grows.within (new' id mem)
    · exact new id mem
  faithful := fun before => h'.faithful (h.faithful before)

/-- What is cached is not fetched again. -/
theorem Later.count_fetches (h : Later source c c') (hit : c.cached.get? id = some d) :
    c'.fetches.count id = c.fetches.count id := by
  obtain ⟨asked, fetches, new⟩ := h.fetched
  have unasked : id ∉ asked := by
    intro mem
    rw [new id mem] at hit
    cases hit
  rw [fetches, List.count_append, List.count_eq_zero.mpr unasked, Nat.zero_add]

theorem accepted_cons_of_ne {asked : CardId} (h : asked ≠ id) (earlier : List CardId) :
    accepted source id (asked :: earlier) = accepted source id earlier := by
  rw [accepted, if_neg h]

theorem accepted_cons_refused {earlier : List CardId}
    (h : accept id (source.fetch earlier id) = .error e) :
    accepted source id (id :: earlier) = accepted source id earlier := by
  rw [accepted, if_pos rfl, h]

theorem accepted_cons_taken {earlier : List CardId}
    (h : accept id (source.fetch earlier id) = .ok d) :
    accepted source id (id :: earlier) = d :: accepted source id earlier := by
  rw [accepted, if_pos rfl, h]

theorem Faithful.refused (h : c.Faithful source)
    (answer : accept id (source.fetch c.fetches id) = .error e) :
    Faithful source { c with fetches := id :: c.fetches } := by
  intro other
  by_cases same : id = other
  · subst same
    exact (accepted_cons_refused answer).trans (h id)
  · exact (accepted_cons_of_ne same _).trans (h other)

theorem Faithful.added (h : c.Faithful source) (miss : c.cached.get? id = none)
    (answer : accept id (source.fetch c.fetches id) = .ok d) :
    Faithful source ⟨c.cached.insert d, id :: c.fetches⟩ := by
  obtain ⟨-, rfl, -⟩ := accept_ok_iff.mp answer
  intro other
  by_cases same : d.id = other
  · subst same
    have before := h d.id
    rw [miss] at before
    calc accepted source d.id (d.id :: c.fetches)
        = d :: accepted source d.id c.fetches := accepted_cons_taken answer
      _ = [d] := by rw [before, Option.toList_none]
      _ = ((c.cached.insert d).get? d.id).toList := by
        rw [Catalog.get?_insert_self, Option.toList_some]
  · calc accepted source other (d.id :: c.fetches)
        = accepted source other c.fetches := accepted_cons_of_ne same _
      _ = (c.cached.get? other).toList := h other
      _ = ((c.cached.insert d).get? other).toList := by rw [Catalog.get?_insert_of_ne _ _ same]

/-- Only cards that the cache has not are asked for. -/
theorem Resolved.fetched {result : Except CatalogError CardDefinition × DefinitionCache}
    (h : Resolved source id c result) : ∃ asked, result.2.fetches = asked ++ c.fetches ∧
      ∀ other ∈ asked, c.cached.get? other = none := by
  cases h with
  | found hit => exact ⟨[], rfl, fun _ h => absurd h List.not_mem_nil⟩
  | refused miss answer => exact ⟨[id], rfl, fun _ h => List.mem_singleton.mp h ▸ miss⟩
  | added miss answer => exact ⟨[id], rfl, fun _ h => List.mem_singleton.mp h ▸ miss⟩

theorem Resolved.faithful {result : Except CatalogError CardDefinition × DefinitionCache}
    (h : Resolved source id c result) (before : c.Faithful source) :
    result.2.Faithful source := by
  cases h with
  | found hit => exact before
  | refused miss answer => exact before.refused answer
  | added miss answer => exact before.added miss answer

theorem resolve_later (source : DefinitionSource) (id : CardId) (c : DefinitionCache) :
    Later source c (c.resolve source id).2 where
  grows := resolve_grows source id c
  fetched := (resolved source id c).fetched
  faithful := (resolved source id c).faithful

/-! ### Several cards -/

/-- A card that is resolved joins the cache, alone. -/
theorem cached_of_resolve (h : c.resolve source id = (.ok d, c'))
    (other : CardId) : other ∈ c'.cached.ids ↔ other ∈ c.cached.ids ∨ other = id := by
  have step := resolved source id c
  rw [h] at step
  cases step with
  | found hit =>
    refine ⟨Or.inl, fun h => h.elim (fun mem => mem) ?_⟩
    rintro rfl
    exact Catalog.mem_ids_iff.mpr ⟨d, hit⟩
  | added miss answer =>
    obtain ⟨-, rfl, -⟩ := accept_ok_iff.mp answer
    simp only [Catalog.mem_ids_iff]
    by_cases same : d.id = other
    · subst same
      exact iff_of_true ⟨d, Catalog.get?_insert_self _ _⟩ (Or.inr rfl)
    · rw [Catalog.get?_insert_of_ne _ _ same]
      exact ⟨Or.inl, fun h => h.resolve_right fun again => same again.symm⟩

/-- A load adds to the cache the cards it was asked for, and no others. -/
theorem cached_of_loadInto (sound : c.cached.Sound) (within : loaded.Within c.cached)
    (h : loadInto source loaded ids c = (.ok catalog, c')) (other : CardId) :
    other ∈ c'.cached.ids ↔ other ∈ c.cached.ids ∨ other ∈ ids := by
  induction ids generalizing loaded c with
  | nil =>
    cases h
    simp
  | cons id ids ih =>
    rw [loadInto] at h
    split at h
    · -- asked for twice: it was cached when it was first loaded
      rename_i there
      obtain ⟨d, hd⟩ := Catalog.contains_iff.mp there
      have cached : id ∈ c.cached.ids := Catalog.mem_ids_iff.mpr ⟨d, within id d hd⟩
      rw [ih sound within h, List.mem_cons]
      constructor
      · exact Or.imp_right Or.inr
      · rintro (mem | rfl | mem)
        · exact Or.inl mem
        · exact Or.inl cached
        · exact Or.inr mem
    · split at h
      · cases h
      · rename_i d m resolved
        have first := resolve_grows source id c
        rw [resolved] at first
        obtain ⟨same, found⟩ := get?_of_resolve sound resolved
        have within' : (loaded.insert d).Within m.cached :=
          Catalog.insert_within (within.trans first.within) (same.symm ▸ found)
        rw [ih (first.sound sound) within' h, cached_of_resolve resolved, List.mem_cons,
          or_assoc]

/-- A load that fails does so at a card that is not loaded yet and cannot be resolved. -/
theorem loadInto_error (h : loadInto source loaded ids c = (.error e, c')) :
    ∃ before id rest catalog between, ids = before ++ id :: rest ∧
      loadInto source loaded before c = (.ok catalog, between) ∧
      between.resolve source id = (.error e, c') := by
  induction ids generalizing loaded c with
  | nil => cases h
  | cons first ids ih =>
    rw [loadInto] at h
    split at h
    · rename_i there
      obtain ⟨before, id, rest, catalog, between, rfl, ok, failed⟩ := ih h
      refine ⟨first :: before, id, rest, catalog, between, rfl, ?_, failed⟩
      rw [loadInto, if_pos there, ok]
    · rename_i new
      split at h
      · rename_i m failed
        cases h
        exact ⟨[], first, ids, loaded, c, rfl, rfl, failed⟩
      · rename_i d m resolved
        obtain ⟨before, id, rest, catalog, between, rfl, ok, failed⟩ := ih h
        refine ⟨first :: before, id, rest, catalog, between, rfl, ?_, failed⟩
        rw [loadInto, if_neg new, resolved]
        exact ok

theorem loaded_of_loadAll (sound : c.cached.Sound) (h : c.loadAll source ids = (.ok catalog, c')) :
    c.Loaded ids catalog c' := by
  obtain ⟨covered, only⟩ := loadAll_covers sound h
  refine ⟨fun id => ?_, fun id mem => ?_, cached_of_loadInto sound (fun _ _ h => by cases h) h⟩
  · rw [Catalog.mem_ids_iff]
    exact ⟨fun ⟨d, hd⟩ => only id d hd, covered id⟩
  · obtain ⟨d, hd⟩ := covered id mem
    exact ⟨d, hd, loadAll_within sound h id d hd⟩

theorem stoppedAt_of_loadAll (sound : c.cached.Sound)
    (h : c.loadAll source ids = (.error e, c')) :
    ∃ before id, StoppedAt source c ids e c' before id := by
  obtain ⟨before, id, rest, catalog, between, order, ok, failed⟩ := loadInto_error h
  have step := resolved source id between
  have cached := (loaded_of_loadAll sound ok).cached
  refine ⟨before, id, ⟨⟨rest, order⟩, ⟨catalog, between, ok, failed⟩, ?_, ?_⟩⟩
  · rw [failed] at step
    cases step with
    | refused miss answer =>
      rw [Catalog.mem_ids_iff]
      rintro ⟨d, hd⟩
      rw [show between.cached.get? id = some d from hd] at miss
      cases miss
  · rw [failed] at step
    cases step with
    | refused miss answer => exact cached

/-! ### Any requests -/

theorem serve_later (source : DefinitionSource) (c : DefinitionCache) (request : Request) :
    Later source c (c.serve source request) := by
  cases request with
  | resolve id => exact resolve_later source id c
  | loadAll ids => exact loadInto_induct (.refl source) .trans source (resolve_later source) ids _ c

/-- No request, however many come, takes anything from the cache. -/
theorem foldl_serve_later (source : DefinitionSource) (requests : List Request)
    (c : DefinitionCache) : Later source c (requests.foldl (serve source) c) := by
  induction requests generalizing c with
  | nil => exact .refl source c
  | cons request requests ih => exact (serve_later source c request).trans (ih _)

theorem after_append_later (source : DefinitionSource) (requests more : List Request) :
    Later source (after source requests) (after source (requests ++ more)) := by
  rw [after, after, List.foldl_append]
  exact foldl_serve_later source more _

theorem after_sound (source : DefinitionSource) (requests : List Request) :
    (after source requests).cached.Sound :=
  (foldl_serve_later source requests empty).grows.sound Catalog.sound_empty

/-- After any requests, the cache holds for each card the answer that was accepted. -/
theorem after_faithful (source : DefinitionSource) (requests : List Request) :
    (after source requests).Faithful source :=
  (foldl_serve_later source requests empty).faithful fun _ => rfl

/-- The history of a cache. Every entry stands under its own id and is valid; it is the one answer
for its card that was ever accepted; every later request finds it, without a fetch. A card without
an entry is fetched, and an answer that can be accepted becomes the entry. Loads give what they were
asked for, or the error of the first card that cannot be resolved. -/
theorem cache_keeps_accepted (source : DefinitionSource) (requests : List Request) :
    (∀ id d, (after source requests).cached.get? id = some d →
      d.id = id ∧ d.validate = .ok ()) ∧
    (∀ id, accepted source id (after source requests).fetches
      = ((after source requests).cached.get? id).toList) ∧
    (∀ more id d, (after source requests).cached.get? id = some d →
      (after source (requests ++ more)).resolve source id
        = (.ok d, after source (requests ++ more)) ∧
      (after source (requests ++ more)).fetches.count id
        = (after source requests).fetches.count id) ∧
    (∀ id, (after source requests).cached.get? id = none →
      let c := after source requests
      (∀ d, source.fetch c.fetches id = .ok d → d.id = id → d.validate = .ok () →
        c.resolve source id = (.ok d, ⟨c.cached.insert d, id :: c.fetches⟩)) ∧
      (∀ e, accept id (source.fetch c.fetches id) = .error e →
        c.resolve source id = (.error e, { c with fetches := id :: c.fetches }))) ∧
    (∀ ids catalog c', (after source requests).loadAll source ids = (.ok catalog, c') →
      (after source requests).Loaded ids catalog c') ∧
    (∀ ids e c', (after source requests).loadAll source ids = (.error e, c') →
      ∃ before id, StoppedAt source (after source requests) ids e c' before id) := by
  have sound := after_sound source requests
  refine ⟨?_, after_faithful source requests, ?_, fun _ => resolve_of_none, ?_, ?_⟩
  · intro id d hit
    obtain ⟨same, good⟩ := sound id d hit
    exact ⟨same, CardDefinition.validate_eq_ok_iff.mpr good⟩
  · intro more id d hit
    have later := after_append_later source requests more
    exact ⟨resolve_of_some (later.grows.within id d hit), later.count_fetches hit⟩
  · exact fun ids catalog c' h => loaded_of_loadAll sound h
  · exact fun ids e c' h => stoppedAt_of_loadAll sound h

/-- A source that fails at first, then gives another card, and from then on the card asked for. -/
def flaky : DefinitionSource :=
  ⟨fun earlier id =>
    match earlier with
    | [] => .error (.unavailable "down")
    | [_] => .ok (.creature ⟨id.number + 1⟩ "Wisp" 1 1 1)
    | _ => .ok (.creature id "Wisp" 1 1 1)⟩

/-- The third answer for card 2 is kept, and card 3 is fetched once it is asked for. -/
theorem flaky_keeps :
    let requests : List Request := [.resolve ⟨2⟩, .loadAll [⟨2⟩, ⟨3⟩], .resolve ⟨2⟩]
    let more : List Request := [.loadAll [⟨3⟩, ⟨2⟩, ⟨3⟩]]
    let c := after flaky requests
    let c' := after flaky (requests ++ more)
    c.cached.ids = [⟨2⟩] ∧ c.fetches = [⟨2⟩, ⟨2⟩, ⟨2⟩] ∧
      c'.resolve flaky ⟨2⟩ = (.ok (.creature ⟨2⟩ "Wisp" 1 1 1), c') ∧
      c'.fetches.count ⟨2⟩ = 3 ∧
      c.resolve flaky ⟨3⟩ = (.ok (.creature ⟨3⟩ "Wisp" 1 1 1),
        ⟨c.cached.insert (.creature ⟨3⟩ "Wisp" 1 1 1), [⟨3⟩, ⟨2⟩, ⟨2⟩, ⟨2⟩]⟩) := by
  intro requests more c c'
  obtain ⟨-, -, kept, missed, -⟩ := cache_keeps_accepted flaky requests
  have hit : c.cached.get? ⟨2⟩ = some (.creature ⟨2⟩ "Wisp" 1 1 1) := rfl
  have fetches : c.fetches = [⟨2⟩, ⟨2⟩, ⟨2⟩] := by decide
  obtain ⟨again, count⟩ := kept more ⟨2⟩ _ hit
  refine ⟨by decide, fetches, again, count.trans (by decide), ?_⟩
  exact (missed ⟨3⟩ rfl).1 (.creature ⟨3⟩ "Wisp" 1 1 1) rfl rfl rfl

end DefinitionCache

end CardBattle
