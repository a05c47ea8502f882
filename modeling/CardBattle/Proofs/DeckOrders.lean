import CardBattle.Proofs.Refusals
import CardBattle.Proofs.Starts

/-!
# Decks in any order

The players of a new game may hand in their decks in any order. Until the last deck nothing becomes
of a deck but that it is kept for its player, and with the last deck the game is opened from what
has been kept. Definitions loaded in another order are the same definitions, so that the game comes
out the same to the last copy.
-/

namespace CardBattle

/-! ### Catalogs with the same entries -/

theorem Catalog.require_congr {c c' : Catalog} (same : ∀ id, c.get? id = c'.get? id) :
    c.require = c'.require := by
  funext id
  rw [require, require, same id]

namespace Session

variable {c c' : Catalog}

/-- What becomes of a deck list depends on nothing of a catalog but what is found in it. -/
theorem materializeDeck_congr (same : ∀ id, c.get? id = c'.get? id) (player : Seat)
    (cards : List CardId) : materializeDeck c player cards = materializeDeck c' player cards := by
  induction cards with
  | nil => rfl
  | cons card cards ih => rw [materializeDeck, materializeDeck, Catalog.require_congr same, ih]

theorem dealDeck_congr {ctx ctx' : Context}
    (same : ∀ id, ctx.catalog.get? id = ctx'.catalog.get? id) (random : ctx.random = ctx'.random) :
    dealDeck ctx = dealDeck ctx' := by
  funext player
  have made := funext (materializeDeck_congr same player)
  rw [dealDeck, dealDeck, made, random]

/-- What decides on chosen targets has no part in the opening. -/
theorem openGame_congr {ctx ctx' : Context}
    (same : ∀ id, ctx.catalog.get? id = ctx'.catalog.get? id) (config : ctx.config = ctx'.config)
    (clock : ctx.clock = ctx'.clock) (random : ctx.random = ctx'.random) :
    openGame ctx = openGame ctx' := by
  have now : ctx.now = ctx'.now := by
    funext s
    rw [Context.now, Context.now, clock]
  funext starting
  rw [openGame, openGame, dealDeck_congr same random, config, now]

/-! ### Handing in decks -/

def handed (s : Session) (decks : Seat → List CardId) (seats : List Seat) : Session :=
  { s with
    players := ⟨s.players.data.mapIdx fun i p =>
      { p with deckList := if ⟨i⟩ ∈ seats then decks ⟨i⟩ else [] }⟩
    revision := seats.length }

variable {config : Config} {s s' : Session} {decks : Seat → List CardId} {seats : List Seat}
  {seat : Seat} {p : Player} {deck : List CardId}

theorem player?_handed : (s.handed decks seats).player? seat = (s.player? seat).map fun p =>
    { p with deckList := if seat ∈ seats then decks seat else [] } := by
  simp [player?, SeatMap.get?, handed]

theorem count_handed : (s.handed decks seats).players.count = s.players.count := by
  simp [SeatMap.count, handed]

/-- In which order the decks have been handed in is not kept. -/
theorem handed_perm {seats' : List Seat} (perm : seats.Perm seats') :
    s.handed decks seats = s.handed decks seats' := by
  unfold handed
  simp only [perm.mem_iff, perm.length_eq]

theorem blank_ofNames {names : List String} (h : ofNames names config = .ok s) :
    s.players.count = names.length ∧ (∀ p ∈ s.players.data, p.deckList = []) ∧ s.revision = 0 := by
  obtain ⟨-, -, -, rfl⟩ := ofNames_ok_iff.mp h
  refine ⟨by simp [SeatMap.count], ?_, rfl⟩
  intro p mem
  obtain ⟨_, -, rfl⟩ := List.mem_map.mp mem
  rfl

theorem handed_nil (blank : ∀ p ∈ s.players.data, p.deckList = []) (revision : s.revision = 0) :
    s.handed decks [] = s := by
  have players : (s.players.data.mapIdx fun i p =>
      { p with deckList := if (⟨i⟩ : Seat) ∈ [] then decks ⟨i⟩ else [] }) = s.players.data := by
    apply List.ext_getElem (by simp)
    intro i hi hi'
    have mem := List.getElem_mem hi'
    simp [← blank _ mem]
  unfold handed
  rw [players, List.length_nil, ← revision]

theorem Waiting.handed (h : s.Waiting config) (decks : Seat → List CardId) (seats : List Seat) :
    (s.handed decks seats).Waiting config where
  status := h.status
  few := count_handed.symm ▸ h.few
  many := count_handed.symm ▸ h.many
  players := by
    intro seat q hq
    rw [player?_handed] at hq
    obtain ⟨p, hp, rfl⟩ := Option.map_eq_some_iff.mp hq
    have untouched := h.players seat p hp
    exact ⟨untouched.id, untouched.health, untouched.maxHealth, untouched.energy,
      untouched.maxEnergy, untouched.zones⟩
  current := h.current
  starting := h.starting
  turn := h.turn
  winner := h.winner
  instances := h.instances
  nextId := h.nextId
  log := h.log

/-- One more deck is handed in. -/
theorem modifyPlayer_handed (seat : Seat) (seats : List Seat) :
    (s.handed decks seats).modifyPlayer seat
      (fun p => { p with deckList := decks seat })
      = { s.handed decks (seat :: seats) with revision := seats.length } := by
  have players : ((s.handed decks seats).players.modify seat fun p =>
      { p with deckList := decks seat }) = (s.handed decks (seat :: seats)).players := by
    unfold handed SeatMap.modify
    congr 1
    apply List.ext_getElem (by simp)
    intro i hi hi'
    by_cases same : seat.index = i
    · subst same
      simp
    · have other : (⟨i⟩ : Seat) ≠ seat := fun h => same (congrArg Seat.index h.symm)
      simp [same, other]
  rw [modifyPlayer, players]
  rfl

/-- The decks at the table, seat by seat. -/
theorem decks_handed (few : s.players.count < Seat.bound) :
    (s.handed decks seats).players.data.map (·.deckList)
      = s.players.seats.map fun seat => if seat ∈ seats then decks seat else [] := by
  have count : s.players.seats.length = s.players.data.length := by
    rw [SeatMap.seats, List.length_map, List.length_range, Nat.mod_eq_of_lt few, SeatMap.count]
  apply List.ext_getElem (by simp [handed, count])
  intro i hi hi'
  simp [handed, SeatMap.seats]

theorem forall_handed_iff (few : s.players.count < Seat.bound) (good : List CardId → Prop) :
    (∀ p ∈ (s.handed decks seats).players.data, good p.deckList) ↔
      ∀ seat ∈ s.players.seats, good (if seat ∈ seats then decks seat else []) :=
  forall_of_map_eq (decks_handed few) good

/-- Everyone has handed in a deck if every seat has. -/
theorem all_handed_iff (few : s.players.count < Seat.bound)
    (some : ∀ seat ∈ s.players.seats, decks seat ≠ []) :
    ((s.handed decks seats).players.data.all fun p => decide (p.deckList ≠ [])) = true ↔
      ∀ seat ∈ s.players.seats, seat ∈ seats := by
  simp only [List.all_eq_true, decide_eq_true_eq]
  rw [forall_handed_iff few (· ≠ [])]
  refine forall₂_congr fun seat mem => ?_
  by_cases given : seat ∈ seats
  · simp only [given, if_true]
    exact iff_of_true (some seat mem) trivial
  · simp only [given, if_false, ne_eq, not_true_eq_false]

variable {catalog : Catalog}

/-- A deck is in order if every card of it is known and valid. -/
theorem checkDeck_ok_iff : checkDeck catalog deck = .ok () ↔
    ∀ card ∈ deck, ∃ d, catalog.get? card = some d ∧ d.fault? = none := by
  induction deck with
  | nil => exact ⟨fun _ => nofun, fun _ => rfl⟩
  | cons card cards ih =>
    rw [checkDeck, List.forall_mem_cons, ← ih, Catalog.require]
    cases catalog.get? card with
    | none => simp
    | some d =>
      simp only [CardDefinition.validate, Option.some.injEq, exists_eq_left']
      cases d.fault? <;> simp

/-- Whoever has no deck yet can hand one in that is in order. -/
theorem submitDeck_succeeds (waiting : s.status = .waiting) (hp : s.player? seat = some p)
    (first : p.deckList = []) (some : deck ≠ []) (good : checkDeck catalog deck = .ok ()) :
    submitDeck catalog seat deck s = .ok
      ((s.modifyPlayer seat fun p => { p with deckList := deck }).players.data.all fun p =>
        decide (p.deckList ≠ []))
      (s.modifyPlayer seat fun p => { p with deckList := deck }) := by
  have unset : ¬p.deckList ≠ [] := not_not.mpr first
  have awaits : Update.check (requireStatus .waiting) s = .ok () s :=
    Update.check_ok_iff.mpr ⟨requireStatus_ok_iff.mpr waiting, rfl⟩
  have there : Update.check (requirePlayer seat) s = .ok p s :=
    Update.check_ok_iff.mpr ⟨requirePlayer_ok_iff.mpr hp, rfl⟩
  have sound : (checkDeck catalog deck).mapError GameError.catalog = .ok () :=
    except_mapError_ok_iff.mpr good
  refine bind_ok_iff.mpr ⟨(), s, awaits, bind_ok_iff.mpr ⟨p, s, there, ?_⟩⟩
  rw [if_neg unset, if_neg some]
  exact bind_ok_iff.mpr ⟨(), s, Update.check_ok_iff.mpr ⟨sound, rfl⟩, rfl⟩

/-- The cards that a document refers to are those of the decks handed in. -/
theorem mem_referenced_handed (waiting : s.Waiting config) {card : CardId} :
    card ∈ Engine.referenced (s.handed decks seats) ↔
      ∃ seat ∈ seats, seat ∈ s.players.seats ∧ card ∈ decks seat := by
  have none : (s.handed decks seats).instances.values = [] := by
    rw [(waiting.handed decks seats).instances]
    rfl
  rw [Engine.referenced, none, List.map_nil, List.nil_append, List.flatMap_def,
    decks_handed waiting.few, List.mem_flatten]
  constructor
  · rintro ⟨deck, listed, there⟩
    obtain ⟨seat, seated, rfl⟩ := List.mem_map.mp listed
    split at there
    · rename_i given
      exact ⟨seat, given, seated, there⟩
    · cases there
  · rintro ⟨seat, given, seated, there⟩
    exact ⟨decks seat, List.mem_map.mpr ⟨seat, seated, if_pos given⟩, there⟩

/-- A player who has not handed in a deck yet can do so. -/
theorem submitDeck_handed (waiting : s.Waiting config) (mem : seat ∈ s.players.seats)
    (first : seat ∉ seats) (some : ∀ seat ∈ s.players.seats, decks seat ≠ [])
    (good : checkDeck catalog (decks seat) = .ok ()) :
    ∃ all, submitDeck catalog seat (decks seat) (s.handed decks seats)
        = .ok all { s.handed decks (seat :: seats) with revision := seats.length } ∧
      (all = true ↔ ∀ other ∈ s.players.seats, other ∈ seat :: seats) := by
  obtain ⟨p, hp⟩ := (mem_seats_iff_player? waiting.few seat).mp mem
  have handed : (s.handed decks seats).player? seat = _ := player?_handed
  rw [hp, Option.map_some] at handed
  have ran := submitDeck_succeeds (waiting.handed decks seats).status handed (if_neg first)
    (some seat mem) good
  rw [modifyPlayer_handed] at ran
  exact ⟨_, ran, all_handed_iff waiting.few some⟩

end Session

/-! ### Calls that hand in decks -/

/-- The calls that hand in decks, in some order of seats and by some clocks. -/
def handIns (decks : Seat → List CardId) (order : List (Seat × Clock)) : List TimedCall :=
  order.map fun (seat, clock) => ⟨clock, .startWithDeck seat (decks seat)⟩

namespace Engine

open Session

variable {config : Config} {e : Engine} {w : World} {s s' : Session} {decks : Seat → List CardId}
  {table : CardId → Except CatalogError CardDefinition} {seats : List Seat} {seat : Seat}
  {now : Nat}

/-- The document has the decks of some seats, and definitions can be had as the table says. -/
structure Gathers (e : Engine) (s : Session) (decks : Seat → List CardId)
    (table : CardId → Except CatalogError CardDefinition) (seats : List Seat) (w : World) :
    Prop where
  found : w.documents.find? e.document = some (s.handed decks seats)
  sound : w.definitions.cached.Sound
  answer : w.definitions.answer e.source = table

/-- What is asked of the decks: none is empty, and every card can be had. -/
structure Playable (s : Session) (decks : Seat → List CardId)
    (table : CardId → Except CatalogError CardDefinition) : Prop where
  some : ∀ seat ∈ s.players.seats, decks seat ≠ []
  known : ∀ seat ∈ s.players.seats, ∀ card ∈ decks seat, ∃ d, table card = .ok d

def Holds (s : Session) (decks : Seat → List CardId)
    (table : CardId → Except CatalogError CardDefinition) (seats : List Seat) (c : Catalog) :
    Prop :=
  ∀ id d, c.get? id = some d ↔
    (∃ seat ∈ seats, seat ∈ s.players.seats ∧ id ∈ decks seat) ∧ table id = .ok d

theorem performAll_cons (c : TimedCall) (calls : List TimedCall) (w : World) :
    e.performAll (c :: calls) w =
      ((c, (e.performAt c w).1) :: (e.performAll calls (e.performAt c w).2).1,
        (e.performAll calls (e.performAt c w).2).2) :=
  rfl

theorem performAll_append (calls calls' : List TimedCall) (w : World) :
    e.performAll (calls ++ calls') w =
      ((e.performAll calls w).1 ++ (e.performAll calls' (e.performAll calls w).2).1,
        (e.performAll calls' (e.performAll calls w).2).2) := by
  induction calls generalizing w with
  | nil => rfl
  | cons c calls ih => rw [List.cons_append, performAll_cons, performAll_cons, ih, List.cons_append]

/-- A call that hands in a deck, once its rule has succeeded. -/
theorem perform_of_submit {deck : List CardId} {catalog : Catalog} {t : Table}
    (found : w.documents.find? e.document = some s)
    (loaded : (e.loadCatalog s deck w).1 = .ok catalog)
    (plays : Play.submitDeckAndStart (e.context catalog w) seat deck ⟨s, w.asked⟩ = .ok () t) :
    (e.perform (.startWithDeck seat deck) w).1 = .accepted ∧
      (e.perform (.startWithDeck seat deck) w).2.documents
        = w.documents.change e.document fun _ => { t.session with revision := s.revision + 1 } := by
  have yields : e.Yields (.startWithDeck seat deck) w s t.session :=
    ⟨catalog, t, loaded, plays, rfl⟩
  exact perform_of_yields found (fun h => by cases h) yields

/-- The decks of the same seats have the same definitions, in whatever order they were handed in. -/
theorem Holds.get?_eq {seats' : List Seat} {c c' : Catalog} (h : Holds s decks table seats c)
    (h' : Holds s decks table seats' c') (perm : seats.Perm seats') (id : CardId) :
    c.get? id = c'.get? id := by
  apply Option.ext
  intro d
  rw [h, h']
  simp only [perm.mem_iff]

namespace Gathers

/-- The clock does not matter. -/
theorem atTime (gathers : e.Gathers s decks table seats w) (clock : Clock) :
    e.Gathers s decks table seats { w with clock } :=
  ⟨gathers.found, gathers.sound, gathers.answer⟩

theorem load (gathers : e.Gathers s decks table seats w) (static : e.source.Static)
    (waiting : s.Waiting config) (playable : Playable s decks table)
    (mem : seat ∈ s.players.seats) :
    ∃ catalog K, (e.loadCatalog (s.handed decks seats) (decks seat) w).1 = .ok catalog ∧
      catalog.Within K ∧ K.Sound ∧ Holds s decks table (seat :: seats) catalog := by
  have asked : ∀ id, id ∈ referenced (s.handed decks seats) ++ decks seat ↔
      ∃ other ∈ seat :: seats, other ∈ s.players.seats ∧ id ∈ decks other := by
    intro id
    rw [List.mem_append, mem_referenced_handed waiting, List.exists_mem_cons_iff, or_comm]
    simp only [mem, true_and]
  obtain ⟨catalog, loaded⟩ := (DefinitionCache.loadAll_ok_iff static gathers.sound _).mpr
    fun id there => by
      obtain ⟨other, -, seated, card⟩ := (asked id).mp there
      rw [gathers.answer]
      exact playable.known other seated id card
  have loaded' : (e.loadCatalog (s.handed decks seats) (decks seat) w).1 = .ok catalog :=
    except_mapError_ok_iff.mpr loaded
  refine ⟨catalog, _, loaded', loadCatalog_within gathers.sound loaded',
    (loadCatalog_grows e _ _ w).sound gathers.sound, ?_⟩
  intro id d
  rw [DefinitionCache.get?_of_loadAll static gathers.sound (Prod.ext loaded rfl), gathers.answer,
    asked]

/-- Whoever has not handed in a deck yet can do so. -/
theorem submit (gathers : e.Gathers s decks table seats w) (static : e.source.Static)
    (waiting : s.Waiting config) (playable : Playable s decks table) (mem : seat ∈ s.players.seats)
    (first : seat ∉ seats) :
    ∃ catalog K all, (e.loadCatalog (s.handed decks seats) (decks seat) w).1 = .ok catalog ∧
      catalog.Within K ∧ K.Sound ∧ Holds s decks table (seat :: seats) catalog ∧
      submitDeck catalog seat (decks seat) (s.handed decks seats)
        = .ok all { s.handed decks (seat :: seats) with revision := seats.length } ∧
      (all = true ↔ ∀ other ∈ s.players.seats, other ∈ seat :: seats) := by
  obtain ⟨catalog, K, loaded, within, definitions, holds⟩ :=
    gathers.load static waiting playable mem
  have good : checkDeck catalog (decks seat) = .ok () := by
    refine checkDeck_ok_iff.mpr fun card there => ?_
    obtain ⟨d, answer⟩ := playable.known seat mem card there
    have hd := (holds card d).mpr ⟨⟨seat, List.mem_cons_self, mem, there⟩, answer⟩
    exact ⟨d, hd, (definitions card d (within card d hd)).2⟩
  obtain ⟨all, ran, full⟩ := submitDeck_handed waiting mem first playable.some good
  exact ⟨catalog, K, all, loaded, within, definitions, holds, ran, full⟩

/-- A deck that is not the last is kept. -/
theorem next (gathers : e.Gathers s decks table seats w) (static : e.source.Static)
    (waiting : s.Waiting config) (playable : Playable s decks table) (mem : seat ∈ s.players.seats)
    (first : seat ∉ seats) (missing : ∃ other ∈ s.players.seats, other ∉ seat :: seats) :
    (e.perform (.startWithDeck seat (decks seat)) w).1 = .accepted ∧
      e.Gathers s decks table (seat :: seats)
        (e.perform (.startWithDeck seat (decks seat)) w).2 := by
  obtain ⟨catalog, -, all, loaded, -, -, -, ran, full⟩ :=
    gathers.submit static waiting playable mem first
  obtain ⟨other, seated, absent⟩ := missing
  cases all with
  | true => exact absurd (full.mp rfl other seated) absent
  | false =>
    have plays : Play.submitDeckAndStart (e.context catalog w) seat (decks seat)
        ⟨s.handed decks seats, w.asked⟩
        = .ok () ⟨{ s.handed decks (seat :: seats) with revision := seats.length }, w.asked⟩ :=
      bind_ok_iff.mpr ⟨false, _, Play.update_ok_iff.mpr ⟨_, ran, rfl⟩, rfl⟩
    obtain ⟨reply, documents⟩ := perform_of_submit gathers.found loaded plays
    have grows : w.definitions.Grows
        (e.perform (.startWithDeck seat (decks seat)) w).2.definitions :=
      (perform_moves gathers.sound (.refl _)).2
    refine ⟨reply, ?_, grows.sound gathers.sound,
      (perform_answer static _ w).trans gathers.answer⟩
    rw [documents]
    exact DocumentStore.find?_change_self gathers.found

/-- With the last deck the game is opened. -/
theorem last (gathers : e.Gathers s decks table seats w) (static : e.source.Static)
    (waiting : s.Waiting config) (playable : Playable s decks table) (mem : seat ∈ s.players.seats)
    (first : seat ∉ seats) (perm : (seat :: seats).Perm s.players.seats) {ctx : Context}
    (holds : Holds s decks table s.players.seats ctx.catalog) (settings : ctx.config = e.config)
    (clock : ctx.clock = w.clock) (random : ctx.random = e.random)
    (opens : openGame ctx s.starting
      { s.handed decks s.players.seats with revision := s.players.seats.length - 1 } = .ok () s') :
    (e.perform (.startWithDeck seat (decks seat)) w).1 = .accepted ∧
      (e.perform (.startWithDeck seat (decks seat)) w).2.documents.find? e.document
        = some { s' with revision := s.players.seats.length } := by
  obtain ⟨catalog, K, all, loaded, within, definitions, holds', ran, full⟩ :=
    gathers.submit static waiting playable mem first
  have done : all = true := full.mpr fun other seated => perm.mem_iff.mpr seated
  subst done
  have number : seats.length = s.players.seats.length - 1 := by
    rw [← perm.length_eq]
    rfl
  have waiting' := (waiting.handed decks seats).submitDeck ran
  have same : openGame (e.context catalog w) = openGame ctx :=
    openGame_congr (holds'.get?_eq holds perm) settings.symm clock.symm random.symm
  rw [← same, ← number, ← handed_perm perm] at opens
  obtain ⟨t, starts⟩ := Play.startGame_ok_iff.mpr
    (show ∃ s', openGame _ s.starting (⟨{ s.handed decks (seat :: seats) with
      revision := seats.length }, w.asked⟩ : Table).session = .ok () s' from ⟨s', opens⟩)
  obtain ⟨s'', opens', rfl⟩ := Play.of_startGame within definitions.filed waiting' starts
  cases opens.symm.trans opens'
  have plays : Play.submitDeckAndStart (e.context catalog w) seat (decks seat)
      ⟨s.handed decks seats, w.asked⟩ = .ok () ⟨s', w.asked⟩ :=
    bind_ok_iff.mpr ⟨true, _, Play.update_ok_iff.mpr ⟨_, ran, rfl⟩,
      bind_ok_iff.mpr ⟨s.starting, _, Play.view_ok_iff.mpr ⟨rfl, rfl⟩, starts⟩⟩
  obtain ⟨reply, documents⟩ := perform_of_submit gathers.found loaded plays
  refine ⟨reply, ?_⟩
  rw [documents, DocumentStore.find?_change_self gathers.found, ← perm.length_eq]
  rfl

/-- As long as a deck is missing, all that hand in theirs are kept. -/
theorem collect (gathers : e.Gathers s decks table seats w) (static : e.source.Static)
    (waiting : s.Waiting config) (playable : Playable s decks table) (order : List (Seat × Clock))
    (once : (order.map (·.1) ++ seats).Nodup)
    (inside : ∀ entry ∈ order, entry.1 ∈ s.players.seats)
    (missing : ∃ other ∈ s.players.seats, other ∉ order.map (·.1) ++ seats) :
    (e.performAll (handIns decks order) w).1
        = (handIns decks order).map (fun c => (c, .accepted)) ∧
      ∃ seats', seats'.Perm (order.map (·.1) ++ seats) ∧
        e.Gathers s decks table seats' (e.performAll (handIns decks order) w).2 := by
  induction order generalizing seats w with
  | nil => exact ⟨rfl, seats, .refl _, gathers⟩
  | cons entry order ih =>
    obtain ⟨seat, clock⟩ := entry
    obtain ⟨here, others⟩ := List.forall_mem_cons.mp inside
    obtain ⟨new, -⟩ := List.nodup_cons.mp once
    obtain ⟨other, seated, absent⟩ := missing
    have moved : (order.map (·.1) ++ seat :: seats).Perm (seat :: (order.map (·.1) ++ seats)) :=
      List.perm_middle
    have apart : other ∉ seat :: seats := by
      intro mem
      apply absent
      rcases List.mem_cons.mp mem with rfl | mem
      · exact List.mem_cons_self
      · exact List.mem_cons_of_mem _ (List.mem_append_right _ mem)
    have first : seat ∉ seats := fun mem => new (List.mem_append_right _ mem)
    obtain ⟨reply, gathers'⟩ := (gathers.atTime clock).next static waiting playable here first
      ⟨other, seated, apart⟩
    obtain ⟨replies, seats', perm, later⟩ := ih gathers' (moved.nodup_iff.mpr once) others
      ⟨other, seated, fun mem => absent (moved.mem_iff.mp mem)⟩
    refine ⟨?_, seats', perm.trans moved, later⟩
    exact List.cons_eq_cons.mpr ⟨Prod.ext rfl reply, replies⟩

end Gathers

/-- When all decks are in and their cards are known, the game can be opened. -/
theorem Holds.opens (waiting : s.Waiting config) (playable : Playable s decks table) {ctx : Context}
    (holds : Holds s decks table s.players.seats ctx.catalog) (revision : Nat) :
    ∃ s', openGame ctx s.starting { s.handed decks s.players.seats with revision } = .ok () s' := by
  have ready : ∀ p ∈ (s.handed decks s.players.seats).players.data,
      p.deckList ≠ [] ∧ ∀ card ∈ p.deckList, ∃ d, ctx.catalog.get? card = some d := by
    refine (forall_handed_iff waiting.few fun deck =>
      deck ≠ [] ∧ ∀ card ∈ deck, ∃ d, ctx.catalog.get? card = some d).mpr fun seat seated => ?_
    rw [if_pos seated]
    refine ⟨playable.some seat seated, fun card there => ?_⟩
    obtain ⟨d, answer⟩ := playable.known seat seated card there
    exact ⟨d, (holds card d).mpr ⟨⟨seat, seated, seated, there⟩, answer⟩⟩
  have waiting' := waiting.handed decks s.players.seats
  have first : (s.handed decks s.players.seats).players.contains s.starting = true := by
    rw [SeatMap.contains_iff, waiting.starting]
    exact Nat.lt_of_lt_of_le (by decide) waiting'.many
  exact openGame_ok_iff.mpr ⟨waiting.status, contains_iff_player?.mp first,
    (forall_ready_iff waiting'.few).mpr ready⟩

/-- When everyone hands in a deck, it is the decks and the time of the last that count. -/
theorem Gathers.complete (gathers : e.Gathers s decks table [] w) (static : e.source.Static)
    (waiting : s.Waiting config) (playable : Playable s decks table) {ctx : Context}
    (holds : Holds s decks table s.players.seats ctx.catalog) (settings : ctx.config = e.config)
    (random : ctx.random = e.random)
    (opens : openGame ctx s.starting
      { s.handed decks s.players.seats with revision := s.players.seats.length - 1 } = .ok () s')
    {order : List (Seat × Clock)} (perm : (order.map (·.1)).Perm s.players.seats)
    (ends : order.getLast?.map (·.2) = some ctx.clock) :
    (e.performAll (handIns decks order) w).1
        = (handIns decks order).map (fun c => (c, .accepted)) ∧
      (e.performAll (handIns decks order) w).2.documents.find? e.document
        = some { s' with revision := s.players.seats.length } := by
  obtain ⟨⟨seat, clock⟩, ends, same⟩ := Option.map_eq_some_iff.mp ends
  obtain ⟨front, rfl⟩ := List.getLast?_eq_some_iff.mp ends
  rw [List.map_append] at perm
  have once : (front.map (·.1) ++ [seat]).Nodup := perm.nodup_iff.mpr nodup_seats
  have members : ∀ other, other ∈ front.map (·.1) ++ [seat] → other ∈ s.players.seats :=
    fun other mem => perm.mem_iff.mp mem
  have seated : seat ∈ s.players.seats :=
    members seat (List.mem_append_right _ (List.mem_singleton.mpr rfl))
  have absent : seat ∉ front.map (·.1) ++ [] := by
    rw [List.append_nil]
    exact fun mem => List.disjoint_of_nodup_append once mem (List.mem_singleton.mpr rfl)
  -- all but the last
  obtain ⟨replies, kept, perm', gathers'⟩ := gathers.collect static waiting playable front
    (List.append_nil _ ▸ (List.nodup_append.mp once).1)
    (fun entry mem => members _ (List.mem_append_left _ (List.mem_map_of_mem mem)))
    ⟨seat, seated, absent⟩
  have all : (seat :: kept).Perm s.players.seats := by
    have together := perm'.cons seat
    rw [List.append_nil] at together
    exact (together.trans (List.perm_append_singleton seat _).symm).trans perm
  -- the last
  obtain ⟨reply, found⟩ := (gathers'.atTime clock).last static waiting playable seated
    (fun mem => absent (perm'.mem_iff.mp mem)) all holds settings same.symm random opens
  rw [handIns, List.map_append, ← handIns, performAll_append]
  refine ⟨?_, found⟩
  rw [List.map_append]
  exact congrArg₂ _ replies (congrArg (fun r => [(_, r)]) reply)

/-- The decks of a new game may be handed in in any order and at any times. If the clock is the same
at the last, the document is the same in the end. -/
theorem deck_order_irrelevant {random : Random.Source} {names : List String}
    {source : DefinitionSource} {chooser : Chooser}
    (valid : config.fault? = none) (many : 2 ≤ names.length) (few : names.length ≤ 255)
    (static : source.Static) (sound : w.definitions.cached.Sound)
    (full : ∀ seat, seat.index < names.length → decks seat ≠ [])
    (known : ∀ seat, seat.index < names.length → ∀ card ∈ decks seat,
      ∃ d, w.definitions.answer source card = .ok d) (clock : Clock) :
    ∃ e w₀ final, newGame names config source chooser w = .ok (e, w₀) ∧ final.status = .playing ∧
      ∀ order : List (Seat × Clock),
        (order.map (·.1)).Perm ((List.range names.length).map Seat.mk) →
        order.getLast?.map (·.2) = some clock →
        (e.performAll (handIns decks order) w₀).1
            = (handIns decks order).map (fun c => (c, .accepted)) ∧
          (e.performAll (handIns decks order) w₀).2.documents.find? e.document = some final := by
  obtain ⟨s, named⟩ : ∃ s, ofNames names config = .ok s :=
    ⟨_, ofNames_ok_iff.mpr ⟨valid, many, few, rfl⟩⟩
  have waiting := waiting_ofNames named
  obtain ⟨count, blank, revision⟩ := blank_ofNames named
  have seats : s.players.seats = (List.range names.length).map Seat.mk := by
    rw [SeatMap.seats, Nat.mod_eq_of_lt waiting.few, count]
  have inside : ∀ seat ∈ s.players.seats, seat.index < names.length :=
    fun seat mem => count ▸ (mem_seats_iff waiting.few).mp mem
  have playable : Playable s decks (w.definitions.answer source) :=
    ⟨fun seat mem => full seat (inside seat mem), fun seat mem => known seat (inside seat mem)⟩
  obtain ⟨catalog, loaded⟩ := (DefinitionCache.loadAll_ok_iff static sound
    (s.players.seats.flatMap decks)).mpr fun card there => by
      obtain ⟨seat, mem, there⟩ := List.mem_flatMap.mp there
      exact playable.known seat mem card there
  have holds : Holds s decks (w.definitions.answer source) s.players.seats catalog := by
    intro id d
    rw [DefinitionCache.get?_of_loadAll static sound (Prod.ext loaded rfl), List.mem_flatMap]
    simp only [and_self_left]
  obtain ⟨s', opens⟩ := @Holds.opens _ _ _ _ waiting playable ⟨catalog, config, clock, chooser⟩
    holds (s.players.seats.length - 1)
  have gathers : Gathers ⟨(w.documents.create s).1, config, source, chooser⟩ s decks
      (w.definitions.answer source) [] { w with documents := (w.documents.create s).2 } := by
    refine ⟨?_, sound, rfl⟩
    rw [handed_nil blank revision]
    exact DocumentStore.find?_create_self
  have playing : s'.status = .playing := by
    obtain ⟨-, -, -, m, name, now, -, rfl⟩ := of_openGame opens
    rfl
  refine ⟨_, _, { s' with revision := s.players.seats.length },
    newGame_ok_iff.mpr ⟨s, named, rfl, rfl⟩, playing, fun order perm ends => ?_⟩
  exact gathers.complete static waiting playable holds rfl rfl opens (seats ▸ perm) ends

/-- Ann and Bob both play with a wolf, and it does not matter who is ready first. -/
theorem duel_either_order : ∃ e w₀ final,
    newGame ["Ann", "Bob"] { startingHealth := 2 } Site.duel.engine.source .first
      ⟨.empty, .empty, .still 0, []⟩ = .ok (e, w₀) ∧ final.status = .playing ∧
    (e.performAll (handIns (fun _ => [⟨1⟩]) [(⟨0⟩, .still 10), (⟨1⟩, .still 30)])
      w₀).2.documents.find? e.document = some final ∧
    (e.performAll (handIns (fun _ => [⟨1⟩]) [(⟨1⟩, .still 20), (⟨0⟩, .still 30)])
      w₀).2.documents.find? e.document = some final := by
  have wolf : ∃ d, DefinitionCache.empty.answer Site.duel.engine.source ⟨1⟩ = .ok d :=
    ⟨.creature ⟨1⟩ "Wolf" 1 2 2, rfl⟩
  obtain ⟨e, w₀, final, made, playing, orders⟩ := @deck_order_irrelevant { startingHealth := 2 }
    ⟨.empty, .empty, .still 0, []⟩ (fun _ => [⟨1⟩]) Random.chaCha ["Ann", "Bob"]
    Site.duel.engine.source .first (by decide) (by decide) (by decide)
    (DefinitionSource.static_ofCatalog _) Catalog.sound_empty
    (fun _ _ => List.cons_ne_nil _ _) (fun _ _ card mem => List.mem_singleton.mp mem ▸ wolf)
    (.still 30)
  refine ⟨e, w₀, final, made, playing, ?_, ?_⟩
  · exact (orders [(⟨0⟩, .still 10), (⟨1⟩, .still 30)] (List.Perm.refl _) rfl).2
  · exact (orders [(⟨1⟩, .still 20), (⟨0⟩, .still 30)] (List.Perm.swap _ _ _) rfl).2

end Engine

end CardBattle
