import CardBattle.Proofs.Openings

/-!
# When a game can be opened

A waiting game can be opened exactly if every player has handed in a deck of known cards. Whatever
the session looks like, dealing only fills zones, and the opening ends with its entry in the log.
-/

namespace CardBattle

namespace Update

variable {α β : Type}

/-- Whatever the update makes of a session comes from dealing cards. -/
def Dealing (u : Update α) : Prop :=
  ∀ s a s', u s = .ok a s' → Session.Deals s s'

/-- What deals cards in each of its parts deals cards. -/
theorem Dealing.bind {u : Update α} {f : α → Update β} (first : u.Dealing)
    (rest : ∀ a, (f a).Dealing) : Dealing (u >>= f) := by
  intro s b s' h
  obtain ⟨a, m, ran, ran'⟩ := bind_ok_iff.mp h
  exact (first s a m ran).trans (rest a m b s' ran')

theorem dealing_pure (a : α) : Dealing (pure a) := by
  intro s b s' h
  obtain ⟨-, rfl⟩ := pure_ok_iff.mp h
  exact .refl s

theorem dealing_throw (e : GameError) : Dealing (throw e : Update α) :=
  fun _ _ _ h => (throw_ok_iff.mp h).elim

theorem dealing_check (f : Session → Except GameError α) : (check f).Dealing := by
  intro s a s' h
  obtain ⟨-, rfl⟩ := check_ok_iff.mp h
  exact .refl s

end Update

/-- Two lists that read the same agree on what holds of all that is read. -/
theorem forall_of_map_eq {α β γ : Type} {f : α → γ} {g : β → γ} {l : List α} {l' : List β}
    (same : l.map f = l'.map g) (good : γ → Prop) :
    (∀ a ∈ l, good (f a)) ↔ ∀ b ∈ l', good (g b) := by
  constructor
  · intro all
    exact List.forall_mem_map.mp (same ▸ List.forall_mem_map.mpr all)
  · intro all
    exact List.forall_mem_map.mp (same.symm ▸ List.forall_mem_map.mpr all)

namespace Session

open Update

variable {s s' : Session} {catalog : Catalog} {ctx : Context} {player : Seat} {p : Player}
  {u : Unit} {now : Nat}

/-! ### What dealing does -/

theorem dealing_createInstance (owner : Seat) (d : CardDefinition) (zone : Zone)
    (position : Position) : (createInstance owner d zone position).Dealing := by
  intro s id s' h
  rw [createInstance] at h
  split at h
  · cases h
  · dsimp only at h
    split at h <;> cases h
    · exact (deals_supply s.rng _ _).trans (deals_setZones _)
    · exact deals_supply s.rng _ _

theorem dealing_materializeDeck (catalog : Catalog) (player : Seat) (cards : List CardId) :
    (materializeDeck catalog player cards).Dealing := by
  induction cards with
  | nil => exact dealing_pure ()
  | cons card cards ih =>
    refine (dealing_check _).bind fun d => ?_
    exact (dealing_createInstance player d .deck .top).bind fun _ => ih

theorem dealing_shuffleDeck {random : Random.Source} (player : Seat) :
    (shuffleDeck player).Dealing := by
  intro s u s' h
  rw [shuffleDeck] at h
  split at h
  · cases h
  · cases h
    exact (deals_setZones _).trans (deals_supply _ _ _)

theorem dealing_dealDeck (ctx : Context) (player : Seat) : (dealDeck ctx player).Dealing := by
  have made : ∀ deck : List CardId, (materializeDeck ctx.catalog player deck >>= fun _ =>
      @shuffleDeck ctx.random player).Dealing :=
    fun deck => (dealing_materializeDeck ctx.catalog player deck).bind fun _ =>
      dealing_shuffleDeck player
  refine (dealing_check _).bind fun p => ?_
  dsimp only
  split
  · exact (dealing_throw _).bind fun _ => made _
  · exact (dealing_pure _).bind fun _ => made _

theorem dealing_drawCard (player : Seat) (now : Nat) : (drawCard player now).Dealing := by
  intro s drawn s' h
  rw [drawCard] at h
  split at h
  · cases h
  · split at h <;> cases h
    · exact deals_record rfl
    · exact (deals_setZones _).trans (deals_record rfl)

theorem dealing_drawCards (player : Seat) (now n : Nat) : (drawCards player now n).Dealing := by
  induction n with
  | zero => exact dealing_pure ()
  | succ n ih => exact (dealing_drawCard player now).bind fun _ => ih

theorem dealing_forSeats {step : Seat → Update Unit} (each : ∀ seat, (step seat).Dealing)
    (seats : List Seat) : (forSeats step seats).Dealing := by
  induction seats with
  | nil => exact dealing_pure ()
  | cons seat seats ih => exact (each seat).bind fun _ => ih

/-! ### When dealing succeeds -/

theorem mem_seats_iff_player? (few : s.players.count < Seat.bound) (seat : Seat) :
    seat ∈ s.players.seats ↔ ∃ p, s.player? seat = some p := by
  rw [mem_seats_iff few, ← SeatMap.contains_iff, contains_iff_player?]

def Ready (catalog : Catalog) (s : Session) (player : Seat) : Prop :=
  ∃ p, s.player? player = some p ∧ p.deckList ≠ [] ∧
    ∀ card ∈ p.deckList, ∃ d, catalog.get? card = some d

/-- All are ready if nobody's deck is empty or has an unknown card. -/
theorem forall_ready_iff (few : s.players.count < Seat.bound) :
    (∀ seat ∈ s.players.seats, Ready catalog s seat) ↔ ∀ p ∈ s.players.data,
      p.deckList ≠ [] ∧ ∀ card ∈ p.deckList, ∃ d, catalog.get? card = some d := by
  constructor
  · intro ready p mem
    obtain ⟨seat, hp⟩ := mem_players_iff.mp mem
    obtain ⟨q, hq, known⟩ := ready seat ((mem_seats_iff_player? few seat).mpr ⟨p, hp⟩)
    cases hp.symm.trans hq
    exact known
  · intro known seat mem
    obtain ⟨p, hp⟩ := (mem_seats_iff_player? few seat).mp mem
    exact ⟨p, hp, known p (mem_players_iff.mpr ⟨seat, hp⟩)⟩

/-- Dealing makes no difference to who is ready. -/
theorem Deals.ready_iff (h : Deals s s') : Ready catalog s' player ↔ Ready catalog s player := by
  constructor
  · rintro ⟨q, hq, some, known⟩
    obtain ⟨p, hp, same⟩ := h.present_before hq
    exact ⟨p, hp, same ▸ some, same ▸ known⟩
  · rintro ⟨p, hp, some, known⟩
    obtain ⟨q, hq, same⟩ := h.present hp
    exact ⟨q, hq, same.symm ▸ some, same.symm ▸ known⟩

theorem createInstance_succeeds (d : CardDefinition) (zone : Zone) (position : Position)
    (hp : s.player? player = some p) :
    ∃ id s', createInstance player d zone position s = .ok id s' := by
  rw [createInstance, hp]
  dsimp only
  split <;> exact ⟨_, _, rfl⟩

/-- A deck can be made if all its cards are known. -/
theorem materializeDeck_ok_iff (cards : List CardId) (hp : s.player? player = some p) :
    (∃ s', materializeDeck catalog player cards s = .ok () s') ↔
      ∀ card ∈ cards, ∃ d, catalog.get? card = some d := by
  induction cards generalizing s p with
  | nil => exact ⟨fun _ => nofun, fun _ => ⟨s, rfl⟩⟩
  | cons card cards ih =>
    simp only [materializeDeck, exists_bind_ok_iff, check_ok_iff, except_mapError_ok_iff,
      Catalog.require_ok_iff, List.forall_mem_cons]
    constructor
    · rintro ⟨d, _, ⟨hd, rfl⟩, id, m, made, rest⟩
      obtain ⟨q, hq, -⟩ := (dealing_createInstance player d .deck .top _ _ _ made).present hp
      exact ⟨⟨d, hd⟩, (ih hq).mp rest⟩
    · rintro ⟨⟨d, hd⟩, rest⟩
      obtain ⟨id, m, made⟩ := createInstance_succeeds d .deck .top hp
      obtain ⟨q, hq, -⟩ := (dealing_createInstance player d .deck .top _ _ _ made).present hp
      exact ⟨d, s, ⟨hd, rfl⟩, id, m, made, (ih hq).mpr rest⟩

/-- A deck can be dealt to whoever is ready. -/
theorem dealDeck_ok_iff : (∃ s', dealDeck ctx player s = .ok () s') ↔
    Ready ctx.catalog s player := by
  simp only [dealDeck, exists_bind_ok_iff, check_ok_iff, requirePlayer_ok_iff]
  constructor
  · rintro ⟨p, _, ⟨hp, rfl⟩, h⟩
    split at h
    · simp only [exists_bind_ok_iff] at h
      obtain ⟨_, _, refused, -⟩ := h
      exact (throw_ok_iff.mp refused).elim
    · rename_i some
      simp only [exists_bind_ok_iff] at h
      obtain ⟨_, m, made, -⟩ := h
      exact ⟨p, hp, some, (materializeDeck_ok_iff p.deckList hp).mp ⟨m, made⟩⟩
  · rintro ⟨p, hp, some, known⟩
    refine ⟨p, s, ⟨hp, rfl⟩, ?_⟩
    rw [if_neg some]
    simp only [exists_bind_ok_iff]
    obtain ⟨m, made⟩ := (materializeDeck_ok_iff p.deckList hp).mpr known
    obtain ⟨q, hq, -⟩ :=
      (dealing_materializeDeck ctx.catalog player p.deckList _ _ _ made).present hp
    refine ⟨(), m, made, ?_⟩
    simp only [shuffleDeck, hq]
    exact ⟨_, rfl⟩

theorem forSeats_dealDeck_ok_iff (seats : List Seat) :
    (∃ s', forSeats (dealDeck ctx) seats s = .ok () s') ↔
      ∀ seat ∈ seats, Ready ctx.catalog s seat := by
  induction seats generalizing s with
  | nil => exact ⟨fun _ => nofun, fun _ => ⟨s, rfl⟩⟩
  | cons seat seats ih =>
    simp only [forSeats, exists_bind_ok_iff, List.forall_mem_cons]
    constructor
    · rintro ⟨_, m, first, rest⟩
      have deals := dealing_dealDeck ctx seat _ _ _ first
      refine ⟨dealDeck_ok_iff.mp ⟨m, first⟩, fun other mem => ?_⟩
      exact deals.ready_iff.mp (ih.mp rest other mem)
    · rintro ⟨ready, others⟩
      obtain ⟨m, first⟩ := dealDeck_ok_iff.mpr ready
      have deals := dealing_dealDeck ctx seat _ _ _ first
      exact ⟨(), m, first, ih.mpr fun other mem => deals.ready_iff.mpr (others other mem)⟩

theorem drawCard_succeeds (now : Nat) (hp : s.player? player = some p) :
    ∃ drawn s', drawCard player now s = .ok drawn s' := by
  rw [drawCard, hp]
  dsimp only
  split <;> exact ⟨_, _, rfl⟩

/-- A hand can always be drawn. -/
theorem drawCards_succeeds (now n : Nat) (hp : s.player? player = some p) :
    ∃ s', drawCards player now n s = .ok () s' := by
  induction n generalizing s p with
  | zero => exact ⟨s, rfl⟩
  | succ n ih =>
    simp only [drawCards, exists_bind_ok_iff]
    obtain ⟨drawn, m, draws⟩ := drawCard_succeeds now hp
    obtain ⟨q, hq, -⟩ := (dealing_drawCard player now _ _ _ draws).present hp
    exact ⟨drawn, m, draws, ih hq⟩

theorem forSeats_drawCards_succeeds (now n : Nat) (seats : List Seat)
    (present : ∀ seat ∈ seats, ∃ p, s.player? seat = some p) :
    ∃ s', forSeats (fun seat => drawCards seat now n) seats s = .ok () s' := by
  induction seats generalizing s with
  | nil => exact ⟨s, rfl⟩
  | cons seat seats ih =>
    simp only [forSeats, exists_bind_ok_iff]
    obtain ⟨here, others⟩ := List.forall_mem_cons.mp present
    obtain ⟨p, hp⟩ := here
    obtain ⟨m, draws⟩ := drawCards_succeeds now n hp
    have deals := dealing_drawCards seat now n _ _ _ draws
    refine ⟨(), m, draws, ih fun other mem => ?_⟩
    obtain ⟨q, hq⟩ := others other mem
    obtain ⟨r, hr, -⟩ := deals.present hq
    exact ⟨r, hr⟩

/-! ### The opening -/

variable {ctx : Context} {starting : Seat}

theorem of_openGame (h : openGame ctx starting s = .ok u s') :
    s.status = .waiting ∧ (∃ p, s.player? starting = some p) ∧
      (∀ seat ∈ s.players.seats, Ready ctx.catalog s seat) ∧
      ∃ m name now, Deals s m ∧
        s' = { m with status := .playing, current := starting, starting, turn := 1 }.record
          (startEntry starting name now) := by
  obtain ⟨waiting, seated, m, n, q, decks, hands, -, rfl⟩ := openGame_stages h
  have dealt := dealing_forSeats (dealing_dealDeck ctx) _ _ _ _ decks
  have drawn := dealing_forSeats (fun seat => dealing_drawCards seat (ctx.now m) _) _ _ _ _ hands
  exact ⟨waiting, seated, (forSeats_dealDeck_ok_iff _).mp ⟨m, decks⟩, n, q.name, ctx.now m,
    dealt.trans drawn, rfl⟩

/-- A game can be opened once everyone is ready. -/
theorem openGame_ok_iff : (∃ s', openGame ctx starting s = .ok () s') ↔
    s.status = .waiting ∧ (∃ p, s.player? starting = some p) ∧
      ∀ seat ∈ s.players.seats, Ready ctx.catalog s seat := by
  constructor
  · rintro ⟨s', h⟩
    obtain ⟨waiting, seated, ready, -⟩ := of_openGame h
    exact ⟨waiting, seated, ready⟩
  · rintro ⟨waiting, ⟨p, hp⟩, ready⟩
    obtain ⟨m, decks⟩ := (forSeats_dealDeck_ok_iff _).mpr ready
    have dealt := dealing_forSeats (dealing_dealDeck ctx) _ _ _ _ decks
    obtain ⟨n, hands⟩ := forSeats_drawCards_succeeds (s := m) (ctx.now m)
      ctx.config.startingHandSize s.players.seats fun seat mem => by
        obtain ⟨q, hq, -⟩ := ready seat mem
        obtain ⟨r, hr, -⟩ := dealt.present hq
        exact ⟨r, hr⟩
    have drawn := dealing_forSeats (fun seat => dealing_drawCards seat (ctx.now m) _) _ _ _ _ hands
    obtain ⟨q, hq, -⟩ := (dealt.trans drawn).present hp
    simp only [openGame, exists_bind_ok_iff]
    refine ⟨(), s, check_ok_iff.mpr ⟨requireStatus_ok_iff.mpr waiting, rfl⟩, ?_⟩
    refine ⟨p, s, check_ok_iff.mpr ⟨requirePlayer_ok_iff.mpr hp, rfl⟩, ?_⟩
    refine ⟨s, s, get_ok_iff.mpr ⟨rfl, rfl⟩, (), m, decks, m, m, get_ok_iff.mpr ⟨rfl, rfl⟩, ?_⟩
    refine ⟨(), n, hands, (), _, modify_ok_iff.mpr rfl, q, _, check_ok_iff.mpr ⟨?_, rfl⟩, ?_⟩
    · exact requirePlayer_ok_iff.mpr hq
    · exact ⟨_, modify_ok_iff.mpr rfl⟩

end Session

open Session

/-- What answers to the first turn cannot make the start of a game fail. -/
theorem Play.startGame_ok_iff {ctx : Context} {starting : Seat} {t : Table} :
    (∃ t', startGame ctx starting t = .ok () t') ↔
      ∃ s', openGame ctx starting t.session = .ok () s' := by
  simp only [startGame, exists_bind_ok_iff, update_ok_iff]
  constructor
  · rintro ⟨_, _, ⟨s', opened, rfl⟩, -⟩
    exact ⟨s', opened⟩
  · rintro ⟨s', opened⟩
    exact ⟨(), _, ⟨s', opened, rfl⟩, _, fireAll_ok_iff.mpr rfl⟩

end CardBattle
