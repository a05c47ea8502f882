import CardBattle.Proofs.Dealing

/-!
# The copies of a deck

When decks are dealt, every entry of a deck list becomes a copy of its owner. Copies are numbered
in the order in which they are made: seat by seat, and in the order of the deck list for one seat.
Shuffling changes neither the numbers nor the seed of the generator.
-/

namespace CardBattle

namespace Session

variable {K catalog : Catalog} {ctx : Context} {s s' s'' : Session} {player seat : Seat} {u : Unit}

/-! ### Copies of one owner -/

def copiesOf (s : Session) (seat : Seat) : List CardInstance :=
  s.instances.values.filter fun c => c.owner = seat

def deckOf (s : Session) (seat : Seat) : List CardId :=
  ((s.player? seat).map (·.deckList)).getD []

theorem deckOf_eq {p : Player} (hp : s.player? seat = some p) : s.deckOf seat = p.deckList := by
  rw [deckOf, hp]
  rfl

/-- Dealing is not seen by who does not look at zones. -/
theorem Deals.map_player? {α : Type} {f : Player → α} (h : Deals s s')
    (blind : ∀ p zones, f { p with zones } = f p) (seat : Seat) :
    (s'.player? seat).map f = (s.player? seat).map f := by
  cases hp : s.player? seat with
  | some p =>
    obtain ⟨q, hq, same⟩ := h.players seat p hp
    rw [hq, same, Option.map_some, blind]
    rfl
  | none =>
    cases hq : s'.player? seat with
    | none => rfl
    | some q =>
      obtain ⟨p, hp', -⟩ := h.present_before hq
      cases hp.symm.trans hp'

/-- Dealing changes no deck list. -/
theorem Deals.deckOf (h : Deals s s') (seat : Seat) : s'.deckOf seat = s.deckOf seat :=
  congrArg (Option.getD · []) (h.map_player? (fun _ _ => rfl) seat)

theorem Deals.nameOf (h : Deals s s') (seat : Seat) : s'.nameOf seat = s.nameOf seat := by
  have named : ∀ r : Session, r.nameOf seat = ((r.player? seat).map (·.name)).getD "" := by
    intro r
    rw [Session.nameOf]
    cases r.player? seat <;> rfl
  rw [named, named, h.map_player? (fun _ _ => rfl)]

/-- Copies of some cards, one for each, with numbers that follow each other. -/
structure Consecutive (first : Nat) (cards : List CardId) (made : List CardInstance) : Prop where
  copied : made.map (·.card) = cards
  numbered : made.map (·.id.number) = List.range' first cards.length

/-- Copies that are numbered on from others are consecutive with these. -/
theorem Consecutive.append {first : Nat} {cards cards' : List CardId}
    {made made' : List CardInstance} (h : Consecutive first cards made)
    (h' : Consecutive (first + cards.length) cards' made') :
    Consecutive first (cards ++ cards') (made ++ made') where
  copied := by rw [List.map_append, h.copied, h'.copied]
  numbered := by
    rw [List.map_append, h.numbered, h'.numbered, List.length_append, List.range'_append_1]

theorem mem_copiesOf_iff (housed : s.Housed) {c : CardInstance} :
    c ∈ s.copiesOf seat ↔ s.instance? c.id = some c ∧ c.owner = seat := by
  rw [copiesOf, List.mem_filter, decide_eq_true_eq, KeyMap.mem_values_iff]
  constructor
  · rintro ⟨⟨key, hc⟩, own⟩
    exact ⟨(housed.labelled ⟨key⟩ c hc).symm ▸ hc, own⟩
  · rintro ⟨hc, own⟩
    exact ⟨⟨c.id.number, hc⟩, own⟩

theorem nodup_copiesOf (housed : s.Housed) : ((s.copiesOf seat).map (·.id)).Nodup := by
  refine List.pairwise_map.mpr (List.Pairwise.filter _ (List.pairwise_map.mpr ?_))
  refine s.instances.ascending.imp_of_mem fun {e e'} mem mem' lower same => ?_
  have label := housed.labelled ⟨e.1⟩ e.2 (KeyMap.get?_of_mem mem)
  have label' := housed.labelled ⟨e'.1⟩ e'.2 (KeyMap.get?_of_mem mem')
  rw [label, label'] at same
  have equal : e.1 = e'.1 := congrArg InstanceId.number same
  omega

/-- What a player has in the zones are the copies that the player owns. -/
theorem perm_copiesOf (housed : s.Housed) {p : Player} (hp : s.player? seat = some p) :
    p.zones.allInstances.Perm ((s.copiesOf seat).map (·.id)) := by
  refine (List.perm_ext_iff_of_nodup (housed.apart seat p hp) (nodup_copiesOf housed)).mpr ?_
  intro id
  rw [List.mem_map]
  constructor
  · intro mem
    obtain ⟨c, hc, own⟩ := housed.owned seat p id hp mem
    have label := housed.labelled id c hc
    exact ⟨c, (mem_copiesOf_iff housed).mpr ⟨label.symm ▸ hc, own⟩, label⟩
  · rintro ⟨c, mem, rfl⟩
    obtain ⟨hc, rfl⟩ := (mem_copiesOf_iff housed).mp mem
    obtain ⟨zone, hz⟩ := housed.placed c.id c hc
    obtain ⟨q, hq, there⟩ := housed.owner_of_zone hc hz
    cases hp.symm.trans hq
    exact Zones.mem_allInstances.mpr ⟨zone, there⟩

/-- A player holds the cards of the copies that are the player's own. -/
theorem perm_holdings (housed : s.Housed) {p : Player} (hp : s.player? seat = some p) :
    (s.holdings seat).Perm ((s.copiesOf seat).map (·.card)) := by
  have card : ∀ c ∈ s.copiesOf seat, (s.instance? c.id).map (·.card) = some c.card := by
    intro c mem
    rw [((mem_copiesOf_iff housed).mp mem).1]
    rfl
  have cards : ((s.copiesOf seat).map (·.id)).filterMap (fun id => (s.instance? id).map (·.card))
      = (s.copiesOf seat).map (·.card) := by
    rw [List.filterMap_map]
    exact (List.filterMap_congr card).trans (congrFun List.filterMap_eq_map _)
  rw [holdings_eq hp, ← cards]
  exact (perm_copiesOf housed hp).filterMap _

theorem length_holdings (housed : s.Housed) {p : Player} (hp : s.player? seat = some p) :
    (s.holdings seat).length = p.zones.allInstances.length := by
  rw [(perm_holdings housed hp).length_eq, (perm_copiesOf housed hp).length_eq, List.length_map,
    List.length_map]

/-! ### Copies for one deck -/

/-- A player has got copies of some cards onto the deck, and nothing else has changed but the
generator. -/
structure Provides (K : Catalog) (player : Seat) (cards : List CardId) (s s' : Session) : Prop where
  dealt : s'.Dealt K
  deals : Deals s s'
  log : s'.log = s.log
  seed : s'.rng.seed = s.rng.seed
  next : s'.nextId.number = s.nextId.number + cards.length
  others : ∀ seat, seat ≠ player →
    s'.player? seat = s.player? seat ∧ s'.copiesOf seat = s.copiesOf seat
  deck : ∀ p, s.player? player = some p → ∃ deck,
    s'.player? player = some { p with zones := { p.zones with deck } }
  made : ∃ made, s'.copiesOf player = s.copiesOf player ++ made ∧
    Consecutive s.nextId.number cards made

theorem Provides.trans {cards cards' : List CardId} (h : Provides K player cards s s')
    (h' : Provides K player cards' s' s'') : Provides K player (cards ++ cards') s s'' where
  dealt := h'.dealt
  deals := h.deals.trans h'.deals
  log := h'.log.trans h.log
  seed := h'.seed.trans h.seed
  next := by
    rw [h'.next, h.next, List.length_append]
    omega
  others := by
    intro seat ne
    obtain ⟨players, copies⟩ := h.others seat ne
    obtain ⟨players', copies'⟩ := h'.others seat ne
    exact ⟨players'.trans players, copies'.trans copies⟩
  deck := by
    intro p hp
    obtain ⟨deck, hq⟩ := h.deck p hp
    obtain ⟨deck', hr⟩ := h'.deck _ hq
    exact ⟨deck', hr⟩
  made := by
    obtain ⟨made, copies, numbers⟩ := h.made
    obtain ⟨made', copies', numbers'⟩ := h'.made
    refine ⟨made ++ made', ?_, numbers.append (h.next ▸ numbers')⟩
    rw [copies', copies, List.append_assoc]

theorem provides_of_createInstance {d : CardDefinition} {id : InstanceId} (before : s.Dealt K)
    (hd : K.get? d.id = some d) (h : createInstance player d .deck .top s = .ok id s') :
    Provides K player [d.id] s s' := by
  have adds := adds_of_createInstance before.housed h
  have above : ∀ k ∈ s.instances.keys, k < s.nextId.number := by
    intro k mem
    obtain ⟨c, hc⟩ := KeyMap.mem_keys_iff.mp mem
    exact before.housed.fresh ⟨k⟩ c hc
  obtain ⟨p, hp, -, eq⟩ := of_createInstance before.housed h
  have values : s'.instances.values
      = s.instances.values ++ [CardInstance.ofDefinition s.nextId d player] := by
    rw [eq]
    exact (congrArg (List.map Prod.snd) (KeyMap.entries_insert_of_lt above)).trans List.map_append
  exact {
    dealt := adds.dealt hd before
    deals := adds.deals
    log := by
      rw [eq]
      rfl
    seed := by
      rw [eq]
      rfl
    next := congrArg InstanceId.number adds.next
    others := by
      intro seat ne
      refine ⟨adds.otherPlayers seat ne, ?_⟩
      have another : (CardInstance.ofDefinition s.nextId d player).owner ≠ seat := ne.symm
      simp [copiesOf, values, another]
    deck := by
      intro q hq
      cases hp.symm.trans hq
      obtain ⟨q, hq, hq'⟩ := adds.zones
      cases hp.symm.trans hq
      exact ⟨_, hq'⟩
    made := by
      have own : (CardInstance.ofDefinition s.nextId d player).owner = player := rfl
      refine ⟨[CardInstance.ofDefinition s.nextId d player], ?_, rfl, rfl⟩
      simp [copiesOf, values, own] }

/-- The cards of a deck list come onto the deck one by one. -/
theorem provides_of_materializeDeck (known : catalog.Within K) (filed : K.Filed)
    (cards : List CardId) (before : s.Dealt K)
    (h : materializeDeck catalog player cards s = .ok u s') : Provides K player cards s s' := by
  induction cards generalizing s with
  | nil =>
    obtain ⟨-, rfl⟩ := pure_ok_iff.mp h
    exact ⟨before, .refl s, rfl, rfl, rfl, fun _ _ => ⟨rfl, rfl⟩, fun p hp => ⟨p.zones.deck, hp⟩,
      [], (List.append_nil _).symm, rfl, rfl⟩
  | cons card cards ih =>
    simp only [materializeDeck, bind_ok_iff, Update.check_ok_iff, except_mapError_ok_iff,
      Catalog.require_ok_iff] at h
    obtain ⟨d, _, ⟨hd, rfl⟩, id, m, made, rest⟩ := h
    have same : d.id = card := filed card d (known card d hd)
    have first : Provides K player [card] s m :=
      same ▸ provides_of_createInstance before (same ▸ known card d hd) made
    exact first.trans (ih first.dealt rest)

theorem provides_of_shuffleDeck {random : Random.Source} (before : s.Dealt K)
    (h : shuffleDeck player s = .ok u s') : Provides K player [] s s' := by
  obtain ⟨p, order, rng, hp, perm, seed, rfl⟩ := of_shuffleDeck h
  have reordered : Continues K s (s.setZones player { p.zones with deck := order }) :=
    continues_reorder before.housed hp perm
  have later : Continues K s { s.setZones player { p.zones with deck := order } with rng } :=
    reordered.trans (.of_same rfl rfl rfl)
  have dealt : Dealt K { s.setZones player { p.zones with deck := order } with rng } := by
    refine before.later later rfl fun id lies => ?_
    have zone := zoneOf?_reorder before.housed hp perm id
    exact zone.symm ▸ lies
  refine ⟨dealt, (deals_setZones _).trans (deals_supply rng _ _), rfl, seed, rfl, ?_, ?_, [], ?_,
    rfl, rfl⟩
  · intro seat ne
    exact ⟨player?_modifyPlayer_of_ne _ _ ne.symm, rfl⟩
  · intro q hq
    cases hp.symm.trans hq
    exact ⟨order, (player?_modifyPlayer_self _ _).trans (congrArg (Option.map _) hp)⟩
  · exact (List.append_nil _).symm

/-- A deck that is dealt consists of the cards of its deck list. -/
theorem provides_of_dealDeck (known : ctx.catalog.Within K) (filed : K.Filed) (before : s.Dealt K)
    (h : dealDeck ctx player s = .ok u s') : Provides K player (s.deckOf player) s s' := by
  simp only [dealDeck, bind_ok_iff, Update.check_ok_iff, requirePlayer_ok_iff] at h
  obtain ⟨p, _, ⟨hp, rfl⟩, h⟩ := h
  rw [deckOf_eq hp]
  split at h
  · obtain ⟨_, _, refused, -⟩ := bind_ok_iff.mp h
    exact (throw_ok_iff.mp refused).elim
  · obtain ⟨_, m, made, shuffled⟩ := bind_ok_iff.mp h
    have first := provides_of_materializeDeck known filed p.deckList before made
    exact List.append_nil p.deckList ▸ first.trans (provides_of_shuffleDeck first.dealt shuffled)

/-! ### Copies for all decks -/

def handedIn (s : Session) (seats : List Seat) : Nat :=
  (seats.map fun seat => (s.deckOf seat).length).sum

/-- The decks of some seats have been dealt, one after the other. -/
structure Provided (K : Catalog) (seats : List Seat) (s s' : Session) : Prop where
  dealt : s'.Dealt K
  deals : Deals s s'
  log : s'.log = s.log
  seed : s'.rng.seed = s.rng.seed
  others : ∀ seat, seat ∉ seats →
    s'.player? seat = s.player? seat ∧ s'.copiesOf seat = s.copiesOf seat
  deck : ∀ seat p, s.player? seat = some p → ∃ deck,
    s'.player? seat = some { p with zones := { p.zones with deck } }
  made : ∀ lower seat higher, seats = lower ++ seat :: higher → ∃ made,
    s'.copiesOf seat = s.copiesOf seat ++ made ∧
      Consecutive (s.nextId.number + s.handedIn lower) (s.deckOf seat) made

/-- The induction is on the seats; the numbers of a seat start where those of the seats before it
end. -/
theorem provided_of_forSeats (known : ctx.catalog.Within K) (filed : K.Filed) (seats : List Seat)
    (once : seats.Nodup) (before : s.Dealt K)
    (h : forSeats (dealDeck ctx) seats s = .ok u s') : Provided K seats s s' := by
  induction seats generalizing s with
  | nil =>
    obtain ⟨-, rfl⟩ := pure_ok_iff.mp h
    refine ⟨before, .refl s, rfl, rfl, fun _ _ => ⟨rfl, rfl⟩, fun _ p hp => ⟨p.zones.deck, hp⟩, ?_⟩
    intro lower seat higher split
    simp at split
  | cons first seats ih =>
    obtain ⟨_, m, dealt, rest⟩ := bind_ok_iff.mp h
    obtain ⟨notAgain, once⟩ := List.nodup_cons.mp once
    have provides := provides_of_dealDeck known filed before dealt
    have later := ih once provides.dealt rest
    refine ⟨later.dealt, provides.deals.trans later.deals, later.log.trans provides.log,
      later.seed.trans provides.seed, ?_, ?_, ?_⟩
    · intro seat out
      obtain ⟨ne, out⟩ := not_or.mp (List.mem_cons.not.mp out)
      obtain ⟨players, copies⟩ := provides.others seat ne
      obtain ⟨players', copies'⟩ := later.others seat out
      exact ⟨players'.trans players, copies'.trans copies⟩
    · intro seat p hp
      by_cases same : seat = first
      · subst same
        obtain ⟨deck, hq⟩ := provides.deck p hp
        exact ⟨deck, (later.others seat notAgain).1.trans hq⟩
      · exact later.deck seat p ((provides.others seat same).1.trans hp)
    · intro lower seat higher split
      cases lower with
      | nil =>
        obtain ⟨rfl, rfl⟩ := List.cons.inj split
        obtain ⟨made, copies, numbers⟩ := provides.made
        exact ⟨made, (later.others first notAgain).2.trans copies, numbers⟩
      | cons head lower =>
        obtain ⟨rfl, rfl⟩ := List.cons.inj split
        have ne : seat ≠ first := fun same => notAgain (by simp [same])
        obtain ⟨made, copies, numbers⟩ := later.made lower seat higher rfl
        refine ⟨made, copies.trans (by rw [(provides.others seat ne).2]), ?_⟩
        have start : m.nextId.number + m.handedIn lower
            = s.nextId.number + s.handedIn (first :: lower) := by
          simp only [handedIn, provides.deals.deckOf, provides.next, List.map_cons, List.sum_cons]
          omega
        rwa [start, provides.deals.deckOf] at numbers

end Session

end CardBattle
