import CardBattle.Proofs.DeckCopies

/-!
# Openings

A waiting game has no copies and full resources. Players hand in decks, and with the last one the
game opens: every player holds a copy for each entry of their deck list, partly in the deck and
partly in the hand. Since nothing is in play yet, no ability answers to the first turn.
-/

namespace CardBattle

structure Player.Untouched (config : Config) (seat : Seat) (p : Player) : Prop where
  id : p.id = seat
  health : p.health = config.startingHealth
  maxHealth : p.maxHealth = config.startingHealth
  energy : p.energy = config.startingEnergy
  maxEnergy : p.maxEnergy = config.startingEnergy
  zones : p.zones = Zones.empty

namespace Session

variable {config : Config} {K : Catalog} {s s' : Session} {player : Seat} {now : Nat} {u : Unit}

/-! ### Draws -/

structure Draws (K : Catalog) (s s' : Session) : Prop where
  dealt : s'.Dealt K
  deals : Deals s s'
  continues : Continues K s s'

/-- Draws one after another are draws. -/
theorem Draws.trans {s'' : Session} (h : Draws K s s') (h' : Draws K s' s'') : Draws K s s'' :=
  ⟨h'.dealt, h.deals.trans h'.deals, h.continues.trans h'.continues⟩

theorem draws_of_drawCard (before : s.Dealt K) {drawn : Option InstanceId}
    (h : drawCard player now s = .ok drawn s') : Draws K s s' := by
  have later := continues_drawCard (K := K) before.housed h
  obtain ⟨p, hp, ⟨-, -, rfl⟩ | ⟨id, -, -, mem, rfl⟩⟩ := of_drawCard (before.housed.apart player) h
  · exact ⟨before.later later rfl fun _ h => h, deals_record rfl, later⟩
  · have drawn : Zone.deck ≠ .hand := by decide
    obtain ⟨c, hc, rfl, -⟩ := before.housed.of_mem hp mem
    refine ⟨before.later later rfl ?_, ?_, later⟩
    · intro other h
      by_cases same : other = id
      · subst same
        exact Or.inr (zoneOf?_carry_self before.housed hc hp drawn mem)
      · have kept := zoneOf?_carry_of_ne before.housed hp drawn mem same
        rwa [zoneOf?_record, kept]
    · exact (deals_setZones _).trans (deals_record rfl)

/-- A hand is drawn card by card. -/
theorem draws_of_drawCards (n : Nat) (before : s.Dealt K)
    (h : drawCards player now n s = .ok u s') : Draws K s s' := by
  induction n generalizing s with
  | zero =>
    obtain ⟨-, rfl⟩ := pure_ok_iff.mp h
    exact ⟨before, Deals.refl s, Continues.refl s⟩
  | succ n ih =>
    obtain ⟨drawn, m, first, rest⟩ := bind_ok_iff.mp h
    have one := draws_of_drawCard before first
    exact one.trans (ih one.dealt rest)

theorem draws_of_forSeats (n : Nat) (seats : List Seat) (before : s.Dealt K)
    (h : forSeats (fun seat => drawCards seat now n) seats s = .ok u s') : Draws K s s' := by
  induction seats generalizing s with
  | nil =>
    obtain ⟨-, rfl⟩ := pure_ok_iff.mp h
    exact ⟨before, Deals.refl s, Continues.refl s⟩
  | cons seat seats ih =>
    obtain ⟨_, m, first, rest⟩ := bind_ok_iff.mp h
    have one := draws_of_drawCards n before first
    exact one.trans (ih one.dealt rest)

/-! ### Waiting games -/

/-- A game that has not started, played with these settings. -/
structure Waiting (config : Config) (s : Session) : Prop where
  status : s.status = .waiting
  few : s.players.count < Seat.bound
  many : 2 ≤ s.players.count
  players : ∀ seat p, s.player? seat = some p → p.Untouched config seat
  current : s.current = ⟨0⟩
  starting : s.starting = ⟨0⟩
  turn : s.turn = 1
  winner : s.winner = none
  instances : s.instances = KeyMap.empty
  nextId : s.nextId = .first
  log : ∀ e ∈ s.log, e.action = .failure

namespace Waiting

/-- No copy exists before a game starts. -/
theorem noCopy (h : s.Waiting config) (id : InstanceId) : s.instance? id = none := by
  rw [instance?, h.instances]
  rfl

theorem noCards (h : s.Waiting config) {p : Player} (hp : s.player? player = some p) :
    p.zones.allInstances = [] := by
  rw [(h.players player p hp).zones]
  rfl

theorem copies (h : s.Waiting config) : s.copies = 0 := by
  have none : s.players.data.map (fun p => p.zones.allInstances.length)
      = s.players.data.map (fun _ => 0) := by
    apply List.map_congr_left
    intro p mem
    obtain ⟨seat, hp⟩ := mem_players_iff.mp mem
    rw [h.noCards hp]
    rfl
  rw [Session.copies, none]
  simp

/-- Zones and copies fit together while a game waits. -/
theorem housed (h : s.Waiting config) : s.Housed where
  few := h.few
  numbered := fun seat p hp => (h.players seat p hp).id
  apart := by
    intro seat p hp
    rw [h.noCards hp]
    exact List.nodup_nil
  owned := by
    intro seat p id hp mem
    rw [h.noCards hp] at mem
    cases mem
  labelled := by
    intro id c hc
    rw [h.noCopy] at hc
    cases hc
  placed := by
    intro id c hc
    rw [h.noCopy] at hc
    cases hc
  fresh := by
    intro id c hc
    rw [h.noCopy] at hc
    cases hc

theorem dealt (h : s.Waiting config) : s.Dealt K where
  housed := h.housed
  keys := by
    rw [h.copies, h.instances]
    rfl
  next := by
    rw [h.copies, h.nextId]
    rfl
  unplayed := by
    intro id c hc
    rw [h.noCopy] at hc
    cases hc
  asNew := by
    intro id c hc
    rw [h.noCopy] at hc
    cases hc

end Waiting

/-! ### New games -/

theorem waiting_of_players {players : List Player} {rng : Random.Generator}
    (many : 2 ≤ players.length) (few : players.length ≤ 255)
    (untouched : ∀ (i : Nat) (p : Player), players[i]? = some p → p.Untouched config ⟨i⟩) :
    Waiting config
      { status := .waiting, players := ⟨players⟩, current := ⟨0⟩, starting := ⟨0⟩, turn := 1
        log := [], winner := none, revision := 0, rng, instances := KeyMap.empty
        nextId := InstanceId.first } where
  status := rfl
  few := Nat.lt_of_le_of_lt few (by decide)
  many := many
  players := fun seat p hp => untouched seat.index p hp
  current := rfl
  starting := rfl
  turn := rfl
  winner := rfl
  instances := rfl
  nextId := rfl
  log := fun _ mem => absurd mem List.not_mem_nil

/-- A new game has settings without fault, and seats for its two to 255 players in order. -/
theorem ofNames_ok_iff {names : List String} : ofNames names config = .ok s ↔
    config.fault? = none ∧ 2 ≤ names.length ∧ names.length ≤ 255 ∧
      s = { status := .waiting
            players := ⟨names.zipIdx.map fun (name, i) =>
              Player.ofConfig (Seat.ofIndex i) name config⟩
            current := ⟨0⟩, starting := ⟨0⟩, turn := 1, log := [], winner := none, revision := 0
            rng := Random.Generator.ofSeed config.seed, instances := KeyMap.empty
            nextId := InstanceId.first } := by
  unfold ofNames Config.validate SeatMap.ofList?
  cases config.fault? with
  | some fault => simp
  | none =>
    by_cases few : names.length < 2
    · have lonely : ¬2 ≤ names.length := Nat.not_le.mpr few
      simp [few, lonely]
    · have seated : names ≠ [] := by
        rintro rfl
        simp at few
      simp only [few, if_false, List.map_eq_nil_iff, List.zipIdx_eq_nil_iff, seated,
        List.length_map, List.length_zipIdx, false_or, true_and]
      by_cases many : 255 < names.length
      · simp only [many, if_true, reduceCtorEq, false_iff]
        rintro ⟨-, le, -⟩
        omega
      · simp only [many, if_false, Except.ok.injEq]
        constructor
        · rintro rfl
          exact ⟨by omega, by omega, rfl⟩
        · rintro ⟨-, -, rfl⟩
          rfl

/-- A session that is made of names waits for its game. -/
theorem waiting_ofNames {names : List String} (h : ofNames names config = .ok s) :
    s.Waiting config := by
  obtain ⟨-, many, few, rfl⟩ := ofNames_ok_iff.mp h
  refine waiting_of_players (by simpa using many) (by simpa using few) ?_
  intro i p hp
  simp only [List.getElem?_map, List.getElem?_zipIdx, Option.map_eq_some_iff] at hp
  obtain ⟨_, ⟨name, hname, rfl⟩, rfl⟩ := hp
  have inside := (List.getElem?_eq_some_iff.mp hname).1
  have seat : Seat.ofIndex i = ⟨i⟩ := Seat.ofIndex_of_lt (by
    rw [Seat.bound]
    omega)
  exact ⟨by simpa [Player.ofConfig] using seat, rfl, rfl, rfl, rfl, rfl⟩

/-- A rematch is of a finished game, waits for its start and moves the start on to the next seat. -/
theorem waiting_rematch {random : Random.Source} {previous : Session} {starting : Seat}
    (h : rematch previous config = .ok (s, starting)) :
    previous.status = .finished ∧ s.Waiting config ∧
      starting = (previous.players.nextSeat previous.starting).1 ∧ config.fault? = none := by
  simp only [rematch, except_bind_ok_iff, requireStatus_ok_iff] at h
  obtain ⟨_, finished, fresh, made, h⟩ := h
  cases h
  obtain ⟨sound, many, few, rfl⟩ := ofNames_ok_iff.mp made
  have blank := waiting_ofNames made
  refine ⟨finished, ?_, rfl, sound⟩
  have length : ∀ l : List Player, (List.zipWith
      (fun (p : Player) deckList => { p with deckList })
      ((l.map (·.name)).zipIdx.map fun (name, i) => Player.ofConfig (Seat.ofIndex i) name config)
      (l.map (·.deckList))).length = l.length := by
    intro l
    simp
  refine waiting_of_players ?_ ?_ ?_
  · rw [length]
    simpa using many
  · rw [length]
    simpa using few
  · intro i p hp
    obtain ⟨q, deck, hq, -, rfl⟩ := List.getElem?_zipWith_eq_some.mp hp
    have untouched := blank.players ⟨i⟩ q hq
    exact ⟨untouched.id, untouched.health, untouched.maxHealth, untouched.energy,
      untouched.maxEnergy, untouched.zones⟩

/-- A deck is handed in once, and only sound and known cards are taken. -/
theorem of_submitDeck {catalog : Catalog} {deck : List CardId} {all : Bool}
    (h : submitDeck catalog player deck s = .ok all s') :
    s.status = .waiting ∧ (∃ p, s.player? player = some p ∧ p.deckList = []) ∧ deck ≠ [] ∧
      checkDeck catalog deck = .ok () ∧
      s' = s.modifyPlayer player (fun p => { p with deckList := deck }) ∧
      all = s'.players.data.all fun p => decide (p.deckList ≠ []) := by
  simp only [submitDeck, bind_ok_iff, Update.check_ok_iff, requireStatus_ok_iff,
    requirePlayer_ok_iff] at h
  obtain ⟨_, _, ⟨waiting, rfl⟩, p, _, ⟨hp, rfl⟩, h⟩ := h
  split at h
  · obtain ⟨_, _, refused, -⟩ := bind_ok_iff.mp h
    exact (throw_ok_iff.mp refused).elim
  · rename_i first
    split at h
    · obtain ⟨_, _, refused, -⟩ := bind_ok_iff.mp h
      exact (throw_ok_iff.mp refused).elim
    · rename_i some
      simp only [bind_ok_iff, Update.check_ok_iff, except_mapError_ok_iff, modify_ok_iff,
        get_ok_iff, pure_ok_iff] at h
      obtain ⟨_, _, ⟨checked, rfl⟩, _, _, rfl, _, _, ⟨rfl, rfl⟩, rfl, rfl⟩ := h
      exact ⟨waiting, ⟨p, hp, not_not.mp first⟩, some, checked, rfl, rfl⟩

/-- A game still waits when a deck has been handed in. -/
theorem Waiting.submitDeck {catalog : Catalog} {deck : List CardId} {all : Bool}
    (h : s.Waiting config) (ran : submitDeck catalog player deck s = .ok all s') :
    s'.Waiting config := by
  obtain ⟨-, -, -, -, rfl, -⟩ := of_submitDeck ran
  exact {
    status := h.status
    few := (count_modifyPlayer s _).symm ▸ h.few
    many := (count_modifyPlayer s _).symm ▸ h.many
    players := by
      intro seat q hq
      obtain ⟨p, hp, ⟨rfl, -⟩ | ⟨rfl, -⟩⟩ := of_player?_modifyPlayer hq
      · exact h.players seat q hp
      · have untouched := h.players seat p hp
        exact ⟨untouched.id, untouched.health, untouched.maxHealth, untouched.energy,
          untouched.maxEnergy, untouched.zones⟩
    current := h.current
    starting := h.starting
    turn := h.turn
    winner := h.winner
    instances := h.instances
    nextId := h.nextId
    log := h.log }

/-! ### The opening -/

def startEntry (starting : Seat) (name : String) (now : Nat) : LogEntry :=
  { player := starting, action := .gameStart
    description := "Game started, " ++ name ++ " goes first", timestamp := now }

/-- Decks are dealt, hands are drawn, and the first turn is announced. -/
theorem openGame_stages {ctx : Context} {starting : Seat}
    (h : openGame ctx starting s = .ok u s') :
    s.status = .waiting ∧ (∃ p, s.player? starting = some p) ∧ ∃ m n q,
      forSeats (dealDeck ctx) s.players.seats s = .ok () m ∧
      forSeats (fun seat => drawCards seat (ctx.now m) ctx.config.startingHandSize)
        s.players.seats m = .ok () n ∧
      n.player? starting = some q ∧
      s' = { n with status := .playing, current := starting, starting, turn := 1 }.record
        (startEntry starting q.name (ctx.now m)) := by
  simp only [openGame, bind_ok_iff, Update.check_ok_iff, requireStatus_ok_iff,
    requirePlayer_ok_iff, get_ok_iff, modify_ok_iff] at h
  obtain ⟨_, _, ⟨waiting, rfl⟩, p, _, ⟨hp, rfl⟩, _, _, ⟨rfl, rfl⟩, _, m, decks, _, _, ⟨rfl, rfl⟩,
    _, n, hands, _, _, rfl, q, _, ⟨hq, rfl⟩, rfl⟩ := h
  exact ⟨waiting, ⟨p, hp⟩, m, n, q, decks, hands, hq, rfl⟩

/-- The game as it stands at the start of its first turn. -/
structure Opened (K : Catalog) (starting : Seat) (s s' : Session) : Prop where
  dealt : s'.Dealt K
  count : s'.players.count = s.players.count
  players : ∀ seat p, s.player? seat = some p →
    ∃ q, s'.player? seat = some q ∧ q = { p with zones := q.zones }
  holdings : ∀ seat p, s'.player? seat = some p → (s'.holdings seat).Perm p.deckList
  seated : ∃ p, s'.player? starting = some p
  status : s'.status = .playing
  current : s'.current = starting
  starting : s'.starting = starting
  turn : s'.turn = 1
  winner : s'.winner = s.winner
  revision : s'.revision = s.revision
  log : ∀ e ∈ s'.log, e ∈ s.log ∨ e.action = .drawCard ∨ e.action = .gameStart

theorem Dealt.of_same (h : s.Dealt K) (players : s'.players = s.players)
    (instances : s'.instances = s.instances) (nextId : s'.nextId = s.nextId) : s'.Dealt K := by
  refine h.later (Continues.of_same players instances nextId) instances ?_
  intro id at_start
  have zones : s'.zoneOf? id = s.zoneOf? id :=
    zoneOf?_congr (by rw [instance?, instances]; rfl) fun seat => by rw [player?, players]; rfl
  rwa [zones]

theorem length_seats (few : s.players.count < Seat.bound) :
    s.players.seats.length = s.players.count := by
  rw [SeatMap.seats, List.length_map, List.length_range, Nat.mod_eq_of_lt few]

theorem seats_split (few : s.players.count < Seat.bound) {p : Player} {seat : Seat}
    (hp : s.player? seat = some p) :
    s.players.seats = s.players.seats.take seat.index ++
      seat :: s.players.seats.drop (seat.index + 1) := by
  have inside : seat.index < s.players.seats.length := by
    rw [length_seats few]
    exact index_lt_of_player? hp
  have here : s.players.seats[seat.index] = seat := by
    simp [SeatMap.seats]
  have rest := List.drop_eq_getElem_cons inside
  rw [here] at rest
  rw [← rest, List.take_append_drop]

/-- After the decks have been dealt, everything that a player has lies in the deck. -/
theorem Provided.decked {p : Player} {seat : Seat} (h : Provided K s.players.seats s s')
    (waiting : s.Waiting config) (hp : s.player? seat = some p) : ∃ deck : List InstanceId,
      s'.player? seat = some { p with zones := { Zones.empty with deck } } ∧
      deck.length = p.deckList.length ∧
      Consecutive (s.nextId.number + s.handedIn (s.players.seats.take seat.index)) p.deckList
        (s'.copiesOf seat) := by
  obtain ⟨deck, hq⟩ := h.deck seat p hp
  rw [(waiting.players seat p hp).zones] at hq
  obtain ⟨made, copies, consecutive⟩ := h.made _ seat _ (seats_split waiting.few hp)
  have none_before : s.copiesOf seat = [] := by
    rw [copiesOf, waiting.instances]
    rfl
  rw [none_before, List.nil_append] at copies
  rw [deckOf_eq hp] at consecutive
  subst copies
  have perm : deck.Perm ((s'.copiesOf seat).map (·.id)) := by
    simpa [Zones.allInstances_eq, Zones.empty] using perm_copiesOf h.dealt.housed hq
  refine ⟨deck, hq, ?_, consecutive⟩
  rw [perm.length_eq, ← consecutive.copied, List.length_map, List.length_map]

/-- What the rules open is an opened game. -/
theorem opened_of_openGame {ctx : Context} {starting : Seat} (known : ctx.catalog.Within K)
    (filed : K.Filed) (waiting : s.Waiting config)
    (h : openGame ctx starting s = .ok u s') : Opened K starting s s' := by
  obtain ⟨-, -, m, n, q, decks, hands, hq, rfl⟩ := openGame_stages h
  have provided :=
    provided_of_forSeats known filed s.players.seats nodup_seats waiting.dealt decks
  have draws := draws_of_forSeats _ _ provided.dealt hands
  have all := provided.deals.trans draws.deals
  exact {
    dealt := draws.dealt.of_same rfl rfl rfl
    count := all.count
    players := all.players
    holdings := by
      intro seat r hr
      have hr' : n.player? seat = some r := hr
      obtain ⟨r', hm, rr'⟩ := draws.continues.player?_before hr'
      obtain ⟨p, hp, -⟩ := provided.deals.present_before hm
      obtain ⟨deck, hm', -, copies⟩ := provided.decked waiting hp
      cases hm.symm.trans hm'
      rw [rr'.deckList]
      have full := perm_holdings provided.dealt.housed hm
      rw [copies.copied] at full
      exact (draws.continues.holdings hm).trans full
    seated := ⟨q, hq⟩
    status := rfl
    current := rfl
    starting := rfl
    turn := rfl
    winner := all.winner
    revision := all.revision
    log := by
      intro e mem
      have mem' : e ∈ n.log ++ _ := mem
      rcases List.mem_append.mp mem' with before | start
      · rcases all.log.of_mem before with old | drawn
        · exact Or.inl old
        · exact Or.inr (Or.inl drawn)
      · rw [List.mem_singleton.mp start]
        exact Or.inr (Or.inr rfl) }

namespace Opened

variable {starting : Seat}

/-- Nothing is in play, and nothing has been. -/
theorem bare (h : Opened K starting s s') {p : Player} (hp : s'.player? player = some p) :
    p.zones.battlefield = [] ∧ p.zones.graveyard = [] := by
  have empty : ∀ zone, zone ≠ .deck → zone ≠ .hand → p.zones.cards zone = [] := by
    intro zone notDeck notHand
    apply List.eq_nil_iff_forall_not_mem.mpr
    intro id mem
    obtain ⟨c, hc, -, hz⟩ := h.dealt.housed.of_mem hp mem
    rcases h.dealt.unplayed id c hc with deck | hand
    · exact notDeck (Option.some.inj (hz.symm.trans deck))
    · exact notHand (Option.some.inj (hz.symm.trans hand))
  exact ⟨empty .battlefield (by decide) (by decide), empty .graveyard (by decide) (by decide)⟩

theorem battlefield (h : Opened K starting s s') (player : Seat) : s'.battlefield player = [] := by
  unfold Session.battlefield
  split
  · rename_i p hp
    exact (h.bare hp).1
  · rfl

theorem player?_before (h : Opened K starting s s') {q : Player}
    (hq : s'.player? player = some q) :
    ∃ p, s.player? player = some p ∧ q = { p with zones := q.zones } := by
  have inside := h.count ▸ index_lt_of_player? hq
  obtain ⟨p, hp⟩ := contains_iff_player?.mp ((SeatMap.contains_iff _ _).mpr inside)
  obtain ⟨q', hq', eq⟩ := h.players player p hp
  cases hq.symm.trans hq'
  exact ⟨p, hp, eq⟩

/-- Nothing is amiss in a game that has just been opened. -/
theorem sound (h : Opened K starting s s') (valid : 0 ≤ config.startingHealth)
    (valid' : 0 ≤ config.startingEnergy) (waiting : s.Waiting config) : s'.Sound K 1 where
  housed := h.dealt.housed
  active := by
    rw [h.current]
    exact contains_iff_player?.mpr h.seated
  solvent := by
    intro seat q hq
    obtain ⟨p, hp, eq⟩ := h.player?_before hq
    have untouched := waiting.players seat p hp
    rw [eq]
    constructor
    · simp only [untouched.health, untouched.maxHealth]
      omega
    · simp only [untouched.energy, untouched.maxEnergy]
      omega
  known := by
    intro id c hc
    obtain ⟨d, hd, -⟩ := h.dealt.asNew id c hc
    exact ⟨d, hd⟩
  fits := by
    intro id c d zone hc hd hz
    obtain ⟨d', hd', health, fresh⟩ := h.dealt.asNew id c hc
    cases hd.symm.trans hd'
    rcases h.dealt.unplayed id c hc with deck | hand
    · cases hz.symm.trans deck
      exact ⟨health, fresh⟩
    · cases hz.symm.trans hand
      exact ⟨health, fresh⟩

end Opened

end Session

namespace Play

open Session

variable {config : Config} {K : Catalog} {ctx : Context} {t t' : Table} {starting : Seat} {u : Unit}

/-- No permanent is there to answer to the first turn. -/
theorem of_startGame (known : ctx.catalog.Within K) (filed : K.Filed)
    (waiting : t.session.Waiting config) (h : startGame ctx starting t = .ok u t') :
    ∃ s', openGame ctx starting t.session = .ok () s' ∧ t' = { t with session := s' } := by
  obtain ⟨_, _, started, fired⟩ := bind_ok_iff.mp h
  obtain ⟨s', openGame, rfl⟩ := update_ok_iff.mp started
  refine ⟨s', openGame, ?_⟩
  have opened := opened_of_openGame known filed waiting openGame
  rw [← fireAll_ok_iff.mp fired, Context.triggerAll]
  dsimp only
  rw [opened.battlefield starting]
  rfl

/-- A start leads from a waiting game through its opening. -/
theorem opened_of_startGame (known : ctx.catalog.Within K) (filed : K.Filed)
    (waiting : t.session.Waiting config) (h : startGame ctx starting t = .ok u t') :
    Opened K starting t.session t'.session := by
  obtain ⟨s', openGame, rfl⟩ := of_startGame known filed waiting h
  exact opened_of_openGame known filed waiting openGame

end Play

end CardBattle
