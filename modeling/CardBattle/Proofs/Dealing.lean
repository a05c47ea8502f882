import CardBattle.Proofs.LogGrowth
import CardBattle.Proofs.Soundness
import Mathlib.Algebra.Ring.Nat

/-!
# Dealing cards

Before the first turn every copy lies in a deck or a hand and looks as it was made, and copies are
numbered without gaps. Making copies, shuffling and drawing keep it so.
-/

namespace CardBattle

namespace Zones

theorem perm_deck_append (z : Zones) (id : InstanceId) :
    ({ z with deck := z.deck ++ [id] } : Zones).allInstances.Perm (id :: z.allInstances) := by
  rw [allInstances_eq, allInstances_eq, List.append_assoc]
  exact List.perm_middle

theorem perm_reorder {z : Zones} {order : List InstanceId} (perm : order.Perm z.deck) :
    ({ z with deck := order } : Zones).allInstances.Perm z.allInstances := by
  rw [allInstances_eq, allInstances_eq]
  exact perm.append_right _

end Zones

namespace Session

/-- The cards of all copies in a player's zones, zone by zone. -/
def holdings (s : Session) (player : Seat) : List CardId :=
  match s.player? player with
  | none => []
  | some p => p.zones.allInstances.filterMap fun id => (s.instance? id).map (·.card)

def copies (s : Session) : Nat :=
  (s.players.data.map fun p => p.zones.allInstances.length).sum

structure Dealt (K : Catalog) (s : Session) : Prop where
  housed : s.Housed
  keys : s.instances.keys = List.range' 1 s.copies
  next : s.nextId.number = s.copies + 1
  unplayed : ∀ id c, s.instance? id = some c →
    s.zoneOf? id = some .deck ∨ s.zoneOf? id = some .hand
  asNew : ∀ id c, s.instance? id = some c →
    ∃ d, K.get? c.card = some d ∧ c.health = d.health ∧ c.sapped = false

/-- Dealing changes zones, and logs draws. -/
structure Deals (s s' : Session) : Prop where
  status : s'.status = s.status
  current : s'.current = s.current
  starting : s'.starting = s.starting
  turn : s'.turn = s.turn
  winner : s'.winner = s.winner
  revision : s'.revision = s.revision
  count : s'.players.count = s.players.count
  players : ∀ seat p, s.player? seat = some p →
    ∃ q, s'.player? seat = some q ∧ q = { p with zones := q.zones }
  log : Logs (· = .drawCard) s s'

variable {K : Catalog} {s s' s'' : Session} {id : InstanceId} {player : Seat} {now : Nat}

theorem Deals.refl (s : Session) : Deals s s :=
  ⟨rfl, rfl, rfl, rfl, rfl, rfl, rfl, fun _ p hp => ⟨p, hp, rfl⟩, .of_same rfl⟩

theorem Deals.trans (h : Deals s s') (h' : Deals s' s'') : Deals s s'' where
  status := h'.status.trans h.status
  current := h'.current.trans h.current
  starting := h'.starting.trans h.starting
  turn := h'.turn.trans h.turn
  winner := h'.winner.trans h.winner
  revision := h'.revision.trans h.revision
  count := h'.count.trans h.count
  players := by
    intro seat p hp
    obtain ⟨q, hq, eq⟩ := h.players seat p hp
    obtain ⟨r, hr, eq'⟩ := h'.players seat q hq
    exact ⟨r, hr, by rw [eq', eq]⟩
  log := h.log.trans h'.log

theorem Deals.present {p : Player} (h : Deals s s') (hp : s.player? player = some p) :
    ∃ q, s'.player? player = some q ∧ q.deckList = p.deckList := by
  obtain ⟨q, hq, eq⟩ := h.players player p hp
  exact ⟨q, hq, by rw [eq]⟩

theorem Deals.present_before (h : Deals s s') {q : Player} (hq : s'.player? player = some q) :
    ∃ p, s.player? player = some p ∧ q.deckList = p.deckList := by
  have inside := h.count ▸ index_lt_of_player? hq
  obtain ⟨p, hp⟩ := contains_iff_player?.mp ((SeatMap.contains_iff _ _).mpr inside)
  obtain ⟨q', hq', same⟩ := h.present hp
  cases hq.symm.trans hq'
  exact ⟨p, hp, same⟩

/-- New copies and draws from the generator do not count. -/
theorem deals_supply (rng : Random.Generator) (instances : KeyMap CardInstance)
    (nextId : InstanceId) : Deals s { s with rng, instances, nextId } :=
  ⟨rfl, rfl, rfl, rfl, rfl, rfl, rfl, fun _ p hp => ⟨p, hp, rfl⟩, .of_same rfl⟩

theorem deals_record {e : LogEntry} (draw : e.action = .drawCard) : Deals s (s.record e) :=
  ⟨rfl, rfl, rfl, rfl, rfl, rfl, rfl, fun _ p hp => ⟨p, hp, rfl⟩, .of_entry rfl draw⟩

theorem deals_setZones (zones : Zones) : Deals s (s.setZones player zones) where
  status := rfl
  current := rfl
  starting := rfl
  turn := rfl
  winner := rfl
  revision := rfl
  count := count_modifyPlayer _ _
  players := by
    intro seat p hp
    obtain ⟨q, hq, ⟨rfl, -⟩ | ⟨rfl, -⟩⟩ := player?_modifyPlayer_some player
      (fun p => { p with zones }) hp
    · exact ⟨q, hq, rfl⟩
    · exact ⟨_, hq, rfl⟩
  log := .of_same rfl

/-! ### Counting copies -/

/-- Read player by player, two tables are alike if every player is. -/
theorem map_players_congr {α : Type} {f : Player → α} (count : s'.players.count = s.players.count)
    (same : ∀ seat p, s.player? seat = some p → ∃ q, s'.player? seat = some q ∧ f q = f p) :
    s'.players.data.map f = s.players.data.map f := by
  apply List.ext_getElem?
  intro i
  rw [List.getElem?_map, List.getElem?_map]
  cases h : s.players.data[i]? with
  | none =>
    have out : s.players.data.length ≤ i := List.getElem?_eq_none_iff.mp h
    have out' : s'.players.data.length ≤ i := by
      simp only [SeatMap.count] at count
      omega
    rw [List.getElem?_eq_none out']
  | some p =>
    obtain ⟨q, hq, alike⟩ := same ⟨i⟩ p h
    have hq' : s'.players.data[i]? = some q := hq
    simp [hq', alike]

theorem copies_congr (count : s'.players.count = s.players.count)
    (same : ∀ seat p, s.player? seat = some p → ∃ q, s'.player? seat = some q ∧
      q.zones.allInstances.length = p.zones.allInstances.length) : s'.copies = s.copies :=
  congrArg List.sum (map_players_congr count same)

theorem Continues.copies (h : Continues K s s') : s'.copies = s.copies := by
  refine copies_congr h.count ?_
  intro seat p hp
  obtain ⟨q, hq, pq⟩ := h.players seat p hp
  exact ⟨q, hq, pq.copies.length_eq⟩

/-- One more copy in the zones of one player. -/
theorem copies_modifyPlayer {f : Player → Player} {p : Player} (hp : s.player? player = some p)
    (more : (f p).zones.allInstances.length = p.zones.allInstances.length + 1) :
    (s.modifyPlayer player f).copies = s.copies + 1 := by
  have hp' : s.players.data[player.index]? = some p := hp
  simp only [copies, modifyPlayer, SeatMap.modify]
  clear hp
  generalize s.players.data = data at hp'
  generalize player.index = i at hp'
  induction data generalizing i with
  | nil => simp at hp'
  | cons head rest ih =>
    cases i with
    | zero =>
      cases hp'
      simp [more]
      omega
    | succ i =>
      simp only [List.modify_succ_cons, List.map_cons, List.sum_cons]
      rw [ih i hp']
      omega

/-! ### What players hold -/

theorem holdings_eq {p : Player} (hp : s.player? player = some p) : s.holdings player
    = p.zones.allInstances.filterMap fun id => (s.instance? id).map (·.card) := by
  simp [holdings, hp]

theorem Continues.card_eq (h : Continues K s s') (id : InstanceId) :
    (s'.instance? id).map (·.card) = (s.instance? id).map (·.card) := by
  cases hc : s.instance? id with
  | some c =>
    obtain ⟨e, he, ce⟩ := h.cards id c hc
    simp [he, ce.card]
  | none =>
    cases he : s'.instance? id with
    | none => rfl
    | some e =>
      obtain ⟨c, hc', -⟩ := h.instance?_before he
      rw [hc] at hc'
      cases hc'

/-- A game that goes on neither loses nor gains a card. -/
theorem Continues.holdings (h : Continues K s s') {p : Player} (hp : s.player? player = some p) :
    (s'.holdings player).Perm (s.holdings player) := by
  obtain ⟨q, hq, pq⟩ := h.players player p hp
  rw [holdings_eq hp, holdings_eq hq, funext h.card_eq]
  exact pq.copies.filterMap _

/-! ### A new copy -/

/-- A copy that is made comes to lie on top of its owner's deck, under a number not used before. -/
theorem of_createInstance (housed : s.Housed) {d : CardDefinition}
    (h : createInstance player d .deck .top s = .ok id s') :
    ∃ p, s.player? player = some p ∧ id = s.nextId ∧
      s' = ({ s with
        nextId := s.nextId.next
        instances := s.instances.insert s.nextId.number
          (CardInstance.ofDefinition s.nextId d player) } : Session).setZones player
        { p.zones with deck := p.zones.deck ++ [s.nextId] } := by
  unfold createInstance at h
  split at h
  · cases h
  · rename_i p hp
    have absent : p.zones.locate s.nextId = none := by
      rw [Zones.locate_eq_none_iff]
      intro mem
      obtain ⟨c, hc, -⟩ := housed.owned player p s.nextId hp mem
      exact Nat.lt_irrefl _ (housed.fresh _ _ hc)
    simp only [Zones.push?, absent] at h
    cases h
    exact ⟨p, hp, rfl, rfl⟩

/-- What a copy that is made changes. -/
structure Adds (d : CardDefinition) (player : Seat) (s s' : Session) : Prop where
  made : s'.instance? s.nextId = some (CardInstance.ofDefinition s.nextId d player)
  others : ∀ id, id ≠ s.nextId → s'.instance? id = s.instance? id
  next : s'.nextId = s.nextId.next
  keys : (∀ k ∈ s.instances.keys, k < s.nextId.number) →
    s'.instances.keys = s.instances.keys ++ [s.nextId.number]
  zones : ∃ p, s.player? player = some p ∧ s'.player? player
    = some { p with zones := { p.zones with deck := p.zones.deck ++ [s.nextId] } }
  otherPlayers : ∀ seat, seat ≠ player → s'.player? seat = s.player? seat
  copies : s'.copies = s.copies + 1
  deals : Deals s s'

theorem adds_of_createInstance (housed : s.Housed) {d : CardDefinition}
    (h : createInstance player d .deck .top s = .ok id s') : Adds d player s s' := by
  obtain ⟨p, hp, -, rfl⟩ := of_createInstance housed h
  exact {
    made := KeyMap.get?_insert_self _ _ _
    others := fun id ne => KeyMap.get?_insert_of_ne _ _ (InstanceId.number_ne ne.symm)
    next := rfl
    keys := KeyMap.keys_insert_of_lt
    zones := ⟨p, hp, (player?_modifyPlayer_self _ _).trans (congrArg (Option.map _) hp)⟩
    otherPlayers := fun seat ne => player?_modifyPlayer_of_ne _ _ ne.symm
    copies := copies_modifyPlayer hp (Zones.perm_deck_append p.zones s.nextId).length_eq
    deals := by
      refine Deals.trans ?_ (deals_setZones _)
      exact deals_supply s.rng _ s.nextId.next }

namespace Adds

variable {d : CardDefinition}

theorem player?_cases (h : Adds d player s s') {seat : Seat} {q : Player}
    (hq : s'.player? seat = some q) :
    (seat ≠ player ∧ s.player? seat = some q) ∨ seat = player ∧ ∃ p, s.player? player = some p ∧
      q = { p with zones := { p.zones with deck := p.zones.deck ++ [s.nextId] } } := by
  by_cases same : seat = player
  · subst same
    obtain ⟨p, hp, hq'⟩ := h.zones
    exact Or.inr ⟨rfl, p, hp, (Option.some.inj (hq'.symm.trans hq)).symm⟩
  · exact Or.inl ⟨same, h.otherPlayers seat same ▸ hq⟩

theorem absent (housed : s.Housed) : s.instance? s.nextId = none := by
  cases hc : s.instance? s.nextId with
  | none => rfl
  | some c => exact absurd (housed.fresh _ _ hc) (Nat.lt_irrefl _)

theorem unused (housed : s.Housed) {seat : Seat} {p : Player} (hp : s.player? seat = some p) :
    s.nextId ∉ p.zones.allInstances := by
  intro mem
  obtain ⟨c, hc, -⟩ := housed.owned seat p _ hp mem
  rw [absent housed] at hc
  cases hc

theorem apart (h : Adds d player s s') (housed : s.Housed) {seat : Seat} {q : Player}
    (hq : s'.player? seat = some q) : q.zones.allInstances.Nodup := by
  rcases h.player?_cases hq with ⟨-, hp⟩ | ⟨rfl, p, hp, rfl⟩
  · exact housed.apart seat q hp
  · rw [(Zones.perm_deck_append p.zones s.nextId).nodup_iff, List.nodup_cons]
    exact ⟨unused housed hp, housed.apart seat p hp⟩

/-- The copies that there were lie where they lay. -/
theorem zoneOf?_of_ne (h : Adds d player s s') (housed : s.Housed) (ne : id ≠ s.nextId) :
    s'.zoneOf? id = s.zoneOf? id := by
  cases hc : s.instance? id with
  | none => simp [zoneOf?, h.others id ne, hc]
  | some c =>
    obtain ⟨zone, hz⟩ := housed.placed id c hc
    obtain ⟨p, hp, -⟩ := housed.owner_of_zone hc hz
    by_cases own : c.owner = player
    · obtain ⟨q, hq, hq'⟩ := h.zones
      cases hp.symm.trans (own ▸ hq)
      rw [← own] at hq'
      simp only [zoneOf?, h.others id ne, hc, hq', hp]
      apply Zones.locate_congr (h.apart housed hq')
      intro zone
      cases zone <;> simp [Zones.cards, ne]
    · simp only [zoneOf?, h.others id ne, hc, h.otherPlayers c.owner own]

theorem zoneOf?_self (h : Adds d player s s') (housed : s.Housed) :
    s'.zoneOf? s.nextId = some .deck := by
  obtain ⟨p, hp, hq⟩ := h.zones
  rw [zoneOf?_eq_some_iff]
  refine ⟨_, _, h.made, hq, ?_⟩
  rw [Zones.locate_eq_some_iff (h.apart housed hq)]
  simp [Zones.cards]

theorem housed (h : Adds d player s s') (before : s.Housed) : s'.Housed where
  few := h.deals.count ▸ before.few
  numbered := by
    intro seat q hq
    rcases h.player?_cases hq with ⟨-, hp⟩ | ⟨rfl, p, hp, rfl⟩
    · exact before.numbered seat q hp
    · exact before.numbered seat p hp
  apart := fun seat q hq => h.apart before hq
  owned := by
    have old : ∀ seat p id, s.player? seat = some p → id ∈ p.zones.allInstances →
        ∃ c, s'.instance? id = some c ∧ c.owner = seat := by
      intro seat p id hp mem
      obtain ⟨c, hc, own⟩ := before.owned seat p id hp mem
      have ne : id ≠ s.nextId := by
        rintro rfl
        exact unused before hp mem
      exact ⟨c, (h.others id ne).trans hc, own⟩
    intro seat q id hq mem
    rcases h.player?_cases hq with ⟨-, hp⟩ | ⟨rfl, p, hp, rfl⟩
    · exact old seat q id hp mem
    · rcases List.mem_cons.mp ((Zones.perm_deck_append _ _).mem_iff.mp mem) with rfl | mem
      · exact ⟨_, h.made, rfl⟩
      · exact old seat p id hp mem
  labelled := by
    intro id c hc
    by_cases new : id = s.nextId
    · subst new
      cases h.made.symm.trans hc
      rfl
    · exact before.labelled id c (h.others id new ▸ hc)
  placed := by
    intro id c hc
    by_cases new : id = s.nextId
    · subst new
      exact ⟨_, h.zoneOf?_self before⟩
    · rw [h.zoneOf?_of_ne before new]
      exact before.placed id c (h.others id new ▸ hc)
  fresh := by
    intro id c hc
    rw [h.next]
    by_cases new : id = s.nextId
    · subst new
      exact InstanceId.number_lt_next _
    · exact Nat.lt_succ_of_lt (before.fresh id c (h.others id new ▸ hc))

theorem dealt (h : Adds d player s s') (hd : K.get? d.id = some d) (before : s.Dealt K) :
    s'.Dealt K where
  housed := h.housed before.housed
  keys := by
    have above : ∀ k ∈ s.instances.keys, k < s.nextId.number := by
      intro k mem
      rw [before.keys, List.mem_range'_1] at mem
      rw [before.next]
      omega
    rw [h.keys above, before.keys, h.copies, before.next, List.range'_concat]
    simp [Nat.add_comm]
  next := by
    rw [h.next, h.copies]
    exact congrArg Nat.succ before.next
  unplayed := by
    intro id c hc
    by_cases new : id = s.nextId
    · subst new
      exact Or.inl (h.zoneOf?_self before.housed)
    · rw [h.zoneOf?_of_ne before.housed new]
      exact before.unplayed id c (h.others id new ▸ hc)
  asNew := by
    intro id c hc
    by_cases new : id = s.nextId
    · subst new
      cases h.made.symm.trans hc
      exact ⟨d, hd, rfl, rfl⟩
    · exact before.asNew id c (h.others id new ▸ hc)

end Adds

/-! ### Decks and hands -/

theorem Dealt.later (h : s.Dealt K) (later : Continues K s s')
    (instances : s'.instances = s.instances)
    (zones : ∀ id, s.zoneOf? id = some .deck ∨ s.zoneOf? id = some .hand →
      s'.zoneOf? id = some .deck ∨ s'.zoneOf? id = some .hand) : s'.Dealt K where
  housed := later.housed h.housed
  keys := by rw [instances, h.keys, later.copies]
  next := by rw [later.nextId, h.next, later.copies]
  unplayed := by
    intro id c hc
    rw [instance?, instances] at hc
    exact zones id (h.unplayed id c hc)
  asNew := by
    intro id c hc
    rw [instance?, instances] at hc
    exact h.asNew id c hc

/-- Shuffling puts a deck into some other order, and keeps the seed. -/
theorem of_shuffleDeck {random : Random.Source} {u : Unit} (h : shuffleDeck player s = .ok u s') :
    ∃ p order rng, s.player? player = some p ∧ order.Perm p.zones.deck ∧ rng.seed = s.rng.seed ∧
      s' = { s.setZones player { p.zones with deck := order } with rng } := by
  unfold shuffleDeck at h
  split at h
  · cases h
  · rename_i p hp
    have perm : (s.rng.shuffle p.zones.deck).1.Perm p.zones.deck :=
      Random.Source.shuffle_perm p.zones.deck s.rng
    dsimp only at h
    rw [Zones.reorder?_of_perm perm] at h
    cases h
    exact ⟨p, _, (s.rng.shuffle p.zones.deck).2, hp, perm, rfl, rfl⟩

/-- Another order of a deck leaves every copy where it lies. -/
theorem zoneOf?_reorder {p : Player} {order : List InstanceId} (housed : s.Housed)
    (hp : s.player? player = some p) (perm : order.Perm p.zones.deck) (id : InstanceId) :
    (s.setZones player { p.zones with deck := order }).zoneOf? id = s.zoneOf? id := by
  have shuffled := Zones.perm_reorder (z := p.zones) perm
  have copy : (s.setZones player { p.zones with deck := order }).instance? id = s.instance? id :=
    rfl
  unfold zoneOf?
  rw [copy]
  cases hc : s.instance? id with
  | none => rfl
  | some c =>
    dsimp only
    by_cases own : c.owner = player
    · rw [own, setZones, player?_modifyPlayer_self, hp]
      apply Zones.locate_congr (shuffled.nodup_iff.mpr (housed.apart player p hp))
      intro zone
      cases zone with
      | deck => exact perm.mem_iff
      | _ => exact Iff.rfl
    · rw [setZones, player?_modifyPlayer_of_ne _ _ (Ne.symm own)]

theorem continues_reorder {p : Player} {order : List InstanceId} (housed : s.Housed)
    (hp : s.player? player = some p) (perm : order.Perm p.zones.deck) :
    Continues K s (s.setZones player { p.zones with deck := order }) where
  count := count_modifyPlayer _ _
  nextId := rfl
  keys := rfl
  players := by
    intro seat q hq
    obtain ⟨r, hr, ⟨rfl, -⟩ | ⟨rfl, rfl⟩⟩ := player?_modifyPlayer_some player
      (fun q => { q with zones := { p.zones with deck := order } }) hq
    · exact ⟨r, hr, rfl, rfl, List.Perm.refl _⟩
    · cases hp.symm.trans hq
      exact ⟨_, hr, rfl, rfl, Zones.perm_reorder perm⟩
  cards := fun _ c hc => ⟨c, hc, rfl, rfl, rfl⟩
  zones := by
    intro id _ zone _ hz
    exact ⟨zone, (zoneOf?_reorder housed hp perm id).trans hz, fun _ _ => .refl⟩
  graves := fun id hz => ⟨(zoneOf?_reorder housed hp perm id).trans hz, rfl⟩

end Session

end CardBattle
