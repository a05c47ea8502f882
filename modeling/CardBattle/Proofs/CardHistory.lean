import CardBattle.Catalog
import CardBattle.Proofs.KeyMapEntries
import CardBattle.Proofs.SessionViews
import Mathlib.Logic.Relation

/-!
# What becomes of copies

`Housed` says that zones and copies fit together: each copy lies in one zone, which belongs to its
owner. `Continues` compares two states of one game. Players keep their decks and the set of their
copies, copies keep their card and owner, move along the paths that their kind allows, and never
change again in the graveyard. A game that continues stays housed.
-/

namespace CardBattle

/-- The moves of a card of some kind. -/
inductive Zone.Passes (kind : CardKind) : Zone → Zone → Prop where
  | draw : Passes kind .deck .hand
  | play (permanent : kind ≠ .spell) : Passes kind .hand .battlefield
  | cast (spell : kind = .spell) : Passes kind .hand .graveyard
  | die : Passes kind .battlefield .graveyard

structure Player.Continues (p q : Player) : Prop where
  id : q.id = p.id
  deckList : q.deckList = p.deckList
  copies : q.zones.allInstances.Perm p.zones.allInstances

/-- What a copy keeps during a game. -/
structure CardInstance.Continues (c e : CardInstance) : Prop where
  id : e.id = c.id
  card : e.card = c.card
  owner : e.owner = c.owner

namespace Session

def Apart (s : Session) : Prop :=
  ∀ seat p, s.player? seat = some p → p.zones.allInstances.Nodup

/-- No copy lies twice with a player, and what lies with a player is theirs. -/
structure Tidy (s : Session) : Prop where
  apart : s.Apart
  owned : ∀ seat p id, s.player? seat = some p → id ∈ p.zones.allInstances →
    ∃ c, s.instance? id = some c ∧ c.owner = seat

/-- Zones and copies fit together. -/
structure Housed (s : Session) : Prop where
  few : s.players.count < Seat.bound
  numbered : ∀ seat p, s.player? seat = some p → p.id = seat
  apart : ∀ seat p, s.player? seat = some p → p.zones.allInstances.Nodup
  owned : ∀ seat p id, s.player? seat = some p → id ∈ p.zones.allInstances →
    ∃ c, s.instance? id = some c ∧ c.owner = seat
  labelled : ∀ id c, s.instance? id = some c → c.id = id
  placed : ∀ id c, s.instance? id = some c → ∃ zone, s.zoneOf? id = some zone
  fresh : ∀ id c, s.instance? id = some c → id.number < s.nextId.number

/-- A later state of the same game. -/
structure Continues (K : Catalog) (s s' : Session) : Prop where
  count : s'.players.count = s.players.count
  nextId : s'.nextId = s.nextId
  keys : s'.instances.keys = s.instances.keys
  players : ∀ seat p, s.player? seat = some p →
    ∃ q, s'.player? seat = some q ∧ p.Continues q
  cards : ∀ id c, s.instance? id = some c → ∃ e, s'.instance? id = some e ∧ c.Continues e
  zones : ∀ id c zone, s.instance? id = some c → s.zoneOf? id = some zone →
    ∃ zone', s'.zoneOf? id = some zone' ∧ ∀ d, K.get? c.card = some d →
      Relation.ReflTransGen (Zone.Passes d.kind) zone zone'
  graves : ∀ id, s.zoneOf? id = some .graveyard →
    s'.zoneOf? id = some .graveyard ∧ s'.instance? id = s.instance? id

variable {K : Catalog} {s s' s'' : Session} {id : InstanceId}

namespace Tidy

/-- A copy is where its owner has it. -/
theorem zoneOf?_iff (tidy : s.Tidy) {c : CardInstance} {p : Player} {zone : Zone}
    (hc : s.instance? id = some c) (hp : s.player? c.owner = some p) :
    s.zoneOf? id = some zone ↔ id ∈ p.zones.cards zone := by
  rw [← Zones.locate_eq_some_iff (tidy.apart _ _ hp)]
  simp [zoneOf?, hc, hp]

/-- Whoever has a card in a zone owns it, and that is its zone. -/
theorem of_mem (tidy : s.Tidy) {seat : Seat} {p : Player} {zone : Zone}
    (hp : s.player? seat = some p) (h : id ∈ p.zones.cards zone) :
    ∃ c, s.instance? id = some c ∧ c.owner = seat ∧ s.zoneOf? id = some zone := by
  obtain ⟨c, hc, rfl⟩ := tidy.owned seat p id hp (Zones.mem_allInstances.mpr ⟨zone, h⟩)
  exact ⟨c, hc, rfl, (tidy.zoneOf?_iff hc hp).mpr h⟩

/-- The owner of a copy sits at the table and has the copy in the zone where it lies. -/
theorem owner_of_zone (tidy : s.Tidy) {c : CardInstance} {zone : Zone}
    (hc : s.instance? id = some c) (hz : s.zoneOf? id = some zone) :
    ∃ p, s.player? c.owner = some p ∧ id ∈ p.zones.cards zone := by
  obtain ⟨e, p, he, hp, _⟩ := zoneOf?_eq_some_iff.mp hz
  cases hc.symm.trans he
  exact ⟨p, hp, (tidy.zoneOf?_iff hc hp).mp hz⟩

end Tidy

namespace Housed

theorem tidy (housed : s.Housed) : s.Tidy :=
  ⟨housed.apart, housed.owned⟩

theorem zoneOf?_iff (housed : s.Housed) {c : CardInstance} {p : Player} {zone : Zone}
    (hc : s.instance? id = some c) (hp : s.player? c.owner = some p) :
    s.zoneOf? id = some zone ↔ id ∈ p.zones.cards zone :=
  housed.tidy.zoneOf?_iff hc hp

theorem of_mem (housed : s.Housed) {seat : Seat} {p : Player} {zone : Zone}
    (hp : s.player? seat = some p) (h : id ∈ p.zones.cards zone) :
    ∃ c, s.instance? id = some c ∧ c.owner = seat ∧ s.zoneOf? id = some zone :=
  housed.tidy.of_mem hp h

theorem owner_of_zone (housed : s.Housed) {c : CardInstance} {zone : Zone}
    (hc : s.instance? id = some c) (hz : s.zoneOf? id = some zone) :
    ∃ p, s.player? c.owner = some p ∧ id ∈ p.zones.cards zone :=
  housed.tidy.owner_of_zone hc hz

end Housed

namespace Continues

theorem refl (s : Session) : Continues K s s where
  count := rfl
  nextId := rfl
  keys := rfl
  players := fun _ p hp => ⟨p, hp, rfl, rfl, List.Perm.refl _⟩
  cards := fun _ c hc => ⟨c, hc, rfl, rfl, rfl⟩
  zones := fun _ _ zone _ hz => ⟨zone, hz, fun _ _ => .refl⟩
  graves := fun _ hz => ⟨hz, rfl⟩

/-- What is kept for a while and then for longer is kept all the time. -/
theorem trans (h : Continues K s s') (h' : Continues K s' s'') : Continues K s s'' where
  count := h'.count.trans h.count
  nextId := h'.nextId.trans h.nextId
  keys := h'.keys.trans h.keys
  players := by
    intro seat p hp
    obtain ⟨q, hq, pq⟩ := h.players seat p hp
    obtain ⟨r, hr, qr⟩ := h'.players seat q hq
    exact ⟨r, hr, qr.id.trans pq.id, qr.deckList.trans pq.deckList, qr.copies.trans pq.copies⟩
  cards := by
    intro id c hc
    obtain ⟨e, he, ce⟩ := h.cards id c hc
    obtain ⟨f, hf, ef⟩ := h'.cards id e he
    exact ⟨f, hf, ef.id.trans ce.id, ef.card.trans ce.card, ef.owner.trans ce.owner⟩
  zones := by
    intro id c zone hc hz
    obtain ⟨e, he, ce⟩ := h.cards id c hc
    obtain ⟨zone', hz', path⟩ := h.zones id c zone hc hz
    obtain ⟨zone'', hz'', path'⟩ := h'.zones id e zone' he hz'
    refine ⟨zone'', hz'', ?_⟩
    intro d hd
    exact (path d hd).trans (path' d (ce.card ▸ hd))
  graves := by
    intro id hz
    obtain ⟨hz', same⟩ := h.graves id hz
    obtain ⟨hz'', same'⟩ := h'.graves id hz'
    exact ⟨hz'', same'.trans same⟩

/-- No copy comes from nowhere. -/
theorem instance?_before (h : Continues K s s') {e : CardInstance}
    (he : s'.instance? id = some e) : ∃ c, s.instance? id = some c ∧ c.Continues e := by
  have key : id.number ∈ s'.instances.keys := KeyMap.mem_keys_iff.mpr ⟨e, he⟩
  rw [h.keys] at key
  obtain ⟨c, hc⟩ := KeyMap.mem_keys_iff.mp key
  obtain ⟨e', he', ce⟩ := h.cards id c hc
  cases he.symm.trans he'
  exact ⟨c, hc, ce⟩

/-- No player comes from nowhere. -/
theorem player?_before (h : Continues K s s') {seat : Seat} {q : Player}
    (hq : s'.player? seat = some q) : ∃ p, s.player? seat = some p ∧ p.Continues q := by
  cases hp : s.player? seat with
  | none =>
    have out : s'.player? seat = none := by
      simp only [player?, SeatMap.get?, List.getElem?_eq_none_iff] at hp ⊢
      have same := h.count
      simp only [SeatMap.count] at same
      omega
    rw [out] at hq
    cases hq
  | some p =>
    obtain ⟨q', hq', pq⟩ := h.players seat p hp
    cases hq.symm.trans hq'
    exact ⟨p, rfl, pq⟩

/-- Zones and copies go on fitting together. -/
theorem housed (h : Continues K s s') (before : s.Housed) : s'.Housed where
  few := h.count ▸ before.few
  numbered := by
    intro seat q hq
    obtain ⟨p, hp, pq⟩ := h.player?_before hq
    exact pq.id.trans (before.numbered seat p hp)
  apart := by
    intro seat q hq
    obtain ⟨p, hp, pq⟩ := h.player?_before hq
    exact pq.copies.nodup_iff.mpr (before.apart seat p hp)
  owned := by
    intro seat q id hq mem
    obtain ⟨p, hp, pq⟩ := h.player?_before hq
    obtain ⟨c, hc, own⟩ := before.owned seat p id hp (pq.copies.mem_iff.mp mem)
    obtain ⟨e, he, ce⟩ := h.cards id c hc
    exact ⟨e, he, ce.owner.trans own⟩
  labelled := by
    intro id e he
    obtain ⟨c, hc, ce⟩ := h.instance?_before he
    exact ce.id.trans (before.labelled id c hc)
  placed := by
    intro id e he
    obtain ⟨c, hc, _⟩ := h.instance?_before he
    obtain ⟨zone, hz⟩ := before.placed id c hc
    obtain ⟨zone', hz', _⟩ := h.zones id c zone hc hz
    exact ⟨zone', hz'⟩
  fresh := by
    intro id e he
    obtain ⟨c, hc, _⟩ := h.instance?_before he
    rw [h.nextId]
    exact before.fresh id c hc

/-- A game continues step by step. -/
theorem of_steps {R : Session → Session → Prop}
    (step : ∀ s s', s.Housed → R s s' → Continues K s s') (housed : s.Housed)
    (run : Relation.ReflTransGen R s s') : Continues K s s' := by
  induction run with
  | refl => exact refl s
  | tail _ last ih => exact ih.trans (step _ _ (ih.housed housed) last)

/-! ### Single changes -/

theorem of_same (players : s'.players = s.players) (instances : s'.instances = s.instances)
    (nextId : s'.nextId = s.nextId) : Continues K s s' := by
  have hp : ∀ seat, s'.player? seat = s.player? seat := fun seat => by rw [player?, players]; rfl
  have hi : ∀ id, s'.instance? id = s.instance? id := fun id => by rw [instance?, instances]; rfl
  have hz : ∀ id, s'.zoneOf? id = s.zoneOf? id := by
    intro id
    exact zoneOf?_congr (by rw [hi]) fun seat => by rw [hp]
  exact {
    count := by rw [players]
    nextId
    keys := by rw [instances]
    players := fun seat p h => ⟨p, (hp seat).trans h, rfl, rfl, List.Perm.refl _⟩
    cards := fun id c h => ⟨c, (hi id).trans h, rfl, rfl, rfl⟩
    zones := fun id _ zone _ h => ⟨zone, (hz id).trans h, fun _ _ => .refl⟩
    graves := fun id h => ⟨(hz id).trans h, hi id⟩ }

theorem record (e : LogEntry) : Continues K s (s.record e) :=
  of_same rfl rfl rfl

/-- Players may change in all but their number, their zones and their deck. -/
theorem of_players (instances : s'.instances = s.instances) (nextId : s'.nextId = s.nextId)
    (count : s'.players.count = s.players.count)
    (players : ∀ seat p, s.player? seat = some p → ∃ q, s'.player? seat = some q ∧
      q.id = p.id ∧ q.deckList = p.deckList ∧ q.zones = p.zones) : Continues K s s' := by
  have hi : ∀ id, s'.instance? id = s.instance? id := fun id => by rw [instance?, instances]; rfl
  have hz : ∀ id zone, s.zoneOf? id = some zone → s'.zoneOf? id = some zone := by
    intro id zone h
    obtain ⟨c, p, hc, hp, found⟩ := zoneOf?_eq_some_iff.mp h
    obtain ⟨q, hq, _, _, same⟩ := players c.owner p hp
    exact zoneOf?_eq_some_iff.mpr ⟨c, q, (hi id).trans hc, hq, same ▸ found⟩
  exact {
    count
    nextId
    keys := by rw [instances]
    players := by
      intro seat p hp
      obtain ⟨q, hq, hid, hdeck, hzones⟩ := players seat p hp
      exact ⟨q, hq, hid, hdeck, by rw [hzones]⟩
    cards := fun id c h => ⟨c, (hi id).trans h, rfl, rfl, rfl⟩
    zones := fun id _ zone _ h => ⟨zone, hz id zone h, fun _ _ => .refl⟩
    graves := fun id h => ⟨hz id _ h, hi id⟩ }

/-- A player may change in all but the seat, the deck list and the zones. -/
theorem modifyPlayer {player : Seat} {f : Player → Player}
    (keeps : ∀ p, (f p).id = p.id ∧ (f p).deckList = p.deckList ∧ (f p).zones = p.zones) :
    Continues K s (s.modifyPlayer player f) := by
  refine of_players rfl rfl (count_modifyPlayer _ _) ?_
  intro seat p hp
  obtain ⟨q, hq, ⟨rfl, _⟩ | ⟨rfl, _⟩⟩ := player?_modifyPlayer_some player f hp
  · exact ⟨q, hq, rfl, rfl, rfl⟩
  · exact ⟨f p, hq, keeps p⟩

/-- The record of a copy may change outside the graveyard. -/
theorem modifyInstance {f : CardInstance → CardInstance}
    (keeps : ∀ c : CardInstance, c.Continues (f c))
    (alive : s.zoneOf? id ≠ some .graveyard) : Continues K s (s.modifyInstance id f) := by
  have hz : ∀ other, (s.modifyInstance id f).zoneOf? other = s.zoneOf? other := fun other =>
    zoneOf?_modifyInstance _ fun c => (keeps c).owner
  exact {
    count := rfl
    nextId := rfl
    keys := keys_modifyInstance _ _
    players := fun _ p hp => ⟨p, hp, rfl, rfl, List.Perm.refl _⟩
    cards := by
      intro other c hc
      by_cases same : id = other
      · subst same
        exact ⟨f c, by rw [instance?_modifyInstance_self, hc]; rfl, keeps c⟩
      · exact ⟨c, by rw [instance?_modifyInstance_of_ne _ _ same, hc], rfl, rfl, rfl⟩
    zones := fun other _ zone _ h => ⟨zone, (hz other).trans h, fun _ _ => .refl⟩
    graves := by
      intro other h
      have ne : id ≠ other := by
        rintro rfl
        exact alive h
      exact ⟨(hz other).trans h, instance?_modifyInstance_of_ne _ _ ne⟩ }

end Continues

/-! ### A copy that moves -/

variable {c : CardInstance} {p : Player} {source destination : Zone}

theorem zoneOf?_carry_self (housed : s.Housed) (hc : s.instance? id = some c)
    (hp : s.player? c.owner = some p) (different : source ≠ destination)
    (mem : id ∈ p.zones.cards source) :
    (s.setZones c.owner (p.zones.carry id source destination)).zoneOf? id = some destination := by
  rw [zoneOf?_eq_some_iff]
  refine ⟨c, { p with zones := p.zones.carry id source destination }, hc, ?_, ?_⟩
  · rw [setZones, player?_modifyPlayer_self, hp]
    rfl
  · exact Zones.locate_carry_self (housed.apart _ _ hp) different mem

/-- The card that is carried moves alone. -/
theorem zoneOf?_carry_of_ne (housed : s.Housed) (hp : s.player? c.owner = some p)
    (different : source ≠ destination) (mem : id ∈ p.zones.cards source) {other : InstanceId}
    (ne : other ≠ id) :
    (s.setZones c.owner (p.zones.carry id source destination)).zoneOf? other
      = s.zoneOf? other := by
  have same : ∀ e, s.instance? other = some e →
      (s.setZones c.owner (p.zones.carry id source destination)).zoneOf? other
        = s.zoneOf? other := by
    intro e he
    have he' : (s.setZones c.owner (p.zones.carry id source destination)).instance? other
      = some e := he
    by_cases own : c.owner = e.owner
    · have hq : (s.setZones c.owner (p.zones.carry id source destination)).player? e.owner
          = some { p with zones := p.zones.carry id source destination } := by
        rw [← own, setZones, player?_modifyPlayer_self, hp]
        rfl
      simp only [zoneOf?, he, he', hq, own ▸ hp]
      exact Zones.locate_carry_of_ne (housed.apart _ _ hp) different mem ne
    · have hq : (s.setZones c.owner (p.zones.carry id source destination)).player? e.owner
          = s.player? e.owner := player?_modifyPlayer_of_ne _ _ own
      simp only [zoneOf?, he, he', hq]
  cases he : s.instance? other with
  | none =>
    have he' : (s.setZones c.owner (p.zones.carry id source destination)).instance? other
      = none := he
    simp [zoneOf?, he, he']
  | some e => exact same e he

/-- What a copy that changes and moves at once leaves as it was, and what not. -/
theorem carry_views (housed : s.Housed) (hc : s.instance? id = some c)
    (hp : s.player? c.owner = some p) (different : source ≠ destination)
    (mem : id ∈ p.zones.cards source) {f : CardInstance → CardInstance}
    (owner : ∀ c, (f c).owner = c.owner) {s' : Session} (eq : s' = (s.modifyInstance id f).setZones
      c.owner (p.zones.carry id source destination)) :
    s'.zoneOf? id = some destination ∧ s'.instance? id = some (f c) ∧ ∀ other, other ≠ id →
      s'.zoneOf? other = s.zoneOf? other ∧ s'.instance? other = s.instance? other := by
  have swap : s' = (s.setZones c.owner (p.zones.carry id source destination)).modifyInstance id f :=
    eq
  have zone : ∀ other, s'.zoneOf? other
      = (s.setZones c.owner (p.zones.carry id source destination)).zoneOf? other := fun other =>
    swap ▸ zoneOf?_modifyInstance _ owner
  refine ⟨?_, ?_, ?_⟩
  · rw [zone]
    exact zoneOf?_carry_self housed hc hp different mem
  · rw [swap, instance?_modifyInstance_self]
    exact congrArg (Option.map f) hc
  · intro other ne
    refine ⟨(zone other).trans (zoneOf?_carry_of_ne housed hp different mem ne), ?_⟩
    rw [swap]
    exact instance?_modifyInstance_of_ne _ _ ne.symm

/-- A game continues when a card makes one of its moves. -/
theorem Continues.carry (housed : s.Housed) (hc : s.instance? id = some c)
    (hp : s.player? c.owner = some p) (different : source ≠ destination)
    (alive : source ≠ .graveyard) (mem : id ∈ p.zones.cards source)
    (passes : ∀ d, K.get? c.card = some d → Zone.Passes d.kind source destination) :
    Continues K s (s.setZones c.owner (p.zones.carry id source destination)) where
  count := count_modifyPlayer _ _
  nextId := rfl
  keys := rfl
  players := by
    intro seat q hq
    obtain ⟨r, hr, ⟨rfl, _⟩ | ⟨rfl, rfl⟩⟩ := player?_modifyPlayer_some c.owner
      (fun p' => { p' with zones := p.zones.carry id source destination }) hq
    · exact ⟨r, hr, rfl, rfl, List.Perm.refl _⟩
    · cases hp.symm.trans hq
      exact ⟨_, hr, rfl, rfl, Zones.carry_perm different mem⟩
  cards := fun _ e he => ⟨e, he, rfl, rfl, rfl⟩
  zones := by
    intro other e zone he hz
    by_cases same : other = id
    · subst same
      cases hc.symm.trans he
      have start := (housed.zoneOf?_iff hc hp).mpr mem
      cases start.symm.trans hz
      exact ⟨destination, zoneOf?_carry_self housed hc hp different mem,
        fun d hd => .single (passes d hd)⟩
    · exact ⟨zone, (zoneOf?_carry_of_ne housed hp different mem same).trans hz,
        fun _ _ => .refl⟩
  graves := by
    intro other hz
    have ne : other ≠ id := by
      rintro rfl
      have start := (housed.zoneOf?_iff hc hp).mpr mem
      exact alive (Option.some.inj (start.symm.trans hz))
    exact ⟨(zoneOf?_carry_of_ne housed hp different mem ne).trans hz, rfl⟩

end Session

end CardBattle
