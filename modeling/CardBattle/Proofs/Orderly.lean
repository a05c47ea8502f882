import CardBattle.Proofs.Accepted
import CardBattle.Proofs.Frames

/-!
# Orderly sessions

Where the checker accepts a session, records are filed under their numbers, players know their
seats and every card is known, the zones and the copies agree: what is listed on a battlefield is
in play, belongs to the player of the list, and has health within the bound of its definition.
-/

namespace CardBattle

theorem Zones.nodup_battlefield {z : Zones} (apart : z.allInstances.Nodup) :
    z.battlefield.Nodup := by
  rw [allInstances_eq] at apart
  exact apart.of_append_right.of_append_right.of_append_left

namespace Session

variable {K : Catalog} {s s' : Session} {id : InstanceId} {player : Seat} {c : CardInstance}
  {d : CardDefinition}

def Known (K : Catalog) (s : Session) : Prop :=
  ∀ id c, s.instance? id = some c → ∃ d, K.get? c.card = some d

/-- A session that the checker accepts, with every record filed under its number and a definition
for every copy. -/
structure Orderly (K : Catalog) (s : Session) : Prop where
  accepted : s.violation? K = none
  labelled : s.Labelled
  numbered : s.Numbered
  known : s.Known K

theorem known_iff : s.Known K ↔ ∀ e ∈ s.instances.entries, (K.get? e.2.card).isSome = true := by
  simp only [Option.isSome_iff_exists]
  constructor
  · rintro known ⟨key, c⟩ mem
    exact known ⟨key⟩ c (KeyMap.get?_of_mem mem)
  · intro entries id c hc
    exact entries (id.number, c) (KeyMap.mem_of_get? hc)

/-- A session is in order if these four checks pass. -/
theorem orderly_iff :
    s.Orderly K ↔ s.violation? K = none ∧ s.Labelled ∧ s.Numbered ∧ s.Known K := by
  constructor
  · rintro ⟨accepted, labelled, numbered, known⟩
    exact ⟨accepted, labelled, numbered, known⟩
  · rintro ⟨accepted, labelled, numbered, known⟩
    exact ⟨accepted, labelled, numbered, known⟩

instance : Decidable (s.Known K) :=
  decidable_of_iff _ known_iff.symm

instance : Decidable (s.Orderly K) :=
  decidable_of_iff _ orderly_iff.symm

/-! ### Battlefields -/

theorem Apart.nodup_battlefield (apart : s.Apart) (seat : Seat) : (s.battlefield seat).Nodup := by
  rw [battlefield]
  cases hp : s.player? seat with
  | none => exact List.nodup_nil
  | some p => exact Zones.nodup_battlefield (apart seat p hp)

/-- The permanents in play depend on the battlefields and on who owns the copies. -/
theorem inPlay_congr (apart : s.Apart) (apart' : s'.Apart)
    (battlefield : ∀ seat, s'.battlefield seat = s.battlefield seat)
    (owner : (s'.instance? id).map (·.owner) = (s.instance? id).map (·.owner)) :
    s'.zoneOf? id = some .battlefield ↔ s.zoneOf? id = some .battlefield := by
  have view : ∀ {r : Session}, r.Apart → (r.zoneOf? id = some .battlefield ↔
      ∃ seat, (r.instance? id).map (·.owner) = some seat ∧ id ∈ r.battlefield seat) := by
    intro r apart
    rw [apart.inPlay_iff]
    cases r.instance? id <;> simp
  rw [view apart, view apart', owner]
  simp only [battlefield]

/-- Whoever is at the table was there before, and has stayed within their frame. -/
theorem Contained.frame {actor : Option Seat} {dead : InstanceId → Prop}
    (h : Contained actor dead s s') {q : Player} (hq : s'.player? player = some q) :
    ∃ p drawn fallen, s.player? player = some p ∧ p.Frame drawn fallen q := by
  obtain ⟨p, hp⟩ : ∃ p, s.player? player = some p := by
    refine ⟨_, List.getElem?_eq_getElem ?_⟩
    have inside := index_lt_of_player? hq
    rwa [h.count] at inside
  obtain ⟨q', drawn, fallen, hq', frame, -, -⟩ := h.players player p hp
  cases hq.symm.trans hq'
  exact ⟨p, drawn, fallen, hp, frame⟩

/-- Players have the same copies as before. -/
theorem Contained.copies {actor : Option Seat} {dead : InstanceId → Prop}
    (h : Contained actor dead s s') (apart : s.Apart) {q : Player}
    (hq : s'.player? player = some q) : ∃ p, s.player? player = some p ∧
      q.zones.allInstances.Perm p.zones.allInstances := by
  obtain ⟨p, drawn, fallen, hp, frame⟩ := h.frame hq
  exact ⟨p, hp, frame.zones.perm (apart player p hp)⟩

/-- Nothing contained puts a copy in two places. -/
theorem Contained.apart {actor : Option Seat} {dead : InstanceId → Prop}
    (h : Contained actor dead s s') (apart : s.Apart) : s'.Apart := by
  intro seat q hq
  obtain ⟨p, hp, copies⟩ := h.copies apart hq
  exact copies.nodup_iff.mpr (apart seat p hp)

theorem Contained.tidy {actor : Option Seat} {dead : InstanceId → Prop}
    (h : Contained actor dead s s')
    (owner : ∀ id, (s'.instance? id).map (·.owner) = (s.instance? id).map (·.owner))
    (tidy : s.Tidy) : s'.Tidy where
  apart := h.apart tidy.apart
  owned := by
    intro seat q id hq mem
    obtain ⟨p, hp, copies⟩ := h.copies tidy.apart hq
    obtain ⟨c, hc, own⟩ := tidy.owned seat p id hp (copies.mem_iff.mp mem)
    have same := owner id
    rw [hc, Option.map_some, own] at same
    exact Option.map_eq_some_iff.mp same

namespace Tidy

/-- A copy is on a battlefield if it is in play and belongs to that player. -/
theorem mem_battlefield_iff (tidy : s.Tidy) : id ∈ s.battlefield player ↔
    ∃ c, s.instance? id = some c ∧ c.owner = player ∧ s.zoneOf? id = some .battlefield := by
  constructor
  · exact tidy.of_mem_battlefield
  · rintro ⟨c, hc, rfl, inPlay⟩
    obtain ⟨p, hp, mem⟩ := tidy.owner_of_zone hc inPlay
    exact Session.mem_battlefield_iff.mpr ⟨p, hp, mem⟩

/-- A copy lies on no battlefield but that of its owner. -/
theorem elsewhere (tidy : s.Tidy) (hc : s.instance? id = some c) {p : Player}
    (hp : s.player? player = some p) (other : c.owner ≠ player) : id ∉ p.zones.battlefield := by
  intro mem
  obtain ⟨c', hc', own, -⟩ := tidy.of_mem_battlefield (Session.mem_battlefield_iff.mpr ⟨p, hp, mem⟩)
  cases hc.symm.trans hc'
  exact other own

/-- No permanent is listed twice, by one player or by two. -/
theorem nodup_inPlay (tidy : s.Tidy) : (s.players.seats.flatMap s.battlefield).Nodup := by
  refine List.nodup_flatMap.mpr ⟨?_, ?_⟩
  · intro seat _
    exact tidy.apart.nodup_battlefield seat
  · refine nodup_seats.imp fun {seat other} differ id mem mem' => ?_
    obtain ⟨c, hc, rfl, -⟩ := tidy.of_mem_battlefield mem
    obtain ⟨c', hc', rfl, -⟩ := tidy.of_mem_battlefield mem'
    cases hc.symm.trans hc'
    exact differ rfl

end Tidy

/-! ### What the checker vouches for -/

namespace Orderly

theorem tidy (orderly : s.Orderly K) : s.Tidy where
  apart := apart_of_accepted orderly.accepted orderly.labelled
  owned := by
    intro seat p id hp mem
    obtain ⟨c, hc, own⟩ := owner_of_accepted orderly.accepted hp mem
    exact ⟨c, hc, own.trans (orderly.numbered seat p hp)⟩

/-- In an orderly session, what is in play is a permanent with some health, and no more than its
card gives. -/
theorem permanent (orderly : s.Orderly K) (hc : s.instance? id = some c)
    (hd : K.get? c.card = some d) (inPlay : s.zoneOf? id = some .battlefield) :
    d.kind ≠ .spell ∧ 1 ≤ c.health ∧ c.health ≤ d.health :=
  permanent_of_accepted orderly.accepted orderly.labelled hc hd inPlay

/-- In an orderly session, nothing in play is dead. -/
theorem alive (orderly : s.Orderly K) : s.Alive := by
  intro id c hc inPlay
  obtain ⟨d, hd⟩ := orderly.known id c hc
  exact (orderly.permanent hc hd inPlay).2.1

end Orderly

/-! ### Accepted sessions that are not in order -/

theorem showdown_orderly : showdown.Orderly arena.catalog := by
  decide +kernel

/-- Bob has a seer in play twice. Its record bears the number of another one, so that nobody asks
for its health. -/
def mislaid : Session :=
  { showdown with
    players := ⟨[{ Player.ofConfig ⟨0⟩ "Ann" {} with zones := ⟨[], [], [⟨1⟩], []⟩ },
      { Player.ofConfig ⟨1⟩ "Bob" {} with zones := ⟨[⟨3⟩], [], [⟨2⟩, ⟨2⟩, ⟨4⟩], []⟩ }]⟩
    instances := .ofList [(1, ⟨⟨1⟩, ⟨2⟩, ⟨0⟩, 1, false⟩), (2, ⟨⟨3⟩, ⟨3⟩, ⟨1⟩, 0, false⟩),
      (3, ⟨⟨3⟩, ⟨3⟩, ⟨1⟩, 2, false⟩), (4, ⟨⟨4⟩, ⟨2⟩, ⟨1⟩, 1, false⟩)] }

/-- Bob takes himself for the first player and has a wisp of hers in play, which therefore counts as
lying nowhere. Nobody asks for its health. -/
def estranged : Session :=
  { showdown with
    players := ⟨[{ Player.ofConfig ⟨0⟩ "Ann" {} with zones := ⟨[], [], [⟨1⟩], []⟩ },
      { Player.ofConfig ⟨0⟩ "Bob" {} with zones := ⟨[], [], [⟨2⟩], []⟩ }]⟩
    instances := .ofList [(1, ⟨⟨1⟩, ⟨2⟩, ⟨0⟩, 1, false⟩), (2, ⟨⟨2⟩, ⟨2⟩, ⟨0⟩, 5, false⟩)] }

def throng : Session :=
  { showdown with
    players := ⟨(List.range 256).map fun i => { Player.ofConfig ⟨i⟩ "Ann" {} with
      zones := ⟨[], [], if i < 2 then [⟨i + 1⟩] else [], []⟩ }⟩
    instances := .ofList [(1, ⟨⟨1⟩, ⟨2⟩, ⟨0⟩, 1, false⟩), (2, ⟨⟨2⟩, ⟨2⟩, ⟨1⟩, 1, false⟩)] }

end Session

end CardBattle
