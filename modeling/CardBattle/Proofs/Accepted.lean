import CardBattle.Proofs.WellFormed

/-!
# What an accepted session can be relied on for

The checker goes by the numbers in the records of players and copies, and does not ask whether the
records are filed under these numbers. Where copies are, a session that it accepts has no copy in
two places. Where players know their seats as well, every copy in a zone belongs to its player, and
the sessions that the checker accepts are exactly the well-formed ones.
-/

namespace CardBattle

namespace Session

/-- Every copy is filed under its own number. -/
def Labelled (s : Session) : Prop :=
  ∀ id c, s.instance? id = some c → c.id = id

/-- Every player knows their seat. -/
def Numbered (s : Session) : Prop :=
  ∀ seat p, s.player? seat = some p → p.id = seat

variable {K : Catalog} {s : Session} {id : InstanceId} {p q : Player} {seat other : Seat}

theorem labelled_iff : s.Labelled ↔ ∀ e ∈ s.instances.entries, e.2.id = ⟨e.1⟩ := by
  constructor
  · rintro labelled ⟨key, c⟩ mem
    exact labelled ⟨key⟩ c (KeyMap.get?_of_mem mem)
  · intro entries id c hc
    exact entries (id.number, c) (KeyMap.mem_of_get? hc)

theorem numbered_iff : s.Numbered ↔ ∀ e ∈ s.players.data.zipIdx, e.1.id = ⟨e.2⟩ := by
  constructor
  · rintro numbered ⟨p, i⟩ mem
    exact numbered ⟨i⟩ p (List.mem_zipIdx_iff_getElem?.mp mem)
  · intro entries seat p hp
    exact entries (p, seat.index) (List.mem_zipIdx_iff_getElem?.mpr hp)

instance : Decidable s.Labelled :=
  decidable_of_iff _ labelled_iff.symm

instance : Decidable s.Numbered :=
  decidable_of_iff _ numbered_iff.symm

/-- What lies in the zones of a player is owned by whoever the player says to be. -/
theorem owner_of_accepted (accepted : s.violation? K = none) (hp : s.player? seat = some p)
    (mem : id ∈ p.zones.allInstances) : ∃ c, s.instance? id = some c ∧ c.owner = p.id := by
  obtain ⟨-, -, zones, -⟩ := violation?_eq_none.mp accepted
  have present : p ∈ s.players.data := mem_players_iff.mpr ⟨seat, hp⟩
  exact zoneViolation?_eq_none_iff.mp (zones p present) id mem

/-- No copy lies in two places. -/
theorem nodup_laid_of_accepted (accepted : s.violation? K = none) (labelled : s.Labelled) :
    s.laid.Nodup := by
  refine List.nodup_iff_count_le_one.mpr fun id => ?_
  by_cases mem : id ∈ s.laid
  · obtain ⟨seat, p, hp, mem⟩ := mem_laid_iff.mp mem
    obtain ⟨c, hc, -⟩ := owner_of_accepted accepted hp mem
    obtain ⟨-, copies, -⟩ := violation?_eq_none.mp accepted
    have once := (instanceViolation?_eq_none_iff.mp
      (copies c (KeyMap.mem_values_iff.mpr ⟨id.number, hc⟩))).1
    rw [labelled id c hc] at once
    exact Nat.le_of_eq once
  · rw [List.count_eq_zero_of_not_mem mem]
    exact Nat.zero_le 1

theorem apart_of_nodup_laid (nodup : s.laid.Nodup) : s.Apart := by
  intro seat p hp
  have present : p ∈ s.players.data := mem_players_iff.mpr ⟨seat, hp⟩
  exact (List.nodup_flatMap.mp nodup).1 p present

/-- In an accepted session, no player has a copy twice. -/
theorem apart_of_accepted (accepted : s.violation? K = none) (labelled : s.Labelled) : s.Apart :=
  apart_of_nodup_laid (nodup_laid_of_accepted accepted labelled)

/-- A copy is in play exactly when it lies on the battlefield of its owner. -/
theorem Apart.inPlay_iff (apart : s.Apart) : s.zoneOf? id = some .battlefield ↔
    ∃ c, s.instance? id = some c ∧ id ∈ s.battlefield c.owner := by
  constructor
  · exact mem_battlefield_of_zone
  · rintro ⟨c, hc, mem⟩
    obtain ⟨p, hp, mem⟩ := mem_battlefield_iff.mp mem
    exact zoneOf?_eq_some_iff.mpr ⟨c, p, hc, hp, (Zones.locate_eq_some_iff (apart _ p hp)).mpr mem⟩

/-- Only one player has a copy. -/
theorem seat_unique (nodup : s.laid.Nodup) (hp : s.player? seat = some p)
    (hq : s.player? other = some q) (mem : id ∈ p.zones.allInstances)
    (mem' : id ∈ q.zones.allInstances) : seat = other := by
  have disjoint := List.pairwise_iff_getElem.mp (List.nodup_flatMap.mp nodup).2
  obtain ⟨inside, rfl⟩ := List.getElem?_eq_some_iff.mp hp
  obtain ⟨inside', rfl⟩ := List.getElem?_eq_some_iff.mp hq
  rcases Nat.lt_trichotomy seat.index other.index with below | same | above
  · exact absurd mem' (disjoint _ _ inside inside' below mem)
  · cases seat
    cases other
    exact congrArg Seat.mk same
  · exact absurd mem (disjoint _ _ inside' inside above mem')

/-- A copy that lies on the battlefield of a player and counts as in play is theirs. -/
theorem owner_of_nodup_laid (nodup : s.laid.Nodup) {c : CardInstance}
    (hc : s.instance? id = some c) (inPlay : s.zoneOf? id = some .battlefield)
    (mem : id ∈ s.battlefield seat) : c.owner = seat := by
  obtain ⟨c', hc', there⟩ := mem_battlefield_of_zone inPlay
  cases hc.symm.trans hc'
  obtain ⟨p, hp, inP⟩ := mem_battlefield_iff.mp there
  obtain ⟨q, hq, inQ⟩ := mem_battlefield_iff.mp mem
  exact seat_unique nodup hp hq (Zones.mem_allInstances.mpr ⟨.battlefield, inP⟩)
    (Zones.mem_allInstances.mpr ⟨.battlefield, inQ⟩)

/-- In an accepted session, health and energy keep within their bounds. -/
theorem solvent_of_accepted (accepted : s.violation? K = none) : s.Solvent := by
  intro seat p hp
  obtain ⟨players, -⟩ := violation?_eq_none.mp accepted
  have entry : (Seat.ofIndex seat.index, p) ∈ s.players.entries :=
    List.mem_map.mpr ⟨(p, seat.index), List.mem_zipIdx_iff_getElem?.mpr hp, rfl⟩
  exact playerViolation?_eq_none_iff.mp (players _ entry)

/-- In an accepted session, a copy in play is of a permanent card and lives, with at most the health
that its card gives. -/
theorem permanent_of_accepted (accepted : s.violation? K = none) (labelled : s.Labelled)
    {c : CardInstance} {d : CardDefinition} (hc : s.instance? id = some c)
    (hd : K.get? c.card = some d) (inPlay : s.zoneOf? id = some .battlefield) :
    d.kind ≠ .spell ∧ 1 ≤ c.health ∧ c.health ≤ d.health := by
  obtain ⟨-, copies, -⟩ := violation?_eq_none.mp accepted
  have listed : c ∈ s.instances.values := KeyMap.mem_values_iff.mpr ⟨id.number, hc⟩
  refine (instanceViolation?_eq_none_iff.mp (copies c listed)).2 d hd ?_
  rw [labelled id c hc]
  exact inPlay

/-! ### An accepted session -/

/-- Ann's turn: she has a bolt and a seer in hand, a wisp in the deck and a seer in play, and faces
Bob's wisp. -/
def showdown : Session where
  status := .playing
  players := ⟨[{ Player.ofConfig ⟨0⟩ "Ann" {} with zones := ⟨[⟨3⟩], [⟨1⟩, ⟨5⟩], [⟨4⟩], []⟩ },
    { Player.ofConfig ⟨1⟩ "Bob" {} with zones := ⟨[], [], [⟨2⟩], []⟩ }]⟩
  current := ⟨0⟩
  starting := ⟨0⟩
  turn := 1
  log := []
  winner := none
  revision := 0
  rng := .ofSeed 0
  instances := .ofList [(1, ⟨⟨1⟩, ⟨1⟩, ⟨0⟩, 0, false⟩), (2, ⟨⟨2⟩, ⟨2⟩, ⟨1⟩, 1, false⟩),
    (3, ⟨⟨3⟩, ⟨2⟩, ⟨0⟩, 1, false⟩), (4, ⟨⟨4⟩, ⟨3⟩, ⟨0⟩, 2, false⟩),
    (5, ⟨⟨5⟩, ⟨3⟩, ⟨0⟩, 2, false⟩)]
  nextId := ⟨6⟩

end Session

def arena : Context where
  catalog := .ofList
    [.spell ⟨1⟩ "Bolt" 1 ⟨[.selectTargets "t" .enemyCreature,
        .forEach "c" (.var "t") [.damageCard (.var "c") (.int 3)]]⟩,
      .creature ⟨2⟩ "Wisp" 1 1 1,
      { CardDefinition.creature ⟨3⟩ "Seer" 1 1 2 with
        abilities := [⟨.startTurn, ⟨[.drawCard]⟩, "Foresight"⟩] }]
  config := {}
  clock := .still 0
  chooser := .first

theorem showdown_accepted : Session.showdown.violation? arena.catalog = none := by
  decide +kernel

/-! ### The checker decides -/

namespace Session

variable {K : Catalog} {s : Session}

/-- Whatever the checker accepts is well-formed. -/
theorem wellFormed_of_accepted (accepted : s.violation? K = none) (numbered : s.Numbered)
    (labelled : s.Labelled) : s.WellFormed K := by
  obtain ⟨-, copies, -, turn⟩ := violation?_eq_none.mp accepted
  constructor
  · exact solvent_of_accepted accepted
  · intro id c hc
    have listed : c ∈ s.instances.values := KeyMap.mem_values_iff.mpr ⟨id.number, hc⟩
    have once := (instanceViolation?_eq_none_iff.mp (copies c listed)).1
    rwa [labelled id c hc] at once
  · intro seat p id hp mem
    rw [← numbered seat p hp]
    exact owner_of_accepted accepted hp mem
  · intro id c d hc hd mem
    have inPlay : s.zoneOf? id = some .battlefield :=
      (apart_of_accepted accepted labelled).inPlay_iff.mpr ⟨c, hc, mem⟩
    exact permanent_of_accepted accepted labelled hc hd inPlay
  · exact turnViolation?_eq_none_iff.mp turn

/-- Where players know their seats and copies their numbers, the checker accepts exactly the
well-formed sessions. -/
theorem accepted_iff_wellFormed (K : Catalog) (s : Session) (numbered : s.Numbered)
    (labelled : s.Labelled) : s.violation? K = none ↔ s.WellFormed K := by
  constructor
  · intro accepted
    exact wellFormed_of_accepted accepted numbered labelled
  · intro formed
    exact formed.accepted numbered labelled

/-- Ann's seer in play lies in her deck as well. -/
def overlaid : Session :=
  { showdown with
    players := showdown.players.modify ⟨0⟩ fun p =>
      { p with zones := { p.zones with deck := [⟨3⟩, ⟨4⟩] } } }

/-- The cards are laid out well at first, and not with the same seer in two places. -/
theorem showdown_wellFormed :
    (showdown.Numbered ∧ showdown.Labelled ∧ showdown.WellFormed arena.catalog) ∧
      overlaid.Numbered ∧ overlaid.Labelled ∧ ¬overlaid.WellFormed arena.catalog := by
  have numbered : showdown.Numbered := by decide +kernel
  have labelled : showdown.Labelled := by decide +kernel
  have numbered' : overlaid.Numbered := by decide +kernel
  have labelled' : overlaid.Labelled := by decide +kernel
  refine ⟨⟨numbered, labelled, ?_⟩, numbered', labelled', ?_⟩
  · exact (accepted_iff_wellFormed arena.catalog showdown numbered labelled).mp showdown_accepted
  · rw [← accepted_iff_wellFormed arena.catalog overlaid numbered' labelled']
    decide +kernel

end Session

end CardBattle
