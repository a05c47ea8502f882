import CardBattle.Proofs.Orderly

/-!
# What a sweep leaves

The sweep buries the dead one after another. Each burial finds the permanents that are still to fall
as they were, so that the whole sweep comes to one change: the fallen leave the battlefields for
the graveyards of their owners, each with one entry in the log, and nothing else is touched.
-/

namespace CardBattle

namespace Zones

/-- The zones of a player after some permanents in play, theirs or not, have fallen. -/
def bury (z : Zones) (fallen : List InstanceId) : Zones :=
  { z with
    battlefield := z.battlefield.filter (· ∉ fallen)
    graveyard := z.graveyard ++ fallen.filter (· ∈ z.battlefield) }

variable {z : Zones} {fallen : List InstanceId} {id : InstanceId}

theorem bury_nil : z.bury [] = z := by
  simp [bury]

/-- Burying one more permanent is to carry it to the graveyard. -/
theorem carry_bury (nodup : z.battlefield.Nodup) (mem : id ∈ z.battlefield) :
    (z.bury fallen).carry id .battlefield .graveyard = z.bury (fallen ++ [id]) := by
  have battlefield : (z.battlefield.filter (· ∉ fallen)).erase id
      = z.battlefield.filter (· ∉ fallen ++ [id]) := by
    rw [(nodup.filter _).erase_eq_filter, List.filter_filter]
    refine List.filter_congr fun other _ => ?_
    rw [Bool.eq_iff_iff]
    simp [and_comm]
  have graveyard : fallen.filter (· ∈ z.battlefield) ++ [id]
      = (fallen ++ [id]).filter (· ∈ z.battlefield) := by
    simp [List.filter_append, mem]
  simp only [bury, carry, setCards, cards, battlefield, List.append_assoc, graveyard]

/-- What falls elsewhere leaves a player alone. -/
theorem bury_of_not_mem (absent : id ∉ z.battlefield) :
    z.bury (fallen ++ [id]) = z.bury fallen := by
  have battlefield : z.battlefield.filter (· ∉ fallen ++ [id])
      = z.battlefield.filter (· ∉ fallen) := by
    refine List.filter_congr fun other mem => ?_
    have differ : other ≠ id := by
      rintro rfl
      exact absent mem
    simp [differ]
  simp only [bury, battlefield, List.filter_append]
  simp [absent]

/-- What is spared stays in place. -/
theorem mem_cards_bury (spared : id ∉ fallen) {zone : Zone} :
    id ∈ (z.bury fallen).cards zone ↔ id ∈ z.cards zone := by
  cases zone <;> simp [bury, cards, spared]

end Zones

namespace Session

variable {K : Catalog} {now : Nat} {s m s' : Session} {fallen : List InstanceId} {id : InstanceId}

/-- A session without its players, its copies and its log. -/
def bare (s : Session) : Session :=
  { s with players := ⟨[]⟩, instances := .empty, log := [] }

structure Swept (K : Catalog) (now : Nat) (fallen : List InstanceId) (s s' : Session) : Prop where
  rest : s'.bare = s.bare
  players : ∀ seat, s'.player? seat
    = (s.player? seat).map fun p => { p with zones := p.zones.bury fallen }
  copies : ∀ id, s'.instance? id
    = (s.instance? id).map fun c => if id ∈ fallen then c.buried else c
  log : ∃ entries, s'.log = s.log ++ entries ∧
    List.Forall₂ (fun id e => ∃ c, s.instance? id = some c ∧ e = destroyEntry K c id now)
      fallen entries

namespace Swept

theorem refl (s : Session) : Swept K now [] s s where
  rest := rfl
  players := by
    intro seat
    simp [Zones.bury_nil]
  copies := by
    intro id
    simp
  log := ⟨[], (List.append_nil _).symm, .nil⟩

/-- One more permanent falls. -/
theorem bury (h : Swept K now fallen s m) (tidy : s.Tidy) (apart : m.Apart) (fresh : id ∉ fallen)
    (inPlay : s.zoneOf? id = some .battlefield) :
    Swept K now (fallen ++ [id]) s (Session.bury K now m id) := by
  obtain ⟨c, p, hc, hp, found⟩ := zoneOf?_eq_some_iff.mp inPlay
  have mem : id ∈ p.zones.battlefield := Zones.mem_of_locate found
  have hc' : m.instance? id = some c := by
    rw [h.copies, hc]
    simp [fresh]
  have hp' : m.player? c.owner = some { p with zones := p.zones.bury fallen } := by
    rw [h.players, hp]
    rfl
  have there : id ∈ (p.zones.bury fallen).battlefield := by
    simp [Zones.bury, mem, fresh]
  rcases bury_of_apart now apart K id with ⟨away, -⟩ | ⟨e, q, he, hq, -, buried⟩
  · exact absurd there (away c _ hc' hp')
  cases hc'.symm.trans he
  cases hp'.symm.trans hq
  rw [buried]
  refine ⟨h.rest, ?_, ?_, ?_⟩
  · intro seat
    by_cases own : c.owner = seat
    · subst own
      refine (player?_modifyPlayer_self _ _).trans ?_
      rw [player?_modifyInstance, hp', hp]
      have nodup : p.zones.battlefield.Nodup := Zones.nodup_battlefield (tidy.apart _ p hp)
      simp only [Option.map_some, Zones.carry_bury nodup mem]
    · refine (player?_modifyPlayer_of_ne _ _ own).trans ?_
      rw [player?_modifyInstance, h.players]
      cases hr : s.player? seat with
      | none => rfl
      | some r =>
        have absent := tidy.elsewhere hc hr own
        simp only [Option.map_some, Zones.bury_of_not_mem absent]
  · intro other
    change (m.modifyInstance id (·.buried)).instance? other = _
    by_cases same : id = other
    · subst same
      rw [instance?_modifyInstance_self, hc', hc]
      simp
    · rw [instance?_modifyInstance_of_ne _ _ same, h.copies]
      have differ : ¬other = id := fun same' => same same'.symm
      simp [differ]
  · obtain ⟨entries, log, each⟩ := h.log
    refine ⟨entries ++ [destroyEntry K c id now], ?_, ?_⟩
    · change m.log ++ _ = _
      rw [log, List.append_assoc]
    · exact List.rel_append each (.cons ⟨c, hc, rfl⟩ .nil)

end Swept

/-- The induction is on the permanents that are still to fall; those before them lie buried. -/
theorem foldl_bury_swept (tidy : s.Tidy) (ids : List InstanceId) (h : Swept K now fallen s m)
    (apart : m.Apart) (nodup : (fallen ++ ids).Nodup)
    (inPlay : ∀ id ∈ ids, s.zoneOf? id = some .battlefield) :
    Swept K now (fallen ++ ids) s (ids.foldl (Session.bury K now) m) := by
  induction ids generalizing fallen m with
  | nil =>
    rw [List.append_nil]
    exact h
  | cons id ids ih =>
    have fresh : id ∉ fallen := fun mem =>
      (List.nodup_append.mp nodup).2.2 id mem id List.mem_cons_self rfl
    have next := h.bury tidy apart fresh (inPlay id List.mem_cons_self)
    have contained : Contained none (fun _ => True) m (Session.bury K now m id) :=
      bury_contained K now trivial
    rw [List.append_cons] at nodup ⊢
    exact ih next (contained.apart apart) nodup fun other mem =>
      inPlay other (List.mem_cons_of_mem _ mem)

/-- The dead are listed once. -/
theorem Tidy.nodup_dead (tidy : s.Tidy) : s.dead.Nodup :=
  tidy.nodup_inPlay.filter _

/-- The dead are listed while they are in play. -/
theorem Tidy.inPlay_of_dead (tidy : s.Tidy) (mem : id ∈ s.dead) :
    s.zoneOf? id = some .battlefield := by
  obtain ⟨seat, -, listed⟩ := List.mem_flatMap.mp (List.mem_filter.mp mem).1
  obtain ⟨-, -, -, inPlay⟩ := tidy.of_mem_battlefield listed
  exact inPlay

/-- The sweep makes the dead fall and does nothing else. -/
theorem sweep_swept (tidy : s.Tidy) (K : Catalog) (now : Nat) :
    Swept K now s.dead s (s.sweep K now).2 :=
  foldl_bury_swept tidy s.dead (.refl s) tidy.apart (by simpa using tidy.nodup_dead)
    fun _ => tidy.inPlay_of_dead

namespace Swept

/-- The fallen lie in the graveyards of their owners, and all other copies where they lay. -/
theorem zoneOf? (h : Swept K now fallen s s') (apart : s'.Apart)
    (inPlay : ∀ id ∈ fallen, s.zoneOf? id = some .battlefield) (id : InstanceId) :
    s'.zoneOf? id = if id ∈ fallen then some .graveyard else s.zoneOf? id := by
  split
  · rename_i mem
    obtain ⟨c, p, hc, hp, found⟩ := zoneOf?_eq_some_iff.mp (inPlay id mem)
    have hc' : s'.instance? id = some c.buried := by
      rw [h.copies, hc, Option.map_some, if_pos mem]
    have hp' : s'.player? c.owner = some { p with zones := p.zones.bury fallen } := by
      rw [h.players, hp, Option.map_some]
    have lies : id ∈ p.zones.battlefield := Zones.mem_of_locate found
    refine zoneOf?_eq_some_iff.mpr ⟨_, _, hc', hp', ?_⟩
    refine (Zones.locate_eq_some_iff (apart _ _ hp')).mpr ?_
    simp [Zones.bury, Zones.cards, mem, lies]
  · rename_i spared
    have owner : (s'.instance? id).map (·.owner) = (s.instance? id).map (·.owner) := by
      rw [h.copies, Option.map_map]
      simp [Function.comp_def, spared]
    rw [zoneOf?_eq_bind, zoneOf?_eq_bind, owner]
    congr 1
    funext seat
    rw [h.players]
    cases hp : s.player? seat with
    | none => rfl
    | some p =>
      have hp' := h.players seat
      rw [hp] at hp'
      exact Zones.locate_congr (apart _ _ hp') fun zone => Zones.mem_cards_bury spared

end Swept

/-- A sweep leaves no copy in two places. -/
theorem apart_sweep (apart : s.Apart) (K : Catalog) (now : Nat) : (s.sweep K now).2.Apart := by
  have contained : Contained none (· ∈ s.dead) s (s.sweep K now).2 := sweep_contained K now
  exact contained.apart apart

/-- No permanent without health is left in play. -/
theorem alive_sweep (tidy : s.Tidy) (few : s.players.count < Seat.bound) (K : Catalog)
    (now : Nat) : (s.sweep K now).2.Alive := by
  intro id c hc inPlay
  have swept := sweep_swept tidy K now
  rw [swept.zoneOf? (apart_sweep tidy.apart K now) fun _ => tidy.inPlay_of_dead] at inPlay
  rw [swept.copies] at hc
  split at inPlay
  · cases inPlay
  · rename_i spared
    obtain ⟨e, he, rfl⟩ := Option.map_eq_some_iff.mp hc
    rw [if_neg spared]
    by_contra noHealth
    exact spared ((mem_dead_iff tidy few).mpr ⟨e, he, inPlay, by omega⟩)

end Session

end CardBattle
