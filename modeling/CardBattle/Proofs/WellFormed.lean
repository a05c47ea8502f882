import CardBattle.Proofs.NewGames
import CardBattle.Session.Invariant

/-!
# What the checker accepts

A well-formed session has resources within their bounds, every copy once in the zones of its owner,
permanents with health in play, and a player whose turn it is. Each part of the checker decides its
part of this. From a new game on, whatever is asked of the engine, its documents are well-formed.
-/

namespace CardBattle

namespace Session

def laid (s : Session) : List InstanceId :=
  s.players.data.flatMap fun p => p.zones.allInstances

/-- A session as it should be. -/
structure WellFormed (K : Catalog) (s : Session) : Prop where
  solvent : s.Solvent
  once : ∀ id c, s.instance? id = some c → s.laid.count id = 1
  owned : ∀ seat p id, s.player? seat = some p → id ∈ p.zones.allInstances →
    ∃ c, s.instance? id = some c ∧ c.owner = seat
  permanents : ∀ id c d, s.instance? id = some c → K.get? c.card = some d →
    id ∈ s.battlefield c.owner → d.kind ≠ .spell ∧ 1 ≤ c.health ∧ c.health ≤ d.health
  active : s.status = .playing → ∃ p, s.player? s.current = some p

variable {config : Config} {K : Catalog} {s : Session} {id : InstanceId} {c : CardInstance}
  {d : CardDefinition} {p : Player} {seat : Seat}

/-! ### The parts of the checker -/

/-- The checker finds nothing wrong with a player who is solvent. -/
theorem playerViolation?_eq_none_iff : playerViolation? seat p = none ↔ p.Solvent := by
  unfold playerViolation?
  split
  · rename_i bad
    simp only [reduceCtorEq, false_iff]
    exact fun solvent => bad solvent.health
  · rename_i health
    split
    · rename_i bad
      simp only [reduceCtorEq, false_iff]
      exact fun solvent => bad solvent.energy
    · rename_i energy
      simp only [true_iff]
      exact ⟨not_not.mp health, not_not.mp energy⟩

theorem permanentViolation?_eq_none_iff : permanentViolation? c d = none ↔
    d.kind ≠ .spell ∧ 1 ≤ c.health ∧ c.health ≤ d.health := by
  unfold permanentViolation?
  split
  · rename_i spell
    simp [spell]
  · rename_i permanent
    split
    · rename_i health
      simp [permanent, health]
    · rename_i health
      simp [permanent, health]

theorem homes_eq : s.homes id = s.laid.count id := by
  have from_any : ∀ n, s.players.data.foldl (fun n p => n + p.zones.allInstances.count id) n
      = n + s.laid.count id := by
    unfold laid
    induction s.players.data with
    | nil => simp
    | cons p players ih =>
      intro n
      rw [List.foldl_cons, ih, List.flatMap_cons, List.count_append, Nat.add_assoc]
  rw [homes, from_any, Nat.zero_add]

/-- The checker finds nothing wrong with a copy that lies in one place, as its definition allows. -/
theorem instanceViolation?_eq_none_iff : s.instanceViolation? K c = none ↔
    s.laid.count c.id = 1 ∧ ∀ d, K.get? c.card = some d → s.zoneOf? c.id = some .battlefield →
      d.kind ≠ .spell ∧ 1 ≤ c.health ∧ c.health ≤ d.health := by
  unfold instanceViolation?
  rw [homes_eq]
  split
  · rename_i astray
    simp [astray]
  · rename_i once
    rw [not_not] at once
    split
    · rename_i unknown
      simp [once, unknown]
    · rename_i d known
      by_cases inPlay : s.zoneOf? c.id = some .battlefield
      · simp [onBattlefield, once, known, inPlay, permanentViolation?_eq_none_iff]
      · simp [onBattlefield, once, inPlay]

/-- The checker finds nothing wrong with zones that hold copies of their player. -/
theorem zoneViolation?_eq_none_iff : s.zoneViolation? p = none ↔
    ∀ id ∈ p.zones.allInstances, ∃ c, s.instance? id = some c ∧ c.owner = p.id := by
  simp [zoneViolation?, List.findSome?_eq_none_iff]

theorem turnViolation?_eq_none_iff : s.turnViolation? = none ↔
    (s.status = .playing → ∃ p, s.player? s.current = some p) := by
  rw [← contains_iff_player?]
  simp [turnViolation?]

/-- The checker accepts what all of its checks accept. -/
theorem violation?_eq_none : s.violation? K = none ↔
    (∀ e ∈ s.players.entries, playerViolation? e.1 e.2 = none) ∧
      (∀ c ∈ s.instances.values, s.instanceViolation? K c = none) ∧
      (∀ p ∈ s.players.data, s.zoneViolation? p = none) ∧ s.turnViolation? = none := by
  simp only [violation?, Option.orElse_eq_orElse, Option.orElse_eq_or, Option.or_eq_none_iff,
    List.findSome?_eq_none_iff]

/-! ### Well-formed sessions pass -/

theorem mem_laid_iff : id ∈ s.laid ↔ ∃ seat p, s.player? seat = some p ∧
    id ∈ p.zones.allInstances := by
  rw [laid, List.mem_flatMap]
  constructor
  · rintro ⟨p, present, mem⟩
    obtain ⟨seat, hp⟩ := mem_players_iff.mp present
    exact ⟨seat, p, hp, mem⟩
  · rintro ⟨seat, p, hp, mem⟩
    exact ⟨p, mem_players_iff.mpr ⟨seat, hp⟩, mem⟩

/-- The checker has nothing to say about a well-formed session in which players know their seats
and copies their numbers. -/
theorem WellFormed.accepted (h : s.WellFormed K)
    (numbered : ∀ seat p, s.player? seat = some p → p.id = seat)
    (labelled : ∀ id c, s.instance? id = some c → c.id = id) : s.violation? K = none := by
  refine violation?_eq_none.mpr ⟨?_, ?_, ?_, turnViolation?_eq_none_iff.mpr h.active⟩
  · intro e mem
    simp only [SeatMap.entries, List.mem_map] at mem
    obtain ⟨⟨p, i⟩, mem, rfl⟩ := mem
    exact playerViolation?_eq_none_iff.mpr (h.solvent ⟨i⟩ p (List.mem_zipIdx_iff_getElem?.mp mem))
  · intro c mem
    obtain ⟨key, hc⟩ := KeyMap.mem_values_iff.mp mem
    have hc : s.instance? c.id = some c := (labelled ⟨key⟩ c hc).symm ▸ hc
    refine instanceViolation?_eq_none_iff.mpr ⟨h.once _ c hc, ?_⟩
    intro d hd inPlay
    obtain ⟨e, p, he, hp, found⟩ := zoneOf?_eq_some_iff.mp inPlay
    cases hc.symm.trans he
    refine h.permanents _ c d hc hd ?_
    rw [battlefield, hp]
    exact Zones.mem_of_locate found
  · intro p mem
    obtain ⟨seat, hp⟩ := mem_players_iff.mp mem
    rw [zoneViolation?_eq_none_iff, numbered seat p hp]
    exact fun id mem => h.owned seat p id hp mem

namespace Housed

theorem nodup_laid (housed : s.Housed) : s.laid.Nodup := by
  refine List.nodup_flatMap.mpr ⟨?_, ?_⟩
  · intro p mem
    obtain ⟨seat, hp⟩ := mem_players_iff.mp mem
    exact housed.apart seat p hp
  · refine List.pairwise_iff_getElem.mpr fun i j hi hj lt id mem mem' => ?_
    obtain ⟨c, hc, own⟩ := housed.owned ⟨i⟩ _ id (List.getElem?_eq_getElem hi) mem
    obtain ⟨c', hc', own'⟩ := housed.owned ⟨j⟩ _ id (List.getElem?_eq_getElem hj) mem'
    cases hc.symm.trans hc'
    have same := congrArg Seat.index (own.symm.trans own')
    exact absurd same (Nat.ne_of_lt lt)

theorem count_laid (housed : s.Housed) (hc : s.instance? id = some c) : s.laid.count id = 1 := by
  obtain ⟨zone, hz⟩ := housed.placed id c hc
  obtain ⟨p, hp, mem⟩ := housed.owner_of_zone hc hz
  refine List.count_eq_one_of_mem housed.nodup_laid (mem_laid_iff.mpr ⟨c.owner, p, hp, ?_⟩)
  exact Zones.mem_allInstances.mpr ⟨zone, mem⟩

end Housed

/-- A session in which nothing is amiss is as it should be. -/
theorem Sound.wellFormed (h : s.Sound K 1) : s.WellFormed K where
  solvent := h.solvent
  once := fun _ _ hc => h.housed.count_laid hc
  owned := h.housed.owned
  permanents := by
    intro id c d hc hd mem
    obtain ⟨e, he, -, inPlay⟩ := h.housed.of_mem_battlefield mem
    cases hc.symm.trans he
    exact h.fits id c d .battlefield hc hd inPlay
  active := fun _ => contains_iff_player?.mp h.active

/-- A game that has not started is as it should be. -/
theorem Waiting.wellFormed (h : s.Waiting config) (valid : config.fault? = none) :
    s.WellFormed K where
  solvent := by
    obtain ⟨health, ⟨energy, -, -⟩, -⟩ := Config.fault?_eq_none_iff.mp valid
    intro seat p hp
    have untouched := h.players seat p hp
    constructor
    · rw [untouched.health, untouched.maxHealth]
      omega
    · rw [untouched.energy, untouched.maxEnergy]
      omega
  once := fun _ _ hc => h.housed.count_laid hc
  owned := h.housed.owned
  permanents := by
    intro id c d hc
    rw [h.noCopy] at hc
    cases hc
  active := by
    intro playing
    rw [h.status] at playing
    cases playing

/-! ### Documents -/

/-- Once it has begun, a game stays sound. -/
theorem Reachable.waiting_or_sound (definitions : K.Sound) (h : Reachable config K s) :
    s.Waiting config ∨ s.status ≠ .waiting ∧ s.Sound K 1 := by
  obtain ⟨health, ⟨energy, -, -⟩, cap, -⟩ := Config.fault?_eq_none_iff.mp h.fault?
  have cases := h.cases (P := fun s => s.Sound K 1) definitions ?_ ?_ ?_
  · exact cases.imp_right And.right
  · intro m s' starting waiting opened
    exact opened.sound (Int.le_of_lt health) energy waiting
  · intro s s' _ sound stages
    induction stages with
    | refl => exact sound
    | tail _ stage ih => exact stage.sound definitions (Int.le_trans energy cap) ih
  · intro s s' sound annotates
    refine sound.later annotates.continues annotates.current
      (sound.solvent.of_players annotates.players) ?_
    exact sound.fits.of_same annotates.instance? annotates.zoneOf?

theorem Reachable.waiting (definitions : K.Sound) (h : Reachable config K s)
    (status : s.status = .waiting) : s.Waiting config :=
  (h.waiting_or_sound definitions).resolve_right fun begun => begun.1 status

/-- At all times, zones and copies of a document fit together. -/
theorem Reachable.housed (definitions : K.Sound) (h : Reachable config K s) : s.Housed := by
  rcases h.waiting_or_sound definitions with waiting | ⟨-, sound⟩
  · exact waiting.housed
  · exact sound.housed

/-- Somebody sits where the turn is. -/
theorem Reachable.active (definitions : K.Sound) (h : Reachable config K s) :
    s.players.contains s.current = true := by
  rcases h.waiting_or_sound definitions with waiting | ⟨-, sound⟩
  · rw [SeatMap.contains_iff, waiting.current]
    exact Nat.lt_of_lt_of_le (by decide) waiting.many
  · exact sound.active

theorem Reachable.known (definitions : K.Sound) (h : Reachable config K s)
    (hc : s.instance? id = some c) : ∃ d, K.get? c.card = some d := by
  rcases h.waiting_or_sound definitions with waiting | ⟨-, sound⟩
  · rw [waiting.noCopy] at hc
    cases hc
  · exact sound.known id c hc

/-- At all times, a document is as it should be. -/
theorem Reachable.wellFormed (definitions : K.Sound) (h : Reachable config K s) :
    s.WellFormed K := by
  rcases h.waiting_or_sound definitions with waiting | ⟨-, sound⟩
  · exact waiting.wellFormed h.fault?
  · exact sound.wellFormed

end Session

namespace Site

variable {config : Config} {site : Site}

end Site

end CardBattle
