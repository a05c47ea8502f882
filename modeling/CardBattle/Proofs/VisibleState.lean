import CardBattle.Proofs.Targets
import CardBattle.Proofs.WellFormed
import CardBattle.Script.Run

/-!
# What scripts can see

Scripts read the resources of players, the size of hands and what lies on battlefields; of copies
they read owner, card and health. Two sessions that agree in this for all copies that a script can
name answer every question of the script alike, and offer it the same targets.
-/

namespace CardBattle

structure Player.Face where
  health : Int
  maxHealth : Int
  energy : Int
  handSize : Nat
  battlefield : List InstanceId
  deriving DecidableEq

def Player.face (p : Player) : Player.Face :=
  ⟨p.health, p.maxHealth, p.energy, p.zones.hand.length, p.zones.battlefield⟩

structure CardInstance.Face where
  owner : Seat
  card : CardId
  health : Int
  deriving DecidableEq

def CardInstance.face (c : CardInstance) : CardInstance.Face :=
  ⟨c.owner, c.card, c.health⟩

namespace Session

/-- Every copy lies in one place, which belongs to its owner. -/
def Placed (s : Session) : Prop :=
  ∀ id c, s.instance? id = some c → s.laid.count id = 1 ∧
    ∃ p, s.player? c.owner = some p ∧ id ∈ p.zones.allInstances

/-- Whether every copy is in its place can be checked copy by copy. -/
theorem placed_iff {s : Session} : s.Placed ↔ ∀ e ∈ s.instances.entries,
    s.laid.count ⟨e.1⟩ = 1 ∧ ∃ p ∈ s.player? e.2.owner, ⟨e.1⟩ ∈ p.zones.allInstances := by
  constructor
  · rintro placed ⟨key, c⟩ mem
    exact placed ⟨key⟩ c (KeyMap.get?_of_mem mem)
  · intro entries id c hc
    exact entries (id.number, c) (KeyMap.mem_of_get? hc)

instance {s : Session} : Decidable s.Placed :=
  decidable_of_iff _ placed_iff.symm

/-- Two sessions that a script cannot tell apart by players and by the copies `shown`. -/
structure Alike (shown : InstanceId → Prop) (s s' : Session) : Prop where
  players : ∀ seat, (s.player? seat).map Player.face = (s'.player? seat).map Player.face
  copies : ∀ id, shown id →
    (s.instance? id).map CardInstance.face = (s'.instance? id).map CardInstance.face

variable {K : Catalog} {s s' : Session} {shown : InstanceId → Prop} {id : InstanceId}
  {source : Seat} {target : Target} {sel : Selector}

/-- The owner of a copy has it once. -/
theorem Placed.once (placed : s.Placed) {c : CardInstance} {p : Player}
    (hc : s.instance? id = some c) (hp : s.player? c.owner = some p) :
    p.zones.allInstances.count id ≤ 1 := by
  have seated : p ∈ s.players.data := mem_players_iff.mpr ⟨c.owner, hp⟩
  have part : p.zones.allInstances.Sublist s.laid := by
    rw [laid, List.flatMap_def]
    exact List.sublist_flatten_of_mem (List.mem_map_of_mem seated)
  exact Nat.le_trans (part.count_le id) (Nat.le_of_eq (placed id c hc).1)

/-- A copy in one place is in play exactly when it lies on its owner's battlefield. -/
theorem Placed.inPlay_iff (placed : s.Placed) {c : CardInstance} (hc : s.instance? id = some c) :
    s.zoneOf? id = some .battlefield ↔ id ∈ s.battlefield c.owner := by
  constructor
  · intro inPlay
    obtain ⟨c', hc', mem⟩ := mem_battlefield_of_zone inPlay
    cases hc.symm.trans hc'
    exact mem
  · intro mem
    obtain ⟨p, hp, mem⟩ := mem_battlefield_iff.mp mem
    exact zoneOf?_eq_some_iff.mpr
      ⟨c, p, hc, hp, (Zones.locate_eq_some_iff_of_once (placed.once hc hp)).mpr mem⟩

namespace Alike

theorem symm (alike : Alike shown s s') : Alike shown s' s where
  players := fun seat => (alike.players seat).symm
  copies := fun id see => (alike.copies id see).symm

theorem of_faces (faces : s.players.data.map Player.face = s'.players.data.map Player.face)
    (copies : ∀ id, shown id →
      (s.instance? id).map CardInstance.face = (s'.instance? id).map CardInstance.face) :
    Alike shown s s' where
  players := by
    intro seat
    have same := congrArg (·[seat.index]?) faces
    simp only [List.getElem?_map] at same
    exact same
  copies := copies

theorem seats (alike : Alike shown s s') : s.players.seats = s'.players.seats := by
  have faces : s.players.data.map Player.face = s'.players.data.map Player.face := by
    apply List.ext_getElem?
    intro i
    simp only [List.getElem?_map]
    exact alike.players ⟨i⟩
  have count : s.players.count = s'.players.count := by
    have same := congrArg List.length faces
    simp only [List.length_map] at same
    exact same
  rw [SeatMap.seats, SeatMap.seats, count]

theorem player_cases (alike : Alike shown s s') (seat : Seat) :
    (s.player? seat = none ∧ s'.player? seat = none) ∨
      ∃ p q, s.player? seat = some p ∧ s'.player? seat = some q ∧ p.face = q.face := by
  have same := alike.players seat
  cases hp : s.player? seat <;> cases hq : s'.player? seat <;> simp_all

theorem copy_cases (alike : Alike shown s s') (see : shown id) :
    (s.instance? id = none ∧ s'.instance? id = none) ∨
      ∃ c e, s.instance? id = some c ∧ s'.instance? id = some e ∧ c.face = e.face := by
  have same := alike.copies id see
  cases hc : s.instance? id <;> cases he : s'.instance? id <;> simp_all

/-- The battlefields of both sessions are the same. -/
theorem battlefield (alike : Alike shown s s') (seat : Seat) :
    s.battlefield seat = s'.battlefield seat := by
  simp only [Session.battlefield]
  rcases alike.player_cases seat with ⟨hp, hq⟩ | ⟨p, q, hp, hq, same⟩
  · rw [hp, hq]
  · rw [hp, hq]
    exact congrArg Player.Face.battlefield same

theorem contains (alike : Alike shown s s') (seat : Seat) :
    s.players.contains seat = s'.players.contains seat := by
  rw [Bool.eq_iff_iff, contains_iff_player?, contains_iff_player?]
  rcases alike.player_cases seat with ⟨hp, hq⟩ | ⟨p, q, hp, hq, -⟩
  · simp [hp, hq]
  · simp [hp, hq]

end Alike

/-! ### Targets -/

/-- Two sessions as they stand for a script that sees the battlefields at least. -/
structure Veil (shown : InstanceId → Prop) (s s' : Session) : Prop extends Alike shown s s' where
  placed : s.Placed
  placed' : s'.Placed
  seen : ∀ seat id, id ∈ s.battlefield seat → shown id

namespace Veil

theorem symm (veil : Veil shown s s') : Veil shown s' s where
  toAlike := veil.toAlike.symm
  placed := veil.placed'
  placed' := veil.placed
  seen := fun seat id mem => veil.seen seat id ((veil.battlefield seat).symm ▸ mem)

theorem cardInPlayAs (veil : Veil shown s s') (h : s.cardInPlayAs K id target = true) :
    s'.cardInPlayAs K id target = true := by
  obtain ⟨makes, inPlay⟩ := cardInPlayAs_iff.mp h
  obtain ⟨c, d, hc, hd, made⟩ := targetOf?_eq_some_iff.mp makes
  obtain ⟨c', hc', mem⟩ := mem_battlefield_of_zone inPlay
  cases hc.symm.trans hc'
  rcases veil.copy_cases (veil.seen _ id mem) with ⟨gone, -⟩ | ⟨c', e, hc', he, same⟩
  · cases hc.symm.trans gone
  · cases hc.symm.trans hc'
    have owner : c.owner = e.owner := congrArg CardInstance.Face.owner same
    have card : c.card = e.card := congrArg CardInstance.Face.card same
    refine cardInPlayAs_iff.mpr ⟨?_, ?_⟩
    · exact targetOf?_eq_some_iff.mpr ⟨e, d, he, card ▸ hd, owner ▸ made⟩
    · rw [veil.placed'.inPlay_iff he, ← owner, ← veil.battlefield]
      exact mem

/-- A selector accepts the same targets in both sessions. -/
theorem accepts (veil : Veil shown s s') :
    sel.accepts s K source target = sel.accepts s' K source target := by
  have there : s.targetExists K target = s'.targetExists K target := by
    simp only [targetExists]
    split
    · exact veil.contains _
    · exact Bool.eq_iff_iff.mpr ⟨veil.cardInPlayAs, veil.symm.cardInPlayAs⟩
  rw [Selector.accepts, Selector.accepts, there]

/-- The same targets are there in both sessions. -/
theorem candidates (veil : Veil shown s s') :
    Selector.candidates s K = Selector.candidates s' K := by
  have cards : Selector.cardCandidates s K = Selector.cardCandidates s' K := by
    funext owner
    rw [Selector.cardCandidates, Selector.cardCandidates, ← veil.battlefield]
    refine List.filterMap_congr fun id mem => ?_
    rcases veil.copy_cases (veil.seen owner id mem) with ⟨hc, he⟩ | ⟨c, e, hc, he, same⟩
    · rw [hc, he]
    · have card : c.card = e.card := congrArg CardInstance.Face.card same
      simp only [hc, he, card]
  rw [Selector.candidates, Selector.candidates, veil.seats, cards]

/-- The same targets are valid in both sessions. -/
theorem validTargets (veil : Veil shown s s') :
    sel.validTargets s K source = sel.validTargets s' K source := by
  rw [Selector.validTargets, Selector.validTargets, veil.candidates]
  exact List.filter_congr fun target _ => veil.accepts

theorem takePicks (veil : Veil shown s s') (picks taken : List Target) :
    sel.takePicks s K source picks taken = sel.takePicks s' K source picks taken := by
  induction picks generalizing taken with
  | nil => rfl
  | cons pick picks ih => simp only [Selector.takePicks, ih, veil.accepts]

/-- The chooser is asked the same on both sides, and the same of its picks are taken. -/
theorem resolve (veil : Veil shown s s') (card : Option InstanceId) (chooser : Chooser)
    (asked : List TargetRequest) :
    sel.resolve s K source card chooser asked = sel.resolve s' K source card chooser asked := by
  simp only [Selector.resolve, Selector.autoTargets, veil.validTargets, veil.takePicks]

end Veil

/-! ### Targets that are chosen -/

/-- A selector accepts only cards in play. -/
theorem mem_battlefield_of_accepts (accepted : sel.accepts s K source target = true)
    (isCard : target.card? = some id) : ∃ seat, id ∈ s.battlefield seat := by
  simp only [Selector.accepts, targetExists, isCard, Bool.and_eq_true] at accepted
  obtain ⟨c, -, mem⟩ := mem_battlefield_of_zone (cardInPlayAs_iff.mp accepted.2).2
  exact ⟨c.owner, mem⟩

end Session

end CardBattle
