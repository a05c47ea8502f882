import CardBattle.Proofs.Changes
import CardBattle.Proofs.ScriptQueue

/-!
# Batches and sweeps, change by change

A batch is a run of changes and harms, since the heals that scripts queue carry the health of the
definition. The sweep buries one permanent after another and leaves none without health in play.
-/

namespace CardBattle

def Operation.Capped (K : Catalog) (s : Session) : Operation → Prop
  | .healCard id _ greatest => ∃ c d, s.instance? id = some c ∧ K.get? c.card = some d ∧
      greatest = d.health
  | _ => True

/-- What a script queues is capped: the health that it heals up to is read off the definition. -/
theorem Operation.capped_of_admits {K : Catalog} {sc : Scene} {op : Operation}
    (known : sc.catalog.Within K) (h : sc.Admits op) : op.Capped K sc.session := by
  cases op with
  | healCard id amount greatest =>
    obtain ⟨_, d, hd, rfl⟩ := h
    obtain ⟨c, hc, hd⟩ := Scene.definitionOf_ok_iff.mp hd
    exact ⟨c, d, hc, known _ _ hd, rfl⟩
  | _ => trivial

namespace Session

variable {K : Catalog} {s s' : Session} {id : InstanceId} {player : Seat} {now : Nat}

def Touch (K : Catalog) (s s' : Session) : Prop :=
  Change K s s' ∨ Harm s s'

theorem Touch.continues (housed : s.Housed) (h : Touch K s s') : Continues K s s' := by
  rcases h with h | h
  · exact h.continues housed
  · exact h.continues housed

theorem capped_later {op : Operation} (h : op.Capped K s) (later : Continues K s s') :
    op.Capped K s' := by
  cases op with
  | healCard id amount greatest =>
    obtain ⟨c, d, hc, hd, rfl⟩ := h
    obtain ⟨e, he, ce⟩ := later.cards id c hc
    exact ⟨e, d, he, ce.card ▸ hd, rfl⟩
  | _ => trivial

/-! ### One operation -/

def Atomic {α : Type} (u : Update α) : Prop :=
  ∀ s e s', u s = .error e s' → s' = s

theorem atomic_damagePlayer {amount : Int} : Atomic (damagePlayer player amount now) := by
  intro s e s' h
  unfold damagePlayer at h
  split at h <;> cases h
  rfl

theorem atomic_healPlayer {amount : Int} : Atomic (healPlayer player amount) := by
  intro s e s' h
  unfold healPlayer at h
  split at h <;> cases h
  rfl

theorem atomic_gainEnergy {amount : Int} : Atomic (gainEnergy player amount now) := by
  intro s e s' h
  unfold gainEnergy at h
  split at h <;> cases h
  rfl

theorem atomic_drawCard : Atomic (drawCard player now) := by
  intro s e s' h
  unfold drawCard at h
  split at h
  · cases h
    rfl
  · split at h <;> cases h

/-- An attempt does nothing, or what the update does when it succeeds. -/
theorem of_attempt {α : Type} {u : Update α} (atomic : Atomic u) :
    (s.attempt u).2 = s ∨ ∃ a, u s = .ok a (s.attempt u).2 := by
  unfold attempt
  split
  · rename_i a s' ran
    exact Or.inr ⟨a, ran⟩
  · rename_i e s' ran
    exact Or.inl (atomic s e s' ran)

theorem mem_battlefield_of_zone (h : s.zoneOf? id = some .battlefield) :
    ∃ c, s.instance? id = some c ∧ id ∈ s.battlefield c.owner := by
  obtain ⟨c, p, hc, hp, found⟩ := zoneOf?_eq_some_iff.mp h
  exact ⟨c, hc, mem_battlefield_iff.mpr ⟨p, hp, Zones.mem_of_locate found⟩⟩

/-- An operation leaves the session as it is, or touches it once. -/
theorem perform_touches {op : Operation} {r : BatchReport} (going : s.status ≠ .finished)
    (may : s.mayAct r.lethal op = true) (capped : op.Capped K s) :
    (s.perform op now r).2 = s ∨ Touch K s (s.perform op now r).2 := by
  have inPlay : ∀ id, op.card? = some id → ∃ c, s.instance? id = some c ∧
      id ∈ s.battlefield c.owner := by
    intro id hid
    simp only [mayAct, hid, Bool.and_eq_true, onBattlefield_iff] at may
    exact mem_battlefield_of_zone may.2
  cases op with
  | damagePlayer player amount =>
    rcases of_attempt (s := s) (u := damagePlayer player amount now) atomic_damagePlayer
      with same | ⟨_, ran⟩
    · exact Or.inl same
    · exact Or.inr (Or.inl (.hurt going ran))
  | healPlayer player amount =>
    rcases of_attempt (s := s) (u := healPlayer player amount) atomic_healPlayer
      with same | ⟨_, ran⟩
    · exact Or.inl same
    · exact Or.inr (Or.inl (.mend going ran))
  | drawCard player =>
    rcases of_attempt (s := s) (u := drawCard player now) atomic_drawCard with same | ⟨_, ran⟩
    · exact Or.inl same
    · exact Or.inr (Or.inl (.draw going ran))
  | gainEnergy player amount =>
    rcases of_attempt (s := s) (u := gainEnergy player amount now) atomic_gainEnergy
      with same | ⟨_, ran⟩
    · exact Or.inl same
    · exact Or.inr (Or.inl (.gain going ran))
  | log player text => exact Or.inr (Or.inl (.note _ rfl))
  | damageCard id amount =>
    obtain ⟨c, hc, mem⟩ := inPlay id rfl
    right
    right
    simp only [perform, hc]
    rw [modifyInstance_congr (g := fun c => c.takeDamage amount) hc rfl]
    exact .wound amount going mem
  | healCard id amount greatest =>
    obtain ⟨c, hc, mem⟩ := inPlay id rfl
    obtain ⟨e, d, he, hd, rfl⟩ := capped
    cases hc.symm.trans he
    right
    left
    simp only [perform, hc]
    rw [modifyInstance_congr (g := fun c => c.heal amount d.health) hc rfl]
    exact .heal amount going mem hc hd
  | destroyCard id =>
    obtain ⟨c, hc, mem⟩ := inPlay id rfl
    right
    right
    simp only [perform, hc]
    rw [modifyInstance_congr (g := fun c => { c with health := 0 }) hc rfl]
    exact .doom going mem

/-! ### Batches -/

theorem applyOne_touches (now : Nat) {op : Operation} (r : BatchReport) (capped : op.Capped K s) :
    (applyOne now (r, s) op).2 = s ∨ Touch K s (applyOne now (r, s) op).2 := by
  unfold applyOne
  dsimp only
  split
  · exact Or.inl rfl
  · rename_i going
    split
    · rename_i may
      exact perform_touches (isFinished_eq_false_iff.mp (Bool.eq_false_iff.mpr going)) may capped
    · exact Or.inl rfl

theorem foldl_applyOne_touches (ops : List Operation) (r : BatchReport) (housed : s.Housed)
    (capped : ∀ op ∈ ops, op.Capped K s) :
    Relation.ReflTransGen (Touch K) s (ops.foldl (applyOne now) (r, s)).2 := by
  induction ops generalizing r s with
  | nil => exact .refl
  | cons op ops ih =>
    rw [List.foldl_cons]
    have first := applyOne_touches now r (capped op List.mem_cons_self)
    generalize applyOne now (r, s) op = next at first ⊢
    obtain ⟨r', m⟩ := next
    have others : ∀ op ∈ ops, op.Capped K s := fun op' mem =>
      capped op' (List.mem_cons_of_mem _ mem)
    rcases first with rfl | touched
    · exact ih r' housed others
    · have later : Continues K s m := touched.continues housed
      exact .head touched (ih r' (later.housed housed) fun op' mem =>
        capped_later (others op' mem) later)

/-- A batch is one touch after another. -/
theorem applyOperations_touches (now : Nat) {ops : List Operation} (housed : s.Housed)
    (capped : ∀ op ∈ ops, op.Capped K s) :
    Relation.ReflTransGen (Touch K) s (s.applyOperations ops now).2 :=
  foldl_applyOne_touches ops _ housed capped

/-! ### The sweep -/

theorem destroyEntry_spec (catalog : Catalog) (c : CardInstance) (id : InstanceId) (now : Nat) :
    (destroyEntry catalog c id now).player = c.owner ∧
      (destroyEntry catalog c id now).action = .destroy := by
  unfold destroyEntry
  split <;> exact ⟨rfl, rfl⟩

/-- A burial carries a permanent from its owner's battlefield to the graveyard, and does nothing to
other copies. -/
theorem bury_of_apart (now : Nat) (apart : s.Apart) (catalog : Catalog) (id : InstanceId) :
    (∀ c p, s.instance? id = some c → s.player? c.owner = some p → id ∉ p.zones.battlefield) ∧
        bury catalog now s id = s ∨
      ∃ c p, s.instance? id = some c ∧ s.player? c.owner = some p ∧ id ∈ p.zones.battlefield ∧
        bury catalog now s id = ((s.modifyInstance id (·.buried)).setZones c.owner
          (p.zones.carry id .battlefield .graveyard)).record (destroyEntry catalog c id now) := by
  cases hc : s.instance? id with
  | none =>
    refine Or.inl ⟨?_, by simp [bury, hc]⟩
    rintro _ _ ⟨⟩
  | some c =>
    cases hp : s.player? c.owner with
    | none =>
      refine Or.inl ⟨?_, by simp [bury, hc, destroy, hp]⟩
      rintro _ p ⟨⟩ h
      rw [hp] at h
      cases h
    | some p =>
      by_cases mem : id ∈ p.zones.battlefield
      · right
        refine ⟨c, p, rfl, hp, mem, ?_⟩
        have moved : p.zones.move id .battlefield .graveyard .top
            = .moved (p.zones.carry id .battlefield .graveyard) :=
          Zones.move_of_mem (apart _ _ hp) mem
        simp only [bury, hc, destroy, hp, moved]
        rfl
      · have absent : p.zones.move id .battlefield .graveyard .top = .absent :=
          Zones.move_eq_absent_iff.mpr mem
        refine Or.inl ⟨?_, by simp [bury, hc, destroy, hp, absent]⟩
        rintro _ q ⟨⟩ hq
        cases hp.symm.trans hq
        exact mem

/-- Only what is in play is buried, and it goes to the graveyard of its owner. -/
theorem bury_cases (now : Nat) (housed : s.Housed) (catalog : Catalog) (id : InstanceId) :
    (s.zoneOf? id ≠ some .battlefield ∧ bury catalog now s id = s) ∨
      ∃ c p, s.instance? id = some c ∧ s.player? c.owner = some p ∧ id ∈ p.zones.battlefield ∧
        bury catalog now s id = ((s.modifyInstance id (·.buried)).setZones c.owner
          (p.zones.carry id .battlefield .graveyard)).record (destroyEntry catalog c id now) := by
  refine (bury_of_apart now housed.apart catalog id).imp_left ?_
  rintro ⟨away, same⟩
  refine ⟨?_, same⟩
  intro inPlay
  obtain ⟨c, p, hc, hp, found⟩ := zoneOf?_eq_some_iff.mp inPlay
  exact away c p hc hp (Zones.mem_of_locate found)

theorem bury_change (now : Nat) (housed : s.Housed) (catalog : Catalog) {id : InstanceId}
    (dead : ∀ c, s.instance? id = some c → c.health ≤ 0) :
    bury catalog now s id = s ∨ Change K s (bury catalog now s id) := by
  rcases bury_cases now housed catalog id with ⟨-, same⟩ | ⟨c, p, hc, hp, mem, same⟩
  · exact Or.inl same
  · rw [same]
    obtain ⟨by_owner, action⟩ := destroyEntry_spec catalog c id now
    exact Or.inr (.bury hc hp (dead c hc) mem by_owner action)

/-- A burial leaves the other copies as they are, and takes its own copy out of play. -/
theorem bury_views (now : Nat) (housed : s.Housed) (catalog : Catalog) (id : InstanceId) :
    (bury catalog now s id).zoneOf? id ≠ some .battlefield ∧ ∀ other, other ≠ id →
      (bury catalog now s id).zoneOf? other = s.zoneOf? other ∧
        (bury catalog now s id).instance? other = s.instance? other := by
  rcases bury_cases now housed catalog id with ⟨away, same⟩ | ⟨c, p, hc, hp, mem, same⟩
  · rw [same]
    exact ⟨away, fun _ _ => ⟨rfl, rfl⟩⟩
  · obtain ⟨gone, -, others⟩ := carry_views (f := (·.buried)) housed hc hp
      (show Zone.battlefield ≠ .graveyard by decide) mem (fun _ => rfl) rfl
    rw [same]
    refine ⟨?_, others⟩
    rw [zoneOf?_record, gone]
    simp

theorem instance?_bury_dead (housed : s.Housed) (catalog : Catalog) {id other : InstanceId}
    (dead : ∀ c, s.instance? other = some c → c.health ≤ 0) :
    ∀ c, (bury catalog now s id).instance? other = some c → c.health ≤ 0 := by
  intro e he
  by_cases same : other = id
  · subst same
    rcases bury_cases now housed catalog other with ⟨-, h⟩ | ⟨c, p, hc, _, _, h⟩
    · exact dead e (h ▸ he)
    · rw [h] at he
      have he' : (s.modifyInstance other (·.buried)).instance? other = some e := he
      rw [instance?_modifyInstance_self, hc] at he'
      cases he'
      exact Int.le_refl 0
  · rw [((bury_views now housed catalog id).2 other same).2] at he
    exact dead e he

/-- Burials one after another: each is a change, and no copy of the list stays in play. -/
theorem foldl_bury (now : Nat) (catalog : Catalog) (ids : List InstanceId) (housed : s.Housed)
    (dead : ∀ id ∈ ids, ∀ c, s.instance? id = some c → c.health ≤ 0) :
    Relation.ReflTransGen (Change K) s (ids.foldl (bury catalog now) s) ∧
      ∀ id, (ids.foldl (bury catalog now) s).zoneOf? id = some .battlefield →
        id ∉ ids ∧ s.zoneOf? id = some .battlefield ∧
          (ids.foldl (bury catalog now) s).instance? id = s.instance? id := by
  induction ids generalizing s with
  | nil => exact ⟨.refl, fun id hz => ⟨List.not_mem_nil, hz, rfl⟩⟩
  | cons first ids ih =>
    have change : bury catalog now s first = s ∨ Change K s (bury catalog now s first) :=
      bury_change now housed catalog (dead first List.mem_cons_self)
    have housed' : (bury catalog now s first).Housed := by
      rcases change with same | change
      · rw [same]
        exact housed
      · exact (change.continues housed).housed housed
    obtain ⟨run, still⟩ := ih housed' fun id mem =>
      instance?_bury_dead housed catalog (dead id (List.mem_cons_of_mem _ mem))
    rw [List.foldl_cons]
    constructor
    · rcases change with same | change
      · rw [same] at run ⊢
        exact run
      · exact .head change run
    · intro id hz
      obtain ⟨notIn, before, kept⟩ := still id hz
      obtain ⟨gone, others⟩ := bury_views now housed catalog first
      have ne : id ≠ first := by
        rintro rfl
        exact gone before
      obtain ⟨zone, copy⟩ := others id ne
      refine ⟨?_, zone ▸ before, kept.trans copy⟩
      intro mem
      rcases List.mem_cons.mp mem with same | mem
      · exact ne same
      · exact notIn mem

/-- Every permanent in play has health left. -/
def Alive (s : Session) : Prop :=
  ∀ id c, s.instance? id = some c → s.zoneOf? id = some .battlefield → 1 ≤ c.health

theorem pairwise_seats : s.players.seats.Pairwise fun a b => a.index < b.index :=
  List.pairwise_map.mpr List.pairwise_lt_range

theorem nodup_seats : s.players.seats.Nodup :=
  List.nodup_range.map fun _ _ h => congrArg Seat.index h

theorem mem_seats_iff (few : s.players.count < Seat.bound) :
    player ∈ s.players.seats ↔ player.index < s.players.count := by
  simp only [SeatMap.seats, Nat.mod_eq_of_lt few, List.mem_map, List.mem_range]
  constructor
  · rintro ⟨i, hi, rfl⟩
    exact hi
  · intro h
    exact ⟨player.index, h, rfl⟩

theorem index_lt_of_player? {p : Player} (hp : s.player? player = some p) :
    player.index < s.players.count :=
  (List.getElem?_eq_some_iff.mp hp).1

theorem mem_dead_iff (tidy : s.Tidy) (few : s.players.count < Seat.bound) : id ∈ s.dead ↔
    ∃ c, s.instance? id = some c ∧ s.zoneOf? id = some .battlefield ∧ c.health ≤ 0 := by
  simp only [dead, List.mem_filter, List.mem_flatMap]
  constructor
  · rintro ⟨⟨seat, _, mem⟩, noHealth⟩
    obtain ⟨c, hc, _, hz⟩ := tidy.of_mem_battlefield mem
    rw [hc] at noHealth
    exact ⟨c, hc, hz, by simpa [CardInstance.isDead] using noHealth⟩
  · rintro ⟨c, hc, hz, noHealth⟩
    obtain ⟨p, hp, mem⟩ := tidy.owner_of_zone hc hz
    refine ⟨⟨c.owner, ?_, mem_battlefield_iff.mpr ⟨p, hp, mem⟩⟩, ?_⟩
    · exact (mem_seats_iff few).mpr (index_lt_of_player? hp)
    · simpa [hc, CardInstance.isDead] using noHealth

theorem sweep_changes (housed : s.Housed) (catalog : Catalog) :
    Relation.ReflTransGen (Change K) s (s.sweep catalog now).2 ∧ (s.sweep catalog now).2.Alive := by
  have dead : ∀ id ∈ s.dead, ∀ c, s.instance? id = some c → c.health ≤ 0 := by
    intro id mem c hc
    obtain ⟨e, he, -, noHealth⟩ := (mem_dead_iff housed.tidy housed.few).mp mem
    cases hc.symm.trans he
    exact noHealth
  obtain ⟨run, still⟩ := foldl_bury (K := K) now catalog s.dead housed dead
  refine ⟨run, ?_⟩
  intro id c hc hz
  obtain ⟨spared, inPlay, same⟩ := still id hz
  have hc' : s.instance? id = some c := same ▸ hc
  by_contra noHealth
  exact spared ((mem_dead_iff housed.tidy housed.few).mpr ⟨c, hc', inPlay, by omega⟩)

/-- A batch and its sweep: first changes and harms, then burials. -/
theorem settle_changes (now : Nat) (housed : s.Housed) (catalog : Catalog) {ops : List Operation}
    (capped : ∀ op ∈ ops, op.Capped K s) :
    ∃ m, Relation.ReflTransGen (Touch K) s m ∧
      Relation.ReflTransGen (Change K) m (s.settle catalog ops now) ∧
      (s.settle catalog ops now).Alive := by
  have run := applyOperations_touches now housed capped
  have later := Continues.of_steps (fun _ _ housed h => Touch.continues housed h) housed run
  exact ⟨_, run, sweep_changes (later.housed housed) catalog⟩

end Session

end CardBattle
