import CardBattle.Proofs.CardHistory
import CardBattle.Proofs.Updates

/-!
# Single changes of a game

Whatever rules and scripts do to a running game comes down to a few kinds of change. `Change` lists
those that leave permanents at health, or take them off the battlefield; `Harm` is what only a batch
does to a permanent, which the sweep after the batch makes up for. All of them are about permanents
where they lie, and none but log entries and burials come after the end of the game.
-/

namespace CardBattle

/-- What one catalog defines, the other defines alike. -/
def Catalog.Within (c K : Catalog) : Prop :=
  ∀ id d, c.get? id = some d → K.get? id = some d

/-- Actions whose entries come with no other change. -/
def LogAction.isPlain : LogAction → Bool
  | .attack | .endTurn | .startTurn | .ability | .abilityFailed | .damage | .heal | .effect => true
  | _ => false

def CardInstance.entering (c : CardInstance) (d : CardDefinition) : CardInstance :=
  { c with health := d.health, sapped := decide (d.kind = .creature) }

def CardInstance.buried (c : CardInstance) : CardInstance :=
  { c with health := 0, sapped := false }

namespace Session

def charge (s : Session) (player : Seat) (cost : Int) : Session :=
  s.modifyPlayer player fun p => { p with energy := p.energy - max cost 0 }

/-- A single change. Catalog `K` holds the definitions that the game is played with. -/
inductive Change (K : Catalog) : Session → Session → Prop where
  | note {s : Session} (e : LogEntry) (plain : e.action.isPlain = true) : Change K s (s.record e)
  | hurt {s s' : Session} {player : Seat} {amount dealt : Int} {now : Nat}
      (going : s.status ≠ .finished) (h : damagePlayer player amount now s = .ok dealt s') :
      Change K s s'
  | mend {s s' : Session} {player : Seat} {amount healed : Int}
      (going : s.status ≠ .finished) (h : healPlayer player amount s = .ok healed s') :
      Change K s s'
  | gain {s s' : Session} {player : Seat} {amount : Int} {now : Nat}
      (going : s.status ≠ .finished) (h : gainEnergy player amount now s = .ok () s') :
      Change K s s'
  | draw {s s' : Session} {player : Seat} {drawn : Option InstanceId} {now : Nat}
      (going : s.status ≠ .finished) (h : drawCard player now s = .ok drawn s') : Change K s s'
  | heal {s : Session} {player : Seat} {id : InstanceId} {c : CardInstance} {d : CardDefinition}
      (amount : Int) (going : s.status ≠ .finished) (mem : id ∈ s.battlefield player)
      (hc : s.instance? id = some c) (hd : K.get? c.card = some d) :
      Change K s (s.modifyInstance id fun c => c.heal amount d.health)
  | sap {s : Session} {player : Seat} {id : InstanceId}
      (going : s.status ≠ .finished) (mem : id ∈ s.battlefield player) :
      Change K s (s.modifyInstance id CardInstance.sap)
  | enter {s : Session} {p : Player} {id : InstanceId} {c : CardInstance} {d : CardDefinition}
      {e : LogEntry} (going : s.status ≠ .finished) (hc : s.instance? id = some c)
      (hp : s.player? c.owner = some p) (hd : K.get? c.card = some d) (permanent : d.kind ≠ .spell)
      (mem : id ∈ p.zones.hand) (afford : d.cost ≤ p.energy) (by_owner : e.player = c.owner)
      (action : e.action = .playCard) (cost : e.amount = some d.cost) :
      Change K s ((((s.charge c.owner d.cost).modifyInstance id (·.entering d)).setZones c.owner
        (p.zones.carry id .hand .battlefield)).record e)
  | cast {s : Session} {p : Player} {id : InstanceId} {c : CardInstance} {d : CardDefinition}
      {e : LogEntry} (going : s.status ≠ .finished) (hc : s.instance? id = some c)
      (hp : s.player? c.owner = some p) (hd : K.get? c.card = some d) (spell : d.kind = .spell)
      (mem : id ∈ p.zones.hand) (afford : d.cost ≤ p.energy) (by_owner : e.player = c.owner)
      (action : e.action = .castSpell) (cost : e.amount = some d.cost) :
      Change K s (((s.charge c.owner d.cost).setZones c.owner
        (p.zones.carry id .hand .graveyard)).record e)
  | bury {s : Session} {p : Player} {id : InstanceId} {c : CardInstance} {e : LogEntry}
      (hc : s.instance? id = some c) (hp : s.player? c.owner = some p) (dead : c.health ≤ 0)
      (mem : id ∈ p.zones.battlefield) (by_owner : e.player = c.owner)
      (action : e.action = .destroy) :
      Change K s (((s.modifyInstance id (·.buried)).setZones c.owner
        (p.zones.carry id .battlefield .graveyard)).record e)

/-- What a batch does to a permanent in play. -/
inductive Harm : Session → Session → Prop where
  | wound {s : Session} {player : Seat} {id : InstanceId} (amount : Int)
      (going : s.status ≠ .finished) (mem : id ∈ s.battlefield player) :
      Harm s (s.modifyInstance id fun c => c.takeDamage amount)
  | doom {s : Session} {player : Seat} {id : InstanceId}
      (going : s.status ≠ .finished) (mem : id ∈ s.battlefield player) :
      Harm s (s.modifyInstance id fun c => { c with health := 0 })

variable {K : Catalog} {s s' : Session} {id : InstanceId} {player : Seat}

/-! ### Copies and zones under a change -/

/-- The battlefield of a player is empty if there is no such player. -/
theorem mem_battlefield_iff :
    id ∈ s.battlefield player ↔ ∃ p, s.player? player = some p ∧ id ∈ p.zones.battlefield := by
  unfold battlefield
  cases s.player? player <;> simp

theorem Tidy.of_mem_battlefield (tidy : s.Tidy) (mem : id ∈ s.battlefield player) :
    ∃ c, s.instance? id = some c ∧ c.owner = player ∧ s.zoneOf? id = some .battlefield := by
  obtain ⟨p, hp, mem⟩ := mem_battlefield_iff.mp mem
  exact tidy.of_mem hp (show id ∈ p.zones.cards .battlefield from mem)

theorem Housed.of_mem_battlefield (housed : s.Housed) (mem : id ∈ s.battlefield player) :
    ∃ c, s.instance? id = some c ∧ c.owner = player ∧ s.zoneOf? id = some .battlefield :=
  housed.tidy.of_mem_battlefield mem

/-- What is in play is not in the graveyard. -/
theorem Housed.ne_graveyard (housed : s.Housed) (mem : id ∈ s.battlefield player) :
    s.zoneOf? id ≠ some .graveyard := by
  obtain ⟨_, _, _, zone⟩ := housed.of_mem_battlefield mem
  rw [zone]
  simp

/-- The record of a permanent in play may change. -/
theorem Housed.modify_in_play (housed : s.Housed) (mem : id ∈ s.battlefield player)
    {f : CardInstance → CardInstance} (keeps : ∀ c : CardInstance, c.Continues (f c)) :
    Continues K s (s.modifyInstance id f) :=
  Continues.modifyInstance keeps (housed.ne_graveyard mem)

@[simp] theorem zoneOf?_charge {cost : Int} : (s.charge player cost).zoneOf? id = s.zoneOf? id :=
  zoneOf?_modifyPlayer s (f := fun p => { p with energy := p.energy - max cost 0 }) fun _ => rfl

theorem player?_charge {cost : Int} {p : Player} (hp : s.player? player = some p) :
    (s.charge player cost).player? player
      = some { p with energy := p.energy - max cost 0 } :=
  (player?_modifyPlayer_self _ _).trans (congrArg (Option.map _) hp)

theorem continues_charge {cost : Int} : Continues K s (s.charge player cost) :=
  Continues.modifyPlayer fun _ => ⟨rfl, rfl, rfl⟩

theorem continues_finish {loser : Seat} {now : Nat} : Continues K s (s.finish loser now) := by
  unfold finish
  split
  · exact Continues.refl s
  · exact Continues.of_same rfl rfl rfl

/-- A game continues when a player is hit. -/
theorem continues_damagePlayer {amount dealt : Int} {now : Nat}
    (h : damagePlayer player amount now s = .ok dealt s') : Continues K s s' := by
  obtain ⟨p, hp, -, rfl⟩ := damagePlayer_ok_iff.mp h
  have hurt : Continues K s (s.modifyPlayer player fun _ => p.takeDamage amount) := by
    rw [modifyPlayer_congr (g := fun q => q.takeDamage amount) hp rfl]
    exact Continues.modifyPlayer fun _ => ⟨rfl, rfl, rfl⟩
  split
  · exact hurt.trans continues_finish
  · exact hurt

/-- A game continues when a player draws. -/
theorem continues_drawCard (housed : s.Housed) {drawn : Option InstanceId} {now : Nat}
    (h : drawCard player now s = .ok drawn s') : Continues K s s' := by
  obtain ⟨p, hp, ⟨_, _, rfl⟩ | ⟨id, _, _, mem, rfl⟩⟩ := of_drawCard (housed.apart player) h
  · exact Continues.record _
  · obtain ⟨c, hc, rfl, _⟩ := housed.of_mem hp mem
    exact (Continues.carry housed hc hp (by decide) (by decide) mem fun _ _ => .draw).trans
      (Continues.record _)

/-- A game continues through every change. -/
theorem Change.continues (housed : s.Housed) (h : Change K s s') : Continues K s s' := by
  cases h with
  | note e _ => exact Continues.record e
  | hurt _ h => exact continues_damagePlayer h
  | mend _ h =>
    obtain ⟨p, hp, -, rfl⟩ := healPlayer_ok_iff.mp h
    rw [modifyPlayer_congr (g := fun q => q.heal _) hp rfl]
    exact Continues.modifyPlayer fun _ => ⟨rfl, rfl, rfl⟩
  | gain _ h =>
    obtain ⟨p, hp, rfl⟩ := gainEnergy_ok_iff.mp h
    rw [modifyPlayer_congr (g := fun q => q.gainEnergy _) hp rfl]
    refine Continues.trans ?_ (Continues.record _)
    exact Continues.modifyPlayer fun _ => ⟨rfl, rfl, rfl⟩
  | draw _ h => exact continues_drawCard housed h
  | heal amount _ mem _ _ => exact housed.modify_in_play mem fun _ => ⟨rfl, rfl, rfl⟩
  | sap _ mem => exact housed.modify_in_play mem fun _ => ⟨rfl, rfl, rfl⟩
  | @enter p id c d e _ hc hp hd permanent mem _ _ _ _ =>
    have inHand : s.zoneOf? id = some .hand := (housed.zoneOf?_iff hc hp).mpr mem
    have charged : Continues K s (s.charge c.owner d.cost) := continues_charge
    have entered : Continues K s ((s.charge c.owner d.cost).modifyInstance id (·.entering d)) := by
      refine charged.trans (Continues.modifyInstance (fun _ => ⟨rfl, rfl, rfl⟩) ?_)
      rw [zoneOf?_charge, inHand]
      simp
    refine entered.trans (Continues.trans ?_ (Continues.record e))
    refine Continues.carry (c := c.entering d)
      (p := { p with energy := p.energy - max d.cost 0 }) (entered.housed housed) ?_ ?_
      (by decide) (by decide) mem ?_
    · rw [instance?_modifyInstance_self]
      exact congrArg (Option.map _) hc
    · rw [player?_modifyInstance]
      exact player?_charge hp
    · intro d' hd'
      cases hd.symm.trans hd'
      exact .play permanent
  | @cast p id c d e _ hc hp hd spell mem _ _ _ _ =>
    have charged : Continues K s (s.charge c.owner d.cost) := continues_charge
    refine charged.trans (Continues.trans ?_ (Continues.record e))
    refine Continues.carry (c := c) (p := { p with energy := p.energy - max d.cost 0 })
      (charged.housed housed) hc (player?_charge hp) (by decide) (by decide) mem ?_
    intro d' hd'
    cases hd.symm.trans hd'
    exact .cast spell
  | @bury p id c e hc hp _ mem _ _ =>
    have inPlay : id ∈ s.battlefield c.owner := mem_battlefield_iff.mpr ⟨p, hp, mem⟩
    have buried : Continues K s (s.modifyInstance id (·.buried)) :=
      housed.modify_in_play inPlay fun _ => ⟨rfl, rfl, rfl⟩
    refine buried.trans (Continues.trans ?_ (Continues.record e))
    refine Continues.carry (c := c.buried) (buried.housed housed) ?_ hp (by decide) (by decide)
      mem fun _ _ => .die
    rw [instance?_modifyInstance_self, hc]
    rfl

/-- A game continues through all that a batch does to a permanent. -/
theorem Harm.continues (housed : s.Housed) (h : Harm s s') : Continues K s s' := by
  cases h with
  | wound amount _ mem => exact housed.modify_in_play mem fun _ => ⟨rfl, rfl, rfl⟩
  | doom _ mem => exact housed.modify_in_play mem fun _ => ⟨rfl, rfl, rfl⟩

/-! ### What no change within a turn touches -/

/-- The parts of a session that only the change of turn or the engine changes. -/
structure SameTurn (s s' : Session) : Prop where
  current : s'.current = s.current
  starting : s'.starting = s.starting
  turn : s'.turn = s.turn
  rng : s'.rng = s.rng
  revision : s'.revision = s.revision

theorem SameTurn.refl (s : Session) : SameTurn s s :=
  ⟨rfl, rfl, rfl, rfl, rfl⟩

theorem SameTurn.trans {s'' : Session} (h : SameTurn s s') (h' : SameTurn s' s'') :
    SameTurn s s'' where
  current := h'.current.trans h.current
  starting := h'.starting.trans h.starting
  turn := h'.turn.trans h.turn
  rng := h'.rng.trans h.rng
  revision := h'.revision.trans h.revision

theorem sameTurn_finish {loser : Seat} {now : Nat} : SameTurn s (s.finish loser now) := by
  unfold finish
  split <;> exact ⟨rfl, rfl, rfl, rfl, rfl⟩

theorem sameTurn_damagePlayer {amount dealt : Int} {now : Nat}
    (h : damagePlayer player amount now s = .ok dealt s') : SameTurn s s' := by
  obtain ⟨p, -, -, rfl⟩ := damagePlayer_ok_iff.mp h
  split
  · refine SameTurn.trans ?_ sameTurn_finish
    exact ⟨rfl, rfl, rfl, rfl, rfl⟩
  · exact ⟨rfl, rfl, rfl, rfl, rfl⟩

theorem sameTurn_healPlayer {amount healed : Int}
    (h : healPlayer player amount s = .ok healed s') : SameTurn s s' := by
  obtain ⟨p, -, -, rfl⟩ := healPlayer_ok_iff.mp h
  exact ⟨rfl, rfl, rfl, rfl, rfl⟩

theorem sameTurn_gainEnergy {amount : Int} {now : Nat} {u : Unit}
    (h : gainEnergy player amount now s = .ok u s') : SameTurn s s' := by
  obtain ⟨p, -, rfl⟩ := gainEnergy_ok_iff.mp h
  exact ⟨rfl, rfl, rfl, rfl, rfl⟩

theorem sameTurn_drawCard {drawn : Option InstanceId} {now : Nat}
    (h : drawCard player now s = .ok drawn s') : SameTurn s s' := by
  unfold drawCard at h
  split at h
  · cases h
  · split at h <;> cases h <;> exact ⟨rfl, rfl, rfl, rfl, rfl⟩

/-- No change passes the turn. -/
theorem Change.sameTurn (h : Change K s s') : SameTurn s s' := by
  cases h with
  | hurt _ h => exact sameTurn_damagePlayer h
  | mend _ h => exact sameTurn_healPlayer h
  | gain _ h => exact sameTurn_gainEnergy h
  | draw _ h => exact sameTurn_drawCard h
  | _ => exact ⟨rfl, rfl, rfl, rfl, rfl⟩

theorem Harm.sameTurn (h : Harm s s') : SameTurn s s' := by
  cases h <;> exact ⟨rfl, rfl, rfl, rfl, rfl⟩

theorem Keeps.finish {α : Type} {view : Player → α} {loser : Seat} {now : Nat} :
    Keeps view s (s.finish loser now) := by
  unfold Session.finish
  split <;> exact .of_players rfl

theorem Keeps.drawCard {α : Type} {view : Player → α}
    (blind : ∀ (p : Player) zones, view { p with zones } = view p) {drawn : Option InstanceId}
    {now : Nat} (h : drawCard player now s = .ok drawn s') : Keeps view s s' := by
  unfold Session.drawCard at h
  split at h
  · cases h
  · split at h
    · cases h
      exact .of_players rfl
    · cases h
      exact .trans (.modifyPlayer fun p _ => blind p _) (.of_players rfl)

/-- Of players, a change only touches health, energy and zones. -/
theorem Change.keeps {α : Type} {view : Player → α}
    (blind : ∀ (p : Player) health energy zones, view { p with health, energy, zones } = view p)
    (h : Change K s s') : Keeps view s s' := by
  have carried : ∀ (s : Session) (player : Seat) (zones : Zones),
      Keeps view s (s.setZones player zones) := fun s player zones =>
    .modifyPlayer fun p _ => blind p p.health p.energy zones
  have charged : ∀ (player : Seat) (cost : Int), Keeps view s (s.charge player cost) :=
    fun player cost => .modifyPlayer fun p _ => blind p p.health _ p.zones
  cases h with
  | @hurt _ player amount _ _ _ h =>
    obtain ⟨p, hp, -, rfl⟩ := damagePlayer_ok_iff.mp h
    have hurt : Keeps view s (s.modifyPlayer player fun _ => p.takeDamage amount) :=
      .modifyPlayer_at hp (blind p _ p.energy p.zones)
    split
    · exact hurt.trans .finish
    · exact hurt
  | mend _ h =>
    obtain ⟨p, hp, -, rfl⟩ := healPlayer_ok_iff.mp h
    exact .modifyPlayer_at hp (blind p _ p.energy p.zones)
  | gain _ h =>
    obtain ⟨p, hp, rfl⟩ := gainEnergy_ok_iff.mp h
    exact .trans (.modifyPlayer_at hp (blind p p.health _ p.zones)) (.of_players rfl)
  | draw _ h => exact .drawCard (fun p => blind p p.health p.energy) h
  | note | heal | sap => exact .of_players rfl
  | enter =>
    refine Keeps.trans ?_ ((carried _ _ _).trans (.of_players rfl))
    exact (charged _ _).trans (.of_players rfl)
  | cast => exact (charged _ _).trans ((carried _ _ _).trans (.of_players rfl))
  | bury => exact (Keeps.of_players rfl).trans ((carried _ _ _).trans (.of_players rfl))

theorem Harm.keeps {α : Type} {view : Player → α} (h : Harm s s') : Keeps view s s' := by
  cases h <;> exact .of_players rfl

end Session

end CardBattle
