import CardBattle.Proofs.CopyChanges
import CardBattle.Proofs.TurnSteps

/-!
# Sound sessions

Resources stay within their bounds, and every copy looks as the zone where it lies demands: as new
in the deck and in the hand, a permanent with health within its definition on the battlefield, and
anything in the graveyard. Within a batch permanents may be at health 0, so that the least health on
a battlefield is a parameter: 0 within a batch, and 1 after the sweep.
-/

namespace CardBattle

open Relation

structure Player.Solvent (p : Player) : Prop where
  health : 0 ≤ p.health ∧ p.health ≤ p.maxHealth
  energy : 0 ≤ p.energy ∧ p.energy ≤ p.maxEnergy

def CardInstance.Fits (least : Int) (c : CardInstance) (d : CardDefinition) : Zone → Prop
  | .deck => c.health = d.health ∧ c.sapped = false
  | .hand => c.health = d.health ∧ c.sapped = false
  | .battlefield => d.kind ≠ .spell ∧ least ≤ c.health ∧ c.health ≤ d.health
  | .graveyard => True

namespace Player.Solvent

variable {p : Player}

theorem takeDamage (h : p.Solvent) (amount : Int) : (p.takeDamage amount).Solvent := by
  have health := h.health
  refine ⟨?_, h.energy⟩
  simp only [Player.takeDamage, lessened]
  omega

/-- Healing leaves nobody above the greatest health. -/
theorem heal (h : p.Solvent) (amount : Int) : (p.heal amount).Solvent := by
  have health := h.health
  refine ⟨?_, h.energy⟩
  simp only [Player.heal]
  omega

theorem gainEnergy (h : p.Solvent) (amount : Int) : (p.gainEnergy amount).Solvent := by
  have energy := h.energy
  refine ⟨h.health, ?_⟩
  simp only [Player.gainEnergy]
  omega

theorem pay (h : p.Solvent) {cost : Int} (afford : cost ≤ p.energy) :
    ({ p with energy := p.energy - max cost 0 } : Player).Solvent := by
  have energy := h.energy
  refine ⟨h.health, ?_⟩
  dsimp only
  omega

theorem raiseMaxEnergy (h : p.Solvent) (amount : Int) {cap : Int} (nonneg : 0 ≤ cap) :
    (p.raiseMaxEnergy amount cap).Solvent := by
  have energy := h.energy
  refine ⟨h.health, ?_⟩
  simp only [Player.raiseMaxEnergy]
  omega

theorem restoreEnergy (h : p.Solvent) : p.restoreEnergy.Solvent := by
  have energy := h.energy
  refine ⟨h.health, ?_⟩
  simp only [Player.restoreEnergy]
  omega

end Player.Solvent

namespace CardInstance.Fits

variable {c : CardInstance} {d : CardDefinition} {least : Int}

/-- Healing leaves no permanent above the health that its card gives. -/
theorem heal (h : c.Fits least d .battlefield) (amount : Int) :
    (c.heal amount d.health).Fits least d .battlefield := by
  obtain ⟨permanent, low, high⟩ := h
  refine ⟨permanent, ?_, ?_⟩
  · have kept := c.health_le_heal amount d.health
    omega
  · simp only [CardInstance.heal]
    omega

theorem takeDamage (h : c.Fits 0 d .battlefield) (amount : Int) :
    (c.takeDamage amount).Fits 0 d .battlefield := by
  obtain ⟨permanent, low, high⟩ := h
  refine ⟨permanent, c.takeDamage_nonneg amount, ?_⟩
  simp only [CardInstance.takeDamage, lessened]
  omega

end CardInstance.Fits

/-- Every definition stands under its own number and has no fault. -/
def Catalog.Sound (K : Catalog) : Prop :=
  ∀ id d, K.get? id = some d → d.id = id ∧ d.fault? = none

def Catalog.Filed (K : Catalog) : Prop :=
  ∀ id d, K.get? id = some d → d.id = id

namespace Catalog.Filed

theorem empty : Catalog.empty.Filed := by
  intro id d hd
  rw [get?_empty] at hd
  cases hd

theorem insert {K : Catalog} (filed : K.Filed) (d : CardDefinition) : (K.insert d).Filed := by
  intro id e he
  by_cases own : d.id = id
  · subst own
    rw [get?_insert_self] at he
    cases he
    rfl
  · rw [get?_insert_of_ne K d own] at he
    exact filed id e he

/-- There is no other way to make a catalog than to add definitions. -/
theorem ofList (ds : List CardDefinition) : (Catalog.ofList ds).Filed := by
  have from_any : ∀ K : Catalog, K.Filed → (ds.foldl Catalog.insert K).Filed := by
    induction ds with
    | nil => exact fun K filed => filed
    | cons d ds ih => exact fun K filed => ih _ (filed.insert d)
  exact from_any Catalog.empty Filed.empty

end Catalog.Filed

theorem Catalog.Sound.filed {K : Catalog} (h : K.Sound) : K.Filed :=
  fun id d hd => (h id d hd).1

/-- What a definition without fault can be relied on for. -/
theorem CardDefinition.of_fault?_eq_none {d : CardDefinition} (h : d.fault? = none) :
    0 ≤ d.cost ∧ 0 ≤ d.attack ∧ (d.kind ≠ .spell → 0 < d.health) ∧
      (d.kind = .spell → ∃ script, d.spellEffect = some script) := by
  unfold fault? at h
  split at h
  · cases h
  · rename_i cost
    split at h
    · cases h
    · rename_i attack
      split at h
      · cases h
      · rename_i health
        split at h
        · cases h
        · rename_i effect
          refine ⟨by omega, by omega, ?_, ?_⟩
          · intro permanent
            by_contra none
            refine health ⟨?_, by omega⟩
            cases kind : d.kind <;> simp_all [CardKind.isPermanent]
          · intro spell
            cases found : d.spellEffect with
            | none => exact absurd ⟨spell, by simp [found]⟩ effect
            | some script => exact ⟨script, rfl⟩

namespace Session

def Solvent (s : Session) : Prop :=
  ∀ seat p, s.player? seat = some p → p.Solvent

def Fits (K : Catalog) (least : Int) (s : Session) : Prop :=
  ∀ id c d zone, s.instance? id = some c → K.get? c.card = some d → s.zoneOf? id = some zone →
    c.Fits least d zone

/-- A session in which nothing is amiss. -/
structure Sound (K : Catalog) (least : Int) (s : Session) : Prop where
  housed : s.Housed
  active : s.players.contains s.current = true
  solvent : s.Solvent
  known : ∀ id c, s.instance? id = some c → ∃ d, K.get? c.card = some d
  fits : s.Fits K least

variable {config : Config} {K : Catalog} {least : Int} {s s' : Session} {id : InstanceId}
  {player : Seat}

/-! ### Players -/

theorem Solvent.modifyPlayer (h : s.Solvent) {f : Player → Player}
    (keeps : ∀ p, s.player? player = some p → p.Solvent → (f p).Solvent) :
    (s.modifyPlayer player f).Solvent := by
  intro seat q hq
  obtain ⟨p, hp, ⟨rfl, -⟩ | ⟨rfl, rfl⟩⟩ := of_player?_modifyPlayer hq
  · exact h seat q hp
  · exact keeps p hp (h _ p hp)

theorem Solvent.of_players (h : s.Solvent) (same : s'.players = s.players) : s'.Solvent := by
  intro seat p hp
  rw [player?, same] at hp
  exact h seat p hp

theorem players_finish {loser : Seat} {now : Nat} :
    (s.finish loser now).players = s.players := by
  unfold finish
  split <;> rfl

theorem Solvent.setZones (h : s.Solvent) {zones : Zones} : (s.setZones player zones).Solvent :=
  h.modifyPlayer fun _ _ solvent => ⟨solvent.health, solvent.energy⟩

theorem Solvent.charge (h : s.Solvent) {p : Player} {cost : Int} (hp : s.player? player = some p)
    (afford : cost ≤ p.energy) : (s.charge player cost).Solvent := by
  apply h.modifyPlayer
  intro q hq solvent
  cases hp.symm.trans hq
  exact solvent.pay afford

/-- Every change leaves the players solvent. -/
theorem Change.solvent (h : s.Solvent) (change : Change K s s') : s'.Solvent := by
  cases change with
  | note e _ => exact h
  | @hurt _ player amount _ now _ ran =>
    obtain ⟨p, hp, -, rfl⟩ := damagePlayer_ok_iff.mp ran
    have hurt : (s.modifyPlayer player fun _ => p.takeDamage amount).Solvent := by
      apply h.modifyPlayer
      intro q hq solvent
      cases hp.symm.trans hq
      exact solvent.takeDamage amount
    split
    · exact hurt.of_players players_finish
    · exact hurt
  | mend _ ran =>
    obtain ⟨p, hp, -, rfl⟩ := healPlayer_ok_iff.mp ran
    apply h.modifyPlayer
    intro q hq solvent
    cases hp.symm.trans hq
    exact solvent.heal _
  | gain _ ran =>
    obtain ⟨p, hp, rfl⟩ := gainEnergy_ok_iff.mp ran
    refine Solvent.of_players (h.modifyPlayer ?_) rfl
    intro q hq solvent
    cases hp.symm.trans hq
    exact solvent.gainEnergy _
  | draw _ ran =>
    unfold drawCard at ran
    split at ran
    · cases ran
    · split at ran
      · cases ran
        exact h
      · cases ran
        exact h.setZones
  | heal => exact h
  | sap => exact h
  | enter _ _ hp _ _ _ afford _ _ _ => exact (h.charge hp afford).setZones
  | cast _ _ hp _ _ _ afford _ _ _ => exact (h.charge hp afford).setZones
  | bury _ _ _ _ _ _ => exact h.setZones

theorem Harm.solvent (h : s.Solvent) (harm : Harm s s') : s'.Solvent := by
  cases harm <;> exact h

/-! ### Copies -/

theorem Fits.suits (h : s.Fits K least) : s.Suits (fun _ => CardInstance.Fits least) K := h

theorem Fits.of_same (h : s.Fits K least) (copies : ∀ id, s'.instance? id = s.instance? id)
    (zones : ∀ id, s'.zoneOf? id = s.zoneOf? id) : s'.Fits K least :=
  h.suits.of_same copies zones

/-- Permanents enter play with the health of their definition, and healing leaves them within it. -/
theorem lasts_fits (definitions : K.Sound) (low : least ≤ 1) :
    Condition.Lasts K fun _ => CardInstance.Fits least where
  draw := fun _ _ _ fits => fits
  cast := fun _ _ _ _ => trivial
  enter := by
    intro id c d hd permanent _
    have health := (CardDefinition.of_fault?_eq_none (definitions _ _ hd).2).2.2.1 permanent
    refine ⟨permanent, ?_, Int.le_refl _⟩
    simp only [CardInstance.entering]
    omega
  heal := fun _ _ _ amount fits => fits.heal amount
  sap := fun _ _ _ fits => fits
  bury := fun _ _ _ _ => trivial

/-- Every change leaves the copies fit for their zones. -/
theorem Change.fits (definitions : K.Sound) (low : least ≤ 1) (housed : s.Housed)
    (h : s.Fits K least) (change : Change K s s') : s'.Fits K least :=
  change.suits (lasts_fits definitions low) housed h

theorem Harm.fits (housed : s.Housed) (h : s.Fits K 0) (harm : Harm s s') : s'.Fits K 0 := by
  refine harm.suits ?_ ?_ housed h.suits
  · exact fun _ _ _ amount fits => fits.takeDamage amount
  · rintro id c d ⟨permanent, low, high⟩
    exact ⟨permanent, Int.le_refl _, Int.le_trans low high⟩

/-! ### Steps and stages -/

/-- Soundness is a matter of players and copies only. -/
theorem Sound.later {least' : Int} (h : s.Sound K least) (later : Continues K s s')
    (current : s'.current = s.current) (solvent : s'.Solvent) (fits : s'.Fits K least') :
    s'.Sound K least' where
  housed := later.housed h.housed
  active := by
    rw [SeatMap.contains_iff, later.count, current, ← SeatMap.contains_iff]
    exact h.active
  solvent := solvent
  known := by
    intro id e he
    obtain ⟨c, hc, ce⟩ := later.instance?_before he
    obtain ⟨d, hd⟩ := h.known id c hc
    exact ⟨d, ce.card ▸ hd⟩
  fits := fits

theorem Fits.weaken {least' : Int} (h : s.Fits K least) (le : least' ≤ least) :
    s.Fits K least' := by
  intro id c d zone hc hd hz
  have fits := h id c d zone hc hd hz
  cases zone with
  | battlefield => exact ⟨fits.1, Int.le_trans le fits.2.1, fits.2.2⟩
  | _ => exact fits

/-- Copies in play that live have some health. -/
theorem Fits.of_alive (h : s.Fits K 0) (alive : s.Alive) : s.Fits K 1 := by
  intro id c d zone hc hd hz
  have fits := h id c d zone hc hd hz
  cases zone with
  | battlefield => exact ⟨fits.1, alive id c hc hz, fits.2.2⟩
  | _ => exact fits

theorem Change.sound (definitions : K.Sound) (low : least ≤ 1) (h : s.Sound K least)
    (change : Change K s s') : s'.Sound K least :=
  h.later (change.continues h.housed) change.sameTurn.current (change.solvent h.solvent)
    (change.fits definitions low h.housed h.fits)

theorem Harm.sound (h : s.Sound K 0) (harm : Harm s s') : s'.Sound K 0 :=
  h.later (harm.continues h.housed) harm.sameTurn.current (harm.solvent h.solvent)
    (harm.fits h.housed h.fits)

/-- A batch that is settled leaves nothing amiss, even if permanents have died between. -/
theorem Sound.settle (definitions : K.Sound) (h : s.Sound K 1) (catalog : Catalog)
    {ops : List Operation} {now : Nat} (capped : ∀ op ∈ ops, op.Capped K s) :
    (s.settle catalog ops now).Sound K 1 := by
  obtain ⟨m, batch, sweep, alive⟩ := settle_changes now h.housed catalog capped
  generalize s.settle catalog ops now = s' at sweep alive ⊢
  have start : s.Sound K 0 :=
    h.later (Continues.refl s) rfl h.solvent (h.fits.weaken (by decide))
  have middle : m.Sound K 0 := by
    clear sweep
    induction batch with
    | refl => exact start
    | tail _ touch ih =>
      rcases touch with change | harm
      · exact change.sound definitions (by decide) ih
      · exact harm.sound ih
  have swept : s'.Sound K 0 := by
    clear alive
    induction sweep with
    | refl => exact middle
    | tail _ change ih => exact change.sound definitions (by decide) ih
  exact swept.later (Continues.refl _) rfl swept.solvent (swept.fits.of_alive alive)

/-- Nothing is amiss after a step. -/
theorem Step.sound (definitions : K.Sound) (h : s.Sound K 1) (step : Step K s s') :
    s'.Sound K 1 := by
  cases step with
  | change change => exact change.sound definitions (Int.le_refl 1) h
  | settle catalog ops now capped => exact h.settle definitions catalog capped

/-- The cap of the greatest energy is not negative in settings that are accepted. -/
theorem solvent_renewEnergy {wrapped : Bool} (cap : 0 ≤ config.maxEnergyCap) (h : s.Solvent)
    (ran : renewEnergy config player wrapped s = .ok () s') : s'.Solvent := by
  rcases renewEnergy_ok_iff.mp ran with ⟨-, rfl⟩ | ⟨-, -, rfl⟩
  · intro seat q hq
    rw [player?_map] at hq
    obtain ⟨p, hp, rfl⟩ := Option.map_eq_some_iff.mp hq
    exact ((h seat p hp).raiseMaxEnergy _ cap).restoreEnergy
  · exact h.modifyPlayer fun p _ solvent => solvent.restoreEnergy

/-- Nothing is amiss after a stage of play. -/
theorem Stage.sound (definitions : K.Sound) (cap : 0 ≤ config.maxEnergyCap) (h : s.Sound K 1)
    (stage : Stage config K s s') : s'.Sound K 1 := by
  have later := stage.continues h.housed
  cases stage with
  | step step => exact step.sound definitions h
  | pass _ ran =>
    obtain ⟨p, hp, -, rfl⟩ := passTurn_ok_iff.mp ran
    exact {
      housed := later.housed h.housed
      active := contains_iff_player?.mpr ⟨p, hp⟩
      solvent := h.solvent
      known := h.known
      fits := h.fits.of_same (fun _ => rfl) fun _ => rfl }
  | renew _ ran =>
    refine h.later later ?_ (solvent_renewEnergy cap h.solvent ran) ?_
    · rcases renewEnergy_ok_iff.mp ran with ⟨-, rfl⟩ | ⟨-, -, rfl⟩
      · rfl
      · rfl
    · rcases renewEnergy_ok_iff.mp ran with ⟨-, rfl⟩ | ⟨-, -, rfl⟩
      · refine h.fits.of_same (fun _ => rfl) fun id => zoneOf?_congr rfl fun seat => ?_
        rw [player?_map, Option.map_map]
        rfl
      · exact h.fits.of_same (fun _ => rfl) fun id => zoneOf?_modifyPlayer s fun _ => rfl
  | refresh _ mem =>
    refine h.later later rfl h.solvent ?_
    exact h.fits.suits.in_play h.housed mem (fun _ => ⟨rfl, rfl, rfl⟩) fun _ _ _ _ _ fits => fits

end Session

end CardBattle
