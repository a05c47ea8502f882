import CardBattle.Proofs.Starts
import CardBattle.Proofs.Sweeps
import CardBattle.Proofs.TurnSteps

/-!
# Changes of players and copies one by one

Some stages of a turn do the same to every player or copy that they concern, and leave everything
else alone: a player draws, permanents are refreshed, creatures are healed, energy is renewed. What
such a stage does is told by one function on players and one on copies; stages are composed by
composing the functions.
-/

namespace CardBattle

namespace Zones

/-- The top card of the deck comes to the end of the hand. -/
def drawn (z : Zones) : Zones :=
  { z with deck := z.deck.dropLast, hand := z.hand ++ z.deck.getLast?.toList }

variable {z : Zones} {id : InstanceId}

theorem drawn_of_empty (empty : z.deck = []) : z.drawn = z := by
  cases z
  simp_all [drawn]

/-- A draw carries the last card of the deck to the end of the hand. -/
theorem carry_top (apart : z.allInstances.Nodup) (last : z.deck.getLast? = some id) :
    z.carry id .deck .hand = z.drawn := by
  have erased : z.deck.erase id = z.deck.dropLast := erase_of_getLast? (nodup_deck apart) last
  simp [carry, setCards, cards, drawn, erased, last]

end Zones

/-- A player at the start of a round has the next greatest energy, and all of it. -/
def Player.renewed (config : Config) (p : Player) : Player :=
  let greatest := min config.maxEnergyCap (p.maxEnergy + config.energyPerRound)
  { p with maxEnergy := greatest, energy := greatest }

namespace CardInstance

def mended (K : Catalog) (amount : Int) (c : CardInstance) : CardInstance :=
  match K.get? c.card with
  | some d => if d.kind = .creature then c.heal amount d.health else c
  | none => c

/-- A permanent at the start of its owner's turn. -/
def rested (K : Catalog) (regen : Int) (c : CardInstance) : CardInstance :=
  { c with
    sapped := false
    health := match K.get? c.card with
      | some d => if d.kind = .creature then min d.health (c.health + regen) else c.health
      | none => c.health }

/-- Healing never lowers health, so that a creature must not be above its definition. -/
theorem mended_refresh {K : Catalog} {regen : Int} {c : CardInstance} {d : CardDefinition}
    (hd : K.get? c.card = some d) (below : c.health ≤ d.health) (nonneg : 0 ≤ regen)
    (fits : d.kind = .creature → inWord (c.health + regen) = true) :
    c.refresh.mended K regen = c.rested K regen := by
  have known : K.get? c.refresh.card = some d := hd
  rw [mended, known, rested, hd]
  dsimp only
  split
  · rename_i creature
    have added : toWord (increased c.health regen) = c.health + regen := by
      rw [increased_of_nonneg nonneg, toWord_of_inWord (fits creature)]
    have raised : max (min (toWord (increased c.health regen)) d.health) c.health
        = min d.health (c.health + regen) := by omega
    rw [← raised]
    rfl
  · rfl

end CardInstance

namespace Config

theorem gains_nonneg {config : Config} (valid : config.fault? = none) :
    0 ≤ config.energyPerRound ∧ 0 ≤ config.creatureRegen := by
  rw [fault?] at valid
  split at valid
  · cases valid
  · split at valid
    · cases valid
    · omega

end Config

/-- Raising and restoring the energy renews a player, as long as the sum fits in a word. -/
theorem Player.restore_raise {config : Config} {p : Player} (gain : 0 ≤ config.energyPerRound)
    (fits : inWord (p.maxEnergy + config.energyPerRound) = true) :
    (p.raiseMaxEnergy config.energyPerRound config.maxEnergyCap).restoreEnergy
      = p.renewed config := by
  have added : toWord (increased p.maxEnergy config.energyPerRound)
      = p.maxEnergy + config.energyPerRound := by
    rw [increased_of_nonneg gain, toWord_of_inWord fits]
  have raised : max (min (toWord (increased p.maxEnergy config.energyPerRound))
      config.maxEnergyCap) (min p.maxEnergy config.maxEnergyCap)
      = min config.maxEnergyCap (p.maxEnergy + config.energyPerRound) := by omega
  simp only [raiseMaxEnergy, restoreEnergy, renewed, raised]

namespace Session

variable {K : Catalog} {s m s' : Session} {player : Seat} {id : InstanceId} {now : Nat}
  {config : Config}

/-! ### Changes of players and copies one by one -/

/-- Every player and every copy is changed, some entries join the log, and the rest stays. -/
structure Altered (f : Seat → Player → Player) (g : InstanceId → CardInstance → CardInstance)
    (told : List LogEntry) (s s' : Session) : Prop where
  rest : s'.bare = s.bare
  players : ∀ seat, s'.player? seat = (s.player? seat).map (f seat)
  copies : ∀ id, s'.instance? id = (s.instance? id).map (g id)
  log : s'.log = s.log ++ told

variable {f f' : Seat → Player → Player} {g g' : InstanceId → CardInstance → CardInstance}
  {told told' : List LogEntry}

namespace Altered

theorem copies_of_same (same : s'.instances = s.instances) (id : InstanceId) :
    s'.instance? id = (s.instance? id).map fun c => c := by
  rw [instance?, same, Option.map_id']
  rfl

/-- Nothing happens if no copy would be changed. -/
theorem idle (same : ∀ id c, s.instance? id = some c → g id c = c) :
    Altered (fun _ p => p) g [] s s where
  rest := rfl
  players := by simp
  copies := by
    intro id
    cases hc : s.instance? id with
    | none => rfl
    | some c => rw [Option.map_some, same id c hc]
  log := (List.append_nil _).symm

/-- One alteration after another is an alteration by both. -/
theorem trans (h : Altered f g told s m) (h' : Altered f' g' told' m s') :
    Altered (fun seat p => f' seat (f seat p)) (fun id c => g' id (g id c)) (told ++ told') s s'
    where
  rest := h'.rest.trans h.rest
  players := by
    intro seat
    rw [h'.players, h.players, Option.map_map]
    rfl
  copies := by
    intro id
    rw [h'.copies, h.copies, Option.map_map]
    rfl
  log := by rw [h'.log, h.log, List.append_assoc]

theorem battlefield (h : Altered f g told s s')
    (keeps : ∀ seat p, (f seat p).zones.battlefield = p.zones.battlefield) (seat : Seat) :
    s'.battlefield seat = s.battlefield seat := by
  rw [Session.battlefield, Session.battlefield, h.players]
  cases s.player? seat with
  | none => rfl
  | some p => exact keeps seat p

/-- One copy is changed. -/
theorem of_modifyInstance (id : InstanceId) (g : CardInstance → CardInstance) :
    Altered (fun _ p => p) (fun other c => if other = id then g c else c) [] s
      (s.modifyInstance id g) where
  rest := rfl
  players := by simp
  copies := by
    intro other
    by_cases same : id = other
    · subst same
      rw [instance?_modifyInstance_self]
      simp
    · rw [instance?_modifyInstance_of_ne _ _ same]
      simp [Ne.symm same]
  log := (List.append_nil _).symm

end Altered

/-- Copies are changed one after another, none twice. The induction is on the list of their ids. -/
theorem altered_foldl {σ : Type} {g : CardInstance → CardInstance} (view : σ → Session)
    (step : σ → InstanceId → σ)
    (each : ∀ x id, Altered (fun _ p => p) (fun other c => if other = id then g c else c) []
      (view x) (view (step x id)))
    (ids : List InstanceId) (nodup : ids.Nodup) (x : σ) :
    Altered (fun _ p => p) (fun other c => if other ∈ ids then g c else c) [] (view x)
      (view (ids.foldl step x)) := by
  induction ids generalizing x with
  | nil => exact .idle fun other c _ => if_neg List.not_mem_nil
  | cons id ids ih =>
    obtain ⟨fresh, nodup⟩ := List.nodup_cons.mp nodup
    have whole := (each x id).trans (ih nodup (step x id))
    refine ⟨whole.rest, whole.players, fun other => ?_, whole.log⟩
    rw [List.foldl_cons, whole.copies]
    congr 1
    funext c
    by_cases same : other = id
    · subst same
      simp [fresh]
    · simp [same]

/-! ### The stages at the start of a turn -/

def drawText (p : Player) : String :=
  p.name ++ if p.zones.deck = [] then "'s deck is empty" else " draws a card"

theorem altered_drawCard {p : Player} (apart : s.Apart) (hp : s.player? player = some p)
    (now : Nat) : ∃ drawn s', drawCard player now s = .ok drawn s' ∧
      Altered (fun seat p => if seat = player then { p with zones := p.zones.drawn } else p)
        (fun _ c => c) [drawEntry player (drawText p) now] s s' := by
  obtain ⟨drawn, s', draws⟩ := drawCard_succeeds now hp
  refine ⟨drawn, s', draws, ?_⟩
  obtain ⟨p', hp', outcome⟩ := of_drawCard (fun q hq => apart player q hq) draws
  cases hp.symm.trans hp'
  rcases outcome with ⟨-, empty, rfl⟩ | ⟨id, -, last, mem, rfl⟩
  · have text : drawText p = p.name ++ "'s deck is empty" := by rw [drawText, if_pos empty]
    refine ⟨rfl, fun seat => ?_, Altered.copies_of_same rfl, by rw [text]; rfl⟩
    change s.player? seat = _
    by_cases same : seat = player
    · subst same
      simp [hp, Zones.drawn_of_empty empty]
    · simp [same]
  · have text : drawText p = p.name ++ " draws a card" := by
      have some_left : p.zones.deck ≠ [] := List.ne_nil_of_mem mem
      rw [drawText, if_neg some_left]
    refine ⟨rfl, fun seat => ?_, Altered.copies_of_same rfl, by rw [text]; rfl⟩
    change (s.setZones player (p.zones.carry id .deck .hand)).player? seat = _
    rw [setZones, Zones.carry_top (apart player p hp) last]
    by_cases same : seat = player
    · subst same
      rw [player?_modifyPlayer_self, hp]
      simp
    · rw [player?_modifyPlayer_of_ne _ _ (Ne.symm same)]
      simp [same]

theorem altered_refresh (nodup : (s.battlefield player).Nodup) :
    Altered (fun _ p => p) (fun id c => if id ∈ s.battlefield player then c.refresh else c) [] s
      (s.refreshBattlefield player) :=
  altered_foldl id _ (fun _ id => .of_modifyInstance id CardInstance.refresh) _ nodup s

theorem altered_healCreature (amount : Int) (state : Int × Session) (id : InstanceId) :
    Altered (fun _ p => p) (fun other c => if other = id then c.mended K amount else c) []
      state.2 (healCreature K amount state id).2 := by
  obtain ⟨total, s⟩ := state
  have idle : (∀ c, s.instance? id = some c → c.mended K amount = c) →
      Altered (fun _ p => p) (fun other c => if other = id then c.mended K amount else c) []
        s s := by
    refine fun same => .idle fun other c hc => ?_
    split
    · rename_i here
      exact same c (here ▸ hc)
    · rfl
  rw [healCreature]
  dsimp only
  split
  · rename_i absent
    refine idle fun c hc => ?_
    cases absent.symm.trans hc
  · rename_i c hc
    split
    · rename_i unknown
      refine idle fun c' hc' => ?_
      cases hc.symm.trans hc'
      rw [CardInstance.mended, unknown]
    · rename_i d hd
      split
      · rename_i creature
        have healed : c.heal amount d.health = c.mended K amount := by
          rw [CardInstance.mended, hd]
          exact (if_pos creature).symm
        dsimp only
        rw [modifyInstance_congr (g := fun c => c.mended K amount) hc healed]
        exact .of_modifyInstance id _
      · rename_i other
        refine idle fun c' hc' => ?_
        cases hc.symm.trans hc'
        rw [CardInstance.mended, hd]
        exact if_neg other

theorem altered_healCreatures (nodup : (s.battlefield player).Nodup) (amount : Int) :
    Altered (fun _ p => p)
      (fun id c => if id ∈ s.battlefield player then c.mended K amount else c) [] s
      (s.healCreatures K player amount).2 :=
  altered_foldl Prod.snd _ (altered_healCreature amount) _ nodup (0, s)

/-- In a new round everyone's energy is renewed, and otherwise the player's is filled up. -/
theorem altered_renewEnergy {p : Player} (gain : 0 ≤ config.energyPerRound)
    (hp : s.player? player = some p) {wrapped : Bool}
    (fits : wrapped = true → ∀ seat p, s.player? seat = some p →
      inWord (p.maxEnergy + config.energyPerRound) = true) :
    ∃ s', renewEnergy config player wrapped s = .ok () s' ∧
      Altered (fun seat p => if wrapped then p.renewed config
        else if seat = player then { p with energy := p.maxEnergy } else p) (fun _ c => c) [] s
        s' := by
  cases wrapped with
  | true =>
    refine ⟨_, renewEnergy_ok_iff.mpr (.inl ⟨rfl, rfl⟩), rfl, fun seat => ?_,
      Altered.copies_of_same rfl, (List.append_nil _).symm⟩
    rw [player?_map]
    refine Option.map_congr fun p hp => ?_
    rw [Player.restore_raise gain (fits rfl seat p hp), if_pos rfl]
  | false =>
    refine ⟨_, renewEnergy_ok_iff.mpr (.inr ⟨rfl, ⟨p, hp⟩, rfl⟩), rfl, fun seat => ?_,
      Altered.copies_of_same rfl, (List.append_nil _).symm⟩
    by_cases same : seat = player
    · subst same
      rw [player?_modifyPlayer_self, hp]
      simp [Player.restoreEnergy]
    · rw [player?_modifyPlayer_of_ne _ _ (Ne.symm same)]
      simp [same]

end Session

end CardBattle
