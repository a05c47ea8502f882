import CardBattle.Proofs.Accepted
import CardBattle.Proofs.RulesAsSteps

/-!
# Cards that are offered and cards that can be played

The query for playable cards goes through the hand of a player; playing a card goes through checks,
payment and a move between zones. Where players know their seats and records their numbers, both
agree: a permanent can be played when it is offered, and a spell can be cast when it is offered and
its script completes.
-/

namespace CardBattle

namespace Session

variable {K : Catalog} {ctx : Context} {s : Session} {player : Seat} {id : InstanceId}
  {c : CardInstance} {d : CardDefinition} {p : Player}

/-- The playable cards are the known ones in hand that can be paid, in their player's turn. -/
theorem mem_playableCards_iff : id ∈ s.playableCards K player ↔ requireTurn player s = .ok () ∧
    ∃ p c d, s.player? player = some p ∧ id ∈ p.zones.hand ∧ s.instance? id = some c ∧
      K.get? c.card = some d ∧ d.cost ≤ p.energy := by
  have affordable_iff : ∀ energy, s.affordable K energy id = true ↔ ∃ c d,
      s.instance? id = some c ∧ K.get? c.card = some d ∧ d.cost ≤ energy := by
    intro energy
    rw [affordable]
    cases s.instance? id with
    | none => simp
    | some c =>
      cases hd : K.get? c.card with
      | none => simp [hd]
      | some d => simp [hd]
  rw [playableCards]
  rw [← admits_requireTurn_iff]
  cases s.player? player with
  | none => simp
  | some p =>
    dsimp only
    split
    · rename_i turn
      simp [turn, List.mem_filter, affordable_iff]
    · rename_i other
      simp [other]

theorem once_of_accepted (accepted : s.violation? K = none) (labelled : s.Labelled)
    (hp : s.player? player = some p) : p.zones.allInstances.count id ≤ 1 :=
  List.nodup_iff_count_le_one.mp (apart_of_accepted accepted labelled player p hp) id

/-- The query goes by the hand and the action by the owner, and both find the same cards. -/
theorem playable_iff (accepted : s.violation? K = none) (labelled : s.Labelled)
    (numbered : s.Numbered) (hc : s.instance? id = some c) (hd : K.get? c.card = some d) :
    id ∈ s.playableCards K player ↔ requireTurn player s = .ok () ∧
      requireOwnedIn player id .hand s = .ok c ∧
      ∃ p, s.player? player = some p ∧ id ∈ p.zones.hand ∧ d.cost ≤ p.energy := by
  rw [mem_playableCards_iff, requireOwnedIn_ok_iff]
  constructor
  · rintro ⟨turn, p, c', d', hp, mem, hc', hd', afford⟩
    cases hc.symm.trans hc'
    cases hd.symm.trans hd'
    have lies : id ∈ p.zones.allInstances := Zones.mem_allInstances.mpr ⟨.hand, mem⟩
    obtain ⟨e, he, own⟩ := owner_of_accepted accepted hp lies
    cases hc.symm.trans he
    have own : c.owner = player := own.trans (numbered player p hp)
    refine ⟨turn, ⟨hc, own, ?_⟩, p, hp, mem, afford⟩
    refine zoneOf?_eq_some_iff.mpr ⟨c, p, hc, own ▸ hp, ?_⟩
    exact (Zones.locate_eq_some_iff_of_once (once_of_accepted accepted labelled hp)).mpr mem
  · rintro ⟨turn, -, p, hp, mem, afford⟩
    exact ⟨turn, p, c, d, hp, mem, hc, hd, afford⟩

/-! ### After the checks -/

/-- A copy that lies in one place only can be moved from there. -/
theorem moveInstance_of_once {source destination : Zone}
    (once : p.zones.allInstances.count id ≤ 1) (hc : s.instance? id = some c)
    (hp : s.player? c.owner = some p) (mem : id ∈ p.zones.cards source) :
    moveInstance id source destination s
      = .ok () (s.setZones c.owner (p.zones.carry id source destination)) := by
  simp only [moveInstance, hc, hp, Zones.move_of_once once mem]

theorem cost_le_of_paid {cost : Int} {s' : Session} (hp : s.player? player = some p)
    (paid : payEnergy player cost s = .ok () s') : cost ≤ p.energy := by
  obtain ⟨q, hq, afford, -⟩ := payEnergy_ok_iff.mp paid
  cases hp.symm.trans hq
  exact afford

/-- A card that its owner can pay for leaves the hand. -/
theorem pay_and_move {destination : Zone} (once : p.zones.allInstances.count id ≤ 1)
    (hc : s.instance? id = some c) (hp : s.player? c.owner = some p) (mem : id ∈ p.zones.hand)
    (afford : d.cost ≤ p.energy) : ∃ m s', payEnergy c.owner d.cost s = .ok () m ∧
      moveInstance id .hand destination m = .ok () s' ∧ s'.instance? id = some c ∧
      ∃ q, s'.player? c.owner = some q := by
  let q : Player := { p with energy := p.energy - max d.cost 0 }
  have hq : (s.modifyPlayer c.owner fun _ => q).player? c.owner = some q := by
    rw [player?_modifyPlayer_self, hp]
    rfl
  refine ⟨_, _, payEnergy_ok_iff.mpr ⟨p, hp, afford, rfl⟩,
    moveInstance_of_once (p := q) once hc hq mem, hc, ?_⟩
  exact ⟨_, (player?_modifyPlayer_self _ _).trans (congrArg (Option.map _) hq)⟩

/-- A permanent enters play from the hand if it can be paid. -/
theorem enterPlay_ok_iff (once : p.zones.allInstances.count id ≤ 1) (hc : s.instance? id = some c)
    (hp : s.player? c.owner = some p) (mem : id ∈ p.zones.hand) :
    (∃ s', enterPlay ctx c.owner id d s = .ok () s') ↔ d.cost ≤ p.energy := by
  simp only [enterPlay, exists_bind_ok_iff, Update.check_ok_iff, modify_ok_iff, get_ok_iff]
  constructor
  · rintro ⟨_, _, paid, -⟩
    exact cost_le_of_paid hp paid
  · intro afford
    obtain ⟨m, s', paid, moved, hc', q, hq⟩ := pay_and_move once hc hp mem afford
    exact ⟨_, m, paid, _, s', moved, c, s', ⟨requireInstance_ok_iff.mpr hc', rfl⟩, (), _, rfl, q, _,
      ⟨requirePlayer_ok_iff.mpr hq, rfl⟩, _, _, ⟨rfl, rfl⟩, _, rfl⟩

/-- A spell leaves the hand for the graveyard if it can be paid. -/
theorem resolveSpell_ok_iff (once : p.zones.allInstances.count id ≤ 1)
    (hc : s.instance? id = some c) (hp : s.player? c.owner = some p) (mem : id ∈ p.zones.hand)
    {ops : List Operation} :
    (∃ s', resolveSpell ctx c.owner id d ops s = .ok () s') ↔ d.cost ≤ p.energy := by
  simp only [resolveSpell, exists_bind_ok_iff, Update.check_ok_iff, modify_ok_iff, get_ok_iff]
  constructor
  · rintro ⟨_, _, paid, -⟩
    exact cost_le_of_paid hp paid
  · intro afford
    obtain ⟨m, s', paid, moved, -, q, hq⟩ := pay_and_move once hc hp mem afford
    exact ⟨_, m, paid, _, s', moved, q, s', ⟨requirePlayer_ok_iff.mpr hq, rfl⟩, _, _, ⟨rfl, rfl⟩,
      (), _, rfl, _, rfl⟩

theorem spellEffect_of_valid (valid : d.validate = .ok ()) (spell : d.kind = .spell) :
    ∃ script, d.spellEffect = some script := by
  cases effect : d.spellEffect with
  | some script => exact ⟨script, rfl⟩
  | none =>
    have faulty : ∃ fault, d.fault? = some fault := by
      rw [CardDefinition.fault?]
      split
      · exact ⟨_, rfl⟩
      · split
        · exact ⟨_, rfl⟩
        · split
          · exact ⟨_, rfl⟩
          · exact ⟨_, if_pos ⟨spell, by rw [effect]; rfl⟩⟩
    obtain ⟨fault, found⟩ := faulty
    rw [CardDefinition.validate, found] at valid
    cases valid

end Session

namespace Play

open Session

variable {ctx : Context} {t : Table} {player : Seat} {id : InstanceId} {c : CardInstance}
  {d : CardDefinition} {script : Script}

/-- A spell can be cast if and only if it is playable and its script completes. -/
theorem castSpell_iff_playable (accepted : t.session.violation? ctx.catalog = none)
    (labelled : t.session.Labelled) (numbered : t.session.Numbered)
    (hc : t.session.instance? id = some c) (hd : ctx.catalog.get? c.card = some d)
    (spell : d.kind = .spell) (effect : d.spellEffect = some script) :
    (∃ t', castSpell ctx player id t = .ok () t') ↔
      id ∈ t.session.playableCards ctx.catalog player ∧
        ∃ ops, (ctx.invoke script ⟨.spell, player, some id, none⟩ t).1 = .completed ops := by
  rw [playable_iff accepted labelled numbered hc hd]
  constructor
  · rintro ⟨t', h⟩
    obtain ⟨turn, c', d', script', ops, s', own, hd', checked, ran, resolved, -⟩ :=
      castSpell_ok_iff.mp h
    obtain ⟨hc', owner, -⟩ := requireOwnedIn_ok_iff.mp own
    cases hc.symm.trans hc'
    cases hd.symm.trans hd'
    cases effect.symm.trans (requireSpell_ok_iff.mp checked).2.2
    obtain ⟨p, name, hp, afford, mem, -⟩ := of_resolveSpell hc owner resolved
    exact ⟨⟨turn, own, p, hp, mem, afford⟩, ops, ran⟩
  · rintro ⟨⟨turn, own, p, hp, mem, afford⟩, ops, ran⟩
    have once : p.zones.allInstances.count id ≤ 1 := once_of_accepted accepted labelled hp
    have owner : c.owner = player := (requireOwnedIn_ok_iff.mp own).2.1
    obtain ⟨s', resolved⟩ : ∃ s', resolveSpell ctx c.owner id d ops t.session = .ok () s' :=
      (resolveSpell_ok_iff once hc (owner ▸ hp) mem).mpr afford
    refine ⟨_, castSpell_ok_iff.mpr ⟨turn, c, d, script, ops, s', own, hd, ?_, ran, ?_, rfl⟩⟩
    · exact requireSpell_ok_iff.mpr ⟨spell, ⟨p, hp, afford⟩, effect⟩
    · exact owner ▸ resolved

/-- Playing a spell is casting it. -/
theorem playCard_of_spell (hc : t.session.instance? id = some c)
    (hd : ctx.catalog.get? c.card = some d) (spell : d.kind = .spell) :
    (∃ t', playCard ctx player id t = .ok () t') ↔ ∃ t', castSpell ctx player id t = .ok () t' := by
  simp only [playCard, exists_bind_ok_iff, check_ok_iff, requireDefinition_ok_iff]
  constructor
  · rintro ⟨_, _, ⟨-, rfl⟩, _, _, ⟨-, rfl⟩, d', _, ⟨⟨c', hc', hd'⟩, rfl⟩, played⟩
    cases hc.symm.trans hc'
    cases hd.symm.trans hd'
    rw [if_pos spell] at played
    exact played
  · rintro ⟨t', h⟩
    obtain ⟨turn, c', d', script, ops, s', own, -⟩ := castSpell_ok_iff.mp h
    refine ⟨(), t, ⟨turn, rfl⟩, c', t, ⟨own, rfl⟩, d, t, ⟨⟨c, hc, hd⟩, rfl⟩, ?_⟩
    rw [if_pos spell]
    exact ⟨t', h⟩

/-- A permanent can be played if and only if it is playable. -/
theorem playCard_iff_playable (accepted : t.session.violation? ctx.catalog = none)
    (labelled : t.session.Labelled) (numbered : t.session.Numbered)
    (hc : t.session.instance? id = some c) (hd : ctx.catalog.get? c.card = some d)
    (permanent : d.kind ≠ .spell) :
    (∃ t', playCard ctx player id t = .ok () t') ↔
      id ∈ t.session.playableCards ctx.catalog player := by
  rw [playable_iff accepted labelled numbered hc hd]
  simp only [playCard, exists_bind_ok_iff, check_ok_iff, requireDefinition_ok_iff]
  constructor
  · rintro ⟨_, _, ⟨turn, rfl⟩, c', _, ⟨own, rfl⟩, d', _, ⟨⟨e, he, hd'⟩, rfl⟩, played⟩
    obtain ⟨hc', owner, inHand⟩ := requireOwnedIn_ok_iff.mp own
    cases hc.symm.trans hc'
    cases hc.symm.trans he
    cases hd.symm.trans hd'
    rw [if_neg permanent, exists_bind_ok_iff] at played
    obtain ⟨_, _, entered, -⟩ := played
    obtain ⟨s', entered, -⟩ := update_ok_iff.mp entered
    obtain ⟨e, p, he, hp, found⟩ := zoneOf?_eq_some_iff.mp inHand
    cases hc.symm.trans he
    have once : p.zones.allInstances.count id ≤ 1 := once_of_accepted accepted labelled hp
    have mem : id ∈ p.zones.hand := Zones.mem_of_locate found
    subst owner
    exact ⟨turn, own, p, hp, mem, (enterPlay_ok_iff once hc hp mem).mp ⟨s', entered⟩⟩
  · rintro ⟨turn, own, p, hp, mem, afford⟩
    have once : p.zones.allInstances.count id ≤ 1 := once_of_accepted accepted labelled hp
    have owner : c.owner = player := (requireOwnedIn_ok_iff.mp own).2.1
    subst owner
    obtain ⟨s', entered⟩ : ∃ s', enterPlay ctx c.owner id d t.session = .ok () s' :=
      (enterPlay_ok_iff once hc hp mem).mpr afford
    refine ⟨(), t, ⟨turn, rfl⟩, c, t, ⟨own, rfl⟩, d, t, ⟨⟨c, hc, hd⟩, rfl⟩, ?_⟩
    rw [if_neg permanent, exists_bind_ok_iff]
    exact ⟨(), _, update_ok_iff.mpr ⟨s', entered, rfl⟩, _, fire_ok_iff.mpr rfl⟩

/-- The cards that the query offers are those that can be played, up to the script of a spell. -/
theorem plays_exact (ctx : Context) (t : Table) (accepted : t.session.violation? ctx.catalog = none)
    (labelled : t.session.Labelled) (numbered : t.session.Numbered) (player : Seat)
    (id : InstanceId) (c : CardInstance) (d : CardDefinition)
    (hc : t.session.instance? id = some c) (hd : ctx.catalog.get? c.card = some d)
    (valid : d.validate = .ok ()) :
    (d.kind ≠ .spell → ((∃ t', playCard ctx player id t = .ok () t') ↔
      id ∈ t.session.playableCards ctx.catalog player)) ∧
    (d.kind = .spell → ∃ script, d.spellEffect = some script ∧
      ((∃ t', playCard ctx player id t = .ok () t') ↔
        id ∈ t.session.playableCards ctx.catalog player ∧
          ∃ ops, (ctx.invoke script ⟨.spell, player, some id, none⟩ t).1 = .completed ops) ∧
      ((∃ t', castSpell ctx player id t = .ok () t') ↔
        id ∈ t.session.playableCards ctx.catalog player ∧
          ∃ ops, (ctx.invoke script ⟨.spell, player, some id, none⟩ t).1 = .completed ops)) := by
  constructor
  · exact playCard_iff_playable accepted labelled numbered hc hd
  · intro spell
    obtain ⟨script, effect⟩ := spellEffect_of_valid valid spell
    have cast : (∃ t', castSpell ctx player id t = .ok () t') ↔ _ :=
      castSpell_iff_playable accepted labelled numbered hc hd spell effect
    exact ⟨script, effect, (playCard_of_spell hc hd spell).trans cast, cast⟩

/-- Ann can play her second seer and cast her bolt. -/
theorem showdown_plays : (showdown.violation? arena.catalog = none ∧ showdown.Labelled ∧
      showdown.Numbered) ∧
    (∃ t', playCard arena ⟨0⟩ ⟨5⟩ ⟨showdown, []⟩ = .ok () t') ∧
    ∃ t', castSpell arena ⟨0⟩ ⟨1⟩ ⟨showdown, []⟩ = .ok () t' := by
  have labelled : showdown.Labelled := by decide +kernel
  have numbered : showdown.Numbered := by decide +kernel
  obtain ⟨permanent, -⟩ := plays_exact arena ⟨showdown, []⟩ showdown_accepted labelled numbered ⟨0⟩
    ⟨5⟩ _ _ rfl rfl rfl
  obtain ⟨-, spell⟩ := plays_exact arena ⟨showdown, []⟩ showdown_accepted labelled numbered ⟨0⟩
    ⟨1⟩ _ _ rfl rfl rfl
  obtain ⟨script, effect, -, cast⟩ := spell rfl
  cases effect
  exact ⟨⟨showdown_accepted, labelled, numbered⟩,
    (permanent (by decide)).mpr (by decide +kernel), cast.mpr ⟨by decide +kernel, _, rfl⟩⟩

/-- Wisp 2 lies in Ann's deck and in her hand, and its record bears the number of the other wisp. -/
def doubled : Session :=
  { showdown with
    players := ⟨[{ Player.ofConfig ⟨0⟩ "Ann" {} with zones := ⟨[⟨2⟩], [⟨2⟩], [⟨1⟩], []⟩ },
      Player.ofConfig ⟨1⟩ "Bob" {}]⟩
    instances := .ofList [(1, ⟨⟨1⟩, ⟨2⟩, ⟨0⟩, 1, false⟩), (2, ⟨⟨1⟩, ⟨2⟩, ⟨0⟩, 1, false⟩)] }

def displaced : Session :=
  { showdown with
    players := ⟨[{ Player.ofConfig ⟨1⟩ "Ann" {} with zones := ⟨[], [⟨1⟩], [], []⟩ },
      Player.ofConfig ⟨1⟩ "Bob" {}]⟩
    instances := .ofList [(1, ⟨⟨1⟩, ⟨2⟩, ⟨1⟩, 1, false⟩)] }

/-- A card that is offered cannot be played where it is found in another zone first, nor where it is
found with its owner. -/
theorem doubled_displaced_plays :
    (∃ d, arena.catalog.get? ⟨2⟩ = some d ∧ d.kind = .creature ∧ d.validate = .ok ()) ∧
    (doubled.violation? arena.catalog = none ∧
      ⟨2⟩ ∈ doubled.playableCards arena.catalog ⟨0⟩ ∧
      ¬∃ t', playCard arena ⟨0⟩ ⟨2⟩ ⟨doubled, []⟩ = .ok () t') ∧
    displaced.violation? arena.catalog = none ∧
      ⟨1⟩ ∈ displaced.playableCards arena.catalog ⟨0⟩ ∧
      ¬∃ t', playCard arena ⟨0⟩ ⟨1⟩ ⟨displaced, []⟩ = .ok () t' := by
  refine ⟨⟨_, rfl, rfl, rfl⟩, ⟨by decide +kernel, by decide +kernel, ?_⟩, by decide +kernel,
    by decide +kernel, ?_⟩
  · rintro ⟨t', h⟩
    have refused : playCard arena ⟨0⟩ ⟨2⟩ ⟨doubled, []⟩
        = .error (.wrongZone ⟨2⟩ .hand (some .deck)) ⟨doubled, []⟩ := rfl
    cases refused.symm.trans h
  · rintro ⟨t', h⟩
    have refused : playCard arena ⟨0⟩ ⟨1⟩ ⟨displaced, []⟩
        = .error (.notOwner ⟨0⟩ ⟨1⟩) ⟨displaced, []⟩ := rfl
    cases refused.symm.trans h

end Play

end CardBattle
