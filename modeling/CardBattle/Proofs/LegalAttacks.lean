import CardBattle.Proofs.Accepted
import CardBattle.Proofs.Frames
import CardBattle.Proofs.Targets

/-!
# Attacks that are offered and attacks that succeed

One query lists the creatures that may attack and another the targets of a creature; an attack
goes through checks of its own before blows are exchanged. Queries and checks agree, and once the
checks are passed, nothing that abilities do on the way makes an attack fail.
-/

namespace CardBattle

namespace Session

variable {K : Catalog} {s : Session} {id attacker defender : InstanceId} {player source : Seat}
  {target : Target} {sel : Selector}

/-! ### Targets -/

/-- Every target that is there is a candidate, if there are few players. -/
theorem mem_candidates (few : s.players.count < Seat.bound)
    (there : s.targetExists K target = true) : target ∈ Selector.candidates s K := by
  rw [targetExists] at there
  split at there
  · rename_i noCard
    cases target with
    | player seat =>
      have seated : seat ∈ s.players.seats :=
        (mem_seats_iff few).mpr ((SeatMap.contains_iff _ _).mp there)
      exact List.mem_append_left _ (List.mem_map_of_mem seated)
    | creature card owner => cases noCard
    | artifact card owner => cases noCard
  · rename_i id hid
    obtain ⟨makes, inPlay⟩ := cardInPlayAs_iff.mp there
    obtain ⟨c, d, hc, hd, made⟩ := targetOf?_eq_some_iff.mp makes
    obtain ⟨c', hc', mem⟩ := mem_battlefield_of_zone inPlay
    cases hc.symm.trans hc'
    obtain ⟨p, hp, -⟩ := mem_battlefield_iff.mp mem
    refine List.mem_append_right _ (List.mem_flatMap.mpr ⟨c.owner, ?_, ?_⟩)
    · exact (mem_seats_iff few).mpr (index_lt_of_player? hp)
    · exact List.mem_filterMap.mpr ⟨id, mem, by simp only [hc, hd, made]⟩

/-- The listed targets are those that the selector accepts. -/
theorem mem_validTargets_iff (few : s.players.count < Seat.bound) :
    target ∈ sel.validTargets s K source ↔ sel.accepts s K source target = true := by
  rw [Selector.validTargets, List.mem_filter, and_iff_right_iff_imp]
  intro accepted
  simp only [Selector.accepts, Bool.and_eq_true] at accepted
  exact mem_candidates few accepted.2

/-! ### Queries and checks -/

/-- An attack is checked against the selector that its targets are offered by. -/
theorem requireAttackTarget_ok_iff {ctx : Context} {d : CardDefinition} :
    requireAttackTarget ctx player d target s = .ok () ↔
      (Selector.forAttack d.attackRules).accepts s ctx.catalog player target = true := by
  rw [requireAttackTarget]
  split <;> simp_all

/-- The attackers on offer are rested creatures in play, in their player's turn. -/
theorem mem_availableAttackers_iff : attacker ∈ s.availableAttackers K player ↔
    requireTurn player s = .ok () ∧ attacker ∈ s.battlefield player ∧ ∃ c d,
      s.instance? attacker = some c ∧ K.get? c.card = some d ∧ c.sapped = false ∧
      d.kind = .creature := by
  have ready : s.readyCreature K attacker = true ↔ ∃ c d, s.instance? attacker = some c ∧
      K.get? c.card = some d ∧ c.sapped = false ∧ d.kind = .creature := by
    rw [readyCreature]
    cases s.instance? attacker with
    | none => simp
    | some c =>
      cases hd : K.get? c.card with
      | none => simp [hd]
      | some d => simp [hd]
  rw [availableAttackers]
  rw [← admits_requireTurn_iff, ← ready]
  split
  · rename_i turn
    rw [List.mem_filter, and_iff_right turn]
  · rename_i other
    simp [other]

/-- The targets on offer for an attacker in play are the valid ones of its definition. -/
theorem mem_attackTargets_iff : target ∈ s.attackTargets K attacker ↔ ∃ c d,
    s.instance? attacker = some c ∧ s.zoneOf? attacker = some .battlefield ∧
      K.get? c.card = some d ∧
      target ∈ (Selector.forAttack d.attackRules).validTargets s K c.owner := by
  rw [attackTargets]
  rw [← onBattlefield_iff]
  cases s.instance? attacker with
  | none => simp
  | some c =>
    cases hd : K.get? c.card with
    | none => simp [hd]
    | some d => simp [hd]

/-- The checks admit an attack on a target exactly when the queries offer it. -/
theorem offered_iff {ctx : Context} (nodup : s.laid.Nodup) (few : s.players.count < Seat.bound) :
    attacker ∈ s.availableAttackers ctx.catalog player ∧
        target ∈ s.attackTargets ctx.catalog attacker ↔
      ∃ d, requireAttacker ctx player attacker s = .ok d ∧
        requireAttackTarget ctx player d target s = .ok () := by
  have legal : ∀ d : CardDefinition, requireAttackTarget ctx player d target s = .ok () ↔
      target ∈ (Selector.forAttack d.attackRules).validTargets s ctx.catalog player := by
    intro d
    rw [requireAttackTarget_ok_iff, mem_validTargets_iff few]
  simp only [mem_availableAttackers_iff, mem_attackTargets_iff, requireAttacker_ok_iff, legal]
  constructor
  · rintro ⟨⟨turn, mem, c, d, hc, hd, ready, creature⟩, c', d', hc', inPlay, hd', valid⟩
    cases hc.symm.trans hc'
    cases hd.symm.trans hd'
    have own : c.owner = player := owner_of_nodup_laid nodup hc inPlay mem
    exact ⟨d, ⟨turn, ⟨c, hc, own, inPlay, ready, hd⟩, creature⟩, own ▸ valid⟩
  · rintro ⟨d, ⟨turn, ⟨c, hc, rfl, inPlay, ready, hd⟩, creature⟩, valid⟩
    obtain ⟨c', hc', mem⟩ := mem_battlefield_of_zone inPlay
    cases hc.symm.trans hc'
    exact ⟨⟨turn, mem, c, d, hc, hd, ready, creature⟩, c, d, hc, inPlay, hd, valid⟩

theorem requireAttackable_ok_iff : requireAttackable K id s = .ok target ↔
    s.targetOf? K id = some target := by
  rw [requireAttackable]
  cases s.targetOf? K id <;> simp

theorem player?_of_legal {ctx : Context} {d : CardDefinition} {seat : Seat}
    (legal : requireAttackTarget ctx player d (.player seat) s = .ok ()) :
    ∃ p, s.player? seat = some p := by
  have accepted := requireAttackTarget_ok_iff.mp legal
  simp only [Selector.accepts, Bool.and_eq_true] at accepted
  exact ⟨_, List.getElem?_eq_getElem ((SeatMap.contains_iff _ _).mp accepted.2)⟩

theorem targetOf?_of_offered (offered : target ∈ s.attackTargets K attacker)
    (isCard : target.card? = some id) : s.targetOf? K id = some target := by
  obtain ⟨c, d, -, -, -, valid⟩ := mem_attackTargets_iff.mp offered
  have accepted := (List.mem_filter.mp valid).2
  simp only [Selector.accepts, targetExists, isCard, Bool.and_eq_true] at accepted
  exact (cardInPlayAs_iff.mp accepted.2).1

end Session

/-! ### Combat succeeds -/

namespace Play

open Session

variable {ctx : Context} {t : Table} {player target : Seat} {attacker defender : InstanceId}
  {c e : CardInstance} {d f : CardDefinition}

/-- Whatever abilities fire on a blow, its target keeps their seat and can be hit. -/
theorem blow_lands (event : TriggerEvent) (o : Occasion) {m : Table} {p : Player}
    (hp : m.session.player? target = some p) (amount : Int) {now : Nat} {rest : Int → Play Unit}
    (last : ∀ dealt m', ∃ t', rest dealt m' = .ok () t') :
    ∃ t', (do let dealt ← update (damagePlayer target amount now); rest dealt : Play Unit)
      (ctx.triggerCard event o m).2 = .ok () t' := by
  obtain ⟨q, hq⟩ : ∃ q, (ctx.triggerCard event o m).2.session.player? target = some q := by
    obtain ⟨q, -, -, hq, -⟩ := (Context.triggerCard_contained event o).players target p hp
    exact ⟨q, hq⟩
  exact exists_bind_ok_iff.mpr ⟨_, _,
    update_ok_iff.mpr ⟨_, damagePlayer_ok_iff.mpr ⟨q, hq, rfl, rfl⟩, rfl⟩, last _ _⟩

theorem attackPlayer_succeeds (hc : t.session.instance? attacker = some c)
    (hd : ctx.catalog.get? c.card = some d) {p : Player}
    (hp : t.session.player? target = some p) :
    ∃ t', attackPlayer ctx attacker target t = .ok () t' := by
  simp only [attackPlayer, exists_bind_ok_iff]
  refine ⟨d, t, check_ok_iff.mpr ⟨requireDefinition_ok_iff.mpr ⟨c, hc, hd⟩, rfl⟩, ?_⟩
  refine ⟨c, t, check_ok_iff.mpr ⟨requireInstance_ok_iff.mpr hc, rfl⟩, ?_⟩
  refine ⟨_, t, view_ok_iff.mpr ⟨rfl, rfl⟩, ?_⟩
  refine ⟨(), _, update_ok_iff.mpr ⟨_, sapInstance_ok_iff.mpr ⟨c, hc, rfl⟩, rfl⟩, ?_⟩
  refine ⟨p, _, check_ok_iff.mpr ⟨requirePlayer_ok_iff.mpr hp, rfl⟩, ?_⟩
  refine ⟨(), _, change_ok_iff.mpr rfl, (), _, fire_ok_iff.mpr rfl, ?_⟩
  refine ⟨_, _, view_ok_iff.mpr ⟨rfl, rfl⟩, ?_⟩
  split
  · exact ⟨_, rfl⟩
  · refine exists_bind_ok_iff.mpr ⟨_, _, view_ok_iff.mpr ⟨rfl, rfl⟩, ?_⟩
    refine blow_lands (p := p) .dealDamage _ ?_ d.attack fun _ _ => ⟨_, change_ok_iff.mpr rfl⟩
    exact hp

/-- The permanents need not survive the abilities for the attack to succeed. -/
theorem attackCard_succeeds (hc : t.session.instance? attacker = some c)
    (hd : ctx.catalog.get? c.card = some d) (he : t.session.instance? defender = some e)
    (hf : ctx.catalog.get? e.card = some f) :
    ∃ t', attackCard ctx attacker defender t = .ok () t' := by
  simp only [attackCard, exists_bind_ok_iff]
  refine ⟨d, t, check_ok_iff.mpr ⟨requireDefinition_ok_iff.mpr ⟨c, hc, hd⟩, rfl⟩, ?_⟩
  refine ⟨f, t, check_ok_iff.mpr ⟨requireDefinition_ok_iff.mpr ⟨e, he, hf⟩, rfl⟩, ?_⟩
  refine ⟨c, t, check_ok_iff.mpr ⟨requireInstance_ok_iff.mpr hc, rfl⟩, ?_⟩
  refine ⟨e, t, check_ok_iff.mpr ⟨requireInstance_ok_iff.mpr he, rfl⟩, ?_⟩
  refine ⟨_, t, view_ok_iff.mpr ⟨rfl, rfl⟩, _, t, view_ok_iff.mpr ⟨rfl, rfl⟩, ?_⟩
  refine ⟨(), _, update_ok_iff.mpr ⟨_, sapInstance_ok_iff.mpr ⟨c, hc, rfl⟩, rfl⟩, ?_⟩
  refine ⟨(), _, change_ok_iff.mpr rfl, (), _, fire_ok_iff.mpr rfl, ?_⟩
  by_cases counters : f.canCounter = true
  · simp only [counters, if_true, exists_bind_ok_iff]
    refine ⟨(), _, fire_ok_iff.mpr rfl, (), _, fire_ok_iff.mpr rfl, (), _, fire_ok_iff.mpr rfl, ?_⟩
    refine ⟨_, _, view_ok_iff.mpr ⟨rfl, rfl⟩, ?_⟩
    split
    · exact ⟨_, rfl⟩
    · exact exists_bind_ok_iff.mpr ⟨(), _, change_ok_iff.mpr rfl, _, change_ok_iff.mpr rfl⟩
  · simp only [counters, Bool.false_eq_true, if_false, exists_bind_ok_iff]
    refine ⟨(), _, fire_ok_iff.mpr rfl, _, _, view_ok_iff.mpr ⟨rfl, rfl⟩, ?_⟩
    split
    · exact ⟨_, rfl⟩
    · exact exists_bind_ok_iff.mpr ⟨(), _, change_ok_iff.mpr rfl, _, rfl⟩

/-- An attack on a player succeeds if the attacker and the target pass the checks. -/
theorem attackPlayerWith_ok_iff :
    (∃ t', attackPlayerWith ctx player attacker target t = .ok () t') ↔
    ∃ d, requireAttacker ctx player attacker t.session = .ok d ∧
      requireAttackTarget ctx player d (.player target) t.session = .ok () := by
  simp only [attackPlayerWith, exists_bind_ok_iff, check_ok_iff]
  constructor
  · rintro ⟨d, _, ⟨checked, rfl⟩, _, _, ⟨legal, rfl⟩, -⟩
    exact ⟨d, checked, legal⟩
  · rintro ⟨d, checked, legal⟩
    refine ⟨d, t, ⟨checked, rfl⟩, (), t, ⟨legal, rfl⟩, ?_⟩
    obtain ⟨-, ⟨c, hc, -, -, -, hd⟩, -⟩ := requireAttacker_ok_iff.mp checked
    obtain ⟨p, hp⟩ := player?_of_legal legal
    exact attackPlayer_succeeds hc hd hp

/-- An attack on a permanent in play succeeds if the attacker and the target pass the checks. -/
theorem attackCardWith_ok_iff :
    (∃ t', attackCardWith ctx player attacker defender t = .ok () t') ↔
    ∃ target, t.session.targetOf? ctx.catalog defender = some target ∧
      ∃ d, requireAttacker ctx player attacker t.session = .ok d ∧
        requireAttackTarget ctx player d target t.session = .ok () := by
  simp only [attackCardWith, exists_bind_ok_iff, check_ok_iff, requireAttackable_ok_iff]
  constructor
  · rintro ⟨d, _, ⟨checked, rfl⟩, target, _, ⟨makes, rfl⟩, _, _, ⟨legal, rfl⟩, -⟩
    exact ⟨target, makes, d, checked, legal⟩
  · rintro ⟨target, makes, d, checked, legal⟩
    refine ⟨d, t, ⟨checked, rfl⟩, target, t, ⟨makes, rfl⟩, (), t, ⟨legal, rfl⟩, ?_⟩
    obtain ⟨-, ⟨c, hc, -, -, -, hd⟩, -⟩ := requireAttacker_ok_iff.mp checked
    obtain ⟨e, f, he, hf, -⟩ := targetOf?_eq_some_iff.mp makes
    exact attackCard_succeeds hc hd he hf

/-- Where records are filed under their numbers and every seat has a name, the attacks that the
queries offer are those that succeed. -/
theorem attacks_exact (ctx : Context) (t : Table)
    (accepted : t.session.violation? ctx.catalog = none)
    (labelled : t.session.Labelled) (few : t.session.players.count < Seat.bound)
    (player : Seat) (attacker : InstanceId) :
    (∀ target, (∃ t', attackPlayerWith ctx player attacker target t = .ok () t') ↔
      attacker ∈ t.session.availableAttackers ctx.catalog player ∧
        .player target ∈ t.session.attackTargets ctx.catalog attacker) ∧
    ∀ defender, (∃ t', attackCardWith ctx player attacker defender t = .ok () t') ↔
      attacker ∈ t.session.availableAttackers ctx.catalog player ∧
        ∃ target ∈ t.session.attackTargets ctx.catalog attacker,
          target.card? = some defender := by
  have nodup : t.session.laid.Nodup := nodup_laid_of_accepted accepted labelled
  constructor
  · intro target
    rw [attackPlayerWith_ok_iff, offered_iff nodup few]
  · intro defender
    rw [attackCardWith_ok_iff]
    constructor
    · rintro ⟨target, makes, allowed⟩
      obtain ⟨available, offered⟩ := (offered_iff nodup few).mpr allowed
      exact ⟨available, target, offered, card?_of_targetOf? makes⟩
    · rintro ⟨available, target, offered, isCard⟩
      refine ⟨target, ?_, (offered_iff nodup few).mp ⟨available, offered⟩⟩
      exact targetOf?_of_offered offered isCard

/-- Ann's seer may attack Bob and his wisp, and nothing of Ann's. -/
theorem showdown_attacks : (showdown.violation? arena.catalog = none ∧ showdown.Labelled ∧
      showdown.players.count < Seat.bound) ∧
    (∃ t', attackPlayerWith arena ⟨0⟩ ⟨4⟩ ⟨1⟩ ⟨showdown, []⟩ = .ok () t') ∧
    (∃ t', attackCardWith arena ⟨0⟩ ⟨4⟩ ⟨2⟩ ⟨showdown, []⟩ = .ok () t') ∧
    ¬∃ t', attackCardWith arena ⟨0⟩ ⟨4⟩ ⟨4⟩ ⟨showdown, []⟩ = .ok () t' := by
  have labelled : showdown.Labelled := by decide +kernel
  have few : showdown.players.count < Seat.bound := by decide
  obtain ⟨players, cards⟩ :=
    attacks_exact arena ⟨showdown, []⟩ showdown_accepted labelled few ⟨0⟩ ⟨4⟩
  refine ⟨⟨showdown_accepted, labelled, few⟩, (players ⟨1⟩).mpr (by decide +kernel),
    (cards ⟨2⟩).mpr (by decide +kernel), ?_⟩
  rw [cards ⟨4⟩]
  decide +kernel

def crowd : Session :=
  { showdown with
    players := ⟨{ Player.ofConfig ⟨0⟩ "Ann" {} with zones := ⟨[], [], [⟨1⟩], []⟩ } ::
      List.replicate 255 (Player.ofConfig ⟨1⟩ "Bob" {})⟩
    instances := .ofList [(1, ⟨⟨1⟩, ⟨2⟩, ⟨0⟩, 1, false⟩)] }

/-- Both players take themselves for the second and have the same wisp in play, whose record bears
the number of another one. -/
def shared : Session :=
  { showdown with
    players := ⟨[{ Player.ofConfig ⟨1⟩ "Ann" {} with zones := ⟨[], [], [⟨1⟩], []⟩ },
      { Player.ofConfig ⟨1⟩ "Bob" {} with zones := ⟨[⟨2⟩], [], [⟨1⟩], []⟩ }]⟩
    instances := .ofList [(1, ⟨⟨2⟩, ⟨2⟩, ⟨1⟩, 1, false⟩), (2, ⟨⟨2⟩, ⟨2⟩, ⟨1⟩, 1, false⟩)] }

/-- An attack that is not offered succeeds among 256 players, and one that is offered fails where
two players have the same permanent. -/
theorem crowd_shared_attacks : (crowd.violation? arena.catalog = none ∧
      .player ⟨1⟩ ∉ crowd.attackTargets arena.catalog ⟨1⟩ ∧
      ∃ t', attackPlayerWith arena ⟨0⟩ ⟨1⟩ ⟨1⟩ ⟨crowd, []⟩ = .ok () t') ∧
    shared.violation? arena.catalog = none ∧ ⟨1⟩ ∈ shared.availableAttackers arena.catalog ⟨0⟩ ∧
      .player ⟨0⟩ ∈ shared.attackTargets arena.catalog ⟨1⟩ ∧
      ¬∃ t', attackPlayerWith arena ⟨0⟩ ⟨1⟩ ⟨0⟩ ⟨shared, []⟩ = .ok () t' := by
  refine ⟨⟨by decide +kernel, by decide +kernel, attackPlayerWith_ok_iff.mpr ⟨_, rfl, ?_⟩⟩,
    by decide +kernel, by decide +kernel, by decide +kernel, ?_⟩
  · exact requireAttackTarget_ok_iff.mpr (by decide +kernel)
  rintro ⟨t', h⟩
  have refused : attackPlayerWith arena ⟨0⟩ ⟨1⟩ ⟨0⟩ ⟨shared, []⟩
      = .error (.notOwner ⟨0⟩ ⟨1⟩) ⟨shared, []⟩ := rfl
  cases refused.symm.trans h

end Play

end CardBattle
