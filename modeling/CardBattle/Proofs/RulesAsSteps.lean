import CardBattle.Proofs.Batches
import CardBattle.Proofs.Checks

/-!
# Plays as runs of steps

Every rule that succeeds is a run of steps: single changes, and batches with their sweeps. A change
of turn has two steps more, which pass the turn and renew the energy.
-/

namespace CardBattle

open Relation

namespace Session

/-- A step within a turn. -/
inductive Step (K : Catalog) : Session → Session → Prop where
  | change {s s' : Session} (h : Change K s s') : Step K s s'
  | settle {s : Session} (catalog : Catalog) (ops : List Operation) (now : Nat)
      (capped : ∀ op ∈ ops, op.Capped K s) : Step K s (s.settle catalog ops now)

abbrev Steps (K : Catalog) : Session → Session → Prop :=
  ReflTransGen (Step K)

variable {K : Catalog} {s s' : Session} {player : Seat} {id : InstanceId}

theorem steps_change (h : Change K s s') : Steps K s s' :=
  .single (.change h)

theorem steps_note (e : LogEntry) (plain : e.action.isPlain = true) : Steps K s (s.record e) :=
  steps_change (.note e plain)

/-- Only the cards of the copies count for what a heal may restore. -/
theorem capped_of_instances {op : Operation} (h : op.Capped K s)
    (same : s'.instances = s.instances) : op.Capped K s' := by
  cases op with
  | healCard id amount greatest =>
    obtain ⟨c, d, hc, hd, rfl⟩ := h
    refine ⟨c, d, ?_, hd, rfl⟩
    rw [instance?, same]
    exact hc
  | _ => trivial

end Session

open Session

/-! ### Scripts and abilities -/

namespace Context

variable {K : Catalog} {ctx : Context} {t t' : Table}

theorem session_invoke {script : Script} {invocation : Invocation} :
    (ctx.invoke script invocation t).2.session = t.session := rfl

/-- What a completed script queued on the session at the table. -/
theorem invoke_capped (known : ctx.catalog.Within K) {script : Script} {invocation : Invocation}
    {ops : List Operation} (h : (ctx.invoke script invocation t).1 = .completed ops) :
    ∀ op ∈ ops, op.Capped K t.session := by
  intro op mem
  have ran : script.invoke (ctx.scene t invocation) t.asked
      = (.completed ops, (ctx.invoke script invocation t).2.asked) := Prod.ext h rfl
  have admits := Script.invoke_admits ran op mem
  exact Operation.capped_of_admits known admits

/-- An ability acts by steps. -/
theorem runAbility_steps (known : ctx.catalog.Within K) (d : CardDefinition) (o : Occasion)
    (a : Ability) : Steps K t.session (ctx.runAbility d o a t).2.session := by
  unfold runAbility
  dsimp only
  split
  · rename_i ops completed
    have capped := invoke_capped known completed
    dsimp only
    rw [session_invoke]
    refine (steps_note _ rfl).tail (.settle _ _ _ ?_)
    intro op mem
    exact capped_of_instances (capped op mem) rfl
  · dsimp only
    rw [session_invoke]
    exact steps_note _ rfl

theorem runAbilities_steps (known : ctx.catalog.Within K) (d : CardDefinition) (o : Occasion)
    (abilities : List Ability) :
    Steps K t.session (ctx.runAbilities d o abilities t).2.session := by
  induction abilities generalizing t with
  | nil => exact .refl
  | cons a rest ih =>
    rw [runAbilities]
    split
    · exact .refl
    · exact (runAbility_steps known d o a).trans ih

/-- All that an event sets off on a card happens by steps. -/
theorem triggerCard_steps (known : ctx.catalog.Within K) (event : TriggerEvent) (o : Occasion) :
    Steps K t.session (ctx.triggerCard event o t).2.session := by
  unfold triggerCard
  split
  · exact .refl
  · split
    · split
      · exact .refl
      · exact runAbilities_steps known _ _ _
    · exact .refl

theorem triggerCards_steps (known : ctx.catalog.Within K) (event : TriggerEvent) (player : Seat)
    (cards : List InstanceId) :
    Steps K t.session (ctx.triggerCards event player cards t).2.session := by
  induction cards generalizing t with
  | nil => exact .refl
  | cons card rest ih =>
    rw [triggerCards]
    split
    · exact .refl
    · exact (triggerCard_steps known event _).trans ih

end Context

/-! ### Cards from the hand -/

namespace Session

variable {K : Catalog} {s s' : Session} {player : Seat} {id : InstanceId} {ctx : Context}
  {c : CardInstance} {d : CardDefinition} {u : Unit}

/-- A permanent enters play by one change. -/
theorem enterPlay_change (going : s.status ≠ .finished) (hc : s.instance? id = some c)
    (own : c.owner = player) (hd : K.get? c.card = some d) (permanent : d.kind ≠ .spell)
    (h : enterPlay ctx player id d s = .ok u s') : Change K s s' := by
  simp only [enterPlay, bind_ok_iff, payEnergy_ok_iff, modify_ok_iff, get_ok_iff,
    Update.check_ok_iff, requirePlayer_ok_iff, requireInstance_ok_iff] at h
  obtain ⟨_, paid, ⟨p, hp, afford, rfl⟩, _, moved, hmoved, c', _, ⟨-, rfl⟩, _, entered, rfl, q,
    _, ⟨-, rfl⟩, _, _, ⟨-, rfl⟩, rfl⟩ := h
  obtain ⟨e, q', he, hq', mem, rfl⟩ := of_moveInstance hmoved
  cases hc.symm.trans he
  subst own
  rw [modifyPlayer_congr (g := fun p => { p with energy := p.energy - max d.cost 0 }) hp rfl]
    at hq' ⊢
  cases (player?_charge hp).symm.trans hq'
  exact .enter (p := p) going hc hp hd permanent mem afford rfl rfl rfl

def castEntry (player : Seat) (name : String) (d : CardDefinition) (now : Nat) : LogEntry :=
  { player, action := .castSpell, amount := some d.cost
    description := name ++ " casts " ++ d.name, timestamp := now }

/-- A spell that resolves is paid for and goes to the graveyard before its operations are
applied. -/
theorem of_resolveSpell (hc : s.instance? id = some c) (own : c.owner = player)
    {ops : List Operation} (h : resolveSpell ctx player id d ops s = .ok u s') :
    ∃ p name, s.player? player = some p ∧ d.cost ≤ p.energy ∧ id ∈ p.zones.hand ∧
      s' = (((s.charge player d.cost).setZones player (p.zones.carry id .hand .graveyard)).record
        (castEntry player name d (ctx.now s))).settle ctx.catalog ops (ctx.now s) := by
  simp only [resolveSpell, bind_ok_iff, payEnergy_ok_iff, modify_ok_iff, get_ok_iff,
    Update.check_ok_iff, requirePlayer_ok_iff] at h
  obtain ⟨_, paid, ⟨p, hp, afford, rfl⟩, _, moved, hmoved, q, _, ⟨-, rfl⟩, _, _, ⟨rfl, rfl⟩, _, _,
    rfl, rfl⟩ := h
  obtain ⟨e, q', he, hq', mem, rfl⟩ := of_moveInstance hmoved
  cases hc.symm.trans he
  subst own
  rw [modifyPlayer_congr (g := fun p => { p with energy := p.energy - max d.cost 0 }) hp rfl]
    at hq' ⊢
  cases (player?_charge hp).symm.trans hq'
  exact ⟨p, _, hp, afford, mem, rfl⟩

theorem resolveSpell_steps (going : s.status ≠ .finished) (hc : s.instance? id = some c)
    (own : c.owner = player) (hd : K.get? c.card = some d) (spell : d.kind = .spell)
    {ops : List Operation} (capped : ∀ op ∈ ops, op.Capped K s)
    (h : resolveSpell ctx player id d ops s = .ok u s') : Steps K s s' := by
  obtain ⟨p, name, hp, afford, mem, rfl⟩ := of_resolveSpell hc own h
  subst own
  refine (steps_change (.cast (p := p) going hc hp hd spell mem afford rfl rfl rfl)).tail
    (.settle _ _ _ ?_)
  intro op mem
  exact capped_of_instances (capped op mem) rfl

end Session

namespace Play

variable {K : Catalog} {ctx : Context} {t t' : Table} {player target : Seat}
  {id attacker defender : InstanceId} {u : Unit}

/-- A cast succeeds when its checks do, the script completes, and the spell resolves. -/
theorem castSpell_ok_iff : castSpell ctx player id t = .ok u t' ↔
    requireTurn player t.session = .ok () ∧ ∃ c d script ops s',
      requireOwnedIn player id .hand t.session = .ok c ∧ ctx.catalog.get? c.card = some d ∧
      requireSpell player id d t.session = .ok script ∧
      (ctx.invoke script ⟨.spell, player, some id, none⟩ t).1 = .completed ops ∧
      resolveSpell ctx player id d ops t.session = .ok u s' ∧
      t' = { (ctx.invoke script ⟨.spell, player, some id, none⟩ t).2 with session := s' } := by
  simp only [castSpell, bind_ok_iff, check_ok_iff, requireDefinition_ok_iff, modifyGet_ok_iff]
  constructor
  · rintro ⟨_, _, ⟨turn, rfl⟩, c, _, ⟨own, rfl⟩, d, _, ⟨⟨c', hc', hd⟩, rfl⟩, script, _,
      ⟨spell, rfl⟩, outcome, _, ⟨ran, rfl⟩, h⟩
    cases (requireOwnedIn_ok_iff.mp own).1.symm.trans hc'
    cases outcome with
    | completed ops =>
      obtain ⟨s', resolved, rfl⟩ := update_ok_iff.mp h
      exact ⟨turn, c, d, script, ops, s', own, hd, spell, ran, resolved, rfl⟩
    | declined => exact (throw_ok_iff.mp h).elim
    | failed error => exact (throw_ok_iff.mp h).elim
  · rintro ⟨turn, c, d, script, ops, s', own, hd, spell, ran, resolved, rfl⟩
    refine ⟨(), t, ⟨turn, rfl⟩, c, t, ⟨own, rfl⟩, d, t,
      ⟨⟨c, (requireOwnedIn_ok_iff.mp own).1, hd⟩, rfl⟩, script, t, ⟨spell, rfl⟩, .completed ops, _,
      ⟨ran, rfl⟩, ?_⟩
    exact update_ok_iff.mpr ⟨s', resolved, rfl⟩

/-- A spell is cast by steps. -/
theorem castSpell_steps (known : ctx.catalog.Within K)
    (h : castSpell ctx player id t = .ok u t') : Steps K t.session t'.session := by
  obtain ⟨turn, c, d, script, ops, s', own, hd, spell, ran, resolved, rfl⟩ := castSpell_ok_iff.mp h
  obtain ⟨playing, -, -⟩ := requireTurn_ok_iff.mp turn
  obtain ⟨hc, own, -⟩ := requireOwnedIn_ok_iff.mp own
  refine resolveSpell_steps (s := t.session) ?_ hc own (known _ _ hd)
    (requireSpell_ok_iff.mp spell).1 (Context.invoke_capped known ran) resolved
  rw [playing]
  decide

/-- A card is played by steps. -/
theorem playCard_steps (known : ctx.catalog.Within K)
    (h : playCard ctx player id t = .ok u t') : Steps K t.session t'.session := by
  simp only [playCard, bind_ok_iff, check_ok_iff, requireTurn_ok_iff, requireOwnedIn_ok_iff,
    requireDefinition_ok_iff] at h
  obtain ⟨_, _, ⟨⟨playing, -, -⟩, rfl⟩, c, _, ⟨⟨hc, own, -⟩, rfl⟩, d, _, ⟨⟨c', hc', hd⟩, rfl⟩,
    h⟩ := h
  cases hc.symm.trans hc'
  split at h
  · exact castSpell_steps known h
  · rename_i permanent
    simp only [bind_ok_iff, update_ok_iff, fire_ok_iff] at h
    obtain ⟨_, _, ⟨s', entered, rfl⟩, rfl⟩ := h
    have going : t.session.status ≠ .finished := by
      rw [playing]
      decide
    have enters := enterPlay_change going hc own (known _ _ hd) permanent entered
    exact (steps_change enters).trans
      (Context.triggerCard_steps (t := { t with session := s' }) known _ _)

end Play

/-! ### Combat -/

namespace Session

variable {K : Catalog} {s s' : Session}

/-- A blow is struck by steps. -/
theorem strike_steps (ctx : Context) (striker : Seat) (name : String) (victim : InstanceId)
    (amount : Int) : Steps K s (s.strike ctx striker name victim amount) := by
  unfold strike
  split
  · refine (steps_note _ rfl).tail (.settle _ _ _ ?_)
    intro op mem
    rw [List.mem_singleton.mp mem]
    trivial
  · exact .refl

end Session

namespace Play

variable {K : Catalog} {ctx : Context} {t t' : Table} {player target : Seat}
  {id attacker defender : InstanceId} {u : Unit}

theorem fire_steps (known : ctx.catalog.Within K) {event : TriggerEvent} {o : Occasion}
    (h : fire ctx event o t = .ok u t') : Steps K t.session t'.session := by
  rw [← fire_ok_iff.mp h]
  exact Context.triggerCard_steps known event o

theorem fireAll_steps (known : ctx.catalog.Within K) {event : TriggerEvent}
    (h : fireAll ctx event player t = .ok u t') : Steps K t.session t'.session := by
  rw [← fireAll_ok_iff.mp h]
  exact Context.triggerCards_steps known event player _

theorem change_steps {f : Session → Session} (h : change f t = .ok u t')
    (steps : Steps K t.session (f t.session)) : Steps K t.session t'.session := by
  rw [← change_ok_iff.mp h]
  exact steps

theorem session_of_sap (h : update (sapInstance id) t = .ok u t') :
    t'.session = t.session.modifyInstance id CardInstance.sap := by
  obtain ⟨s', sapped, rfl⟩ := update_ok_iff.mp h
  obtain ⟨c, -, rfl⟩ := sapInstance_ok_iff.mp sapped
  rfl

/-- An attack saps the attacker first, and goes on in steps. -/
theorem attackPlayer_steps (known : ctx.catalog.Within K)
    (h : attackPlayer ctx attacker target t = .ok u t') :
    Steps K (t.session.modifyInstance attacker CardInstance.sap) t'.session := by
  simp only [attackPlayer, bind_ok_iff, check_ok_iff, view_ok_iff] at h
  obtain ⟨d, _, ⟨-, rfl⟩, c, _, ⟨-, rfl⟩, _, _, ⟨rfl, rfl⟩, _, t₁, sapped, p, _, ⟨-, rfl⟩, _, t₂,
    noted, _, t₃, fired, halted, _, ⟨isOver, rfl⟩, h⟩ := h
  rw [← session_of_sap sapped]
  have before : Steps K t₁.session t₃.session :=
    (change_steps noted (steps_note _ rfl)).trans (fire_steps known fired)
  split at h
  · obtain ⟨-, rfl⟩ := pure_ok_iff.mp h
    exact before
  · rename_i goesOn
    simp only [bind_ok_iff, view_ok_iff] at h
    obtain ⟨_, _, ⟨rfl, rfl⟩, dealt, t₄, hurt, noted'⟩ := h
    obtain ⟨s', damaged, rfl⟩ := update_ok_iff.mp hurt
    have going' : t₃.session.status ≠ .finished := by
      rw [← isFinished_eq_false_iff, isOver]
      exact Bool.eq_false_iff.mpr goesOn
    have struck : Steps K t₁.session s' := before.tail (.change (.hurt going' damaged))
    exact struck.trans (change_steps noted' (steps_note _ rfl))

/-- The attacked permanent strikes back if it can. -/
theorem attackCard_steps (known : ctx.catalog.Within K)
    (h : attackCard ctx attacker defender t = .ok u t') :
    Steps K (t.session.modifyInstance attacker CardInstance.sap) t'.session := by
  simp only [attackCard, bind_ok_iff, check_ok_iff, view_ok_iff] at h
  obtain ⟨d, _, ⟨-, rfl⟩, e, _, ⟨-, rfl⟩, c, _, ⟨-, rfl⟩, f, _, ⟨-, rfl⟩, _, _, ⟨rfl, rfl⟩, _, _,
    ⟨rfl, rfl⟩, _, t₁, sapped, _, t₂, noted, _, t₃, fired, h⟩ := h
  rw [← session_of_sap sapped]
  have before : Steps K t₁.session t₃.session :=
    (change_steps noted (steps_note _ rfl)).trans (fire_steps known fired)
  by_cases counters : e.canCounter = true
  · simp only [counters, if_true, bind_ok_iff, view_ok_iff] at h
    obtain ⟨_, t₄, fired₂, _, t₅, fired₃, _, t₆, fired₄, _, _, ⟨-, rfl⟩, h⟩ := h
    have triggered := ((before.trans (fire_steps known fired₂)).trans
      (fire_steps known fired₃)).trans (fire_steps known fired₄)
    split at h
    · obtain ⟨-, rfl⟩ := pure_ok_iff.mp h
      exact triggered
    · obtain ⟨_, t₇, struck, struck'⟩ := bind_ok_iff.mp h
      exact (triggered.trans (change_steps struck (strike_steps _ _ _ _ _))).trans
        (change_steps struck' (strike_steps _ _ _ _ _))
  · simp only [counters, Bool.false_eq_true, if_false, bind_ok_iff, view_ok_iff] at h
    obtain ⟨_, t₄, fired₂, _, _, ⟨-, rfl⟩, h⟩ := h
    have triggered := before.trans (fire_steps known fired₂)
    split at h
    · obtain ⟨-, rfl⟩ := pure_ok_iff.mp h
      exact triggered
    · obtain ⟨_, t₅, struck, h⟩ := bind_ok_iff.mp h
      obtain ⟨-, rfl⟩ := pure_ok_iff.mp h
      exact triggered.trans (change_steps struck (strike_steps _ _ _ _ _))

/-- An attack on a player saps the attacker and goes on by steps. -/
theorem attackPlayerWith_steps (known : ctx.catalog.Within K)
    (h : attackPlayerWith ctx player attacker target t = .ok u t') :
    (∃ d, requireAttacker ctx player attacker t.session = .ok d) ∧
      Steps K (t.session.modifyInstance attacker CardInstance.sap) t'.session := by
  simp only [attackPlayerWith, bind_ok_iff, check_ok_iff] at h
  obtain ⟨d, _, ⟨ready, rfl⟩, _, _, ⟨-, rfl⟩, h⟩ := h
  exact ⟨⟨d, ready⟩, attackPlayer_steps known h⟩

/-- An attack on a permanent saps the attacker and goes on by steps. -/
theorem attackCardWith_steps (known : ctx.catalog.Within K)
    (h : attackCardWith ctx player attacker defender t = .ok u t') :
    (∃ d, requireAttacker ctx player attacker t.session = .ok d) ∧
      Steps K (t.session.modifyInstance attacker CardInstance.sap) t'.session := by
  simp only [attackCardWith, bind_ok_iff, check_ok_iff] at h
  obtain ⟨d, _, ⟨ready, rfl⟩, _, _, ⟨-, rfl⟩, _, _, ⟨-, rfl⟩, h⟩ := h
  exact ⟨⟨d, ready⟩, attackCard_steps known h⟩

/-- A creature that may attack may be sapped. -/
theorem steps_of_attacker {s s' : Session} {d : CardDefinition}
    (ready : requireAttacker ctx player attacker s = .ok d)
    (after : Steps K (s.modifyInstance attacker CardInstance.sap) s') : Steps K s s' := by
  obtain ⟨turn, ⟨c, -, -, inPlay, -, -⟩, -⟩ := requireAttacker_ok_iff.mp ready
  obtain ⟨playing, -, -⟩ := requireTurn_ok_iff.mp turn
  obtain ⟨_, -, mem⟩ := mem_battlefield_of_zone inPlay
  refine .head (.change (.sap ?_ mem)) after
  rw [playing]
  decide

end Play

end CardBattle
