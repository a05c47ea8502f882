import CardBattle.Proofs.Accepted
import CardBattle.Proofs.Frames
import CardBattle.Proofs.RulesAsSteps

/-!
# Containment of scripts

Scripts are written by others and may do anything that the language offers. A spell that is cast
still takes nothing from any player but its cost and itself, and what falls in its course was dead.
Abilities, whatever is fired, draw cards and gain energy for their own player at most.
-/

namespace CardBattle

/-- What the casting of a spell leaves of a player who pays `cost`, if `cast` goes from the hand and
`fallen` from the battlefield. -/
structure Player.Spends (cost : Int) (cast fallen : List InstanceId) (p q : Player) : Prop where
  energy : q.energy = p.energy - cost
  maxHealth : q.maxHealth = p.maxHealth
  maxEnergy : q.maxEnergy = p.maxEnergy
  deckList : q.deckList = p.deckList
  deck : q.zones.deck = p.zones.deck
  hand : q.zones.hand = p.zones.hand.diff cast
  battlefield : q.zones.battlefield.Sublist p.zones.battlefield
  left : (q.zones.battlefield ++ fallen).Perm p.zones.battlefield

namespace Session

/-- What the casting of a spell does to a session. Copies that leave a zone reach the graveyard of
their player, unless records are misfiled. -/
structure Cast (player : Seat) (spell : InstanceId) (cost : Int) (dead : List InstanceId)
    (s s' : Session) : Prop where
  sameTurn : SameTurn s s'
  count : s'.players.count = s.players.count
  held : ∃ p, s.player? player = some p ∧ spell ∈ p.zones.hand
  caster : ∀ p, s.player? player = some p → ∃ q fallen, s'.player? player = some q ∧
    fallen ⊆ dead ∧ p.Spends (max cost 0) [spell] fallen q ∧
    (s.Labelled → q.zones.graveyard = p.zones.graveyard ++ spell :: fallen)
  others : ∀ seat p, seat ≠ player → s.player? seat = some p →
    ∃ q fallen, s'.player? seat = some q ∧ fallen ⊆ dead ∧ p.Spends 0 [] fallen q ∧
      (s.Labelled → q.zones.graveyard = p.zones.graveyard ++ fallen)

/-- What abilities of a player do to hands, decks and energy: nothing to those of others, and their
player draws from the top of the deck. -/
structure Drew (player : Seat) (s s' : Session) : Prop where
  others : ∀ seat p, seat ≠ player → s.player? seat = some p → ∃ q, s'.player? seat = some q ∧
    q.energy = p.energy ∧ q.zones.deck = p.zones.deck ∧ q.zones.hand = p.zones.hand
  own : ∀ p, s.player? player = some p → ∃ q drawn kept, s'.player? player = some q ∧
    p.zones.deck = q.zones.deck ++ drawn.reverse ∧ q.zones.hand = p.zones.hand ++ kept ∧
    kept.Sublist drawn ∧ (s.Labelled → kept = drawn)

variable {K : Catalog} {s m s' : Session} {player seat : Seat} {id : InstanceId} {p q : Player}
  {cost : Int} {dead : List InstanceId} {e : LogEntry} {dead' : InstanceId → Prop}

/-- A player who neither casts nor draws. -/
theorem spends_of_frame {drawn fallen : List InstanceId} (frame : p.Frame drawn fallen q)
    (idle : drawn = [] ∧ q.energy = p.energy) : p.Spends 0 [] fallen q where
  energy := by rw [idle.2, Int.sub_zero]
  maxHealth := frame.maxHealth
  maxEnergy := frame.maxEnergy
  deckList := frame.deckList
  deck := by
    have deck := frame.zones.deck
    rwa [idle.1, List.reverse_nil, List.append_nil] at deck
  hand := by
    obtain ⟨kept, inOrder, hand⟩ := frame.zones.hand
    rw [idle.1, List.sublist_nil] at inOrder
    rw [hand, inOrder, List.append_nil, List.diff_nil]
  battlefield := frame.zones.battlefield
  left := frame.zones.left

def paid (p : Player) (id : InstanceId) (cost : Int) : Player :=
  { p with energy := p.energy - max cost 0, zones := p.zones.carry id .hand .graveyard }

/-- Casting is to pay and lay the spell down, and then to lose what the script destroys. -/
theorem spends_of_paid {fallen : List InstanceId}
    (rest : (paid p id cost).Spends 0 [] fallen q) : p.Spends (max cost 0) [id] fallen q where
  energy := rest.energy.trans (Int.sub_zero _)
  maxHealth := rest.maxHealth
  maxEnergy := rest.maxEnergy
  deckList := rest.deckList
  deck := rest.deck
  hand := by
    rw [rest.hand, List.diff_nil, List.diff_cons, List.diff_nil]
    rfl
  battlefield := rest.battlefield
  left := rest.left

/-- The session in which the operations of a spell are applied. -/
def laidDown (s : Session) (player : Seat) (p : Player) (id : InstanceId) (cost : Int)
    (e : LogEntry) : Session :=
  ((s.charge player cost).setZones player (p.zones.carry id .hand .graveyard)).record e

theorem player?_laidDown (hp : s.player? player = some p) :
    (s.laidDown player p id cost e).player? player = some (paid p id cost) := by
  change ((s.charge player cost).setZones player _).player? player = _
  rw [setZones, player?_modifyPlayer_self, player?_charge hp]
  rfl

theorem player?_laidDown_of_ne (other : seat ≠ player) :
    (s.laidDown player p id cost e).player? seat = s.player? seat := by
  change ((s.charge player cost).setZones player _).player? seat = _
  rw [setZones, player?_modifyPlayer_of_ne _ _ other.symm, charge,
    player?_modifyPlayer_of_ne _ _ other.symm]

theorem battlefield_laidDown (hp : s.player? player = some p) (seat : Seat) :
    (s.laidDown player p id cost e).battlefield seat = s.battlefield seat := by
  simp only [battlefield]
  by_cases same : seat = player
  · subst same
    rw [player?_laidDown hp, hp]
    rfl
  · rw [player?_laidDown_of_ne same]

/-- A batch that is contained, on a session with the spell laid down, is a contained casting. -/
theorem cast_of_contained (accepted : s.violation? K = none) (hp : s.player? player = some p)
    (held : id ∈ p.zones.hand)
    (contained : Contained none (· ∈ dead) (s.laidDown player p id cost e) s') :
    Cast player id cost dead s s' where
  sameTurn := by
    have laid : SameTurn s (s.laidDown player p id cost e) := ⟨rfl, rfl, rfl, rfl, rfl⟩
    exact laid.trans contained.sameTurn
  count := by
    rw [contained.count]
    change ((s.charge player cost).setZones player _).players.count = _
    rw [setZones, charge, count_modifyPlayer, count_modifyPlayer]
  held := ⟨p, hp, held⟩
  caster := by
    intro p' hp'
    cases hp.symm.trans hp'
    obtain ⟨q, drawn, fallen, hq, frame, died, idle⟩ :=
      contained.players player _ (player?_laidDown hp)
    have spends := spends_of_frame frame (idle (Option.some_ne_none _).symm)
    refine ⟨q, fallen, hq, died, spends_of_paid spends, ?_⟩
    intro labelled
    have apart : p.zones.allInstances.Nodup := apart_of_accepted accepted labelled player p hp
    have apart' : (paid p id cost).zones.allInstances.Nodup :=
      Zones.carry_apart apart (by decide) held
    rw [(frame.zones.arrive apart').2]
    exact List.append_assoc _ [id] fallen
  others := by
    intro seat r other hr
    obtain ⟨q, drawn, fallen, hq, frame, died, idle⟩ :=
      contained.players seat r ((player?_laidDown_of_ne other).trans hr)
    refine ⟨q, fallen, hq, died, spends_of_frame frame (idle (Option.some_ne_none _).symm), ?_⟩
    intro labelled
    exact (frame.zones.arrive (apart_of_accepted accepted labelled seat r hr)).2

/-- A contained batch of an ability takes from nobody's hand, and from nobody's deck but the
player's. -/
theorem drew_of_contained (accepted : s.violation? K = none)
    (contained : Contained (some player) dead' s s') : Drew player s s' where
  others := by
    intro seat p other hp
    obtain ⟨q, drawn, fallen, hq, frame, -, idle⟩ := contained.players seat p hp
    have spends := spends_of_frame frame (idle fun same => other (Option.some.inj same).symm)
    exact ⟨q, hq, spends.energy.trans (Int.sub_zero _), spends.deck, spends.hand⟩
  own := by
    intro p hp
    obtain ⟨q, drawn, fallen, hq, frame, -, -⟩ := contained.players player p hp
    obtain ⟨kept, inOrder, hand⟩ := frame.zones.hand
    refine ⟨q, drawn, kept, hq, frame.zones.deck.symm, hand, inOrder, ?_⟩
    intro labelled
    obtain ⟨all, -⟩ := frame.zones.arrive (apart_of_accepted accepted labelled player p hp)
    exact List.append_cancel_left (hand.symm.trans all)

end Session

namespace Play

open Session

/-- Whatever scripts do: a spell that is cast lies in the graveyard when its operations are applied,
costs nobody anything else, and lets permanents fall in the sweep only; an ability draws and gains
for its own player only. -/
theorem scripts_contained (ctx : Context) (t : Table) (player : Seat)
    (accepted : t.session.violation? ctx.catalog = none) :
    (∀ id t', castSpell ctx player id t = .ok () t' → ∃ (d : CardDefinition) (m : Session),
      requireDefinition ctx.catalog id t.session = .ok d ∧
      (∀ seat, m.battlefield seat = t.session.battlefield seat) ∧
      t'.session = (m.sweep ctx.catalog (ctx.now t.session)).2 ∧
      t.session.Cast player id d.cost m.dead t'.session) ∧
    ∀ event card damage,
      t.session.Drew player (ctx.triggerCard event ⟨player, card, damage⟩ t).2.session := by
  constructor
  · intro id t' h
    obtain ⟨-, c, d, script, ops, s', own, hd, -, ran, resolved, rfl⟩ := castSpell_ok_iff.mp h
    obtain ⟨hc, own, -⟩ := requireOwnedIn_ok_iff.mp own
    obtain ⟨p, name, hp, -, held, rfl⟩ := of_resolveSpell hc own resolved
    let now := ctx.now t.session
    let laid := t.session.laidDown player p id d.cost (castEntry player name d now)
    have batch : Contained none (fun _ => False) laid (laid.applyOperations ops now).2 :=
      applyOperations_contained now (Context.invoke_for ran)
    refine ⟨d, _, requireDefinition_ok_iff.mpr ⟨c, hc, hd⟩, ?_, rfl, ?_⟩
    · exact fun seat => (batch.battlefield seat).trans (battlefield_laidDown hp seat)
    · exact cast_of_contained accepted hp held
        ((batch.mono fun _ => False.elim).trans (sweep_contained ctx.catalog now))
  · intro event card damage
    exact drew_of_contained accepted (Context.triggerCard_contained event ⟨player, card, damage⟩)

/-- Ann's bolt and the foresight of her seer. -/
theorem showdown_contained : showdown.violation? arena.catalog = none ∧
    (∃ t', castSpell arena ⟨0⟩ ⟨1⟩ ⟨showdown, []⟩ = .ok () t' ∧
      ∃ (d : CardDefinition) (m : Session),
      requireDefinition arena.catalog ⟨1⟩ showdown = .ok d ∧
      t'.session = (m.sweep arena.catalog (arena.now showdown)).2 ∧
      showdown.Cast ⟨0⟩ ⟨1⟩ d.cost m.dead t'.session) ∧
    showdown.Drew ⟨0⟩ (arena.triggerCard .startTurn ⟨⟨0⟩, ⟨4⟩, none⟩ ⟨showdown, []⟩).2.session := by
  obtain ⟨spells, abilities⟩ := scripts_contained arena ⟨showdown, []⟩ ⟨0⟩ showdown_accepted
  obtain ⟨d, m, hd, -, swept, cast⟩ := spells ⟨1⟩ _ rfl
  exact ⟨showdown_accepted, ⟨_, rfl, d, m, hd, swept, cast⟩, abilities .startTurn ⟨4⟩ none⟩

/-- Copy 2 lies in two places, and its record bears the number of another copy. The spell in Ann's
hand costs less than nothing. -/
def misfiled : Session :=
  { showdown with
    players := ⟨[{ Player.ofConfig ⟨0⟩ "Ann" {} with energy := 0, zones := ⟨[], [⟨1⟩], [], []⟩ },
      { Player.ofConfig ⟨1⟩ "Bob" {} with zones := ⟨[⟨2⟩], [], [⟨2⟩], []⟩ }]⟩
    instances := .ofList [(1, ⟨⟨1⟩, ⟨1⟩, ⟨0⟩, 0, false⟩), (2, ⟨⟨1⟩, ⟨2⟩, ⟨1⟩, 0, false⟩)] }

/-- A negative cost is free and nothing more, and a copy that lies in two places as it dies is in no
graveyard afterwards. -/
theorem misfiled_not_contained :
    let ctx : Context := { arena with
      catalog := .ofList [.spell ⟨1⟩ "Gift" (-1) ⟨[]⟩, .creature ⟨2⟩ "Wisp" 1 1 1] }
    misfiled.violation? ctx.catalog = none ∧
    ∃ t' d p q r w, castSpell ctx ⟨0⟩ ⟨1⟩ ⟨misfiled, []⟩ = .ok () t' ∧
      requireDefinition ctx.catalog ⟨1⟩ misfiled = .ok d ∧
      (misfiled.player? ⟨0⟩ = some p ∧ t'.session.player? ⟨0⟩ = some q ∧
        q.energy ≠ p.energy - d.cost) ∧
      misfiled.player? ⟨1⟩ = some r ∧ t'.session.player? ⟨1⟩ = some w ∧
        ⟨2⟩ ∈ r.zones.battlefield ∧ ⟨2⟩ ∉ w.zones.battlefield ∧ ⟨2⟩ ∉ w.zones.graveyard := by
  refine ⟨by decide +kernel, _, _, _, _, _, _, rfl, rfl, ⟨rfl, rfl, by decide +kernel⟩, rfl, rfl,
    ?_⟩
  decide +kernel

end Play

end CardBattle
