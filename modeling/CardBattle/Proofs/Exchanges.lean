import CardBattle.Proofs.LegalAttacks
import CardBattle.Proofs.Strikes
import CardBattle.Proofs.Visits

/-!
# Exchanges of blows

Combat is carried out one strike after another, with a sweep behind each. Where no ability listens
for damage this comes to one exchange: both permanents take the blow of the other, the attacked one
strikes back even if it falls, and those without health left lie in their graveyards. An attack on a
player is over after one blow.
-/

namespace CardBattle

/-- No ability listens for damage. -/
structure CardDefinition.Peaceful (d : CardDefinition) : Prop where
  dealDamage : d.abilitiesFor .dealDamage = []
  takeDamage : d.abilitiesFor .takeDamage = []

/-- The damage with which a permanent answers an attack. -/
def CardDefinition.riposte (d : CardDefinition) : Int :=
  if d.canCounter then d.attack else 0

/-- A valid definition has no negative attack. -/
theorem CardDefinition.attack_nonneg {d : CardDefinition} (valid : d.fault? = none) :
    0 ≤ d.attack := by
  by_contra negative
  rw [fault?] at valid
  split at valid
  · cases valid
  · rw [if_pos (by omega)] at valid
    cases valid

theorem CardDefinition.riposte_nonneg (d : CardDefinition) : 0 ≤ d.riposte := by
  rw [riposte]
  split
  · rename_i counters
    have positive := (of_decide_eq_true counters).2
    omega
  · exact Int.le_refl 0

namespace Session

variable {K : Catalog} {s s' : Session} {player other target : Seat}
  {attacker defender : InstanceId} {c e : CardInstance} {d f : CardDefinition} {ctx : Context}
  {p : Player}

def attackEntry (player : Seat) (d : CardDefinition) (target : Option Target) (name : String)
    (now : Nat) : LogEntry :=
  { player, action := .attack, amount := some d.attack, target
    description := d.name ++ " attacks " ++ name, timestamp := now }

def spent (s : Session) (attacker : InstanceId) (entry : LogEntry) : Session :=
  (s.modifyInstance attacker CardInstance.sap).record entry

variable {entry : LogEntry}

theorem Steady.spent (h : s.Steady) (attacker : InstanceId) (entry : LogEntry) :
    (s.spent attacker entry).Steady :=
  (h.sap attacker).record entry

/-- The attack is one entry, and the clock is read again after it. -/
theorem now_spent (attacker : InstanceId) (attack : entry.action = .attack) :
    ctx.now (s.spent attacker entry) = ctx.later s 1 := by
  have calm : entry.action ≠ .failure := by
    rw [attack]
    exact nofun
  exact ctx.now_record calm

/-- Nothing is moved when a creature spends itself on an attack. -/
theorem zoneOf?_spent (s : Session) (attacker : InstanceId) (entry : LogEntry)
    (id : InstanceId) : (s.spent attacker entry).zoneOf? id = s.zoneOf? id :=
  zoneOf?_modifyInstance s (f := CardInstance.sap) fun _ => rfl

/-- The attacker is sapped where it stands. -/
theorem InPlay.spent_self (h : InPlay K s player attacker c d) (entry : LogEntry) :
    InPlay K (s.spent attacker entry) player attacker c.sap d where
  listed := h.listed
  copy := by
    change (s.modifyInstance attacker CardInstance.sap).instance? attacker = _
    rw [instance?_modifyInstance_self, h.copy]
    rfl
  known := h.known

theorem InPlay.spent_of_ne (h : InPlay K s other defender e f) (differ : attacker ≠ defender)
    (entry : LogEntry) : InPlay K (s.spent attacker entry) other defender e f where
  listed := h.listed
  copy := by
    change (s.modifyInstance attacker CardInstance.sap).instance? defender = _
    rw [instance?_modifyInstance_of_ne _ _ differ, h.copy]
  known := h.known

/-- What an attack on a permanent makes of a session. -/
structure Exchanged (ctx : Context) (player other : Seat) (attacker defender : InstanceId)
    (c e : CardInstance) (d f : CardDefinition) (s s' : Session) : Prop where
  /-- The attacked permanent loses health, and falls if none is left. -/
  struck : s'.instance? defender = some { e with
    health := max (e.health - d.attack) 0, sapped := e.sapped && decide (d.attack < e.health) }
  struckFalls : s'.zoneOf? defender = some .graveyard ↔ e.health ≤ d.attack
  /-- The attacker takes the blow of a creature with positive attack, and is sapped if it stays. -/
  answered : s'.instance? attacker = some { c with
    health := max (c.health - f.riposte) 0, sapped := decide (f.riposte < c.health) }
  answeredFalls : s'.zoneOf? attacker = some .graveyard ↔ 0 < f.riposte ∧ c.health ≤ f.riposte
  copies : ∀ id, id ≠ attacker → id ≠ defender →
    s'.instance? id = s.instance? id ∧ s'.zoneOf? id = s.zoneOf? id
  /-- Who falls is carried to the graveyard, and players are otherwise untouched. -/
  players : ∀ seat, s'.player? seat = (s.player? seat).map fun p =>
    let fallen := fallenBy defender e d.attack ++ fallenBy attacker c f.riposte
    { p with zones := p.zones.bury fallen }
  rest : s'.bare = s.bare
  /-- One entry for the attack, one for each strike, and one for each permanent that falls. -/
  log : s'.log = s.log
    ++ [attackEntry player d (Target.ofCard? f.kind defender other) f.name (ctx.now s)]
    ++ strikeEntries ctx.catalog player d.name other defender e f d.attack (ctx.later s 1)
    ++ if f.canCounter then strikeEntries ctx.catalog other f.name player attacker c d f.attack
        (ctx.later s ((fallenBy defender e d.attack).length + 2)) else []

def woundEntry (player : Seat) (d : CardDefinition) (target : Seat) (p : Player) (now : Nat) :
    LogEntry :=
  let dealt := p.health - max (p.health - d.attack) 0
  { player, action := .damage, amount := some dealt, target := some (.player target)
    description := d.name ++ " deals " ++ toString dealt ++ " damage to " ++ p.name
    timestamp := now }

/-- A session in which a player has taken a blow, and is beaten if no health is left. -/
def afterBlow (s : Session) (target : Seat) (p : Player) (amount : Int) (now : Nat) : Session :=
  { s.modifyPlayer target fun q => { q with health := max (q.health - amount) 0 } with
    status := if p.health ≤ amount then .finished else s.status
    winner := if p.health ≤ amount then s.survivor? target else s.winner
    log := s.log ++ if p.health ≤ amount then
        [{ player := target, action := .gameEnd, description := "Player defeated: " ++ p.name
           timestamp := now }]
      else [] }

/-- Who is left does not depend on the loser. -/
theorem survivor?_modifyPlayer (s : Session) (loser : Seat) (f : Player → Player) :
    (s.modifyPlayer loser f).survivor? loser = s.survivor? loser := by
  simp only [survivor?, Session.opponents, SeatMap.seats, count_modifyPlayer, List.find?_filter]
  congr 1
  funext seat
  by_cases same : seat = loser
  · simp [same]
  · rw [player?_modifyPlayer_of_ne _ _ (Ne.symm same)]

/-- What an attack on a player makes of a session. -/
structure Beaten (ctx : Context) (player target : Seat) (attacker : InstanceId) (c : CardInstance)
    (d : CardDefinition) (p : Player) (s s' : Session) : Prop where
  hit : s'.player? target = some { p with health := max (p.health - d.attack) 0 }
  players : ∀ seat, seat ≠ target → s'.player? seat = s.player? seat
  status : s'.status = if p.health ≤ d.attack then .finished else .playing
  /-- The first of the others who has health left wins. -/
  winner : s'.winner = if p.health ≤ d.attack then s.survivor? target else s.winner
  sapped : s'.instance? attacker = some { c with sapped := true }
  copies : ∀ id, id ≠ attacker → s'.instance? id = s.instance? id
  zones : ∀ id, s'.zoneOf? id = s.zoneOf? id
  rest : { s' with status := s.status, winner := s.winner }.bare = s.bare
  log : s'.log = s.log
    ++ [attackEntry player d (some (.player target)) p.name (ctx.now s)]
    ++ (if p.health ≤ d.attack then
        [{ player := target, action := .gameEnd, description := "Player defeated: " ++ p.name
           timestamp := ctx.later s 1 }]
      else [])
    ++ [woundEntry player d target p (ctx.later s 1)]

end Session

namespace Play

open Session

variable {ctx : Context} {t : Table} {player other target : Seat}
  {attacker defender : InstanceId} {c e : CardInstance} {d f : CardDefinition} {p : Player}

/-- Nothing happens when no ability listens for an event. -/
theorem fire_of_silent {event : TriggerEvent} {card : InstanceId}
    (there : InPlay ctx.catalog t.session player card c d) (none : d.abilitiesFor event = [])
    (owner : Seat) (damage : Option DamageEvent) :
    fire ctx event ⟨owner, card, damage⟩ t = .ok () t := by
  have silent : t.session.Silent ctx.catalog event card := by
    intro c' d' hc hd
    cases there.copy.symm.trans hc
    cases there.known.symm.trans hd
    exact none
  rw [fire, Context.triggerCard_of_silent silent]

/-- Without abilities on damage, an attack is one or two strikes. -/
theorem attackCard_of_silent (steady : t.session.Steady) (differ : attacker ≠ defender)
    (mine : InPlay ctx.catalog t.session player attacker c d)
    (theirs : InPlay ctx.catalog t.session other defender e f) (calm : d.Peaceful)
    (calm' : f.Peaceful) :
    let entry := attackEntry player d (Target.ofCard? f.kind defender other) f.name
      (ctx.now t.session)
    let s := (t.session.spent attacker entry).strike ctx player d.name defender d.attack
    attackCard ctx attacker defender t = .ok () { t with
      session := if f.canCounter then s.strike ctx other f.name attacker f.attack else s } := by
  intro entry s
  obtain ⟨rfl, -⟩ := mine.owner steady.tidy
  obtain ⟨rfl, -⟩ := theirs.owner steady.tidy
  have steady' := steady.spent attacker entry
  have mine' := mine.spent_self entry
  have theirs' := theirs.spent_of_ne differ entry
  simp only [attackCard, bind_ok_iff]
  refine ⟨d, t, check_ok_iff.mpr ⟨requireDefinition_ok_iff.mpr ⟨c, mine.copy, mine.known⟩, rfl⟩,
    ?_⟩
  refine ⟨f, t, check_ok_iff.mpr
    ⟨requireDefinition_ok_iff.mpr ⟨e, theirs.copy, theirs.known⟩, rfl⟩, ?_⟩
  refine ⟨c, t, check_ok_iff.mpr ⟨requireInstance_ok_iff.mpr mine.copy, rfl⟩, ?_⟩
  refine ⟨e, t, check_ok_iff.mpr ⟨requireInstance_ok_iff.mpr theirs.copy, rfl⟩, ?_⟩
  refine ⟨_, t, view_ok_iff.mpr ⟨rfl, rfl⟩, _, t,
    view_ok_iff.mpr ⟨theirs.targetOf? steady.tidy, rfl⟩, ?_⟩
  refine ⟨(), _, update_ok_iff.mpr ⟨_, sapInstance_ok_iff.mpr ⟨c, mine.copy, rfl⟩, rfl⟩, ?_⟩
  refine ⟨(), { t with session := t.session.spent attacker entry }, change_ok_iff.mpr rfl, ?_⟩
  refine ⟨(), _, fire_of_silent mine' calm.dealDamage _ _, ?_⟩
  by_cases counters : f.canCounter = true
  · simp only [counters, if_true, bind_ok_iff]
    refine ⟨(), _, fire_of_silent theirs' calm'.dealDamage _ _, ?_⟩
    refine ⟨(), _, fire_of_silent theirs' calm'.takeDamage _ _, ?_⟩
    refine ⟨(), _, fire_of_silent mine' calm.takeDamage _ _, ?_⟩
    refine ⟨false, _, view_ok_iff.mpr ⟨steady'.going, rfl⟩, ?_⟩
    rw [if_neg Bool.false_ne_true]
    exact bind_ok_iff.mpr ⟨(), _, change_ok_iff.mpr rfl, change_ok_iff.mpr rfl⟩
  · simp only [counters, Bool.false_eq_true, if_false, bind_ok_iff]
    refine ⟨(), _, fire_of_silent theirs' calm'.takeDamage _ _, ?_⟩
    refine ⟨false, _, view_ok_iff.mpr ⟨steady'.going, rfl⟩, ?_⟩
    rw [if_neg Bool.false_ne_true]
    exact bind_ok_iff.mpr ⟨(), _, change_ok_iff.mpr rfl, rfl⟩

/-- The attacked permanent strikes back if it can. -/
theorem answer_struck {s : Session} (steady : s.Steady)
    (mine : InPlay ctx.catalog s player attacker c d) (other : Seat) (f : CardDefinition) :
    Struck attacker (c.afterBlow f.riposte) (fallenBy attacker c f.riposte)
      (if f.canCounter then
        strikeEntries ctx.catalog other f.name player attacker c d f.attack (ctx.now s) else [])
      s (if f.canCounter then s.strike ctx other f.name attacker f.attack else s) := by
  by_cases counters : f.canCounter = true
  · have answer : f.riposte = f.attack := if_pos counters
    have nonneg : 0 ≤ f.attack := answer ▸ f.riposte_nonneg
    rw [if_pos counters, if_pos counters, answer]
    exact (strike_struck steady mine nonneg other f.name).1
  · have answer : f.riposte = 0 := if_neg counters
    have alive := steady.alive attacker c mine.copy (mine.owner steady.tidy).2
    have unhurt : c.afterBlow 0 = c := by
      have positive : 0 < c.health := alive
      have same : max c.health 0 = c.health := by omega
      simp [CardInstance.afterBlow, same, positive]
    have stays : fallenBy attacker c 0 = [] := if_neg (by omega)
    rw [if_neg counters, if_neg counters, answer, unhurt, stays]
    exact .refl mine.copy

/-- The two blows of an attack on a permanent make the exchange. -/
theorem exchanged_of_strikes {s : Session} (steady : s.Steady) (differ : attacker ≠ defender)
    (mine : InPlay ctx.catalog s player attacker c d)
    (theirs : InPlay ctx.catalog s other defender e f) (nonneg : 0 ≤ d.attack) :
    let entry := attackEntry player d (Target.ofCard? f.kind defender other) f.name (ctx.now s)
    let m := (s.spent attacker entry).strike ctx player d.name defender d.attack
    Exchanged ctx player other attacker defender c e d f s
      (if f.canCounter then m.strike ctx other f.name attacker f.attack else m) := by
  intro entry m
  obtain ⟨first, steady'⟩ := strike_struck (steady.spent attacker entry)
    (theirs.spent_of_ne differ entry) nonneg player d.name
  have inPlay := (mine.owner steady.tidy).2
  have inPlay' := (theirs.owner steady.tidy).2
  have mine' : InPlay ctx.catalog m player attacker c.sap d :=
    (mine.spent_self entry).after_strike first (steady.spent attacker entry).tidy steady'.tidy
      differ (by simp [mem_fallenBy, differ])
  have second := answer_struck steady' mine' other f
  have alive := steady.alive attacker c mine.copy inPlay
  generalize (if f.canCounter then m.strike ctx other f.name attacker f.attack else m) = s'
    at second ⊢
  have same : ∀ amount, fallenBy attacker c.sap amount = fallenBy attacker c amount :=
    fun _ => rfl
  refine ⟨?_, ?_, ?_, ?_, ?_, ?_, ?_, ?_⟩
  · rw [second.others defender differ.symm, first.hit]
    rfl
  · rw [second.zones, first.zones, zoneOf?_spent]
    simp [mem_fallenBy, differ.symm, inPlay']
  · rw [second.hit]
    rfl
  · rw [second.zones, first.zones, zoneOf?_spent]
    have falls : c.health ≤ f.riposte ↔ 0 < f.riposte ∧ c.health ≤ f.riposte := by omega
    rw [← falls]
    simp [mem_fallenBy, differ, inPlay, same]
  · intro id notMine notTheirs
    constructor
    · rw [second.others id notMine, first.others id notTheirs]
      exact instance?_modifyInstance_of_ne s CardInstance.sap notMine.symm
    · rw [second.zones, first.zones, zoneOf?_spent]
      simp [mem_fallenBy, notMine, notTheirs]
  · intro seat
    have fresh : ∀ id ∈ fallenBy attacker c.sap f.riposte,
        id ∉ fallenBy defender e d.attack := by
      intro id mem mem'
      exact differ ((mem_fallenBy.mp mem).1.symm.trans (mem_fallenBy.mp mem').1)
    rw [second.players, first.players, Option.map_map]
    simp only [Function.comp_def, Zones.bury_bury fresh]
    rfl
  · exact second.rest.trans first.rest
  · have told : m.log = s.log ++ (entry :: strikeEntries ctx.catalog player d.name other defender e
        f d.attack (ctx.now (s.spent attacker entry))) :=
      first.log.trans (List.append_assoc s.log [entry] _)
    have calm : ∀ e' ∈ entry :: strikeEntries ctx.catalog player d.name other defender e f d.attack
        (ctx.now (s.spent attacker entry)), e'.action ≠ .failure :=
      List.forall_mem_cons.mpr ⟨nofun, fun _ => calm_strikeEntries⟩
    have clock := ctx.now_of_log told calm
    rw [List.length_cons, length_strikeEntries] at clock
    rw [second.log, first.log, clock, now_spent attacker rfl]
    rfl

/-- A player who is hit falls to 0 at the lowest, and the game ends there. -/
theorem damagePlayer_of_going {s : Session} (going : s.isFinished = false)
    (hp : s.player? target = some p) {amount : Int} (nonneg : 0 ≤ amount) (now : Nat) :
    damagePlayer target amount now s
      = .ok (p.health - max (p.health - amount) 0) (s.afterBlow target p amount now) := by
  have hurt : p.takeDamage amount = { p with health := max (p.health - amount) 0 } := by
    rw [Player.takeDamage, lessened_of_nonneg nonneg]
  have dead : (p.takeDamage amount).isDefeated = true ↔ p.health ≤ amount := by
    rw [hurt, Player.isDefeated, decide_eq_true_iff]
    simp only
    omega
  have wounded : (s.modifyPlayer target fun _ => p.takeDamage amount)
      = s.modifyPlayer target fun q => { q with health := max (q.health - amount) 0 } :=
    modifyPlayer_congr hp hurt
  refine damagePlayer_ok_iff.mpr ⟨p, hp, by rw [hurt], ?_⟩
  rw [wounded]
  by_cases lethal : p.health ≤ amount
  · rw [if_pos (dead.mpr lethal), finish_of_going, survivor?_modifyPlayer, nameOf,
      player?_modifyPlayer_self, hp]
    · simp only [afterBlow, if_pos lethal]
      rfl
    · exact isFinished_eq_false_iff.mp going
  · rw [if_neg (mt dead.mp lethal)]
    simp only [afterBlow, if_neg lethal, List.append_nil]
    rfl

/-- Without abilities on damage, an attack on a player is one blow. -/
theorem attackPlayer_of_silent (going : t.session.isFinished = false)
    (mine : InPlay ctx.catalog t.session player attacker c d) (own : c.owner = player)
    (calm : d.Peaceful) (nonneg : 0 ≤ d.attack) (hp : t.session.player? target = some p) :
    let s := t.session.spent attacker
      (attackEntry player d (some (.player target)) p.name (ctx.now t.session))
    attackPlayer ctx attacker target t = .ok () { t with
      session := (s.afterBlow target p d.attack (ctx.later t.session 1)).record
        (woundEntry player d target p (ctx.later t.session 1)) } := by
  subst own
  intro s
  have there : s.player? target = some p := hp
  have going' : s.isFinished = false := going
  have mine' := mine.spent_self
    (attackEntry c.owner d (some (.player target)) p.name (ctx.now t.session))
  simp only [attackPlayer, bind_ok_iff]
  refine ⟨d, t, check_ok_iff.mpr ⟨requireDefinition_ok_iff.mpr ⟨c, mine.copy, mine.known⟩, rfl⟩,
    ?_⟩
  refine ⟨c, t, check_ok_iff.mpr ⟨requireInstance_ok_iff.mpr mine.copy, rfl⟩, ?_⟩
  refine ⟨_, t, view_ok_iff.mpr ⟨rfl, rfl⟩, ?_⟩
  refine ⟨(), _, update_ok_iff.mpr ⟨_, sapInstance_ok_iff.mpr ⟨c, mine.copy, rfl⟩, rfl⟩, ?_⟩
  refine ⟨p, _, check_ok_iff.mpr ⟨requirePlayer_ok_iff.mpr hp, rfl⟩, ?_⟩
  refine ⟨(), { t with session := s }, change_ok_iff.mpr rfl, ?_⟩
  refine ⟨(), _, fire_of_silent mine' calm.dealDamage _ _, ?_⟩
  refine ⟨false, _, view_ok_iff.mpr ⟨going', rfl⟩, ?_⟩
  rw [if_neg Bool.false_ne_true]
  refine bind_ok_iff.mpr
    ⟨ctx.later t.session 1, _, view_ok_iff.mpr ⟨now_spent attacker rfl, rfl⟩, ?_⟩
  exact bind_ok_iff.mpr ⟨_, _, update_ok_iff.mpr
    ⟨_, damagePlayer_of_going going' there nonneg _, rfl⟩, change_ok_iff.mpr rfl⟩

/-- The blow of an attack on a player beats the player. -/
theorem beaten_of_blow {s : Session} (playing : s.status = .playing)
    (mine : InPlay ctx.catalog s player attacker c d) (hp : s.player? target = some p) :
    let m := s.spent attacker (attackEntry player d (some (.player target)) p.name (ctx.now s))
    Beaten ctx player target attacker c d p s
      ((m.afterBlow target p d.attack (ctx.later s 1)).record
        (woundEntry player d target p (ctx.later s 1))) := by
  intro m
  have hurt : ((m.afterBlow target p d.attack (ctx.later s 1)).record
      (woundEntry player d target p (ctx.later s 1))).player? target
      = some { p with health := max (p.health - d.attack) 0 } := by
    refine (player?_modifyPlayer_self m _).trans ?_
    rw [show m.player? target = some p from hp]
    rfl
  refine ⟨hurt, ?_, ?_, rfl, ?_, ?_, ?_, rfl, rfl⟩
  · exact fun seat other => player?_modifyPlayer_of_ne m _ other.symm
  · change (if p.health ≤ d.attack then _ else s.status) = _
    rw [playing]
  · exact (mine.spent_self (attackEntry player d (some (.player target)) p.name (ctx.now s))).copy
  · exact fun id other => instance?_modifyInstance_of_ne s _ other.symm
  · intro id
    have hit : (m.modifyPlayer target fun q =>
        { q with health := max (q.health - d.attack) 0 }).zoneOf? id = m.zoneOf? id :=
      zoneOf?_modifyPlayer m fun _ => rfl
    exact hit.trans (zoneOf?_spent s attacker _ id)

/-- Combat in a game that goes on, where no ability listens for damage. -/
theorem combat_of_silent (ctx : Context) (t : Table) (playing : t.session.status = .playing)
    (orderly : t.session.Orderly ctx.catalog) (few : t.session.players.count < Seat.bound)
    (mine : InPlay ctx.catalog t.session player attacker c d) (valid : d.fault? = none)
    (calm : d.Peaceful) :
    (∀ other defender e f, InPlay ctx.catalog t.session other defender e f → other ≠ player →
      f.Peaceful → ∃ t', attackCard ctx attacker defender t = .ok () t' ∧ t'.asked = t.asked ∧
        Exchanged ctx player other attacker defender c e d f t.session t'.session) ∧
    ∀ target p, t.session.player? target = some p →
      ∃ t', attackPlayer ctx attacker target t = .ok () t' ∧ t'.asked = t.asked ∧
        Beaten ctx player target attacker c d p t.session t'.session := by
  have going : t.session.isFinished = false := by
    rw [isFinished_eq_false_iff, playing]
    decide
  have steady : t.session.Steady := ⟨going, orderly.tidy, orderly.alive, few⟩
  have nonneg := CardDefinition.attack_nonneg valid
  have own := (mine.owner steady.tidy).1
  constructor
  · intro other defender e f theirs opposed calm'
    have differ : attacker ≠ defender := by
      rintro rfl
      cases mine.copy.symm.trans theirs.copy
      exact opposed ((theirs.owner steady.tidy).1.symm.trans own)
    exact ⟨_, attackCard_of_silent steady differ mine theirs calm calm', rfl,
      exchanged_of_strikes steady differ mine theirs nonneg⟩
  · intro target p hp
    exact ⟨_, attackPlayer_of_silent going mine own calm nonneg hp, rfl,
      beaten_of_blow playing mine hp⟩

/-- Ann's seer fells Bob's wisp, which strikes back, or hits Bob. -/
theorem showdown_combat :
    let wisp : CardDefinition := .creature ⟨2⟩ "Wisp" 1 1 1
    let seer : CardDefinition := { CardDefinition.creature ⟨3⟩ "Seer" 1 1 2 with
      abilities := [⟨.startTurn, ⟨[.drawCard]⟩, "Foresight"⟩] }
    (showdown.status = .playing ∧ showdown.Orderly arena.catalog ∧
      showdown.players.count < Seat.bound ∧
      InPlay arena.catalog showdown ⟨0⟩ ⟨4⟩ ⟨⟨4⟩, ⟨3⟩, ⟨0⟩, 2, false⟩ seer ∧ seer.fault? = none ∧
      seer.Peaceful) ∧
    (InPlay arena.catalog showdown ⟨1⟩ ⟨2⟩ ⟨⟨2⟩, ⟨2⟩, ⟨1⟩, 1, false⟩ wisp ∧ wisp.Peaceful ∧
      ∃ t', attackCard arena ⟨4⟩ ⟨2⟩ ⟨showdown, []⟩ = .ok () t' ∧
        t'.session.zoneOf? ⟨2⟩ = some .graveyard ∧
        t'.session.instance? ⟨4⟩ = some ⟨⟨4⟩, ⟨3⟩, ⟨0⟩, 1, true⟩) ∧
    ∃ t', attackPlayer arena ⟨4⟩ ⟨1⟩ ⟨showdown, []⟩ = .ok () t' ∧
      (t'.session.player? ⟨1⟩).map (·.health) = some 29 := by
  intro wisp seer
  have few : showdown.players.count < Seat.bound := by decide
  have mine : InPlay arena.catalog showdown ⟨0⟩ ⟨4⟩ ⟨⟨4⟩, ⟨3⟩, ⟨0⟩, 2, false⟩ seer :=
    ⟨by decide, rfl, rfl⟩
  have theirs : InPlay arena.catalog showdown ⟨1⟩ ⟨2⟩ ⟨⟨2⟩, ⟨2⟩, ⟨1⟩, 1, false⟩ wisp :=
    ⟨by decide, rfl, rfl⟩
  have valid : seer.fault? = none := by decide
  have calm : seer.Peaceful := ⟨rfl, rfl⟩
  have calm' : wisp.Peaceful := ⟨rfl, rfl⟩
  obtain ⟨cards, players⟩ :=
    combat_of_silent arena ⟨showdown, []⟩ rfl showdown_orderly few mine valid calm
  obtain ⟨t', struck, -, exchanged⟩ := cards ⟨1⟩ ⟨2⟩ _ wisp theirs (by decide) calm'
  obtain ⟨u, hit, -, beaten⟩ := players ⟨1⟩ _ rfl
  refine ⟨⟨rfl, showdown_orderly, few, mine, valid, calm⟩, ⟨theirs, calm', t', struck, ?_, ?_⟩,
    u, hit, ?_⟩
  · exact exchanged.struckFalls.mpr (by decide)
  · rw [exchanged.answered]
    decide
  · rw [beaten.hit]
    decide

/-- A game in which everyone but Bob has lost already. -/
def lastStand : Session :=
  { showdown with
    players := ⟨[{ Player.ofConfig ⟨0⟩ "Ann" {} with
        health := 0, zones := ⟨[⟨3⟩], [⟨1⟩, ⟨5⟩], [⟨4⟩], []⟩ },
      { Player.ofConfig ⟨1⟩ "Bob" {} with health := 1, zones := ⟨[], [], [⟨2⟩], []⟩ }]⟩ }

/-- Where records are misfiled, a third permanent may fall, or the attacked one may take no damage;
among 256 players nobody falls. A permanent that falls is no longer sapped, and a game in which
nobody is left ends without a winner. -/
theorem mislaid_combat :
    (mislaid.violation? arena.catalog = none ∧ mislaid.Known arena.catalog ∧
      ∃ t', attackCard arena ⟨1⟩ ⟨4⟩ ⟨mislaid, []⟩ = .ok () t' ∧
        ⟨2⟩ ∈ mislaid.battlefield ⟨1⟩ ∧ ⟨2⟩ ∉ t'.session.battlefield ⟨1⟩) ∧
    (estranged.violation? arena.catalog = none ∧ estranged.Known arena.catalog ∧
      ∃ t', attackCard arena ⟨1⟩ ⟨2⟩ ⟨estranged, []⟩ = .ok () t' ∧
        ⟨2⟩ ∈ estranged.battlefield ⟨1⟩ ∧
        t'.session.instance? ⟨2⟩ = estranged.instance? ⟨2⟩) ∧
    (throng.violation? arena.catalog = none ∧ throng.Known arena.catalog ∧
      ∃ t', attackCard arena ⟨1⟩ ⟨2⟩ ⟨throng, []⟩ = .ok () t' ∧
        (t'.session.instance? ⟨2⟩).map (·.health) = some 0 ∧
        t'.session.zoneOf? ⟨2⟩ = some .battlefield) ∧
    (let s := showdown.modifyInstance ⟨2⟩ CardInstance.sap;
      s.violation? arena.catalog = none ∧
      ∃ t', attackCard arena ⟨4⟩ ⟨2⟩ ⟨s, []⟩ = .ok () t' ∧
        (s.instance? ⟨2⟩).map (·.sapped) = some true ∧
        (t'.session.instance? ⟨2⟩).map (·.sapped) = some false) ∧
    lastStand.violation? arena.catalog = none ∧
      ∃ t', attackPlayer arena ⟨4⟩ ⟨1⟩ ⟨lastStand, []⟩ = .ok () t' ∧
        t'.session.isFinished = true ∧ t'.session.winner = none := by
  refine ⟨⟨by decide +kernel, by decide +kernel, _, rfl, ?_⟩,
    ⟨by decide +kernel, by decide +kernel, _, rfl, ?_⟩,
    ⟨by decide +kernel, by decide +kernel, _, rfl, ?_⟩, ⟨by decide +kernel, _, rfl, ?_⟩,
    by decide +kernel, _, rfl, ?_⟩
  all_goals decide +kernel

end Play

end CardBattle
