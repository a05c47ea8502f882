import CardBattle.Proofs.Alterations
import CardBattle.Proofs.Visits

/-!
# Turns that nobody listens to

Where no ability listens for the end of a turn or for the start of the next one, the change of turn
is a fixed change of the session: the next player draws, their permanents are ready and their
creatures regain health, and energy is renewed.
-/

namespace CardBattle

namespace Session

variable {s : Session} {player : Seat}

/-! ### The whole change -/

def upcoming (s : Session) : Seat :=
  ⟨(s.current.index + 1) % s.players.count⟩

def wraps (s : Session) : Bool :=
  decide (s.current.index + 1 = s.players.count)

/-- The turn passes to the upcoming seat, and a round ends where it wraps. -/
theorem nextSeat_current (inside : s.current.index < s.players.count)
    (few : s.players.count ≤ Seat.bound) :
    s.players.nextSeat s.current = (s.upcoming, s.wraps) := by
  rw [SeatMap.nextSeat_eq inside few, upcoming, wraps]
  split
  · rename_i last
    simp [last]
  · rename_i more
    have within : (s.current.index + 1) % s.players.count = s.current.index + 1 :=
      Nat.mod_eq_of_lt (by omega)
    simp [within, more]

def nextTurn (s : Session) : Nat :=
  if s.wraps then s.turn + 1 else s.turn

def endTurnEntry (player : Seat) (name : String) (now : Nat) : LogEntry :=
  { player, action := .endTurn, description := name ++ " ends their turn", timestamp := now }

def startTurnEntry (player : Seat) (turn : Nat) (name : String) (now : Nat) : LogEntry :=
  { player, action := .startTurn
    description := "Turn " ++ toString turn ++ ": " ++ name ++ "'s turn", timestamp := now }

/-- What is added up when the turn passes has the bits of its fields. -/
structure TurnFits (K : Catalog) (config : Config) (s : Session) : Prop where
  turn : s.wraps = true → s.turn + 1 < UInt32.size
  energy : s.wraps = true → ∀ seat p, s.player? seat = some p →
    inWord (p.maxEnergy + config.energyPerRound) = true
  health : ∀ id ∈ s.battlefield s.upcoming, ∀ c d, s.instance? id = some c →
    K.get? c.card = some d → d.kind = .creature → inWord (c.health + config.creatureRegen) = true

/-- What the end of a turn makes of a session in which `p` is to move and `q` comes next. -/
structure TurnPassed (ctx : Context) (p q : Player) (s s' : Session) : Prop where
  rest : s'.bare = { s.bare with current := s.upcoming, turn := s.nextTurn }
  /-- The next player draws. At the start of a round everyone gains energy and is refilled, and at
  other times the next player is. -/
  players : ∀ seat, s'.player? seat = (s.player? seat).map fun p =>
    let p := if seat = s.upcoming then { p with zones := p.zones.drawn } else p
    if s.wraps then p.renewed ctx.config
    else if seat = s.upcoming then { p with energy := p.maxEnergy } else p
  copies : ∀ id, s'.instance? id = (s.instance? id).map fun c =>
    if id ∈ s.battlefield s.upcoming then c.rested ctx.catalog ctx.config.creatureRegen else c
  log : s'.log = s.log ++
    [endTurnEntry s.current p.name (ctx.now s),
      startTurnEntry s.upcoming s.nextTurn q.name (ctx.later s 1),
      drawEntry s.upcoming (drawText q) (ctx.later s 2)]

def passedTo (s : Session) (ctx : Context) (p q : Player) : Session :=
  let ended := s.record (endTurnEntry s.current p.name (ctx.now s))
  { ended with current := s.upcoming, turn := s.nextTurn }.record
    (startTurnEntry s.upcoming s.nextTurn q.name (ctx.later s 1))

/-- The clock has been read twice. -/
theorem now_passedTo (ctx : Context) (p q : Player) :
    ctx.now (s.passedTo ctx p q) = ctx.later s 2 := by
  have told : (s.passedTo ctx p q).log = s.log ++ [endTurnEntry s.current p.name (ctx.now s),
      startTurnEntry s.upcoming s.nextTurn q.name (ctx.later s 1)] :=
    List.append_assoc s.log [_] [_]
  exact ctx.now_of_log told
    (List.forall_mem_cons.mpr ⟨nofun, List.forall_mem_singleton.mpr nofun⟩)

/-- The stages at the start of a turn, one after the other. -/
theorem start_of_turn {ctx : Context} {q : Player} (apart : s.Apart)
    (hq : s.player? player = some q) (valid : ctx.config.fault? = none) {wrapped : Bool}
    (fits : wrapped = true → ∀ seat p, s.player? seat = some p →
      inWord (p.maxEnergy + ctx.config.energyPerRound) = true) (now : Nat) :
    ∃ drawn m s', drawCard player now s = .ok drawn m ∧
      renewEnergy ctx.config player wrapped ((m.refreshBattlefield player).healCreatures
        ctx.catalog player ctx.config.creatureRegen).2 = .ok () s' ∧
      Altered
        (fun seat p =>
          let p := if seat = player then { p with zones := p.zones.drawn } else p
          if wrapped then p.renewed ctx.config
          else if seat = player then { p with energy := p.maxEnergy } else p)
        (fun id c => if id ∈ s.battlefield player
          then c.refresh.mended ctx.catalog ctx.config.creatureRegen else c)
        [drawEntry player (drawText q) now] s s' := by
  obtain ⟨drawn, m, draws, first⟩ := altered_drawCard apart hq now
  have nodup : (s.battlefield player).Nodup := apart.nodup_battlefield player
  have fields : m.battlefield player = s.battlefield player := by
    refine first.battlefield (fun seat p => ?_) player
    split <;> rfl
  have second := altered_refresh (fields.symm ▸ nodup)
  have fields' : (m.refreshBattlefield player).battlefield player = s.battlefield player :=
    (second.battlefield (fun _ _ => rfl) player).trans fields
  have third := altered_healCreatures (K := ctx.catalog) (fields'.symm ▸ nodup)
    ctx.config.creatureRegen
  have upTo := (first.trans second).trans third
  obtain ⟨q', hq'⟩ : ∃ q', ((m.refreshBattlefield player).healCreatures ctx.catalog player
      ctx.config.creatureRegen).2.player? player = some q' := by
    rw [upTo.players, hq]
    exact ⟨_, rfl⟩
  have fits' : wrapped = true → ∀ seat p, ((m.refreshBattlefield player).healCreatures
      ctx.catalog player ctx.config.creatureRegen).2.player? seat = some p →
      inWord (p.maxEnergy + ctx.config.energyPerRound) = true := by
    intro again seat p hp
    rw [upTo.players, Option.map_eq_some_iff] at hp
    obtain ⟨r, hr, rfl⟩ := hp
    have same : (if seat = player then { r with zones := r.zones.drawn } else r).maxEnergy
        = r.maxEnergy := by split <;> rfl
    rw [same]
    exact fits again seat r hr
  obtain ⟨s', renews, last⟩ :=
    altered_renewEnergy (Config.gains_nonneg valid).1 hq' fits'
  have whole := upTo.trans last
  refine ⟨drawn, m, s', draws, renews, whole.rest, whole.players, fun id => ?_, whole.log⟩
  rw [whole.copies]
  congr 1
  funext c
  rw [fields, fields']
  split <;> rfl

end Session

namespace Play

open Session

/-- Nothing happens at an event that no ability listens for. -/
theorem fireAll_of_silent {ctx : Context} {t : Table} {event : TriggerEvent} {player : Seat}
    (silent : ∀ card ∈ t.session.battlefield player, t.session.Silent ctx.catalog event card) :
    fireAll ctx event player t = .ok () t := by
  rw [fireAll, Context.triggerAll_of_silent silent]

/-- Without abilities, the end of a turn comes to the stages at the start of the next one. -/
theorem endTurn_of_stages {ctx : Context} {t : Table} {p q : Player} {s' : Session}
    (playing : t.session.status = .playing) (hp : t.session.player? t.session.current = some p)
    (hq : t.session.player? t.session.upcoming = some q)
    (seats : t.session.players.nextSeat t.session.current = (t.session.upcoming, t.session.wraps))
    (ending : ∀ card ∈ t.session.battlefield t.session.current,
      t.session.Silent ctx.catalog .endTurn card)
    (starting : ∀ card ∈ t.session.battlefield t.session.upcoming,
      t.session.Silent ctx.catalog .startTurn card)
    (counted : t.session.wraps = true → t.session.turn + 1 < UInt32.size)
    {drawn : Option InstanceId} {m : Session}
    (draws : drawCard t.session.upcoming (ctx.later t.session 2) (t.session.passedTo ctx p q)
      = .ok drawn m)
    (renews : renewEnergy ctx.config t.session.upcoming t.session.wraps
      ((m.refreshBattlefield t.session.upcoming).healCreatures ctx.catalog t.session.upcoming
        ctx.config.creatureRegen).2 = .ok () s') :
    endTurn ctx t = .ok () { t with session := s' } := by
  let ended := t.session.record (endTurnEntry t.session.current p.name (ctx.now t.session))
  have going : t.session.isFinished = false := by
    rw [isFinished_eq_false_iff, playing]
    decide
  have quiet : fireAll ctx .endTurn t.session.current { t with session := ended }
      = .ok () { t with session := ended } := by
    exact fireAll_of_silent ending
  have quiet' : fireAll ctx .startTurn t.session.upcoming
      { t with session := t.session.passedTo ctx p q }
      = .ok () { t with session := t.session.passedTo ctx p q } := by
    exact fireAll_of_silent starting
  have again : ctx.now ended = ctx.later t.session 1 := ctx.now_record nofun
  have number : (if t.session.wraps then nextCount ended.turn else ended.turn)
      = t.session.nextTurn := by
    rw [nextTurn]
    split
    · exact nextCount_of_lt (counted ‹_›)
    · rfl
  have passes : passTurn (ctx.later t.session 1) ended
      = .ok (t.session.upcoming, t.session.wraps) (t.session.passedTo ctx p q) :=
    passTurn_ok_iff.mpr ⟨q, hq, seats.symm, by rw [number]; rfl⟩
  simp only [endTurn, bind_ok_iff]
  refine ⟨(), t, check_ok_iff.mpr ⟨requireStatus_ok_iff.mpr playing, rfl⟩, ?_⟩
  refine ⟨_, t, view_ok_iff.mpr ⟨rfl, rfl⟩, ?_⟩
  refine ⟨p, t, check_ok_iff.mpr ⟨requirePlayer_ok_iff.mpr hp, rfl⟩, ?_⟩
  refine ⟨(), _, change_ok_iff.mpr rfl, (), _, quiet, ?_⟩
  refine ⟨false, _, view_ok_iff.mpr ⟨going, rfl⟩, ?_⟩
  rw [if_neg Bool.false_ne_true]
  refine bind_ok_iff.mpr ⟨_, _, view_ok_iff.mpr ⟨again, rfl⟩, ?_⟩
  refine bind_ok_iff.mpr ⟨_, _, update_ok_iff.mpr ⟨_, passes, rfl⟩, ?_⟩
  refine bind_ok_iff.mpr ⟨(), _, quiet', bind_ok_iff.mpr ⟨false, _,
    view_ok_iff.mpr ⟨going, rfl⟩, ?_⟩⟩
  rw [if_neg Bool.false_ne_true]
  refine bind_ok_iff.mpr ⟨_, _, view_ok_iff.mpr ⟨now_passedTo ctx p q, rfl⟩, ?_⟩
  refine bind_ok_iff.mpr ⟨drawn, _, update_ok_iff.mpr ⟨m, draws, rfl⟩, ?_⟩
  refine bind_ok_iff.mpr ⟨(), _, change_ok_iff.mpr rfl, ?_⟩
  refine bind_ok_iff.mpr ⟨(), _, change_ok_iff.mpr rfl, ?_⟩
  exact update_ok_iff.mpr ⟨s', renews, rfl⟩

/-- The end of a turn, where no ability listens for it or for the start of the next one. -/
theorem endTurn_of_silent (ctx : Context) (t : Table) (playing : t.session.status = .playing)
    (orderly : t.session.Orderly ctx.catalog) (few : t.session.players.count ≤ Seat.bound)
    (valid : ctx.config.fault? = none) (fits : t.session.TurnFits ctx.catalog ctx.config)
    (ending : ∀ card ∈ t.session.battlefield t.session.current,
      t.session.Silent ctx.catalog .endTurn card)
    (starting : ∀ card ∈ t.session.battlefield t.session.upcoming,
      t.session.Silent ctx.catalog .startTurn card) :
    ∃ p q t', t.session.player? t.session.current = some p ∧
      t.session.player? t.session.upcoming = some q ∧ endTurn ctx t = .ok () t' ∧
      t'.asked = t.asked ∧ TurnPassed ctx p q t.session t'.session := by
  obtain ⟨p, hp⟩ : ∃ p, t.session.player? t.session.current = some p := by
    obtain ⟨-, -, -, active⟩ := violation?_eq_none.mp orderly.accepted
    exact turnViolation?_eq_none_iff.mp active playing
  have inside := index_lt_of_player? hp
  have seats := nextSeat_current inside few
  obtain ⟨q, hq⟩ : ∃ q, t.session.player? t.session.upcoming = some q := by
    have present := present_next inside
    rwa [seats] at present
  have tidy := orderly.tidy
  have apart : (t.session.passedTo ctx p q).Apart := tidy.apart
  obtain ⟨drawn, m, s', draws, renews, altered⟩ :=
    start_of_turn apart hq valid fits.energy (ctx.later t.session 2)
  refine ⟨p, q, _, hp, hq,
    endTurn_of_stages playing hp hq seats ending starting fits.turn draws renews, rfl, altered.rest,
    altered.players, fun id => ?_, ?_⟩
  · have fields : (t.session.passedTo ctx p q).battlefield t.session.upcoming
        = t.session.battlefield t.session.upcoming := rfl
    have here : (t.session.passedTo ctx p q).instance? id = t.session.instance? id := rfl
    rw [altered.copies, here, fields]
    refine Option.map_congr fun c hc => ?_
    split
    · rename_i listed
      obtain ⟨c', hc', -, inPlay⟩ := tidy.of_mem_battlefield listed
      cases hc.symm.trans hc'
      obtain ⟨d, hd⟩ := orderly.known id c hc
      exact CardInstance.mended_refresh hd (orderly.permanent hc hd inPlay).2.2
        (Config.gains_nonneg valid).2 (fits.health id listed c d hc hd)
    · rfl
  · rw [altered.log]
    change (t.session.log ++ [_] ++ [_]) ++ _ = _
    rw [List.append_assoc, List.append_assoc]
    rfl

/-- Bob's turn after Ann's, with nothing to draw, and his wisp is ready. -/
theorem showdown_passes :
    (showdown.status = .playing ∧ showdown.Orderly arena.catalog ∧
      showdown.players.count ≤ Seat.bound ∧ arena.config.fault? = none ∧
      showdown.TurnFits arena.catalog arena.config ∧
      (∀ card ∈ showdown.battlefield showdown.current,
        showdown.Silent arena.catalog .endTurn card) ∧
      ∀ card ∈ showdown.battlefield showdown.upcoming,
        showdown.Silent arena.catalog .startTurn card) ∧
    ∃ t', endTurn arena ⟨showdown, []⟩ = .ok () t' ∧
      t'.session.instance? ⟨2⟩ = some ⟨⟨2⟩, ⟨2⟩, ⟨1⟩, 1, false⟩ ∧
      (t'.session.player? ⟨1⟩).map (·.energy) = some 1 ∧
      t'.session.log.map (·.description)
        = ["Ann ends their turn", "Turn 1: Bob's turn", "Bob's deck is empty"] := by
  have few : showdown.players.count ≤ Seat.bound := by decide
  have ending : ∀ card ∈ showdown.battlefield showdown.current,
      showdown.Silent arena.catalog .endTurn card := by decide +kernel
  have starting : ∀ card ∈ showdown.battlefield showdown.upcoming,
      showdown.Silent arena.catalog .startTurn card := by decide +kernel
  have fits : showdown.TurnFits arena.catalog arena.config := by
    refine ⟨nofun, nofun, fun id mem c d hc _ _ => ?_⟩
    cases List.mem_singleton.mp mem
    cases hc
    decide
  obtain ⟨p, q, t', hp, hq, ended, -, passed⟩ := endTurn_of_silent arena ⟨showdown, []⟩ rfl
    showdown_orderly few rfl fits ending starting
  cases hp
  cases hq
  refine ⟨⟨rfl, showdown_orderly, few, rfl, fits, ending, starting⟩, t', ended, ?_, ?_, ?_⟩
  · rw [passed.copies]
    decide +kernel
  · rw [passed.players]
    decide +kernel
  · rw [passed.log]
    decide +kernel

/-- With 257 seats, seat 255 is followed by seat 0 and not by the last one. -/
def horde : Session :=
  { showdown with
    players := ⟨List.replicate 257 (Player.ofConfig ⟨1⟩ "Bob" {})⟩
    instances := .empty
    current := ⟨255⟩ }

def lull : Session :=
  { showdown with
    players := ⟨[Player.ofConfig ⟨0⟩ "Ann" {}, Player.ofConfig ⟨1⟩ "Bob" {}]⟩
    instances := .empty
    current := ⟨1⟩ }

/-- Where records are misfiled, nobody asks for the health of a permanent, and a creature above the
health of its definition keeps it. Among 257 players the turn does not reach the last one. Energy
that grows by too much does not grow at all. -/
theorem estranged_passes :
    (estranged.violation? arena.catalog = none ∧ estranged.Known arena.catalog ∧
      ∃ t', endTurn arena ⟨estranged, []⟩ = .ok () t' ∧
        ⟨2⟩ ∈ estranged.battlefield ⟨1⟩ ∧
        (estranged.instance? ⟨2⟩).map (·.health) = some 5 ∧
        (t'.session.instance? ⟨2⟩).map (·.health) = some 5) ∧
    (let s := mislaid.modifyInstance ⟨2⟩ fun c => { c with card := ⟨2⟩, health := 2 };
      s.violation? arena.catalog = none ∧ s.Known arena.catalog ∧
      ∃ t', endTurn arena ⟨s, []⟩ = .ok () t' ∧ ⟨2⟩ ∈ s.battlefield ⟨1⟩ ∧
        (s.instance? ⟨2⟩).map (·.health) = some 2 ∧
        (t'.session.instance? ⟨2⟩).map (·.health) = some 2) ∧
    (horde.violation? arena.catalog = none ∧
      (do endTurn arena; view fun s => (s.current, s.turn)).run' ⟨horde, []⟩
        = some (⟨0⟩, horde.turn)) ∧
    (let greedy : Context := { arena with config := { energyPerRound := 9223372036854775807 } };
      lull.violation? greedy.catalog = none ∧ greedy.config.fault? = none ∧
      (do endTurn greedy; view fun s => (s.player? ⟨0⟩).map Player.maxEnergy).run' ⟨lull, []⟩
        = some (some 1)) := by
  refine ⟨⟨by decide +kernel, by decide +kernel, _, rfl, ?_⟩,
    ⟨by decide +kernel, by decide +kernel, _, rfl, ?_⟩, ?_, ?_⟩
  all_goals decide +kernel

end Play

end CardBattle
