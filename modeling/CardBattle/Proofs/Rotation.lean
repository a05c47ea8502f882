import CardBattle.Proofs.AcceptedCalls
import CardBattle.Proofs.Seating
import CardBattle.Proofs.WellFormed

/-!
# The rotation of turns

The number of turns that have ended tells whose turn it is, which round is played, and how much
energy a round gives, as long as the gain of a round added to the greatest energy is a word. Play
passes from seat to seat whatever happens within the turns, and a turn can always be ended by the
player whose turn it is.
-/

namespace CardBattle

open Relation

def Call.endsTurn : Call → Bool
  | .endTurn _ => true
  | _ => false

def turnsEnded (deeds : List Deed) : Nat :=
  deeds.countP fun d => d.call.endsTurn

/-- The greatest energy that the settings intend after a number of rounds. -/
def Config.curve (config : Config) (rounds : Nat) : Int :=
  min config.maxEnergyCap (config.startingEnergy + config.energyPerRound * rounds)

/-- The sums by which the greatest energy grows in some rounds are words. -/
def Config.Grows (config : Config) (rounds : Nat) : Prop :=
  ∀ n < rounds, inWord (config.curve n + config.energyPerRound) = true

instance {config : Config} {rounds : Nat} : Decidable (config.Grows rounds) :=
  inferInstanceAs (Decidable (∀ n < rounds, inWord (config.curve n + config.energyPerRound) = true))

/-- The rounds that are over after a number of turns. -/
def Session.rounds (s : Session) (ended : Nat) : Nat :=
  (s.starting.index + ended) / s.players.count

/-- Turn, round and energy after a number of turns. Seats are passed in order from the starting
seat on, a round ends with the last seat, and all players gain energy with each round but the
first. -/
structure Session.Rotation (config : Config) (ended : Nat) (s : Session) : Prop where
  current : s.current.index = (s.starting.index + ended) % s.players.count
  turn : s.turn = (1 + s.rounds ended) % UInt32.size
  maxEnergy : config.Grows (s.rounds ended) → ∀ seat p, s.player? seat = some p →
    p.maxEnergy = config.curve (s.rounds ended)

/-! ### Counting seats -/

/-- With the last seat of a round the next round begins at seat 0. -/
theorem succ_div_mod (n passed : Nat) (positive : 0 < n) :
    ((passed + 1) / n, (passed + 1) % n) = if passed % n + 1 = n then (passed / n + 1, 0)
      else (passed / n, passed % n + 1) := by
  have split := Nat.mod_add_div passed n
  have inside := Nat.mod_lt passed positive
  split_ifs with last
  · have whole : 0 + n * (passed / n + 1) = passed + 1 := by
      rw [Nat.mul_add]
      omega
    obtain ⟨rounds, rest⟩ := (Nat.div_mod_unique positive).mpr ⟨whole, positive⟩
    rw [rounds, rest]
  · have whole : passed % n + 1 + n * (passed / n) = passed + 1 := by omega
    obtain ⟨rounds, rest⟩ := (Nat.div_mod_unique positive).mpr ⟨whole, by omega⟩
    rw [rounds, rest]

/-- The greatest energy follows its curve from one round to the next, while sums are words. -/
theorem Player.maxEnergy_raise {p : Player} {config : Config} {rounds : Nat}
    (h : p.maxEnergy = config.curve rounds) (nonneg : 0 ≤ config.energyPerRound)
    (word : inWord (config.curve rounds + config.energyPerRound) = true) :
    (p.raiseMaxEnergy config.energyPerRound config.maxEnergyCap).maxEnergy
      = config.curve (rounds + 1) := by
  have sum : increased p.maxEnergy config.energyPerRound
      = config.curve rounds + config.energyPerRound := by
    rw [increased, h, Int.max_eq_left nonneg]
  simp only [raiseMaxEnergy]
  rw [sum, toWord_of_inWord word, h]
  simp only [Config.curve]
  push_cast
  rw [Int.mul_add]
  omega

/-- A counter that starts again at its size counts modulo its size. -/
theorem nextCount_mod (n : Nat) : nextCount (n % UInt32.size) = (n + 1) % UInt32.size := by
  rw [nextCount, Nat.mod_add_mod]

namespace Session

variable {config : Config} {K : Catalog} {s s' : Session} {starting : Seat} {ended : Nat}

/-- What the rotation is about stays the same within a turn. -/
theorem Rotation.of_frame (h : s.Rotation config ended) (same : SameTurn s s')
    (count : s'.players.count = s.players.count) (keeps : Keeps (·.maxEnergy) s s') :
    s'.Rotation config ended where
  current := by rw [same.current, same.starting, count, h.current]
  turn := by rw [same.turn, rounds, same.starting, count, h.turn, rounds]
  maxEnergy := by
    have rounds : s'.rounds ended = s.rounds ended := by
      rw [Session.rounds, same.starting, count, Session.rounds]
    intro grows seat q hq
    obtain ⟨p, hp, eq⟩ := keeps seat q hq
    rw [rounds] at grows ⊢
    exact eq.trans (h.maxEnergy grows seat p hp)

/-- No step within a turn changes turn, round or greatest energy. -/
theorem Rotation.steps (h : s.Rotation config ended) (housed : s.Housed) (steps : Steps K s s') :
    s'.Rotation config ended :=
  h.of_frame (steps.sameTurn housed) (steps.continues housed).count
    (steps.keeps (fun _ _ _ _ => rfl) housed)

/-- Energy can be renewed for every player there is. -/
theorem renewEnergy_succeeds {player : Seat} {p : Player} (config : Config) (wrapped : Bool)
    (hp : s.player? player = some p) : ∃ s', renewEnergy config player wrapped s = .ok () s' := by
  cases wrapped with
  | true => exact ⟨_, renewEnergy_ok_iff.mpr (Or.inl ⟨rfl, rfl⟩)⟩
  | false => exact ⟨_, renewEnergy_ok_iff.mpr (Or.inr ⟨rfl, ⟨p, hp⟩, rfl⟩)⟩

/-- The greatest energy of every player after a renewal. -/
theorem of_renewEnergy {player : Seat} {wrapped : Bool}
    (h : renewEnergy config player wrapped s = .ok () s') :
    s'.players.count = s.players.count ∧ ∀ seat q, s'.player? seat = some q →
      ∃ p, s.player? seat = some p ∧ q.maxEnergy = if wrapped then
        (p.raiseMaxEnergy config.energyPerRound config.maxEnergyCap).maxEnergy
      else p.maxEnergy := by
  rcases renewEnergy_ok_iff.mp h with ⟨rfl, rfl⟩ | ⟨rfl, -, rfl⟩
  · refine ⟨by simp [SeatMap.map, SeatMap.count], ?_⟩
    intro seat q hq
    rw [player?_map] at hq
    obtain ⟨p, hp, rfl⟩ := Option.map_eq_some_iff.mp hq
    exact ⟨p, hp, rfl⟩
  · have keeps : Keeps (·.maxEnergy) s (s.modifyPlayer player Player.restoreEnergy) :=
      .modifyPlayer fun _ _ => rfl
    exact ⟨count_modifyPlayer _ _, keeps⟩

/-- The turn is passed, and after some steps energy is renewed. -/
theorem Rotation.next {s₁ s₂ : Session} {next : Seat × Bool} {now : Nat}
    (h : s.Rotation config ended) (inside : s.current.index < s.players.count)
    (few : s.players.count < Seat.bound) (nonneg : 0 ≤ config.energyPerRound)
    (passed : passTurn now s = .ok next s₁) (same : SameTurn s₁ s₂)
    (count : s₂.players.count = s₁.players.count) (keeps : Keeps (·.maxEnergy) s₁ s₂)
    (renewed : renewEnergy config next.1 next.2 s₂ = .ok () s') :
    s'.Rotation config (ended + 1) := by
  obtain ⟨p, -, next_eq, rfl⟩ := passTurn_ok_iff.mp passed
  obtain ⟨count', players⟩ := of_renewEnergy renewed
  replace same := same.trans (sameTurn_renewEnergy renewed)
  have starting : s'.starting = s.starting := same.starting
  have current : s'.current = next.1 := same.current
  have turn : s'.turn = if next.2 then nextCount s.turn else s.turn := same.turn
  replace count : s'.players.count = s.players.count := count'.trans count
  have curve : config.Grows (s.rounds ended) → ∀ seat q, s'.player? seat = some q →
      ∃ p : Player, p.maxEnergy = config.curve (s.rounds ended) ∧ q.maxEnergy = if next.2 then
        (p.raiseMaxEnergy config.energyPerRound config.maxEnergyCap).maxEnergy
      else p.maxEnergy := by
    intro grows seat q hq
    obtain ⟨p, hp, eq⟩ := players seat q hq
    obtain ⟨r, hr, eq'⟩ := keeps seat p hp
    exact ⟨p, eq'.trans (h.maxEnergy grows seat r hr), eq⟩
  have numbers := succ_div_mod s.players.count (s.starting.index + ended) (by omega)
  rw [SeatMap.nextSeat_eq inside (Nat.le_of_lt few), h.current] at next_eq
  rw [Nat.add_assoc] at numbers
  split_ifs at numbers next_eq with last
  · obtain ⟨more, first⟩ := Prod.mk.inj numbers
    have rounds : s'.rounds (ended + 1) = s.rounds ended + 1 := by
      rw [Session.rounds, starting, count, more, Session.rounds]
    subst next_eq
    refine ⟨?_, ?_, ?_⟩
    · rw [starting, count, first, current]
    · rw [rounds, turn, if_pos rfl, h.turn, nextCount_mod, Nat.add_assoc]
    · intro grows seat q hq
      rw [rounds] at grows ⊢
      obtain ⟨p, before, raised⟩ := curve (fun n less => grows n (by omega)) seat q hq
      rw [raised, if_pos rfl]
      exact Player.maxEnergy_raise before nonneg (grows _ (Nat.lt_succ_self _))
  · obtain ⟨same, inner⟩ := Prod.mk.inj numbers
    have rounds : s'.rounds (ended + 1) = s.rounds ended := by
      rw [Session.rounds, starting, count, same, Session.rounds]
    subst next_eq
    refine ⟨?_, ?_, ?_⟩
    · rw [starting, count, inner, current]
    · rw [rounds, turn, if_neg Bool.false_ne_true, h.turn]
    · intro grows seat q hq
      rw [rounds] at grows ⊢
      obtain ⟨p, before, kept⟩ := curve grows seat q hq
      rw [kept, if_neg Bool.false_ne_true, before]

theorem Annotates.rotation (h : Annotates s s') (before : s.Rotation config ended) :
    s'.Rotation config ended where
  current := by
    rw [h.rest]
    exact before.current
  turn := by
    rw [h.rest]
    exact before.turn
  maxEnergy := by
    rw [h.rest]
    exact before.maxEnergy

/-- At the start of a game no turn has ended. -/
theorem Opened.rotation (h : Opened K starting s s') (waiting : s.Waiting config)
    (valid : config.fault? = none) : s'.Rotation config 0 := by
  obtain ⟨q, hq⟩ := h.seated
  have inside : starting.index < s'.players.count := index_lt_of_player? hq
  have none : s'.rounds 0 = 0 := by
    rw [Session.rounds, h.starting, Nat.add_zero, Nat.div_eq_of_lt inside]
  refine ⟨?_, ?_, ?_⟩
  · rw [h.current, h.starting, Nat.add_zero, Nat.mod_eq_of_lt inside]
  · rw [h.turn, none]
    rfl
  · intro _ seat q hq
    obtain ⟨-, -, cap, -⟩ := Config.fault?_eq_none_iff.mp valid
    obtain ⟨p, hp, eq⟩ := h.player?_before hq
    have untouched := (waiting.players seat p hp).maxEnergy
    rw [none, eq]
    simp only [untouched, Config.curve]
    omega

end Session

namespace Play

open Session

variable {K : Catalog} {ctx : Context} {t t' : Table} {player : Seat} {u : Unit} {ended : Nat}

/-- Where the game goes on, the end of a turn passes it to the next seat, and a new round brings
energy. -/
theorem endTurn_rotates (known : ctx.catalog.Within K) (housed : t.session.Housed)
    (active : t.session.players.contains t.session.current = true)
    (nonneg : 0 ≤ ctx.config.energyPerRound) (h : endTurn ctx t = .ok u t')
    (goesOn : t'.session.status ≠ .finished) (before : t.session.Rotation ctx.config ended) :
    t'.session.Rotation ctx.config (ended + 1) := by
  obtain ⟨-, s₁, first, stops | ⟨-, next, s₂, s₃, passed, second, rest⟩⟩ := endTurn_parts known h
  · exact absurd (stops.2 ▸ stops.1) goesOn
  obtain stops | ⟨going, drawn, s₄, s₅, draws, healed, renewed⟩ := rest
  · exact absurd (stops.2 ▸ stops.1) goesOn
  have housed₁ := (first.continues housed).housed housed
  have active₁ : s₁.players.contains s₁.current = true := by
    rw [SeatMap.contains_iff, (first.continues housed).count, (first.sameTurn housed).current,
      ← SeatMap.contains_iff]
    exact active
  have housed₂ := (continues_passTurn (K := K) passed).housed housed₁
  have later : Steps K s₂ s₄ := second.tail (.change (.draw going draws))
  obtain ⟨same, players⟩ : SameTurn s₄ s₅ ∧ s₅.players = s₄.players := by
    rw [healed, healCreatures_rest, refreshBattlefield_rest]
    exact ⟨⟨rfl, rfl, rfl, rfl, rfl⟩, rfl⟩
  refine (before.steps housed first).next ((SeatMap.contains_iff _ _).mp active₁) housed₁.few nonneg
    passed ((later.sameTurn housed₂).trans same) ?_ ?_ renewed
  · rw [players]
    exact (later.continues housed₂).count
  · exact (later.keeps (fun _ _ _ _ => rfl) housed₂).trans (.of_players players)

/-- No step of the end of a turn can fail, since abilities leave everyone at the table. -/
theorem endTurn_succeeds (playing : t.session.status = .playing)
    (active : t.session.players.contains t.session.current = true) :
    ∃ t', endTurn ctx t = .ok () t' := by
  have known : ctx.catalog.Within ctx.catalog := .refl _
  obtain ⟨p, hp⟩ := contains_iff_player?.mp active
  obtain ⟨t₁, fired⟩ : ∃ t₁, fireAll ctx .endTurn t.session.current { t with
      session := t.session.record
        { player := t.session.current, action := .endTurn
          description := p.name ++ " ends their turn"
          timestamp := ctx.now t.session } } = .ok () t₁ :=
    ⟨_, fireAll_ok_iff.mpr rfl⟩
  have first : Motions ctx.catalog t.session t₁.session :=
    (motions_note _ rfl).trans (fireAll_steps known fired).motions
  have inside : t₁.session.current.index < t₁.session.players.count := by
    rw [first.sameTurn.current, first.sameSeats.count]
    exact (SeatMap.contains_iff _ _).mp active
  simp only [endTurn, exists_bind_ok_iff]
  refine ⟨(), t, check_ok_iff.mpr ⟨requireStatus_ok_iff.mpr playing, rfl⟩, ?_⟩
  refine ⟨_, t, view_ok_iff.mpr ⟨rfl, rfl⟩, ?_⟩
  refine ⟨p, t, check_ok_iff.mpr ⟨requirePlayer_ok_iff.mpr hp, rfl⟩, ?_⟩
  refine ⟨(), _, change_ok_iff.mpr rfl, (), t₁, fired, _, t₁, view_ok_iff.mpr ⟨rfl, rfl⟩, ?_⟩
  split
  · exact ⟨_, rfl⟩
  obtain ⟨q, hq⟩ := present_next inside
  generalize nextSeat : t₁.session.players.nextSeat t₁.session.current = next at hq
  obtain ⟨s₂, passed⟩ : ∃ s₂, passTurn (ctx.now t₁.session) t₁.session = .ok next s₂ :=
    ⟨_, passTurn_ok_iff.mpr ⟨q, hq, nextSeat.symm, rfl⟩⟩
  obtain ⟨t₂, fired'⟩ : ∃ t₂, fireAll ctx .startTurn next.1 { t₁ with session := s₂ }
      = .ok () t₂ := ⟨_, fireAll_ok_iff.mpr rfl⟩
  have second : SameSeats t₁.session s₂ := by
    obtain ⟨_, -, -, rfl⟩ := passTurn_ok_iff.mp passed
    exact ⟨rfl, rfl⟩
  have third : SameSeats s₂ t₂.session := (fireAll_steps known fired').motions.sameSeats
  obtain ⟨r, hr⟩ := (second.trans third).present hq
  simp only [exists_bind_ok_iff]
  refine ⟨_, t₁, view_ok_iff.mpr ⟨rfl, rfl⟩, next, _, update_ok_iff.mpr ⟨s₂, passed, rfl⟩, ?_⟩
  refine ⟨(), t₂, fired', _, t₂, view_ok_iff.mpr ⟨rfl, rfl⟩, ?_⟩
  split
  · exact ⟨_, rfl⟩
  obtain ⟨drawn, s₃, draws⟩ := drawCard_succeeds (ctx.now t₂.session) hr
  simp only [exists_bind_ok_iff]
  refine ⟨_, t₂, view_ok_iff.mpr ⟨rfl, rfl⟩, drawn, _, update_ok_iff.mpr ⟨s₃, draws, rfl⟩, ?_⟩
  refine ⟨(), _, change_ok_iff.mpr rfl, (), _, change_ok_iff.mpr rfl, ?_⟩
  obtain ⟨v, hv, -⟩ := (dealing_drawCard _ _ _ _ _ draws).present hr
  have present : ((s₃.refreshBattlefield next.1).healCreatures ctx.catalog next.1
      ctx.config.creatureRegen).2.player? next.1 = some v := by
    rw [healCreatures_rest, refreshBattlefield_rest]
    exact hv
  obtain ⟨s₄, renewed⟩ := renewEnergy_succeeds ctx.config next.2 present
  exact ⟨_, update_ok_iff.mpr ⟨s₄, renewed, rfl⟩⟩

/-- The turn can be ended by the current player of a game that is played, and by nobody else. -/
theorem endTurnOf_ok_iff (active : t.session.players.contains t.session.current = true) :
    (∃ t', endTurnOf ctx player t = .ok () t') ↔
      t.session.status = .playing ∧ t.session.current = player := by
  simp only [endTurnOf, exists_bind_ok_iff, check_ok_iff, requireTurn_ok_iff]
  constructor
  · rintro ⟨_, _, ⟨⟨playing, -, mine⟩, rfl⟩, -⟩
    exact ⟨playing, mine⟩
  · rintro ⟨playing, rfl⟩
    exact ⟨(), t, ⟨⟨playing, contains_iff_player?.mp active, rfl⟩, rfl⟩,
      endTurn_succeeds playing active⟩

end Play

namespace Session

variable {config : Config} {K : Catalog} {s s' : Session} {deeds : List Deed} {d : Deed}

/-- What the number of turns ended so far tells about a document. -/
structure Turns (config : Config) (deeds : List Deed) (s : Session) : Prop where
  before : s.status = .waiting → turnsEnded deeds = 0
  during : s.status = .playing → s.Rotation config (turnsEnded deeds)

/-- A new document has seen no turn. -/
theorem Born.turns (definitions : K.Sound) (h : Born config K s) : s.Turns config [] := by
  have valid := h.fault?
  refine ⟨fun _ => rfl, fun playing => ?_⟩
  cases h with
  | named names made =>
    rw [(waiting_ofNames made).status] at playing
    cases playing
  | replayed previous fresh starting ctx asked asked' known made starts =>
    have waiting := (waiting_rematch made).2.1
    exact (Play.opened_of_startGame known definitions.filed waiting starts).rotation waiting valid

/-- Failures do not count as turns. -/
theorem Turns.annotated (h : s.Turns config deeds) (annotates : s.Annotates s') :
    s'.Turns config deeds where
  before := fun waiting => h.before (annotates.status ▸ waiting)
  during := fun playing => annotates.rotation (h.during (annotates.status ▸ playing))

theorem turnsEnded_concat : turnsEnded (deeds ++ [d])
    = turnsEnded deeds + if d.call.endsTurn then 1 else 0 := by
  rw [turnsEnded, List.countP_append, List.countP_singleton]
  rfl

/-- Every deed takes the rotation along. -/
theorem Turns.done (definitions : K.Sound) (reachable : Reachable config K d.before)
    (h : d.before.Turns config deeds) (done : d.Done config K) :
    d.after.Turns config (deeds ++ [d]) := by
  obtain ⟨ctx, asked, asked', m, rfl, known, other, ran, after⟩ := done
  rw [after]
  refine Turns.annotated ?_ (.revision m _)
  have housed := reachable.housed definitions
  by_cases deck : ∃ player cards, d.call = .startWithDeck player cards
  · obtain ⟨player, cards, handsIn⟩ := deck
    rw [handsIn] at ran
    have waiting := reachable.waiting definitions (Call.waiting_of_play ran)
    have none : turnsEnded (deeds ++ [d]) = 0 := by
      rw [turnsEnded_concat, handsIn, h.before waiting.status]
      rfl
    rcases (Call.effect_of_play known (by simp) ran).of_waiting definitions waiting with
      waiting' | ⟨m₁, waiting', opened⟩
    · refine ⟨fun _ => none, fun playing => ?_⟩
      cases playing.symm.trans waiting'.status
    · refine ⟨fun _ => none, fun _ => ?_⟩
      rw [none]
      exact opened.rotation waiting' reachable.fault?
  · have playing : d.before.status = .playing :=
      Call.playing_of_play known other (fun player cards same => deck ⟨player, cards, same⟩) ran
    have begun : d.before.status ≠ .waiting := by
      rw [playing]
      decide
    obtain ⟨-, stages⟩ := (Call.effect_of_play known other ran).of_begun begun
    refine ⟨fun waiting => absurd waiting (Stages.begun housed begun stages).2, fun goesOn => ?_⟩
    have rotation := h.during playing
    rw [turnsEnded_concat]
    cases call : d.call with
    | endTurn player =>
      rw [call] at ran
      obtain ⟨_, _, checked, ended⟩ := bind_ok_iff.mp ran
      obtain ⟨-, rfl⟩ := Play.check_ok_iff.mp checked
      obtain ⟨-, ⟨-, gain, -⟩, -⟩ := Config.fault?_eq_none_iff.mp reachable.fault?
      refine Play.endTurn_rotates known housed (reachable.active definitions) gain ended ?_ rotation
      rw [goesOn]
      decide
    | _ =>
      rw [call] at ran
      exact rotation.steps housed (Call.steps_of_play known playing (by simp) ran)

end Session

namespace Site

variable {config : Config} {site : Site} {id : SessionId} {s : Session}

/-- In every game that is played, the number of turns ended so far tells whose turn it is, which
round is played, and how much energy everyone may have. Whoever asks, with whatever engine, the
current player of a game that is played can end the turn, and nobody else can. -/
theorem turns_rotate (new : site.New config) (moves : List Move) (follows : site.Follows id)
    (found : (site.run moves).world.documents.find? id = some s) :
    (s.status = .playing → s.Rotation config (turnsEnded (site.deeds id moves))) ∧
      ∀ (e : Engine) (w : World) (player : Seat) (catalog : Catalog),
        w.documents.find? e.document = some s → (e.loadCatalog s [] w).1 = .ok catalog →
          ((e.perform (.endTurn player) w).1 = .accepted ↔
            s.status = .playing ∧ s.current = player) := by
  have definitions := new.definitions moves
  have reachable := new.reachable moves follows (Catalog.Within.refl _) found
  constructor
  · have turns := new.deeds_induct (P := Session.Turns config) follows
      (fun s born => born.turns definitions)
      (fun _ _ _ _ turns annotates => turns.annotated annotates)
      (fun _ _ reachable turns done => turns.done definitions reachable done)
      moves (Catalog.Within.refl _) found
    exact turns.during
  · intro e w player catalog found loaded
    have succeeds : (∃ t, Play.endTurnOf (e.context catalog w) player ⟨s, w.asked⟩ = .ok () t) ↔
        s.status = .playing ∧ s.current = player :=
      Play.endTurnOf_ok_iff (reachable.active definitions)
    rw [Engine.perform_accepted_iff found (by simp), ← succeeds]
    constructor
    · rintro ⟨s', catalog', t, loaded', ran, -⟩
      cases loaded.symm.trans loaded'
      exact ⟨t, ran⟩
    · rintro ⟨t, ran⟩
      exact ⟨t.session, catalog, t, loaded, ran, rfl⟩

def standoff : List Move :=
  [.call (.startWithDeck ⟨0⟩ [⟨1⟩]), .call (.startWithDeck ⟨1⟩ [⟨1⟩]), .call (.endTurn ⟨0⟩),
    .call (.endTurn ⟨1⟩), .call (.endTurn ⟨1⟩), .call (.endTurn ⟨0⟩)]

theorem standoff_rotates : ∃ s, (duel.run standoff).world.documents.find? ⟨1⟩ = some s ∧
    s.status = .playing ∧ s.Rotation { startingHealth := 2 } 3 ∧
    (∀ p, s.player? ⟨0⟩ = some p → p.maxEnergy = 2) ∧
    ((duel.run standoff).engine.perform (.endTurn ⟨1⟩) (duel.run standoff).world).1
      = .accepted := by
  have run : ((duel.run standoff).world.documents.find? ⟨1⟩).map (fun s =>
      (s.status, s.current, s.rounds 3,
        ((duel.run standoff).engine.loadCatalog s [] (duel.run standoff).world).1.toOption.isSome,
        turnsEnded (duel.deeds ⟨1⟩ standoff))) = some (.playing, ⟨1⟩, 1, true, 3) := by
    decide +kernel
  obtain ⟨s, found, run⟩ := Option.map_eq_some_iff.mp run
  obtain ⟨playing, current, round, loads, three⟩ :
      s.status = .playing ∧ s.current = ⟨1⟩ ∧ s.rounds 3 = 1 ∧
      ((duel.run standoff).engine.loadCatalog s [] (duel.run standoff).world).1.toOption.isSome
        = true ∧ turnsEnded (duel.deeds ⟨1⟩ standoff) = 3 := by
    simpa using run
  obtain ⟨rotation, advances⟩ := turns_rotate duel_new standoff (Nat.le_refl 1) found
  rw [three] at rotation
  refine ⟨s, found, playing, rotation playing, fun p hp => ?_, ?_⟩
  · have curve := (rotation playing).maxEnergy
    rw [round] at curve
    exact curve (by decide) ⟨0⟩ p hp
  · cases loaded : ((duel.run standoff).engine.loadCatalog s [] (duel.run standoff).world).1 with
    | error error =>
      rw [loaded] at loads
      cases loads
    | ok catalog =>
      have bound : (duel.run standoff).engine.document = ⟨1⟩ := by decide +kernel
      exact (advances _ _ ⟨1⟩ catalog (bound ▸ found) loaded).mpr ⟨playing, current⟩

/-- Settings without fault under which each round brings the greatest word. -/
def windfall : Config :=
  { energyPerRound := 9223372036854775807 }

def bonanza : Site :=
  match Engine.newGame ["Ann", "Bob"] windfall duel.engine.source .first
    ⟨.empty, .empty, .still 0, []⟩ with
  | .ok (engine, world) => ⟨engine, world⟩
  | .error _ => duel

theorem bonanza_new : bonanza.New windfall :=
  .made .empty (show Engine.newGame ["Ann", "Bob"] windfall duel.engine.source .first
    ⟨.empty, .empty, .still 0, []⟩ = .ok (bonanza.engine, bonanza.world) from rfl)

/-- A sum with the greatest word is not a word. It turns out negative, and in the second round the
greatest energy is still 1 where the cap of 10 was to be reached. -/
theorem windfall_lost : ∃ s, bonanza.New windfall ∧
    (bonanza.run standoff).world.documents.find? ⟨1⟩ = some s ∧ s.status = .playing ∧
    turnsEnded (bonanza.deeds ⟨1⟩ standoff) = 3 ∧ windfall.curve (s.rounds 3) = 10 ∧
    (s.player? ⟨0⟩).map (·.maxEnergy) = some 1 := by
  have run : ((bonanza.run standoff).world.documents.find? ⟨1⟩).map (fun s =>
      (s.status, turnsEnded (bonanza.deeds ⟨1⟩ standoff), windfall.curve (s.rounds 3),
        (s.player? ⟨0⟩).map (·.maxEnergy))) = some (.playing, 3, 10, some 1) := by
    decide +kernel
  obtain ⟨s, found, run⟩ := Option.map_eq_some_iff.mp run
  simp only [Prod.mk.injEq] at run
  exact ⟨s, bonanza_new, found, run⟩

end Site

end CardBattle
