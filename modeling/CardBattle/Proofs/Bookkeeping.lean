import CardBattle.Proofs.WellFormed

/-!
# The log and the board

Cards that enter play, spells that are cast, and permanents that die are moved and logged by
different functions, and several may die in one sweep. The log is balanced for a player when it has
one entry for each of these moves. Every stage of play keeps it balanced, whatever the order.
-/

namespace CardBattle

open Relation

/-- Entries of these actions come with a card that leaves the hand or the battlefield. -/
def LogAction.isBooked : LogAction → Bool
  | .playCard | .castSpell | .destroy => true
  | _ => false

/-- The number of entries of an action about a player. -/
def entriesOf (log : List LogEntry) (player : Seat) (action : LogAction) : Nat :=
  log.countP fun e => decide (e.player = player ∧ e.action = action)

/-- The creatures and artifacts in a graveyard. -/
def Zones.fallen (kind : InstanceId → Option CardKind) (z : Zones) : Nat :=
  z.graveyard.countP fun id => (kind id).any CardKind.isPermanent

/-- The spells in a graveyard. -/
def Zones.spent (kind : InstanceId → Option CardKind) (z : Zones) : Nat :=
  z.graveyard.countP fun id => decide (kind id = some .spell)

/-- The log of a game accounts for what a player has in play and in the graveyard. -/
structure Balanced (kind : InstanceId → Option CardKind) (log : List LogEntry) (player : Seat)
    (z : Zones) : Prop where
  destroyed : z.fallen kind = entriesOf log player .destroy
  played : z.battlefield.length + z.fallen kind = entriesOf log player .playCard
  cast : z.spent kind = entriesOf log player .castSpell

/-! ### Single entries -/

section Entries

variable {log entries : List LogEntry} {player : Seat} {action : LogAction} {e : LogEntry}

theorem entriesOf_append_other
    (other : ∀ e ∈ entries, e.player ≠ player ∨ e.action ≠ action) :
    entriesOf (log ++ entries) player action = entriesOf log player action := by
  have none : entriesOf entries player action = 0 := by
    refine List.countP_eq_zero.mpr fun e mem => ?_
    rw [decide_eq_true_eq]
    rintro ⟨about, same⟩
    rcases other e mem with ne | ne
    · exact ne about
    · exact ne same
  rw [entriesOf, List.countP_append]
  exact congrArg _ none

theorem entriesOf_record (about : e.player = player) (same : e.action = action) :
    entriesOf (log ++ [e]) player action = entriesOf log player action + 1 := by
  rw [entriesOf, List.countP_append]
  simp [entriesOf, about, same]

theorem entriesOf_record_other (ne : e.player ≠ player ∨ e.action ≠ action) :
    entriesOf (log ++ [e]) player action = entriesOf log player action := by
  refine entriesOf_append_other fun e' mem => ?_
  rwa [List.mem_singleton.mp mem]

end Entries

namespace Balanced

variable {kind : InstanceId → Option CardKind} {log entries : List LogEntry} {player : Seat}
  {z z' : Zones} {e : LogEntry} {id : InstanceId}

/-- Entries that book no card of the player leave the balance as it is. -/
theorem append (h : Balanced kind log player z)
    (other : ∀ e ∈ entries, e.player ≠ player ∨ e.action.isBooked = false) :
    Balanced kind (log ++ entries) player z := by
  have same : ∀ action, action.isBooked = true →
      entriesOf (log ++ entries) player action = entriesOf log player action := by
    intro action booked
    refine entriesOf_append_other fun e mem => ?_
    refine (other e mem).imp_right fun unbooked same => ?_
    rw [same, booked] at unbooked
    cases unbooked
  exact ⟨by rw [same _ rfl]; exact h.destroyed, by rw [same _ rfl]; exact h.played,
    by rw [same _ rfl]; exact h.cast⟩

/-- Only the battlefield and the graveyard count. -/
theorem congr (h : Balanced kind log player z) (battlefield : z'.battlefield = z.battlefield)
    (graveyard : z'.graveyard = z.graveyard) : Balanced kind log player z' := by
  have fallen : z'.fallen kind = z.fallen kind := by
    rw [Zones.fallen, graveyard]
    rfl
  have spent : z'.spent kind = z.spent kind := by
    rw [Zones.spent, graveyard]
    rfl
  exact ⟨fallen.trans h.destroyed, by rw [battlefield, fallen]; exact h.played, spent.trans h.cast⟩

/-- A log without booked entries accounts for an empty board. -/
theorem bare (battlefield : z.battlefield = []) (graveyard : z.graveyard = [])
    (quiet : ∀ e ∈ log, e.action.isBooked = false) : Balanced kind log player z := by
  have empty : Balanced kind [] player Zones.empty := ⟨rfl, rfl, rfl⟩
  rw [← List.nil_append log]
  exact (empty.congr battlefield graveyard).append fun e mem => Or.inr (quiet e mem)

/-- A permanent comes into play. -/
theorem enter (h : Balanced kind log player z) (about : e.player = player)
    (action : e.action = .playCard) :
    Balanced kind (log ++ [e]) player (z.carry id .hand .battlefield) := by
  have battlefield : (z.carry id .hand .battlefield).battlefield = z.battlefield ++ [id] := rfl
  have graveyard : (z.carry id .hand .battlefield).graveyard = z.graveyard := rfl
  have fallen : (z.carry id .hand .battlefield).fallen kind = z.fallen kind := by
    rw [Zones.fallen, graveyard, Zones.fallen]
  constructor
  · rw [fallen, entriesOf_record_other (Or.inr (by rw [action]; decide))]
    exact h.destroyed
  · rw [fallen, battlefield, List.length_append, List.length_singleton,
      entriesOf_record about action, ← h.played]
    omega
  · rw [Zones.spent, graveyard, entriesOf_record_other (Or.inr (by rw [action]; decide))]
    exact h.cast

/-- A spell is cast. -/
theorem spend (h : Balanced kind log player z) (spell : kind id = some .spell)
    (about : e.player = player) (action : e.action = .castSpell) :
    Balanced kind (log ++ [e]) player (z.carry id .hand .graveyard) := by
  have battlefield : (z.carry id .hand .graveyard).battlefield = z.battlefield := rfl
  have graveyard : (z.carry id .hand .graveyard).graveyard = z.graveyard ++ [id] := rfl
  have fallen : (z.carry id .hand .graveyard).fallen kind = z.fallen kind := by
    rw [Zones.fallen, graveyard, List.countP_append, Zones.fallen]
    simp [spell, CardKind.isPermanent]
  constructor
  · rw [fallen, entriesOf_record_other (Or.inr (by rw [action]; decide))]
    exact h.destroyed
  · rw [fallen, battlefield, entriesOf_record_other (Or.inr (by rw [action]; decide))]
    exact h.played
  · rw [Zones.spent, graveyard, List.countP_append, entriesOf_record about action, ← h.cast,
      Zones.spent]
    simp [spell]

/-- A permanent dies. -/
theorem fall (h : Balanced kind log player z) (mem : id ∈ z.battlefield)
    (permanent : (kind id).any CardKind.isPermanent = true) (about : e.player = player)
    (action : e.action = .destroy) :
    Balanced kind (log ++ [e]) player (z.carry id .battlefield .graveyard) := by
  have battlefield : (z.carry id .battlefield .graveyard).battlefield = z.battlefield.erase id :=
    rfl
  have graveyard : (z.carry id .battlefield .graveyard).graveyard = z.graveyard ++ [id] := rfl
  have fallen : (z.carry id .battlefield .graveyard).fallen kind = z.fallen kind + 1 := by
    rw [Zones.fallen, graveyard, List.countP_append, Zones.fallen]
    simp [permanent]
  have notSpell : kind id ≠ some .spell := by
    intro spell
    rw [spell] at permanent
    cases permanent
  have length := List.length_erase_of_mem mem
  have inPlay := List.length_pos_of_mem mem
  constructor
  · rw [fallen, entriesOf_record about action, h.destroyed]
  · rw [fallen, battlefield, entriesOf_record_other (Or.inr (by rw [action]; decide)), ← h.played]
    omega
  · rw [Zones.spent, graveyard, List.countP_append,
      entriesOf_record_other (Or.inr (by rw [action]; decide)), ← h.cast, Zones.spent]
    simp [notSpell]

end Balanced

namespace Session

def kind? (K : Catalog) (s : Session) (id : InstanceId) : Option CardKind :=
  (s.instance? id).bind fun c => (K.get? c.card).map (·.kind)

/-- Every copy is of a known card, and no spell is in play. -/
structure Typed (K : Catalog) (s : Session) : Prop where
  known : ∀ id c, s.instance? id = some c → ∃ d, K.get? c.card = some d
  permanent : ∀ id, s.zoneOf? id = some .battlefield → s.kind? K id ≠ some .spell

def Accounts (K : Catalog) (s : Session) : Prop :=
  ∀ seat p, s.player? seat = some p → Balanced (s.kind? K) s.log seat p.zones

variable {config : Config} {K : Catalog} {s s' : Session} {player starting : Seat}
  {id : InstanceId} {c : CardInstance} {d : CardDefinition}

/-! ### Kinds -/

theorem kind?_of_known (hc : s.instance? id = some c) (hd : K.get? c.card = some d) :
    s.kind? K id = some d.kind := by
  simp [kind?, hc, hd]

/-- A copy keeps its kind. -/
theorem Continues.kind?_eq (h : Continues K s s') : s'.kind? K = s.kind? K := by
  funext id
  cases hc : s.instance? id with
  | some c =>
    obtain ⟨e, he, ce⟩ := h.cards id c hc
    simp [kind?, hc, he, ce.card]
  | none =>
    cases he : s'.instance? id with
    | none => simp [kind?, hc, he]
    | some e =>
      obtain ⟨c, hc', -⟩ := h.instance?_before he
      cases hc.symm.trans hc'

/-- A spell in play was in play before. -/
theorem from_battlefield {zone zone' : Zone} (path : ReflTransGen (Zone.Passes .spell) zone zone')
    (arrived : zone' = .battlefield) : zone = .battlefield := by
  induction path with
  | refl => exact arrived
  | tail _ last _ =>
    subst arrived
    cases last with
    | play permanent => exact absurd rfl permanent

/-- Copies remain of known cards, and spells stay out of play. -/
theorem Continues.typed (h : Continues K s s') (housed : s.Housed) (before : s.Typed K) :
    s'.Typed K where
  known := by
    intro id e he
    obtain ⟨c, hc, ce⟩ := h.instance?_before he
    obtain ⟨d, hd⟩ := before.known id c hc
    exact ⟨d, ce.card ▸ hd⟩
  permanent := by
    intro id inPlay spell
    rw [h.kind?_eq] at spell
    obtain ⟨e, -, he, -⟩ := zoneOf?_eq_some_iff.mp inPlay
    obtain ⟨c, hc, -⟩ := h.instance?_before he
    obtain ⟨d, hd⟩ := before.known id c hc
    obtain ⟨zone, hz⟩ := housed.placed id c hc
    obtain ⟨zone', hz', path⟩ := h.zones id c zone hc hz
    cases inPlay.symm.trans hz'
    have path := path d hd
    have kind : d.kind = .spell := Option.some.inj ((kind?_of_known hc hd).symm.trans spell)
    rw [kind] at path
    rw [from_battlefield path rfl] at hz
    exact before.permanent id hz spell

/-! ### Changes that book nothing -/

structure Unmoved (s s' : Session) : Prop where
  board : Keeps (fun p => (p.zones.battlefield, p.zones.graveyard)) s s'
  log : Logs (·.isBooked = false) s s'

/-- What has not moved is still accounted for. -/
theorem Accounts.unmoved (h : s.Accounts K) (kinds : s'.kind? K = s.kind? K)
    (unmoved : Unmoved s s') : s'.Accounts K := by
  intro seat q hq
  obtain ⟨p, hp, same⟩ := unmoved.board seat q hq
  obtain ⟨battlefield, graveyard⟩ := Prod.mk.inj same
  obtain ⟨entries, log, unbooked⟩ := unmoved.log
  rw [kinds, log]
  exact ((h seat p hp).congr battlefield graveyard).append fun e mem => Or.inr (unbooked e mem)

namespace Unmoved

theorem trans {s'' : Session} (h : Unmoved s s') (h' : Unmoved s' s'') : Unmoved s s'' :=
  ⟨h.board.trans h'.board, h.log.trans h'.log⟩

theorem of_players (players : s'.players = s.players) (log : Logs (·.isBooked = false) s s') :
    Unmoved s s' :=
  ⟨.of_players players, log⟩

theorem record {e : LogEntry} (unbooked : e.action.isBooked = false) : Unmoved s (s.record e) :=
  of_players rfl (.of_entry rfl unbooked)

theorem modifyInstance {f : CardInstance → CardInstance} : Unmoved s (s.modifyInstance id f) :=
  of_players rfl (.of_same rfl)

theorem charge {cost : Int} : Unmoved s (s.charge player cost) :=
  ⟨.modifyPlayer fun _ _ => rfl, .of_same rfl⟩

theorem finish {loser : Seat} {now : Nat} : Unmoved s (s.finish loser now) := by
  unfold Session.finish
  split
  · exact of_players rfl (.of_same rfl)
  · exact of_players rfl (.of_entry rfl rfl)

theorem drawCard (housed : s.Housed) {now : Nat} {drawn : Option InstanceId}
    (ran : drawCard player now s = .ok drawn s') : Unmoved s s' := by
  obtain ⟨p, hp, ⟨-, -, rfl⟩ | ⟨id, -, -, -, rfl⟩⟩ := of_drawCard (housed.apart player) ran
  · exact .record rfl
  · exact .trans ⟨.modifyPlayer_at hp rfl, .of_same rfl⟩ (.record rfl)

end Unmoved

/-! ### Changes that book a card -/

/-- Only the board of one player changes, and the entry is about that player. -/
theorem Accounts.carry {m : Session} {p : Player} {z : Zones} {e : LogEntry} (h : s.Accounts K)
    (kinds : ((m.setZones player z).record e).kind? K = s.kind? K) (unmoved : Unmoved s m)
    (log : m.log = s.log) (hp : s.player? player = some p) (about : e.player = player)
    (mine : Balanced (s.kind? K) s.log player p.zones →
      Balanced (s.kind? K) (s.log ++ [e]) player z) :
    ((m.setZones player z).record e).Accounts K := by
  intro seat q hq
  rw [kinds, log_record, show (m.setZones player z).log = s.log from log]
  obtain ⟨r, hr, ⟨rfl, ne⟩ | ⟨rfl, rfl⟩⟩ :=
    of_player?_modifyPlayer (show (m.setZones player z).player? seat = some q from hq)
  · obtain ⟨p', hp', same⟩ := unmoved.board seat q hr
    obtain ⟨battlefield, graveyard⟩ := Prod.mk.inj same
    refine ((h seat p' hp').congr battlefield graveyard).append fun e' mem => Or.inl ?_
    rw [List.mem_singleton.mp mem, about]
    exact ne
  · exact mine (h player p hp)

/-- Every single change is booked. -/
theorem Change.accounts (housed : s.Housed) (typed : s.Typed K) (h : s.Accounts K)
    (change : Change K s s') : s'.Accounts K := by
  have kinds := (change.continues housed).kind?_eq
  cases change with
  | note e plain =>
    refine h.unmoved kinds (.record ?_)
    cases action : e.action <;> simp_all [LogAction.isPlain, LogAction.isBooked]
  | @hurt _ player amount _ _ _ ran =>
    obtain ⟨p, hp, -, rfl⟩ := damagePlayer_ok_iff.mp ran
    refine h.unmoved kinds ?_
    have hurt : Unmoved s (s.modifyPlayer player fun _ => p.takeDamage amount) :=
      ⟨.modifyPlayer_at hp rfl, .of_same rfl⟩
    split
    · exact hurt.trans .finish
    · exact hurt
  | mend _ ran =>
    obtain ⟨p, hp, -, rfl⟩ := healPlayer_ok_iff.mp ran
    exact h.unmoved kinds ⟨.modifyPlayer_at hp rfl, .of_same rfl⟩
  | gain _ ran =>
    obtain ⟨p, hp, rfl⟩ := gainEnergy_ok_iff.mp ran
    exact h.unmoved kinds (.trans ⟨.modifyPlayer_at hp rfl, .of_same rfl⟩ (.record rfl))
  | draw _ ran => exact h.unmoved kinds (.drawCard housed ran)
  | heal => exact h.unmoved kinds .modifyInstance
  | sap => exact h.unmoved kinds .modifyInstance
  | enter _ hc hp hd permanent mem _ about action _ =>
    refine h.carry kinds ?_ rfl hp about fun balanced => balanced.enter about action
    exact Unmoved.charge.trans .modifyInstance
  | cast _ hc hp hd spell mem _ about action _ =>
    refine h.carry kinds .charge rfl hp about fun balanced => ?_
    exact balanced.spend ((kind?_of_known hc hd).trans (congrArg some spell)) about action
  | @bury p id c e hc hp _ mem about action =>
    refine h.carry kinds .modifyInstance rfl hp about fun balanced => ?_
    obtain ⟨d, hd⟩ := typed.known id c hc
    have inPlay := typed.permanent id ((housed.zoneOf?_iff hc hp).mpr mem)
    rw [kind?_of_known hc hd] at inPlay
    refine balanced.fall mem ?_ about action
    rw [kind?_of_known hc hd]
    cases kind : d.kind <;> simp_all [CardKind.isPermanent]

theorem Stage.accounts (housed : s.Housed) (h : s.Typed K ∧ s.Accounts K)
    (stage : Stage config K s s') : s'.Typed K ∧ s'.Accounts K := by
  refine Stage.preserves (P := fun s => s.Typed K ∧ s.Accounts K) ?_ ?_ ?_ ?_ ?_ housed h stage
  · rintro s s' housed ⟨typed, accounts⟩ change
    exact ⟨(change.continues housed).typed housed typed, change.accounts housed typed accounts⟩
  · rintro s s' housed ⟨typed, accounts⟩ harm
    have later : Continues K s s' := harm.continues housed
    refine ⟨later.typed housed typed, accounts.unmoved later.kind?_eq ?_⟩
    cases harm <;> exact .modifyInstance
  · rintro s s' next now housed ⟨typed, accounts⟩ ran
    have later : Continues K s s' := continues_passTurn ran
    refine ⟨later.typed housed typed, accounts.unmoved later.kind?_eq ?_⟩
    obtain ⟨p, -, -, rfl⟩ := passTurn_ok_iff.mp ran
    exact .of_players rfl (.of_entry rfl rfl)
  · rintro s s' player wrapped housed ⟨typed, accounts⟩ ran
    have later : Continues K s s' := continues_renewEnergy ran
    refine ⟨later.typed housed typed, accounts.unmoved later.kind?_eq ?_⟩
    rcases renewEnergy_ok_iff.mp ran with ⟨-, rfl⟩ | ⟨-, -, rfl⟩
    · refine ⟨?_, .of_same rfl⟩
      intro seat q hq
      rw [player?_map] at hq
      obtain ⟨p, hp, rfl⟩ := Option.map_eq_some_iff.mp hq
      exact ⟨p, hp, rfl⟩
    · exact ⟨.modifyPlayer fun _ _ => rfl, .of_same rfl⟩
  · rintro s player id housed ⟨typed, accounts⟩ mem
    have later : Continues K s (s.modifyInstance id CardInstance.refresh) :=
      housed.modify_in_play mem fun _ => ⟨rfl, rfl, rfl⟩
    exact ⟨later.typed housed typed, accounts.unmoved later.kind?_eq .modifyInstance⟩

/-! ### Whole games -/

theorem Waiting.accounts (h : s.Waiting config) : s.Accounts K := by
  intro seat p hp
  have zones := (h.players seat p hp).zones
  rw [zones]
  refine .bare rfl rfl fun e mem => ?_
  rw [h.log e mem]
  rfl

theorem Opened.accounts (h : Opened K starting s s') (waiting : s.Waiting config) :
    s'.Typed K ∧ s'.Accounts K := by
  refine ⟨⟨?_, ?_⟩, ?_⟩
  · intro id c hc
    obtain ⟨d, hd, -⟩ := h.dealt.asNew id c hc
    exact ⟨d, hd⟩
  · intro id inPlay
    obtain ⟨c, -, hc, -⟩ := zoneOf?_eq_some_iff.mp inPlay
    rcases h.dealt.unplayed id c hc with deck | hand
    · cases inPlay.symm.trans deck
    · cases inPlay.symm.trans hand
  · intro seat p hp
    obtain ⟨battlefield, graveyard⟩ := h.bare hp
    refine .bare battlefield graveyard fun e mem => ?_
    rcases h.log e mem with old | drawn | start
    · rw [waiting.log e old]
      rfl
    · rw [drawn]
      rfl
    · rw [start]
      rfl

/-- A failure entry or a new revision moves nothing. -/
theorem Annotates.unmoved (h : Annotates s s') : Unmoved s s' := by
  refine .of_players h.players (h.log.mono ?_)
  rintro action rfl
  rfl

/-- The log of every document accounts for its board. -/
theorem Reachable.accounts (definitions : K.Sound) (h : Reachable config K s) : s.Accounts K := by
  have cases := h.cases (P := fun s => s.Typed K ∧ s.Accounts K) definitions
    (fun _ _ _ waiting opened => opened.accounts waiting) ?_ ?_
  · rcases cases with waiting | ⟨-, -, -, accounts⟩
    · exact waiting.accounts
    · exact accounts
  · intro s s' housed before stages
    induction stages with
    | refl => exact before
    | tail played stage ih =>
      exact stage.accounts ((Stages.continues housed played).housed housed) ih
  · rintro s s' ⟨typed, accounts⟩ annotates
    have later : Continues K s s' := annotates.continues
    refine ⟨⟨?_, ?_⟩, accounts.unmoved later.kind?_eq annotates.unmoved⟩
    · intro id c hc
      exact typed.known id c (annotates.instance? id ▸ hc)
    · intro id inPlay
      rw [later.kind?_eq]
      exact typed.permanent id (annotates.zoneOf? id ▸ inPlay)

end Session

namespace Site

variable {config : Config} {site : Site}

/-- Whatever is done after a new game, the log of every document accounts for the board: a player
has one entry for each card played, for each permanent that died, and for each spell that was
cast. -/
theorem log_accounts_for_board (new : site.New config) (moves : List Move) {id : SessionId}
    {s : Session} (follows : site.Follows id)
    (found : (site.run moves).world.documents.find? id = some s) {player : Seat} {p : Player}
    (hp : s.player? player = some p) :
    Balanced (s.kind? (site.run moves).world.definitions.cached) s.log player p.zones ∧
      ∀ copy ∈ p.zones.allInstances,
        ∃ kind, s.kind? (site.run moves).world.definitions.cached copy = some kind := by
  have definitions := new.definitions moves
  have reachable := new.reachable moves follows (Catalog.Within.refl _) found
  refine ⟨reachable.accounts definitions player p hp, ?_⟩
  intro copy mem
  obtain ⟨c, hc, -⟩ := (reachable.housed definitions).owned player p copy hp mem
  obtain ⟨d, hd⟩ := reachable.known definitions hc
  exact ⟨d.kind, Session.kind?_of_known hc hd⟩

def clash : List Move :=
  [.call (.startWithDeck ⟨0⟩ [⟨1⟩]), .call (.startWithDeck ⟨1⟩ [⟨1⟩]), .call (.playCard ⟨0⟩ ⟨1⟩),
    .call (.endTurn ⟨0⟩), .call (.playCard ⟨1⟩ ⟨2⟩), .call (.endTurn ⟨1⟩),
    .call (.attackCard ⟨0⟩ ⟨1⟩ ⟨2⟩)]

theorem clash_accounts : ∃ s p, (duel.run clash).world.documents.find? ⟨1⟩ = some s ∧
    s.player? ⟨1⟩ = some p ∧ p.zones = ⟨[], [], [], [⟨2⟩]⟩ ∧
    entriesOf s.log ⟨1⟩ .destroy = 1 ∧ entriesOf s.log ⟨1⟩ .playCard = 1 ∧
    Balanced (s.kind? (duel.run clash).world.definitions.cached) s.log ⟨1⟩ p.zones := by
  have run : ((duel.run clash).world.documents.find? ⟨1⟩).bind (fun s => (s.player? ⟨1⟩).map
      fun p => (p.zones, entriesOf s.log ⟨1⟩ .destroy, entriesOf s.log ⟨1⟩ .playCard))
        = some (⟨[], [], [], [⟨2⟩]⟩, 1, 1) := by
    decide +kernel
  obtain ⟨s, found, run⟩ := Option.bind_eq_some_iff.mp run
  obtain ⟨p, hp, run⟩ := Option.map_eq_some_iff.mp run
  obtain ⟨zones, destroyed, played⟩ : p.zones = ⟨[], [], [], [⟨2⟩]⟩ ∧
      entriesOf s.log ⟨1⟩ .destroy = 1 ∧ entriesOf s.log ⟨1⟩ .playCard = 1 := by
    simpa using run
  obtain ⟨balanced, -⟩ := log_accounts_for_board duel_new clash (Nat.le_refl 1) found hp
  exact ⟨s, p, found, hp, zones, destroyed, played, balanced⟩

end Site

end CardBattle
