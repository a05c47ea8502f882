import CardBattle.Proofs.Settling

/-!
# Passes over a battlefield

An event fires the abilities of a battlefield card by card and, within a card, in the order of the
definition. All of this is one pass over the pairs of a card and an ability that are found at the
start, in which a pair is passed over unless the game goes on and the card is still in play.
-/

namespace CardBattle

/-- An ability of a permanent that listens for an event. -/
structure Visit where
  card : InstanceId
  definition : CardDefinition
  /-- The place of the ability in the definition. -/
  place : Nat
  ability : Ability

/-- What becomes of a visit. -/
inductive Fate where
  /-- The game was over, or the card no longer in play. -/
  | passed
  /-- The script failed or declined. -/
  | failed
  | completed
  deriving DecidableEq, Repr

/-- The action that a visit is logged with. -/
def Fate.action? : Fate → Option LogAction
  | .passed => none
  | .failed => some .abilityFailed
  | .completed => some .ability

/-- A visit that is over: when it was, and what became of it. -/
structure Attempt where
  visit : Visit
  now : Nat
  fate : Fate

/-- The log entry of a visit. -/
def Attempt.note? (player : Seat) (run : Attempt) : Option LogEntry :=
  let label := Context.abilityLabel run.visit.definition run.visit.ability
  match run.fate with
  | .passed => none
  | .failed =>
    some { player, action := .abilityFailed, description := label ++ " failed"
           timestamp := run.now }
  | .completed =>
    some { player, action := .ability, description := label, timestamp := run.now }

def CardDefinition.visits (d : CardDefinition) (event : TriggerEvent) (card : InstanceId) :
    List Visit :=
  (d.abilities.zipIdx.filter fun a => decide (a.1.trigger = event)).map fun a =>
    ⟨card, d, a.2, a.1⟩

namespace Session

def visitsAt (K : Catalog) (event : TriggerEvent) (s : Session) (card : InstanceId) :
    List Visit :=
  match (s.instance? card).bind fun c => K.get? c.card with
  | some d => d.visits event card
  | none => []

/-- The pairs of a permanent and an ability that an event concerns, in battlefield order and then in
the order of the definition. -/
def visits (K : Catalog) (event : TriggerEvent) (player : Seat) (s : Session) : List Visit :=
  (s.battlefield player).flatMap (s.visitsAt K event)

/-- A card without an ability that an event concerns. -/
def Silent (K : Catalog) (event : TriggerEvent) (card : InstanceId) (s : Session) : Prop :=
  ∀ c d, s.instance? card = some c → K.get? c.card = some d → d.abilitiesFor event = []

theorem silent_iff {K : Catalog} {event : TriggerEvent} {card : InstanceId} {s : Session} :
    s.Silent K event card ↔ (((s.instance? card).bind fun c => K.get? c.card).all fun d =>
      (d.abilitiesFor event).isEmpty) = true := by
  simp only [Option.all_eq_true, Option.bind_eq_some_iff, List.isEmpty_iff]
  constructor
  · rintro silent d ⟨c, hc, hd⟩
    exact silent c d hc hd
  · intro silent c d hc hd
    exact silent d ⟨c, hc, hd⟩

instance {K : Catalog} {event : TriggerEvent} {card : InstanceId} {s : Session} :
    Decidable (s.Silent K event card) :=
  decidable_of_iff _ silent_iff.symm

end Session

/-! ### One visit -/

namespace Context

variable {ctx : Context} {player : Seat} {v : Visit} {vs : List Visit} {t t' u : Table}
  {event : TriggerEvent} {fate : Fate} {card : InstanceId} {clock : Clock}

def visit (ctx : Context) (player : Seat) (v : Visit) (t : Table) : Fate × Table :=
  if t.session.isFinished || !t.session.onBattlefield v.card then (.passed, t)
  else
    let (report, t) := ctx.runAbility v.definition ⟨player, v.card, none⟩ v.ability t
    (if report.fired = 1 then .completed else .failed, t)

/-- One pass over visits, in order, each by a clock of its own. -/
def pass (ctx : Context) (player : Seat) : List (Visit × Clock) → Table → List Attempt × Table
  | [], t => ([], t)
  | (v, clock) :: rest, t =>
    let (fate, u) := { ctx with clock }.visit player v t
    let (others, u) := ctx.pass player rest u
    (⟨v, { ctx with clock }.now t.session, fate⟩ :: others, u)

def timed (ctx : Context) (vs : List Visit) : List (Visit × Clock) :=
  vs.map fun v => (v, ctx.clock)

def tally (runs : List Attempt) : TriggerReport :=
  ⟨runs.countP fun run => decide (run.fate = .completed),
    runs.countP fun run => decide (run.fate = .failed)⟩

def outcome (ctx : Context) (player : Seat) (v : Visit) (t : Table) : Outcome :=
  (ctx.invoke v.ability.effect ⟨.ability, player, some v.card, none⟩ t).1

def Runs (v : Visit) (t : Table) : Prop :=
  t.session.isFinished = false ∧ t.session.onBattlefield v.card = true

/-- What a visit can come to. -/
inductive Visited (ctx : Context) (player : Seat) (v : Visit) (t : Table) : Fate → Table → Prop
  | passed (undue : ¬Runs v t) : Visited ctx player v t .passed t
  | failed (due : Runs v t) (outcome : ∀ ops, ctx.outcome player v t ≠ .completed ops)
      {entry : LogEntry}
      (listed : (Attempt.mk v (ctx.now t.session) .failed).note? player = some entry)
      {t' : Table} (session : t'.session = t.session.record entry) :
      Visited ctx player v t .failed t'
  | completed (due : Runs v t) {ops : List Operation}
      (outcome : ctx.outcome player v t = .completed ops)
      {entry : LogEntry}
      (listed : (Attempt.mk v (ctx.now t.session) .completed).note? player = some entry)
      {t' : Table}
      (session : t'.session
        = (t.session.record entry).settle ctx.catalog ops (ctx.now t.session)) :
      Visited ctx player v t .completed t'

theorem runs_iff : ¬Runs v t ↔
    (t.session.isFinished || !t.session.onBattlefield v.card) = true := by
  rw [Runs]
  cases t.session.isFinished <;> simp

/-- The course of an ability that is run, and what is counted of it. -/
theorem runAbility_visited (ctx : Context) (player : Seat) (due : Runs v t) :
    ∃ fate, (ctx.runAbility v.definition ⟨player, v.card, none⟩ v.ability t).1
        = tally [⟨v, ctx.now t.session, fate⟩] ∧
      fate ≠ .passed ∧
      Visited ctx player v t fate
        (ctx.runAbility v.definition ⟨player, v.card, none⟩ v.ability t).2 := by
  cases ran : ctx.outcome player v t with
  | completed ops =>
    rw [outcome] at ran
    simp only [runAbility, ran]
    exact ⟨.completed, rfl, by decide, .completed due ran rfl rfl⟩
  | declined =>
    have other : ∀ ops, ctx.outcome player v t ≠ .completed ops := by simp [ran]
    rw [outcome] at ran
    simp only [runAbility, ran]
    exact ⟨.failed, rfl, by decide, .failed due other rfl rfl⟩
  | failed error =>
    have other : ∀ ops, ctx.outcome player v t ≠ .completed ops := by simp [ran]
    rw [outcome] at ran
    simp only [runAbility, ran]
    exact ⟨.failed, rfl, by decide, .failed due other rfl rfl⟩

/-- A visit that is passed over changes nothing. -/
theorem visit_of_not_runs (undue : ¬Runs v t) : ctx.visit player v t = (.passed, t) := by
  rw [visit, if_pos (runs_iff.mp undue)]

/-- A visit that is run comes to what the ability comes to. -/
theorem visit_of_runs (ctx : Context) (player : Seat) (due : Runs v t) :
    ctx.runAbility v.definition ⟨player, v.card, none⟩ v.ability t
        = (tally [⟨v, ctx.now t.session, (ctx.visit player v t).1⟩], (ctx.visit player v t).2) ∧
      Visited ctx player v t (ctx.visit player v t).1 (ctx.visit player v t).2 := by
  obtain ⟨fate, counted, ran, visited⟩ := runAbility_visited ctx player due
  have here : ctx.visit player v t = (fate,
      (ctx.runAbility v.definition ⟨player, v.card, none⟩ v.ability t).2) := by
    rw [visit, if_neg (mt runs_iff.mpr (not_not.mpr due))]
    dsimp only
    rw [counted]
    cases fate <;> simp_all [tally]
  rw [here]
  exact ⟨Prod.ext counted rfl, visited⟩

/-- Every visit comes to one of these ends. -/
theorem visit_visited (ctx : Context) (player : Seat) (v : Visit) (t : Table) :
    Visited ctx player v t (ctx.visit player v t).1 (ctx.visit player v t).2 := by
  by_cases due : Runs v t
  · exact (visit_of_runs ctx player due).2
  · rw [visit_of_not_runs due]
    exact .passed due

/-! ### The whole pass -/

namespace Visited

/-- A visit does no more than an ability may. -/
theorem contained (h : Visited ctx player v t fate t') :
    t.session.Contained (some player) (fun _ => True) t'.session := by
  cases h with
  | passed => exact .refl _
  | failed _ _ _ session =>
    rw [session]
    exact .record _
  | completed _ outcome _ session =>
    rw [session]
    exact (Session.Contained.record _).trans
      (Session.settle_contained ctx.catalog (ctx.now t.session) (invoke_for outcome))

theorem cards (h : Visited ctx player v t fate t') (id : InstanceId) :
    (t'.session.instance? id).map (fun c => (c.card, c.owner))
      = (t.session.instance? id).map fun c => (c.card, c.owner) := by
  cases h with
  | passed => rfl
  | failed _ _ _ session =>
    rw [session]
    rfl
  | completed _ _ _ session =>
    rw [session]
    exact (Session.settles_settle _ _ _ _).cards id

/-- Of the entries that tell of abilities, a visit leaves its own. -/
theorem log (h : Visited ctx player v t fate t') : ∃ entries,
    t'.session.log = t.session.log ++ entries ∧
      entries.filter (fun e => e.action.isAbility)
        = ((Attempt.mk v (ctx.now t.session) fate).note? player).toList := by
  cases h with
  | passed => exact ⟨[], (List.append_nil _).symm, rfl⟩
  | @failed _ _ entry listed _ session =>
    refine ⟨[entry], by rw [session]; rfl, ?_⟩
    rw [listed]
    cases listed
    rfl
  | @completed _ ops _ entry listed _ session =>
    obtain ⟨entries, log, others⟩ :=
      (Session.settles_settle ctx.catalog ops (ctx.now t.session) (t.session.record entry)).log
    refine ⟨entry :: entries, ?_, ?_⟩
    · rw [session, log]
      exact List.append_assoc _ [entry] entries
    · have none : entries.filter (fun e => e.action.isAbility) = [] := by
        rw [List.filter_eq_nil_iff]
        intro e mem
        simp [others e mem]
      rw [listed]
      cases listed
      exact congrArg (List.cons _) none

end Visited

theorem pass_cons (ctx : Context) (player : Seat) (v : Visit) (vs : List (Visit × Clock))
    (t : Table) : ctx.pass player ((v, clock) :: vs) t
      = (⟨v, { ctx with clock }.now t.session, ({ ctx with clock }.visit player v t).1⟩
          :: (ctx.pass player vs ({ ctx with clock }.visit player v t).2).1,
        (ctx.pass player vs ({ ctx with clock }.visit player v t).2).2) := rfl

theorem pass_timed_cons (ctx : Context) (player : Seat) (v : Visit) (vs : List Visit)
    (t : Table) : ctx.pass player (ctx.timed (v :: vs)) t
      = (⟨v, ctx.now t.session, (ctx.visit player v t).1⟩
          :: (ctx.pass player (ctx.timed vs) (ctx.visit player v t).2).1,
        (ctx.pass player (ctx.timed vs) (ctx.visit player v t).2).2) := rfl

theorem timed_append (vs ws : List Visit) :
    ctx.timed (vs ++ ws) = ctx.timed vs ++ ctx.timed ws :=
  List.map_append

/-- A pass can be made in two parts. -/
theorem pass_append (vs ws : List (Visit × Clock)) (t : Table) :
    ctx.pass player (vs ++ ws) t
      = ((ctx.pass player vs t).1 ++ (ctx.pass player ws (ctx.pass player vs t).2).1,
        (ctx.pass player ws (ctx.pass player vs t).2).2) := by
  induction vs generalizing t with
  | nil => rfl
  | cons v vs ih => rw [List.cons_append, pass_cons, ih, pass_cons, List.cons_append]

/-- Where no visit is run, nothing happens. -/
theorem pass_of_not_runs (undue : ∀ v ∈ vs, ¬Runs v t) :
    ctx.pass player (ctx.timed vs) t
      = (vs.map fun v => ⟨v, ctx.now t.session, .passed⟩, t) := by
  induction vs with
  | nil => rfl
  | cons v vs ih =>
    rw [pass_timed_cons, visit_of_not_runs (undue v List.mem_cons_self),
      ih fun w mem => undue w (List.mem_cons_of_mem v mem)]
    rfl

/-- A pass makes every visit once, in order. -/
theorem pass_visits (vs : List (Visit × Clock)) (t : Table) :
    (ctx.pass player vs t).1.map (·.visit) = vs.map Prod.fst := by
  induction vs generalizing t with
  | nil => rfl
  | cons v vs ih => rw [pass_cons, List.map_cons, ih, List.map_cons]

/-- A pass does no more than abilities may. -/
theorem pass_contained (vs : List (Visit × Clock)) (t : Table) :
    t.session.Contained (some player) (fun _ => True) (ctx.pass player vs t).2.session := by
  induction vs generalizing t with
  | nil => exact .refl _
  | cons v vs ih => exact (visit_visited _ player v.1 t).contained.trans (ih _)

theorem pass_cards (vs : List (Visit × Clock)) (t : Table) (id : InstanceId) :
    ((ctx.pass player vs t).2.session.instance? id).map (fun c => (c.card, c.owner))
      = (t.session.instance? id).map fun c => (c.card, c.owner) := by
  induction vs generalizing t with
  | nil => rfl
  | cons v vs ih => exact (ih _).trans ((visit_visited _ player v.1 t).cards id)

/-- A pass logs how each of its visits ended, and nothing else about abilities. -/
theorem pass_log (ctx : Context) (player : Seat) (vs : List (Visit × Clock)) (t : Table) :
    ∃ entries, (ctx.pass player vs t).2.session.log = t.session.log ++ entries ∧
      entries.filter (fun e => e.action.isAbility)
        = (ctx.pass player vs t).1.filterMap (·.note? player) := by
  induction vs generalizing t with
  | nil => exact ⟨[], (List.append_nil _).symm, rfl⟩
  | cons v vs ih =>
    obtain ⟨first, log, told⟩ := (visit_visited { ctx with clock := v.2 } player v.1 t).log
    obtain ⟨rest, log', told'⟩ := ih ({ ctx with clock := v.2 }.visit player v.1 t).2
    refine ⟨first ++ rest, ?_, ?_⟩
    · rw [pass_cons, log', log, List.append_assoc]
    · rw [pass_cons, List.filter_append, told, told', List.filterMap_cons]
      cases (Attempt.mk v.1 ({ ctx with clock := v.2 }.now t.session)
        ({ ctx with clock := v.2 }.visit player v.1 t).1).note? player <;> rfl

/-! ### Counting -/

/-- What two parts of a pass come to is added up. -/
theorem tally_append (runs others : List Attempt) :
    tally (runs ++ others) = (tally runs).add (tally others) := by
  simp only [tally, TriggerReport.add, List.countP_append]

theorem tally_cons (run : Attempt) (runs : List Attempt) :
    tally (run :: runs) = (tally [run]).add (tally runs) :=
  tally_append [run] runs

theorem tally_passed (vs : List Visit) (now : Nat) :
    tally (vs.map fun v => ⟨v, now, .passed⟩) = {} := by
  simp [tally, List.countP_map, Function.comp_def]

/-- Each fate that is logged has an action of its own. -/
theorem countP_entries (runs : List Attempt) {action : LogAction}
    (logged : fate.action? = some action) :
    (runs.filterMap (·.note? player)).countP (fun e => decide (e.action = action))
      = runs.countP fun run => decide (run.fate = fate) := by
  rw [List.countP_filterMap]
  refine List.countP_congr fun ⟨v, now, other⟩ _ => ?_
  cases other <;> cases fate <;> cases logged <;> simp [Attempt.note?]

/-! ### The loops of an event are one pass -/

/-- The abilities of one card, in order. -/
theorem runAbilities_eq_pass (d : CardDefinition) (vs : List Visit)
    (one : ∀ v ∈ vs, v.card = card ∧ v.definition = d) (t : Table) :
    ctx.runAbilities d ⟨player, card, none⟩ (vs.map (·.ability)) t
      = (tally (ctx.pass player (ctx.timed vs) t).1, (ctx.pass player (ctx.timed vs) t).2) := by
  induction vs generalizing t with
  | nil => rfl
  | cons v vs ih =>
    obtain ⟨rfl, rfl⟩ := one v List.mem_cons_self
    have others : ∀ w ∈ vs, w.card = v.card ∧ w.definition = v.definition :=
      fun w mem => one w (List.mem_cons_of_mem v mem)
    by_cases due : Runs v t
    · rw [List.map_cons, runAbilities, if_neg (mt runs_iff.mpr (not_not.mpr due)),
        pass_timed_cons, (visit_of_runs ctx player due).1]
      dsimp only
      rw [ih others, tally_cons ⟨v, _, _⟩ (ctx.pass player (ctx.timed vs) _).1]
    · have undue : ∀ w ∈ v :: vs, ¬Runs w t := by
        intro w mem
        rw [Runs, (one w mem).1]
        exact due
      rw [pass_of_not_runs undue, tally_passed, List.map_cons, runAbilities,
        if_pos (runs_iff.mp due)]

theorem map_visits_ability (d : CardDefinition) (event : TriggerEvent) (card : InstanceId) :
    (d.visits event card).map (·.ability) = d.abilitiesFor event := by
  have unzipped : d.abilities = (d.abilities.zipIdx).map Prod.fst := by simp
  rw [CardDefinition.visits, CardDefinition.abilitiesFor, List.map_map]
  conv_rhs => rw [unzipped, List.filter_map]
  rfl

theorem of_mem_visits {d : CardDefinition} (mem : v ∈ d.visits event card) :
    v.card = card ∧ v.definition = d := by
  obtain ⟨a, -, rfl⟩ := List.mem_map.mp mem
  exact ⟨rfl, rfl⟩

theorem of_mem_visitsAt {s : Session} (mem : v ∈ s.visitsAt ctx.catalog event card) :
    v.card = card := by
  rw [Session.visitsAt] at mem
  split at mem
  · exact (of_mem_visits mem).1
  · exact absurd mem List.not_mem_nil

/-- An event for one card. A card that belongs to somebody else is not in play here. -/
theorem triggerCard_eq_pass (ctx : Context) (event : TriggerEvent)
    (own : ∀ c, t.session.instance? card = some c → t.session.zoneOf? card = some .battlefield →
      c.owner = player) :
    ctx.triggerCard event ⟨player, card, none⟩ t
      = (tally (ctx.pass player (ctx.timed (t.session.visitsAt ctx.catalog event card)) t).1,
        (ctx.pass player (ctx.timed (t.session.visitsAt ctx.catalog event card)) t).2) := by
  rw [triggerCard]
  dsimp only
  cases hc : t.session.instance? card with
  | none =>
    have nobody : t.session.visitsAt ctx.catalog event card = [] := by
      rw [Session.visitsAt, hc]
      rfl
    rw [nobody]
    rfl
  | some c =>
    dsimp only
    split
    · cases hd : ctx.catalog.get? c.card with
      | none =>
        have unknown : t.session.visitsAt ctx.catalog event card = [] := by
          rw [Session.visitsAt, hc, Option.bind_some, hd]
        rw [unknown]
        rfl
      | some d =>
        have known : t.session.visitsAt ctx.catalog event card = d.visits event card := by
          rw [Session.visitsAt, hc, Option.bind_some, hd]
        rw [known]
        dsimp only
        rw [← map_visits_ability d event card]
        exact runAbilities_eq_pass d _ (fun v => of_mem_visits) t
    · rename_i others
      have undue : ∀ v ∈ t.session.visitsAt ctx.catalog event card, ¬Runs v t := by
        rintro v mem ⟨-, inPlay⟩
        rw [of_mem_visitsAt mem, Session.onBattlefield, decide_eq_true_iff] at inPlay
        exact others (own c hc inPlay)
      rw [pass_of_not_runs undue, tally_passed]

/-- A permanent that is in play after some abilities is still with the player who had it. -/
theorem owner_of_contained {s s' : Session} {actor : Option Seat} {dead : InstanceId → Prop}
    (nodup : s.laid.Nodup) (contained : s.Contained actor dead s')
    (mem : card ∈ s.battlefield player) {c : CardInstance} (hc : s'.instance? card = some c)
    (inPlay : s'.zoneOf? card = some .battlefield) : c.owner = player := by
  obtain ⟨c', hc', listed⟩ := Session.mem_battlefield_of_zone inPlay
  cases hc.symm.trans hc'
  obtain ⟨q, hq, there⟩ := Session.mem_battlefield_iff.mp listed
  obtain ⟨p, drawn, fallen, hp, frame⟩ := contained.frame hq
  obtain ⟨r, hr, here⟩ := Session.mem_battlefield_iff.mp mem
  exact Session.seat_unique nodup hp hr
    (Zones.mem_allInstances.mpr ⟨.battlefield, frame.zones.battlefield.subset there⟩)
    (Zones.mem_allInstances.mpr ⟨.battlefield, here⟩)

theorem visitsAt_congr {K : Catalog} {s s' : Session}
    (cards : (s'.instance? card).map (fun c => (c.card, c.owner))
      = (s.instance? card).map fun c => (c.card, c.owner)) :
    s'.visitsAt K event card = s.visitsAt K event card := by
  have same : ((s'.instance? card).bind fun c => K.get? c.card)
      = (s.instance? card).bind fun c => K.get? c.card := by
    have view : ∀ r : Session, ((r.instance? card).bind fun c => K.get? c.card)
        = ((r.instance? card).map fun c => (c.card, c.owner)).bind fun e => K.get? e.1 := by
      intro r
      cases r.instance? card <;> rfl
    rw [view, view, cards]
  rw [Session.visitsAt, Session.visitsAt, same]

/-- The induction is on the cards that are left. They are looked up in the session of their turn,
where they still are what they were at the start. -/
theorem triggerCards_eq_pass {s : Session} (nodup : s.laid.Nodup) (event : TriggerEvent)
    (cards : List InstanceId) (listed : ∀ card ∈ cards, card ∈ s.battlefield player) (t : Table)
    (contained : s.Contained (some player) (fun _ => True) t.session)
    (same : ∀ id, (t.session.instance? id).map (fun c => (c.card, c.owner))
      = (s.instance? id).map fun c => (c.card, c.owner)) :
    ctx.triggerCards event player cards t
      = (tally (ctx.pass player (ctx.timed (cards.flatMap (s.visitsAt ctx.catalog event))) t).1,
        (ctx.pass player (ctx.timed (cards.flatMap (s.visitsAt ctx.catalog event))) t).2) := by
  induction cards generalizing t with
  | nil => rfl
  | cons card cards ih =>
    rw [triggerCards, List.flatMap_cons]
    split
    · rename_i finished
      rw [pass_of_not_runs fun v _ due => absurd (due.1.symm.trans finished) Bool.false_ne_true,
        tally_passed]
    · have here := triggerCard_eq_pass ctx event fun c hc inPlay =>
        owner_of_contained nodup contained (listed card List.mem_cons_self) hc inPlay
      rw [visitsAt_congr (same card)] at here
      rw [here, timed_append, pass_append, tally_append]
      dsimp only
      rw [ih (fun other mem => listed other (List.mem_cons_of_mem _ mem)) _
        (contained.trans (pass_contained _ t)) fun id => (pass_cards _ t id).trans (same id)]

/-- An event is one pass over the visits that it concerns. -/
theorem triggerAll_eq_pass (nodup : t.session.laid.Nodup) (event : TriggerEvent)
    (player : Seat) : ctx.triggerAll event player t
      = (tally (ctx.pass player (ctx.timed (t.session.visits ctx.catalog event player)) t).1,
        (ctx.pass player (ctx.timed (t.session.visits ctx.catalog event player)) t).2) :=
  triggerCards_eq_pass nodup event _ (fun _ mem => mem) t (.refl _) fun _ => rfl

/-! ### Events that nobody hears -/

/-- A card that is unknown or does not listen. -/
theorem triggerCard_of_silent {o : Occasion}
    (silent : t.session.Silent ctx.catalog event o.card) : ctx.triggerCard event o t = ({}, t) := by
  rw [triggerCard]
  cases hc : t.session.instance? o.card with
  | none => rfl
  | some c =>
    dsimp only
    split
    · cases hd : ctx.catalog.get? c.card with
      | none => rfl
      | some d =>
        dsimp only
        rw [silent c d hc hd]
        rfl
    · rfl

theorem triggerCards_of_silent (cards : List InstanceId)
    (silent : ∀ card ∈ cards, t.session.Silent ctx.catalog event card) :
    ctx.triggerCards event player cards t = ({}, t) := by
  induction cards with
  | nil => rfl
  | cons card cards ih =>
    have here : ctx.triggerCard event ⟨player, card, none⟩ t = ({}, t) :=
      triggerCard_of_silent (silent card List.mem_cons_self)
    have rest := ih fun other mem => silent other (List.mem_cons_of_mem _ mem)
    rw [triggerCards, here]
    dsimp only
    rw [rest]
    split <;> rfl

theorem triggerAll_of_silent
    (silent : ∀ card ∈ t.session.battlefield player, t.session.Silent ctx.catalog event card) :
    ctx.triggerAll event player t = ({}, t) :=
  triggerCards_of_silent _ silent

/-! ### Each pair once -/

theorem nodup_visits {d : CardDefinition} :
    ((d.visits event card).map fun v => (v.card, v.place)).Nodup := by
  have places : (d.abilities.zipIdx.map Prod.snd).Nodup := by
    rw [List.zipIdx_map_snd]
    exact List.nodup_range'
  have kept := (List.filter_sublist (p := fun a => decide (a.1.trigger = event))
    (l := d.abilities.zipIdx)).map Prod.snd
  rw [CardDefinition.visits, List.map_map]
  refine List.Nodup.of_map Prod.snd ?_
  rw [List.map_map]
  exact places.sublist kept

theorem nodup_visitsAt {s : Session} :
    ((s.visitsAt ctx.catalog event card).map fun v => (v.card, v.place)).Nodup := by
  rw [Session.visitsAt]
  split
  · exact nodup_visits
  · exact List.nodup_nil

/-- No ability is visited twice. -/
theorem nodup_session_visits {s : Session} (apart : s.Apart) :
    ((s.visits ctx.catalog event player).map fun v => (v.card, v.place)).Nodup := by
  have cards : (s.battlefield player).Nodup := apart.nodup_battlefield player
  rw [Session.visits, List.map_flatMap]
  refine List.nodup_flatMap.mpr ⟨fun card _ => nodup_visitsAt, ?_⟩
  refine cards.imp fun {card other} differ pair mem mem' => ?_
  obtain ⟨v, hv, rfl⟩ := List.mem_map.mp mem
  obtain ⟨w, hw, same⟩ := List.mem_map.mp mem'
  rw [Prod.mk.injEq, of_mem_visitsAt hv, of_mem_visitsAt hw] at same
  exact differ same.1.symm

end Context

end CardBattle
