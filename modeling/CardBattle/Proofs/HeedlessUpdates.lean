import CardBattle.Action
import CardBattle.Proofs.TwoRuns

/-!
# Updates that do not heed failures

The log may hold entries about what failed: calls that were refused, each with a revision, and
abilities that came to nothing. No rule reads the log or the revision, and no update writes such an
entry. An update therefore does the same to a session whether or not the entries of one of the two
kinds are struck from its log, whatever its revision is.
-/

namespace CardBattle

namespace LogAction

def isMishap : LogAction → Bool
  | .failure | .abilityFailed => true
  | _ => false

/-- One of the two kinds of entries about what failed. -/
class Mishap (action : LogAction) : Prop where
  isMishap : action.isMishap = true

instance : Mishap .failure := ⟨rfl⟩

instance : Mishap .abilityFailed := ⟨rfl⟩

theorem ne_mishap {struck action : LogAction} [mishap : struck.Mishap]
    (calm : action.isMishap = false) : action ≠ struck := by
  rintro rfl
  exact Bool.false_ne_true (calm.symm.trans mishap.isMishap)

end LogAction

namespace Session

/-- The session with the failure entries struck from its log, at another revision. -/
def cleaned (revision : Nat) (s : Session) : Session :=
  { s with log := s.log.filter fun e => decide (e.action ≠ .failure), revision }

def without (struck : LogAction) (revision : Nat) (s : Session) : Session :=
  { s with log := s.log.filter fun e => decide (e.action ≠ struck), revision }

end Session

abbrev Update.Heedless {α : Type} (struck : LogAction) (revision : Nat) (u : Update α) : Prop :=
  InStep (fun s s' => s' = s.without struck revision) u u

namespace Session

open LogAction (ne_mishap)
open Update (Heedless)

variable {s : Session} {struck : LogAction} {revision : Nat} {player : Seat} {copy : InstanceId}
  {now : Nat}

/-! ### What is read and written -/

@[simp] theorem player?_without :
    (s.without struck revision).player? player = s.player? player := rfl

@[simp] theorem instance?_without :
    (s.without struck revision).instance? copy = s.instance? copy := rfl

@[simp] theorem nextId_without : (s.without struck revision).nextId = s.nextId := rfl

/-- A log without failures is clean. -/
theorem cleaned_of_log (clean : ∀ e ∈ s.log, e.action ≠ .failure) : s.cleaned s.revision = s := by
  have log : s.log.filter (fun e => decide (e.action ≠ .failure)) = s.log := by
    rw [List.filter_eq_self]
    simpa using clean
  rw [cleaned, log]

/-- A failure entry leaves no trace. -/
theorem cleaned_record_failure {entry : LogEntry} (failure : entry.action = .failure) :
    (s.record entry).cleaned revision = s.cleaned revision := by
  simp [record, cleaned, List.filter_append, failure]

/-- Other entries stay in the log. -/
theorem record_without {entry : LogEntry} (other : entry.action ≠ struck) :
    (s.without struck revision).record entry = (s.record entry).without struck revision := by
  simp [record, without, List.filter_append, other]

theorem finish_without [struck.Mishap] :
    (s.without struck revision).finish player now
      = (s.finish player now).without struck revision := by
  unfold finish
  change (if s.isFinished then _ else _) = _
  split
  · rfl
  · exact record_without (s := { s with status := .finished, winner := s.survivor? player })
      (ne_mishap rfl)

/-! ### Rules -/

section Rules

variable {α : Type}

/-- A check that looks at neither those entries nor the revision is heedless of them. -/
theorem heedless_check {f : Session → Except GameError α}
    (same : ∀ s, f (s.without struck revision) = f s) :
    Heedless struck revision (Update.check f) := by
  rintro s _ rfl
  unfold Update.check
  rw [same]
  cases f s with
  | ok a => exact .ok a rfl
  | error e => exact .error e rfl

theorem heedless_modify {f : Session → Session}
    (keeps : ∀ s, f (s.without struck revision) = (f s).without struck revision) :
    Heedless struck revision (modify f) :=
  inStep_modify fun _ _ related => by rw [related, keeps]

theorem heedless_record {entry : LogEntry} (other : entry.action ≠ struck) :
    Heedless struck revision (modify (·.record entry)) :=
  heedless_modify fun _ => record_without other

/-- What is read from the session is the same with and without failures. -/
theorem heedless_get {f : Session → Update α} (same : ∀ s, f (s.without struck revision) = f s)
    (rest : ∀ s, Heedless struck revision (f s)) : Heedless struck revision (get >>= f) := by
  refine inStep_get fun s s' related => ?_
  rw [related, same]
  exact rest s

/-- An update of the player in a seat. -/
theorem heedless_player {f : Player → Update α} (rest : ∀ p, Heedless struck revision (f p)) :
    Heedless struck revision fun s =>
      match s.player? player with
      | none => .error (.unknownPlayer player) s
      | some p => f p s := by
  rintro s _ rfl
  dsimp only [player?_without]
  cases s.player? player with
  | none => exact .error _ rfl
  | some p => exact rest p s _ rfl

/-- An update of a copy. -/
theorem heedless_instance {f : CardInstance → Update α}
    (rest : ∀ c, Heedless struck revision (f c)) :
    Heedless struck revision fun s =>
      match s.instance? copy with
      | none => .error (.unknownInstance copy) s
      | some c => f c s := by
  rintro s _ rfl
  dsimp only [instance?_without]
  cases s.instance? copy with
  | none => exact .error _ rfl
  | some c => exact rest c s _ rfl

end Rules

/-! ### Players and copies -/

theorem damagePlayer_heedless [struck.Mishap] (player : Seat) (amount : Int) (now : Nat) :
    Heedless struck revision (damagePlayer player amount now) := by
  refine heedless_player fun p => ?_
  rintro s _ rfl
  refine .ok _ ?_
  split
  · exact finish_without (s := s.modifyPlayer player fun _ => p.takeDamage amount)
  · rfl

theorem healPlayer_heedless (player : Seat) (amount : Int) :
    Heedless struck revision (healPlayer player amount) := by
  refine heedless_player fun p => ?_
  rintro s _ rfl
  exact .ok _ rfl

theorem payEnergy_heedless (player : Seat) (cost : Int) :
    Heedless struck revision (payEnergy player cost) := by
  refine heedless_player fun p => ?_
  rintro s _ rfl
  dsimp only
  cases p.spendEnergy cost with
  | error e => exact .error e rfl
  | ok p => exact .ok _ rfl

theorem gainEnergy_heedless [struck.Mishap] (player : Seat) (amount : Int) (now : Nat) :
    Heedless struck revision (gainEnergy player amount now) := by
  refine heedless_player fun p => ?_
  rintro s _ rfl
  exact .ok _ (record_without (s := s.modifyPlayer player fun _ => p.gainEnergy amount)
    (ne_mishap rfl))

theorem createInstance_heedless (owner : Seat) (d : CardDefinition) (zone : Zone)
    (position : Position) : Heedless struck revision (createInstance owner d zone position) := by
  refine heedless_player fun p => ?_
  rintro s _ rfl
  dsimp only [nextId_without]
  cases p.zones.push? zone s.nextId position with
  | none => exact .ok _ rfl
  | some zones => exact .ok _ rfl

theorem moveInstance_heedless (id : InstanceId) (source destination : Zone) :
    Heedless struck revision (moveInstance id source destination) := by
  refine heedless_instance fun c => heedless_player fun p => ?_
  rintro s _ rfl
  dsimp only
  cases p.zones.move id source destination .top with
  | moved zones => exact .ok _ rfl
  | absent => exact .error _ rfl
  | refused left => exact .error _ rfl

theorem drawCard_heedless [struck.Mishap] (player : Seat) (now : Nat) :
    Heedless struck revision (drawCard player now) := by
  refine heedless_player fun p => ?_
  rintro s _ rfl
  dsimp only
  cases p.zones.popTop? .deck with
  | none => exact .ok _ (record_without (ne_mishap rfl))
  | some top =>
    obtain ⟨id, rest⟩ := top
    exact .ok _ (record_without (s := s.setZones player ((rest.push? .hand id .top).getD rest))
      (ne_mishap rfl))

theorem shuffleDeck_heedless {random : Random.Source} (player : Seat) :
    Heedless struck revision (shuffleDeck player) := by
  refine heedless_player fun p => ?_
  rintro s _ rfl
  exact .ok _ rfl

theorem sapInstance_heedless (id : InstanceId) : Heedless struck revision (sapInstance id) := by
  refine heedless_instance fun c => ?_
  rintro s _ rfl
  exact .ok _ rfl

/-! ### Batches and sweeps -/

/-- An attempt of a heedless update comes out alike. -/
theorem attempt_without {α : Type} {u : Update α} (h : Heedless struck revision u) (s : Session) :
    (s.without struck revision).attempt u
      = Prod.map id (without struck revision) (s.attempt u) := by
  have paired := h s _ rfl
  unfold attempt
  generalize u s = r at paired ⊢
  generalize u (s.without struck revision) = r' at paired ⊢
  cases paired with
  | ok a related => rw [related]; rfl
  | error e related => rw [related]; rfl

theorem perform_without [struck.Mishap] (op : Operation) (now : Nat) (r : BatchReport)
    (s : Session) :
    (s.without struck revision).perform op now r
      = Prod.map id (without struck revision) (s.perform op now r) := by
  cases op with
  | damagePlayer player amount =>
    simp only [perform, attempt_without (damagePlayer_heedless player amount now)]
    rfl
  | healPlayer player amount =>
    simp only [perform, attempt_without (healPlayer_heedless player amount)]
    rfl
  | damageCard id amount =>
    simp only [perform, instance?_without]
    cases s.instance? id <;> rfl
  | healCard id amount greatest =>
    simp only [perform, instance?_without]
    cases s.instance? id <;> rfl
  | destroyCard id =>
    simp only [perform, instance?_without]
    cases s.instance? id <;> rfl
  | log player text => exact congrArg (Prod.mk r.apply) (record_without (ne_mishap rfl))
  | drawCard player =>
    simp only [perform, attempt_without (drawCard_heedless player now)]
    rfl
  | gainEnergy player amount =>
    simp only [perform, attempt_without (gainEnergy_heedless player amount now)]
    rfl

theorem applyOne_without [struck.Mishap] (now : Nat) (state : BatchReport × Session)
    (op : Operation) :
    applyOne now (Prod.map id (without struck revision) state) op
      = Prod.map id (without struck revision) (applyOne now state op) := by
  obtain ⟨r, s⟩ := state
  change (if s.isFinished then _ else if s.mayAct r.lethal op then _ else _) = _
  unfold applyOne
  dsimp only
  split
  · rfl
  · split
    · exact perform_without op now r s
    · rfl

/-- A batch of operations comes out alike. -/
theorem applyOperations_without [struck.Mishap] (ops : List Operation) (now : Nat) :
    (s.without struck revision).applyOperations ops now
      = Prod.map id (without struck revision) (s.applyOperations ops now) := by
  change ops.foldl (applyOne now) (Prod.map id (without struck revision) ({}, s)) = _
  exact List.foldl_hom _ (applyOne_without now)

theorem destroy_without (copy : InstanceId) (s : Session) :
    (s.without struck revision).destroy copy
      = Prod.map id (without struck revision) (s.destroy copy) := by
  unfold destroy
  dsimp only [instance?_without, player?_without]
  cases s.instance? copy with
  | none => rfl
  | some c =>
    dsimp only
    cases s.player? c.owner with
    | none => rfl
    | some p =>
      dsimp only
      cases p.zones.move copy .battlefield .graveyard .top <;> rfl

theorem bury_without [struck.Mishap] (catalog : Catalog) (now : Nat) (s : Session)
    (copy : InstanceId) : bury catalog now (s.without struck revision) copy
      = (bury catalog now s copy).without struck revision := by
  unfold bury
  dsimp only [instance?_without]
  cases s.instance? copy with
  | none => rfl
  | some c =>
    have other : (destroyEntry catalog c copy now).action ≠ struck := by
      unfold destroyEntry
      split <;> exact ne_mishap rfl
    simp only [destroy_without, Prod.map, id]
    split
    · exact record_without other
    · rfl

/-- The settling of a batch comes out alike, with what it destroys. -/
theorem settle_without [struck.Mishap] (catalog : Catalog) (ops : List Operation) (now : Nat) :
    (s.without struck revision).settle catalog ops now
      = (s.settle catalog ops now).without struck revision := by
  unfold settle
  rw [applyOperations_without]
  generalize s.applyOperations ops now = state
  change state.2.dead.foldl (bury catalog now) (state.2.without struck revision) = _
  exact List.foldl_hom _ (bury_without catalog now)

/-! ### Readings of the clock -/

/-- The time does not depend on how many failures are in the log. -/
theorem noted_without : (s.without .failure revision).noted = s.noted := by
  simp only [noted, without, List.countP_filter, Bool.and_self]

/-- The clock is read at the same time, since the failures of actions do not count. -/
theorem now_without (ctx : Context) : ctx.now (s.without .failure revision) = ctx.now s := by
  rw [Context.now, Context.now, noted_without]

/-- An entry is written at the same time in both sessions. -/
theorem record_now_without (ctx : Context) {entry : Nat → LogEntry}
    (other : ∀ now, (entry now).action ≠ .failure) :
    (s.without .failure revision).record (entry (ctx.now (s.without .failure revision)))
      = (s.record (entry (ctx.now s))).without .failure revision := by
  rw [now_without, record_without (other _)]

theorem strike_without (ctx : Context) (striker : Seat) (name : String) (victim : InstanceId)
    (amount : Int) : (s.without .failure revision).strike ctx striker name victim amount
      = (s.strike ctx striker name victim amount).without .failure revision := by
  unfold strike
  change (if s.onBattlefield victim then _ else _) = _
  split
  · simp only [now_without]
    rw [← settle_without, ← record_without]
    · rfl
    · exact ne_mishap rfl
  · rfl

/-! ### The start of the game -/

theorem requirePlayer_heedless (player : Seat) :
    Heedless struck revision (Update.check (requirePlayer player)) :=
  heedless_check fun _ => rfl

theorem materializeDeck_heedless (catalog : Catalog) (player : Seat) (deck : List CardId) :
    Heedless struck revision (materializeDeck catalog player deck) := by
  induction deck with
  | nil => exact inStep_pure ()
  | cons card cards ih =>
    refine inStep_bind (heedless_check fun _ => rfl) fun d => ?_
    exact inStep_bind (createInstance_heedless player d .deck .top) fun _ => ih

theorem dealDeck_heedless (ctx : Context) (player : Seat) :
    Heedless struck revision (dealDeck ctx player) := by
  refine inStep_bind (requirePlayer_heedless player) fun p => ?_
  refine inStep_ite (fun _ => inStep_throw _) fun _ => ?_
  refine inStep_bind (materializeDeck_heedless ctx.catalog player p.deckList) fun _ => ?_
  exact shuffleDeck_heedless player

theorem drawCards_heedless [struck.Mishap] (player : Seat) (now n : Nat) :
    Heedless struck revision (drawCards player now n) := by
  induction n with
  | zero => exact inStep_pure ()
  | succ n ih => exact inStep_bind (drawCard_heedless player now) fun _ => ih

theorem forSeats_heedless {step : Seat → Update Unit}
    (each : ∀ seat, Heedless struck revision (step seat)) (seats : List Seat) :
    Heedless struck revision (forSeats step seats) := by
  induction seats with
  | nil => exact inStep_pure ()
  | cons seat seats ih => exact inStep_bind (each seat) fun _ => ih

/-- The start of a game does not heed failures. -/
theorem openGame_heedless (ctx : Context) (starting : Seat) :
    Heedless .failure revision (openGame ctx starting) := by
  refine inStep_bind (heedless_check fun _ => rfl) fun _ => ?_
  refine inStep_bind (requirePlayer_heedless starting) fun _ => ?_
  refine heedless_get (fun _ => rfl) fun s => ?_
  refine inStep_bind (forSeats_heedless (dealDeck_heedless ctx) _) fun _ => ?_
  refine heedless_get (fun _ => by simp only [now_without]) fun m => ?_
  refine inStep_bind
    (forSeats_heedless (fun seat => drawCards_heedless seat (ctx.now m) _) _) fun _ => ?_
  refine inStep_bind (heedless_modify fun _ => rfl) fun _ => ?_
  refine inStep_bind (requirePlayer_heedless starting) fun _ => ?_
  exact heedless_record (ne_mishap rfl)

/-! ### The change of turn -/

theorem refreshBattlefield_without (player : Seat) :
    (s.without struck revision).refreshBattlefield player
      = (s.refreshBattlefield player).without struck revision := by
  change (s.battlefield player).foldl _ (s.without struck revision) = _
  exact List.foldl_hom _ fun _ _ => rfl

theorem healCreature_without (catalog : Catalog) (amount : Int) (state : Int × Session)
    (copy : InstanceId) :
    healCreature catalog amount (Prod.map id (without struck revision) state) copy
      = Prod.map id (without struck revision) (healCreature catalog amount state copy) := by
  obtain ⟨total, s⟩ := state
  unfold healCreature
  dsimp only [Prod.map, instance?_without]
  cases s.instance? copy with
  | none => rfl
  | some c =>
    dsimp only
    cases catalog.get? c.card with
    | none => rfl
    | some d =>
      dsimp only
      split <;> rfl

theorem healCreatures_without (catalog : Catalog) (player : Seat) (amount : Int) :
    (s.without struck revision).healCreatures catalog player amount
      = Prod.map id (without struck revision) (s.healCreatures catalog player amount) := by
  change (s.battlefield player).foldl _ (Prod.map id (without struck revision) (0, s)) = _
  exact List.foldl_hom _ (healCreature_without catalog amount)

theorem passTurn_heedless [struck.Mishap] (now : Nat) :
    Heedless struck revision (passTurn now) := by
  refine inStep_get fun s s' related => ?_
  subst related
  -- the session that was read is written back, with its log: only the seat is the same
  cases seat : s.players.nextSeat s.current with
  | mk next wrapped =>
    have seat' : (s.without struck revision).players.nextSeat (s.without struck revision).current
        = (next, wrapped) := seat
    simp only [seat']
    refine inStep_bind (inStep_set rfl) fun _ => ?_
    refine inStep_bind (requirePlayer_heedless next) fun _ => ?_
    exact inStep_bind (heedless_record (ne_mishap rfl)) fun _ => inStep_pure _

theorem renewEnergy_heedless (config : Config) (player : Seat) (wrapped : Bool) :
    Heedless struck revision (renewEnergy config player wrapped) := by
  refine inStep_ite (fun _ => heedless_modify fun _ => rfl) fun _ => ?_
  exact inStep_bind (requirePlayer_heedless player) fun _ => heedless_modify fun _ => rfl

/-! ### Cards and decks -/

theorem enterPlay_heedless (ctx : Context) (player : Seat) (copy : InstanceId)
    (d : CardDefinition) : Heedless .failure revision (enterPlay ctx player copy d) := by
  refine inStep_bind (payEnergy_heedless player d.cost) fun _ => ?_
  refine inStep_bind (moveInstance_heedless copy .hand .battlefield) fun _ => ?_
  refine inStep_bind (heedless_check fun _ => rfl) fun _ => ?_
  refine inStep_bind (heedless_modify fun _ => rfl) fun _ => ?_
  refine inStep_bind (requirePlayer_heedless player) fun _ => ?_
  refine heedless_get (fun _ => rfl) fun _ => heedless_modify fun _ => ?_
  exact record_now_without ctx fun _ => ne_mishap rfl

theorem resolveSpell_heedless (ctx : Context) (player : Seat) (copy : InstanceId)
    (d : CardDefinition) (ops : List Operation) :
    Heedless .failure revision (resolveSpell ctx player copy d ops) := by
  refine inStep_bind (payEnergy_heedless player d.cost) fun _ => ?_
  refine inStep_bind (moveInstance_heedless copy .hand .graveyard) fun _ => ?_
  refine inStep_bind (requirePlayer_heedless player) fun _ => ?_
  refine heedless_get (fun _ => by simp only [now_without]) fun m => ?_
  refine inStep_bind (heedless_record (ne_mishap rfl)) fun _ => ?_
  exact heedless_modify fun _ => settle_without ctx.catalog ops (ctx.now m)

theorem submitDeck_heedless (catalog : Catalog) (player : Seat) (deck : List CardId) :
    Heedless struck revision (submitDeck catalog player deck) := by
  refine inStep_bind (heedless_check fun _ => rfl) fun _ => ?_
  refine inStep_bind (requirePlayer_heedless player) fun _ => ?_
  refine inStep_ite (fun _ => inStep_throw _) fun _ => ?_
  refine inStep_ite (fun _ => inStep_throw _) fun _ => ?_
  refine inStep_bind (heedless_check fun _ => rfl) fun _ => ?_
  refine inStep_bind (heedless_modify fun _ => rfl) fun _ => ?_
  exact heedless_get (fun _ => rfl) fun _ => inStep_pure _

end Session

end CardBattle
