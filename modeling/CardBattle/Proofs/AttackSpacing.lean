import CardBattle.Proofs.AcceptedCalls
import CardBattle.Proofs.CopyChanges
import CardBattle.Proofs.GameOver
import CardBattle.Proofs.WellFormed

/-!
# One attack a turn

A creature that attacks is sapped, and so is one that comes into play. Only the start of a turn of
its owner makes it ready again: no script, trigger, heal or sweep does. Between two attacks of one
creature, and between its coming into play and its first attack, there is therefore the end of a
turn that passed the turn to its owner.
-/

namespace CardBattle

open Relation

namespace Call

def attacker? : Call → Option InstanceId
  | .attackPlayer _ attacker _ => some attacker
  | .attackCard _ attacker _ => some attacker
  | _ => none

/-- A call after which a creature needs rest: its attack, or its coming into play. -/
def Tires (call : Call) (a : InstanceId) : Prop :=
  call.attacker? = some a ∨ ∃ player, call = .playCard player a

end Call

/-- The deed ended a turn and made the owner of a copy the current player. -/
def Deed.Wakes (d : Deed) (a : InstanceId) : Prop :=
  ∃ player c, d.call = .endTurn player ∧ d.after.instance? a = some c ∧
    d.before.current ≠ c.owner ∧ d.after.current = c.owner

def resting (a : InstanceId) : Condition := fun id c d zone =>
  id = a → zone = .battlefield → d.kind = .creature → c.sapped = true

theorem lasts_resting (K : Catalog) (a : InstanceId) : (resting a).Lasts K where
  draw := fun _ _ _ _ _ inPlay => nomatch inPlay
  cast := fun _ _ _ _ _ inPlay => nomatch inPlay
  enter := by
    intro id c d _ _ _ _ _ creature
    simp [CardInstance.entering, creature]
  heal := fun _ _ _ _ rests => rests
  sap := fun _ _ _ _ _ _ _ => rfl
  bury := fun _ _ _ _ _ inPlay => nomatch inPlay

namespace Session

variable {config : Config} {K : Catalog} {s s' : Session} {a : InstanceId} {player : Seat}

abbrev Rests (K : Catalog) (a : InstanceId) (s : Session) : Prop :=
  s.Suits (resting a) K

/-! ### Within a turn -/

theorem rests_of_zone (out : s.zoneOf? a ≠ some .battlefield) : s.Rests K a := by
  rintro id c d zone - - hz rfl rfl
  exact absurd hz out

theorem rests_of_sap : (s.modifyInstance a CardInstance.sap).Rests K a := by
  rintro id c d zone hc - - rfl - -
  rw [instance?_modifyInstance_self] at hc
  obtain ⟨c', -, rfl⟩ := Option.map_eq_some_iff.mp hc
  rfl

/-- No step within a turn wakes a creature. -/
theorem Steps.rests (housed : s.Housed) (h : s.Rests K a) (steps : Steps K s s') :
    s'.Rests K a := by
  refine Steps.preserves (P := fun m => m.Rests K a) ?_ ?_ housed h steps
  · exact fun _ _ housed rests change => change.suits (lasts_resting K a) housed rests
  · intro _ _ housed rests harm
    exact harm.suits (fun _ _ _ _ rests => rests) (fun _ _ _ rests => rests) housed rests

/-! ### Turns of others -/

theorem foldl_refresh_rests (ids : List InstanceId) (housed : s.Housed) (h : s.Rests K a)
    (mem : ∀ id ∈ ids, id ∈ s.battlefield player)
    (other : ∀ c, s.instance? a = some c → c.owner ≠ player) :
    (ids.foldl (fun s id => s.modifyInstance id CardInstance.refresh) s).Rests K a := by
  induction ids generalizing s with
  | nil => exact h
  | cons id ids ih =>
    have inPlay := mem id List.mem_cons_self
    have later : Continues K s (s.modifyInstance id CardInstance.refresh) :=
      housed.modify_in_play inPlay fun _ => ⟨rfl, rfl, rfl⟩
    refine ih (later.housed housed) ?_ (fun id' h => mem id' (List.mem_cons_of_mem _ h)) ?_
    · refine h.in_play housed inPlay (fun _ => ⟨rfl, rfl, rfl⟩) ?_
      rintro c d hc - own - rfl
      exact absurd own (other c hc)
    · intro e he
      obtain ⟨c, hc, ce⟩ := later.instance?_before he
      rw [ce.owner]
      exact other c hc

/-- The start of a turn wakes nobody else's creatures. -/
theorem refreshBattlefield_rests (housed : s.Housed) (h : s.Rests K a)
    (other : ∀ c, s.instance? a = some c → c.owner ≠ player) :
    (s.refreshBattlefield player).Rests K a :=
  foldl_refresh_rests _ housed h (fun _ mem => mem) other

theorem rests_renewEnergy {wrapped : Bool} (h : s.Rests K a)
    (ran : renewEnergy config player wrapped s = .ok () s') : s'.Rests K a := by
  rcases renewEnergy_ok_iff.mp ran with ⟨-, rfl⟩ | ⟨-, -, rfl⟩
  · refine h.of_same (fun _ => rfl) fun id => zoneOf?_congr rfl fun seat => ?_
    rw [player?_map, Option.map_map]
    rfl
  · exact h.of_same (fun _ => rfl) fun id => zoneOf?_modifyPlayer s fun _ => rfl

theorem Annotates.rests (h : Annotates s s') (rests : s.Rests K a) : s'.Rests K a :=
  rests.of_same h.instance? h.zoneOf?

theorem Waiting.rests (h : s.Waiting config) : s.Rests K a := by
  intro id c d zone hc
  rw [h.noCopy] at hc
  cases hc

theorem Opened.rests {starting : Seat} (h : Opened K starting s s') : s'.Rests K a := by
  refine rests_of_zone fun inPlay => ?_
  obtain ⟨c, -, hc, -⟩ := zoneOf?_eq_some_iff.mp inPlay
  rcases h.dealt.unplayed a c hc with deck | hand
  · cases inPlay.symm.trans deck
  · cases inPlay.symm.trans hand

end Session

namespace Play

open Session

variable {K : Catalog} {ctx : Context} {t t' : Table} {a : InstanceId} {u : Unit}

/-- The end of a turn makes nothing ready that does not belong to the next player. -/
theorem endTurn_rests (known : ctx.catalog.Within K) (housed : t.session.Housed)
    (h : t.session.Rests K a) (other : ∀ c, t.session.instance? a = some c →
      c.owner ≠ (t.session.players.nextSeat t.session.current).1)
    (ran : endTurn ctx t = .ok u t') : t'.session.Rests K a := by
  obtain ⟨-, s₁, first, stops | ⟨-, next, s₂, s₃, passed, second, rest⟩⟩ := endTurn_parts known ran
  · rw [stops.2]
    exact first.rests housed h
  have toPass := first.continues housed
  have passes : Continues K s₁ s₂ := continues_passTurn passed
  have housed₂ := passes.housed (toPass.housed housed)
  obtain ⟨p, -, seat, rfl⟩ := passTurn_ok_iff.mp passed
  rw [first.nextSeat housed] at seat
  rw [← seat] at other
  have begins := second.rests housed₂ ((first.rests housed h).of_same (fun _ => rfl) fun _ => rfl)
  rcases rest with stops | ⟨going, drawn, s₄, s₅, draws, healed, renewed⟩
  · rw [stops.2]
    exact begins
  have housed₃ := (second.continues housed₂).housed housed₂
  have drew : Change K s₃ s₄ := .draw going draws
  have toDraw := ((toPass.trans passes).trans (second.continues housed₂)).trans
    (drew.continues housed₃)
  have housed₄ := toDraw.housed housed
  have refreshed : (s₄.refreshBattlefield next.1).Rests K a := by
    refine refreshBattlefield_rests housed₄ (drew.suits (lasts_resting K a) housed₃ begins) ?_
    intro e he
    obtain ⟨c, hc, ce⟩ := toDraw.instance?_before he
    rw [ce.owner]
    exact other c hc
  have stages : Stages ctx.config K s₄ (s₄.refreshBattlefield next.1) :=
    refreshBattlefield_stages next.1 (status_drawCard draws ▸ going)
  have going₅ : (s₄.refreshBattlefield next.1).status ≠ .finished := by
    rw [refreshBattlefield_rest]
    exact status_drawCard draws ▸ going
  have heals := (Session.healCreatures_steps known next.1 ctx.config.creatureRegen going₅).1
  rw [← healed] at heals
  exact rests_renewEnergy
    (heals.rests ((Stages.continues housed₄ stages).housed housed₄) refreshed) renewed

end Play

namespace Call

open Session

variable {K : Catalog} {ctx : Context} {t t' : Table} {call : Call} {a : InstanceId} {u : Unit}

/-- An attack saps the attacker before anything else is done. -/
theorem attack_steps (known : ctx.catalog.Within K) (attacks : call.attacker? = some a)
    (ran : call.play ctx t = .ok u t') :
    (∃ player d, requireAttacker ctx player a t.session = .ok d) ∧
      Steps K (t.session.modifyInstance a CardInstance.sap) t'.session := by
  cases call with
  | attackPlayer player attacker target =>
    cases attacks
    obtain ⟨⟨d, ready⟩, steps⟩ := Play.attackPlayerWith_steps known ran
    exact ⟨⟨player, d, ready⟩, steps⟩
  | attackCard player attacker defender =>
    cases attacks
    obtain ⟨⟨d, ready⟩, steps⟩ := Play.attackCardWith_steps known ran
    exact ⟨⟨player, d, ready⟩, steps⟩
  | _ => cases attacks

/-- A creature that rests cannot attack. -/
theorem not_rests_of_attack (known : ctx.catalog.Within K) (attacks : call.attacker? = some a)
    (ran : call.play ctx t = .ok u t') : ¬t.session.Rests K a := by
  intro rests
  obtain ⟨⟨player, d, ready⟩, -⟩ := attack_steps known attacks ran
  obtain ⟨-, ⟨c, hc, -, inPlay, fresh, hd⟩, creature⟩ := requireAttacker_ok_iff.mp ready
  have sapped := rests a c d .battlefield hc (known _ _ hd) inPlay rfl rfl creature
  rw [fresh] at sapped
  cases sapped

/-- After an attack the attacker rests, and so does a card that was played. -/
theorem rests_of_tires (known : ctx.catalog.Within K) (housed : t.session.Housed)
    (tires : call.Tires a) (ran : call.play ctx t = .ok u t') : t'.session.Rests K a := by
  rcases tires with attacks | ⟨player, rfl⟩
  · obtain ⟨⟨player, d, ready⟩, steps⟩ := attack_steps known attacks ran
    obtain ⟨-, ⟨c, hc, -, inPlay, -⟩, -⟩ := requireAttacker_ok_iff.mp ready
    obtain ⟨_, -, mem⟩ := mem_battlefield_of_zone inPlay
    have sapped : Continues K t.session (t.session.modifyInstance a CardInstance.sap) :=
      housed.modify_in_play mem fun _ => ⟨rfl, rfl, rfl⟩
    exact steps.rests (sapped.housed housed) rests_of_sap
  · have ran' := ran
    simp only [play, Play.playCard, bind_ok_iff, Play.check_ok_iff, requireOwnedIn_ok_iff] at ran'
    obtain ⟨_, _, ⟨-, rfl⟩, c, _, ⟨⟨-, -, inHand⟩, rfl⟩, -⟩ := ran'
    refine (Play.playCard_steps known ran).rests housed (rests_of_zone ?_)
    rw [inHand]
    decide

end Call

/-! ### Deeds -/

/-- The creature has needed rest since some deed, and nothing has woken it. -/
def Tired (a : InstanceId) (deeds : List Deed) : Prop :=
  ∃ past d between, deeds = past ++ d :: between ∧ d.call.Tires a ∧ ∀ e ∈ between, ¬e.Wakes a

def Spaced (a : InstanceId) (deeds : List Deed) : Prop :=
  ∀ past d between d' future, deeds = past ++ d :: between ++ d' :: future →
    d.call.Tires a → d'.call.attacker? = some a → ∃ e ∈ between, e.Wakes a

section Deeds

variable {a : InstanceId} {deeds : List Deed} {d : Deed}

/-- A creature is tired after a deed if the deed tired it, or if it was tired and was not woken. -/
theorem Tired.of_concat (h : Tired a (deeds ++ [d])) :
    d.call.Tires a ∨ Tired a deeds ∧ ¬d.Wakes a := by
  obtain ⟨past, d', between, split, tires, asleep⟩ := h
  rcases List.eq_nil_or_concat between with rfl | ⟨between, e, rfl⟩
  · obtain ⟨-, last⟩ := List.append_inj' split rfl
    cases last
    exact Or.inl tires
  · rw [List.concat_eq_append, ← List.cons_append, ← List.append_assoc] at split
    obtain ⟨rest, last⟩ := List.append_inj' split rfl
    cases last
    refine Or.inr ⟨⟨past, d', between, rest, tires, fun e mem => asleep e ?_⟩, asleep d ?_⟩
    · simp [mem]
    · simp

/-- Attacks stay spaced if the creature that makes the next one is not tired. -/
theorem Spaced.concat (h : Spaced a deeds)
    (ready : d.call.attacker? = some a → ¬Tired a deeds) : Spaced a (deeds ++ [d]) := by
  intro past d₁ between d₂ future split tires attacks
  rcases List.eq_nil_or_concat future with rfl | ⟨future, e, rfl⟩
  · obtain ⟨rest, last⟩ := List.append_inj' split rfl
    cases last
    by_contra asleep
    exact ready attacks ⟨past, d₁, between, rest, tires, fun e mem wakes => asleep ⟨e, mem, wakes⟩⟩
  · rw [List.concat_eq_append, ← List.cons_append, ← List.append_assoc] at split
    obtain ⟨rest, -⟩ := List.append_inj' split rfl
    exact h past d₁ between d₂ future rest tires attacks

end Deeds

namespace Session

variable {config : Config} {K : Catalog} {s s' : Session} {a : InstanceId} {deeds : List Deed}
  {d : Deed}

/-- The attacks so far were spaced, and the creature rests while it needs to. -/
structure Paced (K : Catalog) (a : InstanceId) (deeds : List Deed) (s : Session) : Prop where
  rests : Tired a deeds → s.Rests K a
  spaced : Spaced a deeds

theorem paced_of_nothing : s.Paced K a [] where
  rests := by
    rintro ⟨past, d, between, split, -⟩
    simp at split
  spaced := by
    intro past d between d' future split
    simp at split

/-- A deed that does not wake a resting creature lets it rest. -/
theorem Rests.done (definitions : K.Sound) (reachable : Reachable config K d.before)
    (h : d.before.Rests K a) (asleep : ¬d.Wakes a) (done : d.Done config K) :
    d.after.Rests K a := by
  obtain ⟨ctx, asked, asked', m, rfl, known, other, ran, after⟩ := done
  have housed := reachable.housed definitions
  have annotates : m.Annotates d.after := after ▸ .revision m _
  refine annotates.rests ?_
  cases call : d.call with
  | startWithDeck player deck =>
    rw [call] at ran
    have waiting := reachable.waiting definitions (Call.waiting_of_play ran)
    rcases (Call.effect_of_play known (by simp) ran).of_waiting definitions waiting with
      waiting' | ⟨m₁, -, opened⟩
    · exact waiting'.rests
    · exact opened.rests
  | endTurn player =>
    rw [call] at ran
    obtain ⟨_, _, checked, ended⟩ := bind_ok_iff.mp ran
    obtain ⟨-, rfl⟩ := Play.check_ok_iff.mp checked
    rcases Play.endTurn_passes known housed ended with steps | passed
    · exact steps.rests housed h
    refine Play.endTurn_rests known housed h (fun c hc own => asleep ?_) ended
    have later := Stages.continues housed (Play.endTurn_stages known ended)
    obtain ⟨e, he, ce⟩ := later.cards a c hc
    have next : d.after.current = e.owner := by
      rw [annotates.current, ce.owner, own]
      exact passed
    have inside := (SeatMap.contains_iff _ _).mp (reachable.active definitions)
    refine ⟨player, e, call, (annotates.instance? a).trans he, ?_, next⟩
    rw [ce.owner, own]
    exact (SeatMap.nextSeat_ne inside housed.few (reachable.ending definitions).many).symm
  | _ =>
    rw [call] at ran other
    have playing := Call.playing_of_play known other (by simp) ran
    exact (Call.steps_of_play known playing (by simp) ran).rests housed h

/-- Every deed keeps the attacks of a creature spaced. -/
theorem Paced.done (definitions : K.Sound) (reachable : Reachable config K d.before)
    (h : d.before.Paced K a deeds) (done : d.Done config K) :
    d.after.Paced K a (deeds ++ [d]) where
  rests := by
    intro tired
    rcases tired.of_concat with tires | ⟨tired, asleep⟩
    · obtain ⟨ctx, asked, asked', m, rfl, known, other, ran, after⟩ := done
      have rests := Call.rests_of_tires known (reachable.housed definitions) tires ran
      rw [after]
      exact (Annotates.revision m _).rests rests
    · exact (h.rests tired).done definitions reachable asleep done
  spaced := by
    obtain ⟨ctx, asked, asked', m, rfl, known, other, ran, -⟩ := done
    exact h.spaced.concat fun attacks tired =>
      Call.not_rests_of_attack known attacks ran (h.rests tired)

end Session

namespace Site

variable {config : Config} {site : Site} {id : SessionId} {s : Session}

/-- Whatever is done after a new game: where a creature attacks after an attack of its own, or after
it was played, a turn was ended in between that made its owner the current player. -/
theorem attacks_spaced (new : site.New config) (moves : List Move) (follows : site.Follows id)
    (found : (site.run moves).world.documents.find? id = some s) (a : InstanceId)
    {past between future : List Deed} {d d' : Deed}
    (split : site.deeds id moves = past ++ d :: between ++ d' :: future)
    (first : d.call.attacker? = some a ∨ ∃ player, d.call = .playCard player a)
    (second : d'.call.attacker? = some a) : ∃ e ∈ between, e.Wakes a := by
  have definitions := new.definitions moves
  have paced := new.deeds_induct (P := Session.Paced _ a) follows
    (fun _ _ => Session.paced_of_nothing) (fun _ _ _ _ paced annotates => ?_)
    (fun _ _ reachable paced done => paced.done definitions reachable done)
    moves (Catalog.Within.refl _) found
  · exact paced.spaced past d between d' future split first second
  · exact ⟨fun tired => annotates.rests (paced.rests tired), paced.spaced⟩

/-- Ann's wolf bites in her second turn, after Bob has ended his first. -/
theorem hunt_spaced : ∃ past between d d', duel.deeds ⟨1⟩ hunt = past ++ d :: between ++ [d'] ∧
    d.call = .playCard ⟨0⟩ ⟨1⟩ ∧ d'.call = .attackPlayer ⟨0⟩ ⟨1⟩ ⟨1⟩ ∧
    ∃ e ∈ between, e.Wakes ⟨1⟩ := by
  have calls : (duel.deeds ⟨1⟩ hunt).map (·.call) = [.startWithDeck ⟨0⟩ [⟨1⟩],
      .startWithDeck ⟨1⟩ [⟨1⟩], .playCard ⟨0⟩ ⟨1⟩, .endTurn ⟨0⟩, .endTurn ⟨1⟩,
      .attackPlayer ⟨0⟩ ⟨1⟩ ⟨1⟩] := by
    decide +kernel
  obtain ⟨s, found, -⟩ := Option.map_eq_some_iff.mp status_hunt
  simp only [List.map_eq_cons_iff, List.map_eq_nil_iff] at calls
  obtain ⟨d₁, _, split, -, d₂, _, rfl, -, d₃, _, rfl, played, d₄, _, rfl, -, d₅, _, rfl, -, d₆, _,
    rfl, attacked, rfl⟩ := calls
  have split : duel.deeds ⟨1⟩ hunt = [d₁, d₂] ++ d₃ :: [d₄, d₅] ++ d₆ :: [] := split
  refine ⟨_, _, d₃, d₆, split, played, attacked, ?_⟩
  have attacker : d₆.call.attacker? = some ⟨1⟩ := by
    rw [attacked]
    rfl
  exact attacks_spaced duel_new hunt (Nat.le_refl 1) found ⟨1⟩ split (Or.inr ⟨⟨0⟩, played⟩) attacker

end Site

end CardBattle
