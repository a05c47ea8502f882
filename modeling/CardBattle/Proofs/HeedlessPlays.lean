import CardBattle.Engine
import CardBattle.Proofs.HeedlessScripts

/-!
# Calls that do not heed failures

With a chooser that pays no regard to earlier requests, the rule of every call does to a session
what it does to the same session without its failures: abilities and spells end alike, and the rest
is composed of checks and updates that heed no failures.
-/

namespace CardBattle

/-- The step does the same at two tables if the session of one is that of the other without its
failures, and leaves such tables behind. -/
abbrev Play.Heedless {α : Type} (revision : Nat) (p : Play α) : Prop :=
  InStep (fun t t' : Table => t'.session = t.session.without .failure revision) p p

namespace Context

variable {ctx : Context} {revision : Nat} {t t' : Table}

/-! ### Abilities -/

/-- A script does the same whether or not earlier failures are in the log. -/
theorem invoke_without {struck : LogAction} (memoryless : ctx.chooser.Memoryless)
    (script : Script) (i : Invocation)
    (related : t'.session = t.session.without struck revision) :
    (ctx.invoke script i t').1 = (ctx.invoke script i t).1 := by
  have scene : ctx.scene t' i = (ctx.scene t i).without struck revision := by
    rw [scene, related]
    rfl
  have memoryless : (ctx.scene t i).chooser.Memoryless := memoryless
  change (script.invoke (ctx.scene t' i) t'.asked).1 = (script.invoke (ctx.scene t i) t.asked).1
  rw [scene, Script.invoke_without memoryless]

theorem runAbility_without (memoryless : ctx.chooser.Memoryless) (d : CardDefinition)
    (o : Occasion) (a : Ability) (related : t'.session = t.session.without .failure revision) :
    (ctx.runAbility d o a t').2.session
      = (ctx.runAbility d o a t).2.session.without .failure revision := by
  have same := invoke_without memoryless a.effect ⟨.ability, o.player, some o.card, o.damage⟩
    related
  have clock : ctx.now t'.session = ctx.now t.session := by rw [related, Session.now_without]
  unfold runAbility
  dsimp only
  rw [same, clock]
  cases (ctx.invoke a.effect ⟨.ability, o.player, some o.card, o.damage⟩ t).1 with
  | completed ops =>
    change (t'.session.record _).settle _ _ _ = ((t.session.record _).settle _ _ _).without _ _
    rw [← Session.settle_without, ← Session.record_without, related]
    nofun
  | declined =>
    change t'.session.record _ = (t.session.record _).without _ _
    rw [← Session.record_without, related]
    nofun
  | failed error =>
    change t'.session.record _ = (t.session.record _).without _ _
    rw [← Session.record_without, related]
    nofun

theorem runAbilities_without (memoryless : ctx.chooser.Memoryless) (d : CardDefinition)
    (o : Occasion) (abilities : List Ability)
    (related : t'.session = t.session.without .failure revision) :
    (ctx.runAbilities d o abilities t').2.session
      = (ctx.runAbilities d o abilities t).2.session.without .failure revision := by
  induction abilities generalizing t t' with
  | nil => exact related
  | cons a rest ih =>
    have stops : (t'.session.isFinished || !t'.session.onBattlefield o.card)
        = (t.session.isFinished || !t.session.onBattlefield o.card) := by
      rw [related]
      rfl
    simp only [runAbilities, stops]
    split
    · exact related
    · exact ih (runAbility_without memoryless d o a related)

/-- The abilities of a card do the same whether or not earlier failures are in the log. -/
theorem triggerCard_without (memoryless : ctx.chooser.Memoryless) (event : TriggerEvent)
    (o : Occasion) (related : t'.session = t.session.without .failure revision) :
    (ctx.triggerCard event o t').2.session
      = (ctx.triggerCard event o t).2.session.without .failure revision := by
  have same : t'.session.instance? o.card = t.session.instance? o.card := by
    rw [related]
    rfl
  unfold triggerCard
  rw [same]
  cases t.session.instance? o.card with
  | none => exact related
  | some c =>
    dsimp only
    split
    · cases ctx.catalog.get? c.card with
      | none => exact related
      | some d => exact runAbilities_without memoryless d o _ related
    · exact related

theorem triggerCards_without (memoryless : ctx.chooser.Memoryless) (event : TriggerEvent)
    (player : Seat) (cards : List InstanceId)
    (related : t'.session = t.session.without .failure revision) :
    (ctx.triggerCards event player cards t').2.session
      = (ctx.triggerCards event player cards t).2.session.without .failure revision := by
  induction cards generalizing t t' with
  | nil => exact related
  | cons card rest ih =>
    have stops : t'.session.isFinished = t.session.isFinished := by
      rw [related]
      rfl
    simp only [triggerCards, stops]
    split
    · exact related
    · exact ih (triggerCard_without memoryless event _ related)

theorem triggerAll_without (memoryless : ctx.chooser.Memoryless) (event : TriggerEvent)
    (player : Seat) (related : t'.session = t.session.without .failure revision) :
    (ctx.triggerAll event player t').2.session
      = (ctx.triggerAll event player t).2.session.without .failure revision := by
  have battlefield : t'.session.battlefield player = t.session.battlefield player := by
    rw [related]
    rfl
  unfold triggerAll
  rw [battlefield]
  exact triggerCards_without memoryless event player _ related

end Context

namespace Play

open Session

variable {ctx : Context} {revision : Nat}

/-! ### Rules -/

section Rules

variable {α : Type}

theorem heedless_update {u : Update α} (h : u.Heedless .failure revision) :
    Heedless revision (update u) := by
  intro t t' related
  have paired := h t.session t'.session related
  unfold update
  generalize u t.session = r at paired ⊢
  generalize u t'.session = r' at paired ⊢
  cases paired with
  | ok a related => exact .ok a related
  | error e related => exact .error e related

/-- A check that looks at neither the failures nor the revision is heedless of them. -/
theorem heedless_check {f : Session → Except GameError α}
    (same : ∀ s, f (s.without .failure revision) = f s) : Heedless revision (check f) := by
  intro t t' related
  unfold check
  rw [related, same]
  cases f t.session with
  | ok a => exact .ok a related
  | error e => exact .error e related

theorem heedless_view {f : Session → α} (same : ∀ s, f (s.without .failure revision) = f s) :
    Heedless revision (view f) := by
  intro t t' related
  unfold view
  rw [related, same]
  exact .ok _ related

theorem heedless_change {f : Session → Session}
    (keeps : ∀ s, f (s.without .failure revision) = (f s).without .failure revision) :
    Heedless revision (change f) := by
  intro t t' related
  refine .ok () ?_
  dsimp only
  rw [related, keeps]

theorem heedless_record {entry : LogEntry} (other : entry.action ≠ .failure) :
    Heedless revision (change (·.record entry)) :=
  heedless_change fun _ => record_without other

theorem heedless_note {entry : Nat → LogEntry} (other : ∀ now, (entry now).action ≠ .failure) :
    Heedless revision (change fun s => s.record (entry (ctx.now s))) :=
  heedless_change fun _ => record_now_without ctx other

theorem heedless_now : Heedless revision (view ctx.now) :=
  heedless_view fun _ => now_without ctx

theorem heedless_fire (memoryless : ctx.chooser.Memoryless) (event : TriggerEvent)
    (o : Occasion) : Heedless revision (fire ctx event o) :=
  fun _ _ related => .ok () (Context.triggerCard_without memoryless event o related)

theorem heedless_fireAll (memoryless : ctx.chooser.Memoryless) (event : TriggerEvent)
    (player : Seat) : Heedless revision (fireAll ctx event player) :=
  fun _ _ related => .ok () (Context.triggerAll_without memoryless event player related)

theorem heedless_invoke (memoryless : ctx.chooser.Memoryless) (script : Script)
    (i : Invocation) : Heedless revision (modifyGet (ctx.invoke script i)) :=
  inStep_modifyGet fun _ _ related =>
    ⟨Context.invoke_without memoryless script i related, related⟩

theorem heedless_requireTurn (player : Seat) : Heedless revision (check (requireTurn player)) :=
  heedless_check fun _ => rfl

theorem heedless_requirePlayer (player : Seat) :
    Heedless revision (check (requirePlayer player)) :=
  heedless_check fun _ => rfl

theorem heedless_requireInstance (id : InstanceId) :
    Heedless revision (check (requireInstance id)) :=
  heedless_check fun _ => rfl

theorem heedless_requireDefinition (id : InstanceId) :
    Heedless revision (check (requireDefinition ctx.catalog id)) :=
  heedless_check fun _ => rfl

theorem heedless_isFinished : Heedless revision (view (·.isFinished)) :=
  heedless_view fun _ => rfl

end Rules

/-! ### Cards -/

/-- A spell is cast alike with and without the failures in the log. -/
theorem castSpell_heedless (memoryless : ctx.chooser.Memoryless) (player : Seat)
    (id : InstanceId) : Heedless revision (castSpell ctx player id) := by
  refine inStep_bind (heedless_requireTurn player) fun _ => ?_
  refine inStep_bind (heedless_check fun _ => rfl) fun _ => ?_
  refine inStep_bind (heedless_requireDefinition id) fun d => ?_
  refine inStep_bind (heedless_check fun _ => rfl) fun script => ?_
  refine inStep_bind (heedless_invoke memoryless script _) fun outcome => ?_
  cases outcome with
  | completed ops => exact heedless_update (resolveSpell_heedless ctx player id d ops)
  | declined => exact inStep_throw _
  | failed error => exact inStep_throw _

theorem playCard_heedless (memoryless : ctx.chooser.Memoryless) (player : Seat)
    (id : InstanceId) : Heedless revision (playCard ctx player id) := by
  refine inStep_bind (heedless_requireTurn player) fun _ => ?_
  refine inStep_bind (heedless_check fun _ => rfl) fun _ => ?_
  refine inStep_bind (heedless_requireDefinition id) fun d => ?_
  refine inStep_ite (fun _ => castSpell_heedless memoryless player id) fun _ => ?_
  refine inStep_bind (heedless_update (enterPlay_heedless ctx player id d)) fun _ => ?_
  exact heedless_fire memoryless _ _

/-! ### Attacks -/

theorem attackPlayer_heedless (memoryless : ctx.chooser.Memoryless) (attacker : InstanceId)
    (target : Seat) : Heedless revision (attackPlayer ctx attacker target) := by
  refine inStep_bind (heedless_requireDefinition attacker) fun d => ?_
  refine inStep_bind (heedless_requireInstance attacker) fun _ => ?_
  refine inStep_bind (heedless_view fun _ => rfl) fun _ => ?_
  refine inStep_bind (heedless_update (sapInstance_heedless attacker)) fun _ => ?_
  refine inStep_bind (heedless_requirePlayer target) fun _ => ?_
  refine inStep_bind (heedless_note fun _ => nofun) fun _ => ?_
  refine inStep_bind (heedless_fire memoryless _ _) fun _ => ?_
  refine inStep_bind heedless_isFinished fun _ => ?_
  refine inStep_ite (fun _ => inStep_pure _) fun _ => ?_
  refine inStep_bind heedless_now fun now => ?_
  refine inStep_bind (heedless_update (damagePlayer_heedless target d.attack now)) fun _ => ?_
  exact heedless_record nofun

theorem attackCard_heedless (memoryless : ctx.chooser.Memoryless)
    (attacker defender : InstanceId) :
    Heedless revision (attackCard ctx attacker defender) := by
  refine inStep_bind (heedless_requireDefinition attacker) fun d => ?_
  refine inStep_bind (heedless_requireDefinition defender) fun e => ?_
  refine inStep_bind (heedless_requireInstance attacker) fun _ => ?_
  refine inStep_bind (heedless_requireInstance defender) fun _ => ?_
  refine inStep_bind (heedless_view fun _ => rfl) fun _ => ?_
  refine inStep_bind (heedless_view fun _ => rfl) fun _ => ?_
  refine inStep_bind (heedless_update (sapInstance_heedless attacker)) fun _ => ?_
  refine inStep_bind (heedless_note fun _ => nofun) fun _ => ?_
  refine inStep_bind (heedless_fire memoryless _ _) fun _ => ?_
  refine inStep_first (heedless_fire memoryless _ _) fun _ => ?_
  refine inStep_bind (heedless_fire memoryless _ _) fun _ => ?_
  refine inStep_first (heedless_fire memoryless _ _) fun _ => ?_
  refine inStep_bind heedless_isFinished fun _ => ?_
  refine inStep_ite (fun _ => inStep_pure _) fun _ => ?_
  refine inStep_bind (heedless_change fun _ => strike_without ctx _ _ _ _) fun _ => ?_
  refine inStep_ite (fun _ => ?_) fun _ => inStep_pure _
  exact heedless_change fun _ => strike_without ctx _ _ _ _

theorem attackPlayerWith_heedless (memoryless : ctx.chooser.Memoryless) (player : Seat)
    (attacker : InstanceId) (target : Seat) :
    Heedless revision (attackPlayerWith ctx player attacker target) := by
  refine inStep_bind (heedless_check fun _ => rfl) fun d => ?_
  refine inStep_bind (heedless_check fun _ => rfl) fun _ => ?_
  exact attackPlayer_heedless memoryless attacker target

theorem attackCardWith_heedless (memoryless : ctx.chooser.Memoryless) (player : Seat)
    (attacker defender : InstanceId) :
    Heedless revision (attackCardWith ctx player attacker defender) := by
  refine inStep_bind (heedless_check fun _ => rfl) fun d => ?_
  refine inStep_bind (heedless_check fun _ => rfl) fun target => ?_
  refine inStep_bind (heedless_check fun _ => rfl) fun _ => ?_
  exact attackCard_heedless memoryless attacker defender

/-! ### Turns -/

theorem startGame_heedless (memoryless : ctx.chooser.Memoryless) (starting : Seat) :
    Heedless revision (startGame ctx starting) :=
  inStep_bind (heedless_update (openGame_heedless ctx starting)) fun _ =>
    heedless_fireAll memoryless _ _

theorem endTurn_heedless (memoryless : ctx.chooser.Memoryless) :
    Heedless revision (endTurn ctx) := by
  refine inStep_bind (heedless_check fun _ => rfl) fun _ => ?_
  refine inStep_bind (heedless_view fun _ => rfl) fun current => ?_
  refine inStep_bind (heedless_requirePlayer current) fun _ => ?_
  refine inStep_bind (heedless_note fun _ => nofun) fun _ => ?_
  refine inStep_bind (heedless_fireAll memoryless _ _) fun _ => ?_
  refine inStep_bind heedless_isFinished fun _ => ?_
  refine inStep_ite (fun _ => inStep_pure _) fun _ => ?_
  refine inStep_bind heedless_now fun now => ?_
  refine inStep_bind (heedless_update (passTurn_heedless now)) fun (next, wrapped) => ?_
  refine inStep_bind (heedless_fireAll memoryless _ _) fun _ => ?_
  refine inStep_bind heedless_isFinished fun _ => ?_
  refine inStep_ite (fun _ => inStep_pure _) fun _ => ?_
  refine inStep_bind heedless_now fun now => ?_
  refine inStep_bind (heedless_update (drawCard_heedless next now)) fun _ => ?_
  refine inStep_bind (heedless_change fun _ => refreshBattlefield_without next) fun _ => ?_
  refine inStep_bind (heedless_change fun s => ?_) fun _ => ?_
  · rw [healCreatures_without]
    rfl
  · exact heedless_update (renewEnergy_heedless ctx.config next wrapped)

theorem endTurnOf_heedless (memoryless : ctx.chooser.Memoryless) (player : Seat) :
    Heedless revision (endTurnOf ctx player) :=
  inStep_bind (heedless_requireTurn player) fun _ => endTurn_heedless memoryless

theorem healCreatures_heedless (player : Seat) (amount : Int) :
    Heedless revision (healCreatures ctx player amount) := by
  refine inStep_bind (heedless_check fun _ => rfl) fun _ => ?_
  refine inStep_ite (fun _ => inStep_throw _) fun _ => ?_
  refine inStep_bind (heedless_requirePlayer player) fun _ => ?_
  refine inStep_bind (inStep_modifyGet fun t t' related => ?_) fun _ => heedless_note fun _ => nofun
  dsimp only
  rw [related, healCreatures_without]
  exact ⟨rfl, rfl⟩

theorem submitDeckAndStart_heedless (memoryless : ctx.chooser.Memoryless) (player : Seat)
    (deck : List CardId) : Heedless revision (submitDeckAndStart ctx player deck) := by
  refine inStep_bind (heedless_update (submitDeck_heedless ctx.catalog player deck)) fun _ => ?_
  refine inStep_ite (fun _ => ?_) fun _ => inStep_pure _
  exact inStep_bind (heedless_view fun _ => rfl) fun starting =>
    startGame_heedless memoryless starting

end Play

/-- No call heeds the failures before it. -/
theorem Call.play_heedless {ctx : Context} {revision : Nat}
    (memoryless : ctx.chooser.Memoryless) (call : Call) :
    Play.Heedless revision (call.play ctx) := by
  cases call with
  | startWithDeck player deck => exact Play.submitDeckAndStart_heedless memoryless player deck
  | playCard player card => exact Play.playCard_heedless memoryless player card
  | castSpell player card => exact Play.castSpell_heedless memoryless player card
  | attackPlayer player attacker target =>
    exact Play.attackPlayerWith_heedless memoryless player attacker target
  | attackCard player attacker defender =>
    exact Play.attackCardWith_heedless memoryless player attacker defender
  | endTurn player => exact Play.endTurnOf_heedless memoryless player
  | healCreatures player amount => exact Play.healCreatures_heedless player amount
  | rematch => exact inStep_pure ()

end CardBattle
