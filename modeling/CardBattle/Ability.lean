import CardBattle.Operation.Batch
import CardBattle.Table

/-!
# Triggered abilities

When an event occurs, the abilities that listen for it run one after another, each on a snapshot
taken at its turn. The operations of an ability are applied and the dead swept before the next one
runs. An ability that fails or declines is logged and changes nothing else.
-/

namespace CardBattle

/-- How many abilities ran, and how many of those that did not. -/
structure TriggerReport where
  fired : Nat := 0
  failed : Nat := 0
  deriving DecidableEq, Repr, Inhabited

def TriggerReport.add (a b : TriggerReport) : TriggerReport :=
  ⟨a.fired + b.fired, a.failed + b.failed⟩

/-- An event as it concerns one permanent: the player whose abilities listen, and the damage, if
that is what occurred. -/
structure Occasion where
  player : Seat
  card : InstanceId
  damage : Option DamageEvent

namespace Context

def abilityLabel (d : CardDefinition) (a : Ability) : String :=
  d.name ++ ": " ++ a.description

/-- Runs one ability and applies what it queued. -/
def runAbility (ctx : Context) (d : CardDefinition) (o : Occasion) (a : Ability) (t : Table) :
    TriggerReport × Table :=
  let label := abilityLabel d a
  let now := ctx.now t.session
  let (outcome, t) := ctx.invoke a.effect ⟨.ability, o.player, some o.card, o.damage⟩ t
  match outcome with
  | .completed ops =>
    let s := t.session.record
      { player := o.player, action := .ability, description := label, timestamp := now }
    (⟨1, 0⟩, { t with session := s.settle ctx.catalog ops now })
  | _ =>
    let s := t.session.record
      { player := o.player, action := .abilityFailed, description := label ++ " failed"
        timestamp := now }
    (⟨0, 1⟩, { t with session := s })

/-- Runs abilities in order while the game goes on and the permanent is in play. -/
def runAbilities (ctx : Context) (d : CardDefinition) (o : Occasion) :
    List Ability → Table → TriggerReport × Table
  | [], t => ({}, t)
  | a :: rest, t =>
    if t.session.isFinished || !t.session.onBattlefield o.card then ({}, t)
    else
      let (one, t) := ctx.runAbility d o a t
      let (others, t) := ctx.runAbilities d o rest t
      (one.add others, t)

/-- Fires an event for one permanent. Nothing happens unless the player owns it and its definition
is known. -/
def triggerCard (ctx : Context) (event : TriggerEvent) (o : Occasion) (t : Table) :
    TriggerReport × Table :=
  match t.session.instance? o.card with
  | none => ({}, t)
  | some c =>
    if c.owner = o.player then
      match ctx.catalog.get? c.card with
      | none => ({}, t)
      | some d => ctx.runAbilities d o (d.abilitiesFor event) t
    else ({}, t)

/-- Fires an event for permanents in order while the game goes on. -/
def triggerCards (ctx : Context) (event : TriggerEvent) (player : Seat) :
    List InstanceId → Table → TriggerReport × Table
  | [], t => ({}, t)
  | card :: rest, t =>
    if t.session.isFinished then ({}, t)
    else
      let (one, t) := ctx.triggerCard event ⟨player, card, none⟩ t
      let (others, t) := ctx.triggerCards event player rest t
      (one.add others, t)

/-- Fires an event for every permanent that lies on a player's battlefield at the start. -/
def triggerAll (ctx : Context) (event : TriggerEvent) (player : Seat) (t : Table) :
    TriggerReport × Table :=
  ctx.triggerCards event player (t.session.battlefield player) t

end Context

namespace Play

/-- Fires an event for one permanent as a step at the table. -/
def fire (ctx : Context) (event : TriggerEvent) (o : Occasion) : Play Unit := fun t =>
  .ok () (ctx.triggerCard event o t).2

/-- Fires an event for a player's battlefield as a step at the table. -/
def fireAll (ctx : Context) (event : TriggerEvent) (player : Seat) : Play Unit := fun t =>
  .ok () (ctx.triggerAll event player t).2

end Play

end CardBattle
