import CardBattle.Catalog
import CardBattle.Session.Basic

/-!
# Choosing targets

Legal targets are listed players first, by seat, and then the permanents of each player in the
order of their battlefields. A choice that is forced is made without asking; otherwise an outside
chooser is asked once, and its picks are checked again: illegal and repeated ones are dropped.
-/

namespace CardBattle

namespace Session

/-- The target that a permanent is; none for spells and unknown cards. -/
def targetOf? (s : Session) (catalog : Catalog) (id : InstanceId) : Option Target :=
  match s.instance? id with
  | none => none
  | some c =>
    match catalog.get? c.card with
    | none => none
    | some d => Target.ofCard? d.kind id c.owner

def cardName (s : Session) (catalog : Catalog) (id : InstanceId) : String :=
  match s.instance? id with
  | none => "Unknown card"
  | some c =>
    match catalog.get? c.card with
    | none => "Unknown card"
    | some d => d.name

def requireDefinition (catalog : Catalog) (id : InstanceId) (s : Session) :
    Except GameError CardDefinition :=
  match s.requireInstance id with
  | .error e => .error e
  | .ok c =>
    match catalog.require c.card with
    | .error e => .error (.catalog e)
    | .ok d => .ok d

/-- Whether a card that claims to be a target is in play, owned and labelled as claimed. -/
def cardInPlayAs (s : Session) (catalog : Catalog) (id : InstanceId) (target : Target) : Bool :=
  match s.instance? id with
  | none => false
  | some c =>
    decide (c.owner = target.owner) && s.onBattlefield id &&
      match catalog.get? c.card with
      | none => false
      | some d => decide (Target.ofCard? d.kind id target.owner = some target)

/-- Whether a target exists: players need a seat, cards must be in play as described. -/
def targetExists (s : Session) (catalog : Catalog) (target : Target) : Bool :=
  match target.card? with
  | none => s.players.contains target.owner
  | some id => s.cardInPlayAs catalog id target

end Session

namespace Selector

/-- Whether a target is legal for a choice that acts for a player. -/
def accepts (sel : Selector) (s : Session) (catalog : Catalog) (source : Seat)
    (target : Target) : Bool :=
  sel.kindAllowed target.kind && sel.sideAllowed source target.owner
    && s.targetExists catalog target

/-- The permanents of one player as targets, in battlefield order. -/
def cardCandidates (s : Session) (catalog : Catalog) (owner : Seat) : List Target :=
  (s.battlefield owner).filterMap fun id =>
    match s.instance? id with
    | none => none
    | some c =>
      match catalog.get? c.card with
      | none => none
      | some d => Target.ofCard? d.kind id owner

/-- Every target there may be, legal or not. -/
def candidates (s : Session) (catalog : Catalog) : List Target :=
  s.players.seats.map Target.player ++ s.players.seats.flatMap (cardCandidates s catalog)

def validTargets (sel : Selector) (s : Session) (catalog : Catalog) (source : Seat) :
    List Target :=
  (candidates s catalog).filter (sel.accepts s catalog source)

/-- Whether a choice among targets needs nobody to be asked: there is none, or one for one place. -/
def isForced (sel : Selector) (targets : List Target) : Bool :=
  targets.isEmpty || decide (targets.length = 1 ∧ sel.count = 1)

def autoTargets (sel : Selector) (s : Session) (catalog : Catalog) (source : Seat) :
    Option (List Target) :=
  let targets := sel.validTargets s catalog source
  if sel.isForced targets then some targets else none

/-- Goes through picks in order: legal ones that are new are taken while places are left. -/
def takePicks (sel : Selector) (s : Session) (catalog : Catalog) (source : Seat) :
    List Target → List Target → List Target
  | [], taken => taken
  | pick :: picks, taken =>
    if sel.count ≤ taken.length then taken
    else if pick ∈ taken then takePicks sel s catalog source picks taken
    else if sel.accepts s catalog source pick then
      takePicks sel s catalog source picks (taken ++ [pick])
    else takePicks sel s catalog source picks taken

end Selector

structure TargetRequest where
  selector : Selector
  /-- The player the choice acts for. -/
  source : Seat
  /-- The card the choice comes from, if any. -/
  card : Option InstanceId
  /-- The legal targets. -/
  candidates : List Target
  deriving DecidableEq, Repr

/-- An outside party that picks targets. Its answer may depend on all earlier requests, which are
given latest first. -/
structure Chooser where
  pick : List TargetRequest → TargetRequest → List Target

namespace Chooser

/-- Picks the first candidates. -/
def first : Chooser :=
  ⟨fun _ request => request.candidates.take request.selector.count⟩

/-- Gives prepared answers one after another, and then empty ones. -/
def scripted (answers : List (List Target)) : Chooser :=
  ⟨fun asked _ => (answers[asked.length]?).getD []⟩

end Chooser

namespace Selector

/-- The targets chosen, and the requests made up to then, latest first. -/
def resolve (sel : Selector) (s : Session) (catalog : Catalog) (source : Seat)
    (card : Option InstanceId) (chooser : Chooser) (asked : List TargetRequest) :
    List Target × List TargetRequest :=
  match sel.autoTargets s catalog source with
  | some forced => (forced, asked)
  | none =>
    let request : TargetRequest :=
      { selector := sel, source, card, candidates := sel.validTargets s catalog source }
    (sel.takePicks s catalog source (chooser.pick asked request) [], request :: asked)

end Selector

end CardBattle
