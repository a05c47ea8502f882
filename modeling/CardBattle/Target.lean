import CardBattle.Card.Kind
import CardBattle.Identity

/-!
# Targets and selectors

A target is a player or a permanent together with its owner. A selector says which targets a
choice admits: by kind, by side, and how many.
-/

namespace CardBattle

inductive Target where
  | player (seat : Seat)
  | creature (card : InstanceId) (owner : Seat)
  | artifact (card : InstanceId) (owner : Seat)
  deriving DecidableEq, Repr

/-- Kinds of target; `any` stands for all of them. -/
inductive TargetKind where
  | player
  | creature
  | artifact
  | any
  deriving DecidableEq, Repr, Inhabited

namespace Target

def kind : Target → TargetKind
  | .player _ => .player
  | .creature _ _ => .creature
  | .artifact _ _ => .artifact

/-- The player whose side the target is on. -/
def owner : Target → Seat
  | .player seat => seat
  | .creature _ owner => owner
  | .artifact _ owner => owner

def card? : Target → Option InstanceId
  | .player _ => none
  | .creature card _ => some card
  | .artifact card _ => some card

/-- The target that a card of some kind makes; spells make none. -/
def ofCard? (kind : CardKind) (card : InstanceId) (owner : Seat) : Option Target :=
  match kind with
  | .creature => some (.creature card owner)
  | .artifact => some (.artifact card owner)
  | .spell => none

def cardText (name : String) (card : InstanceId) (owner : Seat) : String :=
  name ++ " \x7b instance: InstanceId(" ++ toString card.number ++ "), owner: PlayerId("
    ++ toString owner.index ++ ") \x7d"

/-- The target as error messages write it, with the names of its fields. -/
def text : Target → String
  | .player seat => "Player(PlayerId(" ++ toString seat.index ++ "))"
  | .creature card owner => cardText "Creature" card owner
  | .artifact card owner => cardText "Artifact" card owner

theorem card?_ofCard? {kind : CardKind} {card : InstanceId} {owner : Seat} {target : Target}
    (h : ofCard? kind card owner = some target) :
    target.card? = some card ∧ target.owner = owner := by
  cases kind <;> simp [ofCard?] at h <;> subst h <;> exact ⟨rfl, rfl⟩

end Target

/-- Which kinds of target a creature may attack. -/
structure AttackRules where
  canTargetPlayers : Bool := true
  canTargetCreatures : Bool := true
  canTargetArtifacts : Bool := true
  deriving DecidableEq, Repr, Inhabited

/-- What a choice of targets admits. -/
structure Selector where
  kind : TargetKind := .any
  count : Nat := 1
  canTargetSelf : Bool := false
  canTargetEnemies : Bool := true
  canTargetPlayers : Bool := true
  canTargetCreatures : Bool := true
  canTargetArtifacts : Bool := true
  /-- A list of kinds that restricts the choice further, if there is one. -/
  allowedKinds : Option (List TargetKind) := none
  prompt : String := ""
  deriving DecidableEq, Repr, Inhabited

namespace Selector

def ofKind (kind : TargetKind) : Selector :=
  { kind }

def enemyCreature : Selector :=
  ofKind .creature

def enemyPlayer : Selector :=
  ofKind .player

/-- Admits the own side as well. -/
def includingSelf (s : Selector) : Selector :=
  { s with canTargetSelf := true }

def friendlyOnly (s : Selector) : Selector :=
  { s with canTargetSelf := true, canTargetEnemies := false }

def friendlyCreature : Selector :=
  (ofKind .creature).friendlyOnly

/-- Anything that an attacker with these rules may hit. -/
def forAttack (rules : AttackRules) : Selector :=
  { canTargetPlayers := rules.canTargetPlayers
    canTargetCreatures := rules.canTargetCreatures
    canTargetArtifacts := rules.canTargetArtifacts }

def withCount (s : Selector) (count : Nat) : Selector :=
  { s with count }

def withAllowedKinds (s : Selector) (kinds : List TargetKind) : Selector :=
  { s with allowedKinds := some kinds }

/-- Sets the words that the chooser is asked with. -/
def withPrompt (s : Selector) (prompt : String) : Selector :=
  { s with prompt }

/-- Whether the flag of a kind is set; there is none for `any`. -/
def flag (s : Selector) : TargetKind → Bool
  | .player => s.canTargetPlayers
  | .creature => s.canTargetCreatures
  | .artifact => s.canTargetArtifacts
  | .any => true

/-- Whether the list of kinds, if there is one, names a kind or `any`. -/
def listed (s : Selector) (kind : TargetKind) : Bool :=
  match s.allowedKinds with
  | none => true
  | some kinds => kinds.any fun k => k = kind ∨ k = .any

/-- The kind, the list of kinds and the flag of the kind must all agree. -/
def kindAllowed (s : Selector) (kind : TargetKind) : Bool :=
  decide (s.kind = .any ∨ s.kind = kind) && s.listed kind && s.flag kind

/-- The side a target is on, seen from the player who chooses. -/
def sideAllowed (s : Selector) (chooser owner : Seat) : Bool :=
  if owner = chooser then s.canTargetSelf else s.canTargetEnemies

end Selector

end CardBattle
