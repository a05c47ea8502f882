import CardBattle.Identity

/-!
# Zones

Each player owns four zones of card copies. The top of a zone is the end of its list. A copy that
lies in some zone of a player cannot be put into another one; moving takes it out first.
-/

namespace CardBattle

inductive Zone where
  | deck
  | hand
  | battlefield
  | graveyard
  deriving DecidableEq, Repr, Inhabited

/-- The order in which zones are searched and listed. -/
def Zone.all : List Zone :=
  [.deck, .hand, .battlefield, .graveyard]

def Zone.text : Zone → String
  | .deck => "Deck"
  | .hand => "Hand"
  | .battlefield => "Battlefield"
  | .graveyard => "Graveyard"

/-- Where a copy is put within a zone. -/
inductive Position where
  | top
  | bottom
  | index (i : Nat)
  deriving DecidableEq, Repr, Inhabited

/-- Puts an id at a position of a list whose end is its top; an index past the end is the top. -/
def Position.place (position : Position) (id : InstanceId) (cards : List InstanceId) :
    List InstanceId :=
  match position with
  | .top => cards ++ [id]
  | .bottom => id :: cards
  | .index i => cards.take i ++ id :: cards.drop i

structure Zones where
  deck : List InstanceId
  hand : List InstanceId
  battlefield : List InstanceId
  graveyard : List InstanceId
  deriving DecidableEq, Repr, Inhabited

namespace Zones

def empty : Zones := ⟨[], [], [], []⟩

/-- The cards of one zone, bottom first. -/
def cards (z : Zones) : Zone → List InstanceId
  | .deck => z.deck
  | .hand => z.hand
  | .battlefield => z.battlefield
  | .graveyard => z.graveyard

def setCards (z : Zones) (zone : Zone) (ids : List InstanceId) : Zones :=
  match zone with
  | .deck => { z with deck := ids }
  | .hand => { z with hand := ids }
  | .battlefield => { z with battlefield := ids }
  | .graveyard => { z with graveyard := ids }

def contains (z : Zones) (zone : Zone) (id : InstanceId) : Bool :=
  decide (id ∈ z.cards zone)

/-- The first zone that holds the copy. -/
def locate (z : Zones) (id : InstanceId) : Option Zone :=
  Zone.all.find? fun zone => z.contains zone id

/-- Every copy in every zone, zone by zone. -/
def allInstances (z : Zones) : List InstanceId :=
  Zone.all.flatMap z.cards

/-- Puts a copy into a zone; `none` if some zone holds it already. -/
def push? (z : Zones) (zone : Zone) (id : InstanceId) (position : Position) : Option Zones :=
  match z.locate id with
  | some _ => none
  | none => some (z.setCards zone (position.place id (z.cards zone)))

/-- Takes a copy out of a zone; `none` if it is not there. -/
def remove? (z : Zones) (zone : Zone) (id : InstanceId) : Option Zones :=
  if id ∈ z.cards zone then some (z.setCards zone ((z.cards zone).erase id)) else none

/-- What became of an attempt to move a copy. -/
inductive MoveResult where
  /-- The copy was not in the zone it should leave. -/
  | absent
  /-- The copy left its zone, and was refused by the other since a third zone holds it too. -/
  | refused (left : Zones)
  | moved (zones : Zones)
  deriving DecidableEq, Repr

/-- Takes a copy out of one zone and puts it into another. -/
def move (z : Zones) (id : InstanceId) (source destination : Zone) (position : Position) :
    MoveResult :=
  match z.remove? source id with
  | none => .absent
  | some left =>
    match left.push? destination id position with
    | none => .refused left
    | some zones => .moved zones

/-- Takes the top card of a zone; `none` if the zone is empty. -/
def popTop? (z : Zones) (zone : Zone) : Option (InstanceId × Zones) :=
  match (z.cards zone).getLast? with
  | none => none
  | some id => some (id, z.setCards zone (z.cards zone).dropLast)

/-- Puts the cards of a zone into a new order; `none` unless the order is a permutation of them. -/
def reorder? (z : Zones) (zone : Zone) (order : List InstanceId) : Option Zones :=
  if (z.cards zone).isPerm order then some (z.setCards zone order) else none

@[simp] theorem cards_setCards_self (z : Zones) (zone : Zone) (ids : List InstanceId) :
    (z.setCards zone ids).cards zone = ids := by
  cases zone <;> rfl

theorem cards_setCards_of_ne (z : Zones) {zone other : Zone} (ids : List InstanceId)
    (h : zone ≠ other) : (z.setCards zone ids).cards other = z.cards other := by
  cases zone <;> cases other <;> simp_all [setCards, cards]

end Zones

end CardBattle
