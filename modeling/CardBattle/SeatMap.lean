import CardBattle.Identity

/-!
# Tables with one entry per seat

The entry of seat `i` is the `i`-th element of a list. Seats are enumerated in order, and play
passes from each seat to the next and from the last to seat 0.
-/

namespace CardBattle

/-- One value per seat, in seat order. -/
structure SeatMap (α : Type) where
  data : List α
  deriving DecidableEq, Repr, Inhabited

namespace SeatMap

variable {α β : Type}

/-- Tables are made for one seat up to 255. -/
def ofList? (data : List α) : Option (SeatMap α) :=
  if data = [] ∨ 255 < data.length then none else some ⟨data⟩

def count (m : SeatMap α) : Nat :=
  m.data.length

def contains (m : SeatMap α) (seat : Seat) : Bool :=
  decide (seat.index < m.count)

def get? (m : SeatMap α) (seat : Seat) : Option α :=
  m.data[seat.index]?

/-- Changes the entry of one seat; a seat that does not exist changes nothing. -/
def modify (m : SeatMap α) (seat : Seat) (f : α → α) : SeatMap α :=
  ⟨m.data.modify seat.index f⟩

def map (m : SeatMap α) (f : α → β) : SeatMap β :=
  ⟨m.data.map f⟩

/-- Every seat that has a name, in order. -/
def seats (m : SeatMap α) : List Seat :=
  (List.range (m.count % Seat.bound)).map Seat.mk

/-- Every entry with its seat, in order. -/
def entries (m : SeatMap α) : List (Seat × α) :=
  m.data.zipIdx.map fun (a, i) => (Seat.ofIndex i, a)

/-- The seat after `seat`, and whether play came round to seat 0. -/
def nextSeat (m : SeatMap α) (seat : Seat) : Seat × Bool :=
  if m.count ≤ seat.index + 1 then (⟨0⟩, true) else (Seat.ofIndex (seat.index + 1), false)

@[simp] theorem count_modify (m : SeatMap α) (seat : Seat) (f : α → α) :
    (m.modify seat f).count = m.count := by
  simp [modify, count]

theorem contains_iff (m : SeatMap α) (seat : Seat) :
    m.contains seat = true ↔ seat.index < m.count := by
  simp [contains]

@[simp] theorem get?_modify_self (m : SeatMap α) (seat : Seat) (f : α → α) :
    (m.modify seat f).get? seat = (m.get? seat).map f := by
  simp [modify, get?]

theorem get?_modify_of_ne (m : SeatMap α) {seat other : Seat} (f : α → α) (h : seat ≠ other) :
    (m.modify seat f).get? other = m.get? other := by
  have hne : seat.index ≠ other.index := fun e => h (by cases seat; cases other; simp_all)
  simp [modify, get?, hne]

end SeatMap

end CardBattle
