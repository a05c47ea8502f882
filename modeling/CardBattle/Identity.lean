/-!
# Identities

Players sit in numbered seats, definitions, card copies and sessions carry numbers. Each kind of
number is a type of its own, so that a card copy is never taken for a definition, and each has one
written form.
-/

namespace CardBattle

/-- A seat at the table, counted from 0. -/
structure Seat where
  index : Nat
  deriving DecidableEq, Repr, Inhabited

/-- Number of a card definition. -/
structure CardId where
  number : Nat
  deriving DecidableEq, Repr, Inhabited

/-- Number of one card copy inside a session. -/
structure InstanceId where
  number : Nat
  deriving DecidableEq, Repr, Inhabited

/-- Number of a game document in a document store. -/
structure SessionId where
  number : Nat
  deriving DecidableEq, Repr, Inhabited

/-- The number of seats that have a name; seat numbers are read modulo this. -/
def Seat.bound : Nat := 256

def Seat.ofIndex (i : Nat) : Seat :=
  ⟨i % Seat.bound⟩

def Seat.text (seat : Seat) : String :=
  "Player " ++ toString seat.index

def CardId.text (id : CardId) : String :=
  "Card(" ++ toString id.number ++ ")"

def InstanceId.text (id : InstanceId) : String :=
  "Instance(" ++ toString id.number ++ ")"

def SessionId.text (id : SessionId) : String :=
  "Session(" ++ toString id.number ++ ")"

def InstanceId.first : InstanceId := ⟨1⟩

/-- The number handed out after this one. Numbers are never handed out twice. -/
def InstanceId.next (id : InstanceId) : InstanceId :=
  ⟨id.number + 1⟩

theorem Seat.ofIndex_of_lt {i : Nat} (h : i < Seat.bound) : Seat.ofIndex i = ⟨i⟩ := by
  simp [Seat.ofIndex, Nat.mod_eq_of_lt h]

theorem InstanceId.number_lt_next (id : InstanceId) : id.number < id.next.number :=
  Nat.lt_succ_self _

end CardBattle
