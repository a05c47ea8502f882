import CardBattle.Target

/-!
# Values of the effect language
-/

namespace CardBattle

/-- What expressions evaluate to. -/
inductive Value where
  | unit
  | int (n : Int)
  | bool (b : Bool)
  | text (s : String)
  | player (seat : Seat)
  | card (id : InstanceId)
  | list (items : List Value)
  deriving Repr, Inhabited

namespace Value

mutual

def decEq : (a b : Value) → Decidable (a = b)
  | .unit, .unit => isTrue rfl
  | .int m, .int n => decidable_of_iff (m = n) (by simp)
  | .bool a, .bool b => decidable_of_iff (a = b) (by simp)
  | .text a, .text b => decidable_of_iff (a = b) (by simp)
  | .player a, .player b => decidable_of_iff (a = b) (by simp)
  | .card a, .card b => decidable_of_iff (a = b) (by simp)
  | .list a, .list b =>
    match decEqList a b with
    | isTrue h => isTrue (by rw [h])
    | isFalse h => isFalse (by simpa using h)
  | .unit, .int _ | .unit, .bool _ | .unit, .text _ | .unit, .player _ | .unit, .card _
  | .unit, .list _ | .int _, .unit | .int _, .bool _ | .int _, .text _ | .int _, .player _
  | .int _, .card _ | .int _, .list _ | .bool _, .unit | .bool _, .int _ | .bool _, .text _
  | .bool _, .player _ | .bool _, .card _ | .bool _, .list _ | .text _, .unit | .text _, .int _
  | .text _, .bool _ | .text _, .player _ | .text _, .card _ | .text _, .list _
  | .player _, .unit | .player _, .int _ | .player _, .bool _ | .player _, .text _
  | .player _, .card _ | .player _, .list _ | .card _, .unit | .card _, .int _ | .card _, .bool _
  | .card _, .text _ | .card _, .player _ | .card _, .list _ | .list _, .unit | .list _, .int _
  | .list _, .bool _ | .list _, .text _ | .list _, .player _ | .list _, .card _ =>
    isFalse (by simp)

def decEqList : (as bs : List Value) → Decidable (as = bs)
  | [], [] => isTrue rfl
  | [], _ :: _ => isFalse (by simp)
  | _ :: _, [] => isFalse (by simp)
  | a :: as, b :: bs =>
    match decEq a b, decEqList as bs with
    | isTrue h, isTrue h' => isTrue (by rw [h, h'])
    | isFalse h, _ => isFalse (by simp [h])
    | _, isFalse h => isFalse (by simp [h])

end

instance : DecidableEq Value := decEq

/-- The name of a value's type, as error messages give it. -/
def typeName : Value → String
  | .unit => "unit"
  | .int _ => "int"
  | .bool _ => "bool"
  | .text _ => "text"
  | .player _ => "player"
  | .card _ => "card"
  | .list _ => "list"

/-- Only `false` and nothing are false. -/
def isTruthy : Value → Bool
  | .unit => false
  | .bool b => b
  | _ => true

/-- The value that stands for a target. -/
def ofTarget : Target → Value
  | .player seat => .player seat
  | .creature id _ => .card id
  | .artifact id _ => .card id

mutual

/-- A value as scripts print it; the elements of a list are parted by commas. -/
def print : Value → String
  | .unit => ""
  | .int n => toString n
  | .bool b => if b then "true" else "false"
  | .text s => s
  | .player seat => seat.text
  | .card id => id.text
  | .list items => ", ".intercalate (printAll items)

def printAll : List Value → List String
  | [] => []
  | v :: vs => v.print :: printAll vs

end

end Value

end CardBattle
