/-!
# JSON values

A value keeps the members of an object in the order of the text, repeated names included. Integers
have any size. All that is told of another number is that it is none that is written as an integer.
Some well-formed values are not kept at all: they can be passed over, but not read.
-/

namespace CardBattle

inductive Json where
  | null
  | bool (b : Bool)
  | int (n : Int)
  /-- A number written with a fraction, with an exponent, or as negative zero. -/
  | real
  /-- A value that can only be passed over: a string with half of a surrogate pair, an object with
  such a name, or an array or object that is nested too deep. -/
  | unreadable
  | str (s : String)
  | arr (items : List Json)
  | obj (members : List (String × Json))
  deriving Repr, Inhabited

namespace Json

/-- The value of a member; of repeated ones the first. -/
def member? (j : Json) (name : String) : Option Json :=
  match j with
  | .obj members => members.lookup name
  | _ => none

mutual

/-- Whether every part of a value can be read. -/
def isWhole : Json → Bool
  | .unreadable => false
  | .arr items => areWhole items
  | .obj members => haveWhole members
  | _ => true

def areWhole : List Json → Bool
  | [] => true
  | j :: js => isWhole j && areWhole js

def haveWhole : List (String × Json) → Bool
  | [] => true
  | (_, j) :: ms => isWhole j && haveWhole ms

end

end Json

end CardBattle
