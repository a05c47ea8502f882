import CardBattle.Json.Basic

/-!
# Writing JSON texts

Values are written without blanks. Quotes, backslashes and control characters are escaped, all
other characters stand for themselves.
-/

namespace CardBattle

namespace Json

/-- The digits of control characters. -/
def hexText (n : Nat) : String :=
  String.ofList [Nat.digitChar (n / 16), Nat.digitChar (n % 16)]

/-- A character inside a string. -/
def escape (c : Char) : String :=
  if c = '"' then "\\\""
  else if c = '\\' then "\\\\"
  else if c = '\x08' then "\\b"
  else if c = '\x0c' then "\\f"
  else if c = '\n' then "\\n"
  else if c = '\r' then "\\r"
  else if c = '\t' then "\\t"
  else if c.toNat < 0x20 then "\\u00" ++ hexText c.toNat
  else String.singleton c

def quote (s : String) : String :=
  s.foldl (fun text c => text ++ escape c) "\"" ++ "\""

mutual

/-- Appends a value to a text. Of a number that is no integer nothing is known but that, and of an
unreadable value nothing at all. -/
def writeTo (text : String) : Json → String
  | .null => text ++ "null"
  | .bool true => text ++ "true"
  | .bool false => text ++ "false"
  | .int n => text ++ toString n
  | .real => text ++ "0.0"
  | .unreadable => text ++ "null"
  | .str s => text ++ quote s
  | .arr items => writeItems (text ++ "[") true items ++ "]"
  | .obj members => writeMembers (text ++ "\x7b") true members ++ "\x7d"

/-- Appends the elements of an array, with commas before all but the first. -/
def writeItems (text : String) (first : Bool) : List Json → String
  | [] => text
  | j :: js => writeItems (writeTo (if first then text else text ++ ",") j) false js

/-- Appends the members of an object, with commas before all but the first. -/
def writeMembers (text : String) (first : Bool) : List (String × Json) → String
  | [] => text
  | (name, j) :: ms =>
    let text := (if first then text else text ++ ",") ++ quote name ++ ":"
    writeMembers (writeTo text j) false ms

end

def write (j : Json) : String :=
  writeTo "" j

end Json

end CardBattle
