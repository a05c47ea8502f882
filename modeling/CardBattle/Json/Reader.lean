import CardBattle.Json.Basic

/-!
# Reading JSON texts

The reader accepts exactly one value with blanks around it. Strings hold no raw control characters.
A string with half of a surrogate pair, an object with such a name, and whatever is nested deeper
than `Json.nesting` have to be well formed, but are not kept: they may stand only where they are
passed over.
-/

namespace CardBattle

namespace Json

/-- The greatest nesting of arrays and objects. -/
def nesting : Nat := 127

/-- The characters that may stand between tokens. -/
def isBlank (c : Char) : Bool :=
  c = ' ' || c = '\t' || c = '\n' || c = '\r'

def skipBlanks (cs : List Char) : List Char :=
  cs.dropWhile isBlank

def hexDigit? (c : Char) : Option Nat :=
  if '0' ≤ c ∧ c ≤ '9' then some (c.toNat - '0'.toNat)
  else if 'a' ≤ c ∧ c ≤ 'f' then some (c.toNat - 'a'.toNat + 10)
  else if 'A' ≤ c ∧ c ≤ 'F' then some (c.toNat - 'A'.toNat + 10)
  else none

def readHex : List Char → Option (Nat × List Char)
  | a :: b :: c :: d :: rest => do
    let a ← hexDigit? a
    let b ← hexDigit? b
    let c ← hexDigit? c
    let d ← hexDigit? d
    return (((a * 16 + b) * 16 + c) * 16 + d, rest)
  | _ => none

/-- Reads the rest of a character written by number. A pair of surrogates is one character, half of
a pair is none. -/
def readUnicode (cs : List Char) : Option (Option Char × List Char) := do
  let (high, rest) ← readHex cs
  if 0xDC00 ≤ high ∧ high < 0xE000 then return (none, rest)
  else if 0xD800 ≤ high ∧ high < 0xDC00 then
    match rest with
    | '\\' :: 'u' :: after =>
      let (low, after) ← readHex after
      if 0xDC00 ≤ low ∧ low < 0xE000 then
        return (some (Char.ofNat (0x10000 + (high - 0xD800) * 0x400 + (low - 0xDC00))), after)
      else return (none, rest)
    | _ => return (none, rest)
  else return (some (Char.ofNat high), rest)

/-- Reads what follows a backslash. -/
def readEscape : List Char → Option (Option Char × List Char)
  | '"' :: rest => some (some '"', rest)
  | '\\' :: rest => some (some '\\', rest)
  | '/' :: rest => some (some '/', rest)
  | 'b' :: rest => some (some '\x08', rest)
  | 'f' :: rest => some (some '\x0c', rest)
  | 'n' :: rest => some (some '\n', rest)
  | 'r' :: rest => some (some '\r', rest)
  | 't' :: rest => some (some '\t', rest)
  | 'u' :: rest => readUnicode rest
  | _ => none

/-- A string that is being read. -/
structure Scan where
  /-- The characters so far, latest first. -/
  taken : List Char := []
  /-- Whether it holds no half of a surrogate pair. -/
  whole : Bool := true
  /-- Whether it is written without escapes. -/
  plain : Bool := true

namespace Scan

def push (s : Scan) (c : Char) : Scan :=
  { s with taken := c :: s.taken }

/-- Adds what an escape stands for. -/
def pushEscape (s : Scan) : Option Char → Scan
  | some c => { s with taken := c :: s.taken, plain := false }
  | none => { s with whole := false, plain := false }

/-- The text of the string, if it has one. -/
def text? (s : Scan) : Option String :=
  if s.whole then some (String.ofList s.taken.reverse) else none

/-- The name of a member. Digits written with escapes are no number: they get a backslash. -/
def name? (s : Scan) : Option String :=
  if s.plain || !s.taken.all Char.isDigit then s.text? else s.text?.map fun t => "\\" ++ t

end Scan

/-- Reads a string up to its closing quote. -/
def readChars : Nat → Scan → List Char → Option (Scan × List Char)
  | 0, _, _ => none
  | fuel + 1, scan, cs =>
    match cs with
    | [] => none
    | '"' :: rest => some (scan, rest)
    | '\\' :: rest =>
      match readEscape rest with
      | some (c, rest) => readChars fuel (scan.pushEscape c) rest
      | none => none
    | c :: rest => if c.toNat < 0x20 then none else readChars fuel (scan.push c) rest

def readString (cs : List Char) : Option (Scan × List Char) :=
  readChars (cs.length + 1) {} cs

/-- The number that decimal digits write. -/
def ofDigits (digits : List Char) : Nat :=
  digits.foldl (fun n c => n * 10 + (c.toNat - '0'.toNat)) 0

def readDigits : List Char → Option (List Char × List Char)
  | '0' :: rest => some (['0'], rest)
  | cs =>
    match cs.takeWhile Char.isDigit with
    | [] => none
    | digits => some (digits, cs.dropWhile Char.isDigit)

/-- Drops at least one digit. -/
def dropDigits (cs : List Char) : Option (List Char) :=
  match cs with
  | c :: rest => if c.isDigit then some (rest.dropWhile Char.isDigit) else none
  | [] => none

/-- Drops a fraction if there is one; the answer says whether there was. -/
def dropFraction : List Char → Option (Bool × List Char)
  | '.' :: rest => (dropDigits rest).map fun rest => (true, rest)
  | cs => some (false, cs)

/-- Drops the sign of an exponent. -/
def dropSign : List Char → List Char
  | '+' :: rest => rest
  | '-' :: rest => rest
  | cs => cs

/-- Drops an exponent if there is one; the answer says whether there was. -/
def dropExponent : List Char → Option (Bool × List Char)
  | 'e' :: rest => (dropDigits (dropSign rest)).map fun rest => (true, rest)
  | 'E' :: rest => (dropDigits (dropSign rest)).map fun rest => (true, rest)
  | cs => some (false, cs)

/-- Reads a number whose sign has been read. -/
def readMagnitude (negative : Bool) (cs : List Char) : Option (Json × List Char) := do
  let (digits, rest) ← readDigits cs
  let (fraction, rest) ← dropFraction rest
  let (exponent, rest) ← dropExponent rest
  let n := ofDigits digits
  if fraction || exponent || (negative && n = 0) then return (.real, rest)
  else return (.int (if negative then -(n : Int) else n), rest)

def readNumber : List Char → Option (Json × List Char)
  | '-' :: rest => readMagnitude true rest
  | cs => readMagnitude false cs

/-- Reads a value that is neither an array nor an object. -/
def readScalar : List Char → Option (Json × List Char)
  | 'n' :: 'u' :: 'l' :: 'l' :: rest => some (.null, rest)
  | 't' :: 'r' :: 'u' :: 'e' :: rest => some (.bool true, rest)
  | 'f' :: 'a' :: 'l' :: 's' :: 'e' :: rest => some (.bool false, rest)
  | '"' :: rest => (readString rest).map fun (s, rest) => (s.text?.elim .unreadable .str, rest)
  | cs => readNumber cs

/-- What encloses a value. -/
inductive Enclosing where
  | array
  | object

/-- What comes next in a value that is passed over. -/
inductive Expected where
  | value
  /-- A name and a colon. -/
  | name
  /-- A comma or an end, if anything is still open. -/
  | separator

/-- Passes over a value of any nesting; what is open is listed from the inside. -/
def skipFrom : Nat → List Enclosing → Expected → List Char → Option (List Char)
  | 0, _, _, _ => none
  | fuel + 1, opened, .value, cs =>
    match skipBlanks cs with
    | '[' :: rest =>
      match skipBlanks rest with
      | ']' :: rest => skipFrom fuel opened .separator rest
      | rest => skipFrom fuel (.array :: opened) .value rest
    | '{' :: rest =>
      match skipBlanks rest with
      | '}' :: rest => skipFrom fuel opened .separator rest
      | rest => skipFrom fuel (.object :: opened) .name rest
    | rest =>
      match readScalar rest with
      | some (_, rest) => skipFrom fuel opened .separator rest
      | none => none
  | fuel + 1, opened, .name, cs =>
    match skipBlanks cs with
    | '"' :: rest =>
      match readString rest with
      | some (_, rest) =>
        match skipBlanks rest with
        | ':' :: rest => skipFrom fuel opened .value rest
        | _ => none
      | none => none
    | _ => none
  | _ + 1, [], .separator, cs => some cs
  | fuel + 1, .array :: opened, .separator, cs =>
    match skipBlanks cs with
    | ']' :: rest => skipFrom fuel opened .separator rest
    | ',' :: rest => skipFrom fuel (.array :: opened) .value rest
    | _ => none
  | fuel + 1, .object :: opened, .separator, cs =>
    match skipBlanks cs with
    | '}' :: rest => skipFrom fuel opened .separator rest
    | ',' :: rest => skipFrom fuel (.object :: opened) .name rest
    | _ => none

/-- Passes over a value. Every step but the last takes a character. -/
def skipValue (cs : List Char) : Option (List Char) :=
  skipFrom (cs.length + 1) [] .value cs

/-- The object with these members, if all of them have names. -/
def ofMembers (members : List (Option String × Json)) : Json :=
  match members.mapM fun m => m.1.map fun name => (name, m.2) with
  | some members => .obj members
  | none => .unreadable

mutual

/-- Reads a value that may hold `depth` more levels of arrays and objects. -/
def readValue : Nat → Nat → List Char → Option (Json × List Char)
  | 0, _, _ => none
  | fuel + 1, depth, cs =>
    match skipBlanks cs, depth with
    | '[' :: rest, 0 => (skipValue ('[' :: rest)).map fun rest => (.unreadable, rest)
    | '{' :: rest, 0 => (skipValue ('{' :: rest)).map fun rest => (.unreadable, rest)
    | '[' :: rest, depth + 1 =>
      match skipBlanks rest with
      | ']' :: rest => some (.arr [], rest)
      | rest => (readItems fuel depth rest).map fun (items, rest) => (.arr items, rest)
    | '{' :: rest, depth + 1 =>
      match skipBlanks rest with
      | '}' :: rest => some (.obj [], rest)
      | rest => (readMembers fuel depth rest).map fun (ms, rest) => (ofMembers ms, rest)
    | rest, _ => readScalar rest

def readItems : Nat → Nat → List Char → Option (List Json × List Char)
  | 0, _, _ => none
  | fuel + 1, depth, cs => do
    let (item, rest) ← readValue fuel depth cs
    match skipBlanks rest with
    | ']' :: rest => return ([item], rest)
    | ',' :: rest =>
      let (items, rest) ← readItems fuel depth rest
      return (item :: items, rest)
    | _ => none

def readMembers : Nat → Nat → List Char → Option (List (Option String × Json) × List Char)
  | 0, _, _ => none
  | fuel + 1, depth, cs => do
    match skipBlanks cs with
    | '"' :: rest =>
      let (scan, rest) ← readString rest
      match skipBlanks rest with
      | ':' :: rest =>
        let (value, rest) ← readValue fuel depth rest
        match skipBlanks rest with
        | '}' :: rest => return ([(scan.name?, value)], rest)
        | ',' :: rest =>
          let (members, rest) ← readMembers fuel depth rest
          return ((scan.name?, value) :: members, rest)
        | _ => none
      | _ => none
    | _ => none

end

/-- Reads a text. Every character costs at most two rounds of the reader. -/
def read? (text : String) : Option Json :=
  let cs := text.toList
  match readValue (2 * cs.length + 2) nesting cs with
  | some (j, rest) => if (skipBlanks rest).isEmpty then some j else none
  | none => none

/-- Reads a text in which nothing is unreadable. -/
def readWhole? (text : String) : Option Json :=
  (read? text).filter isWhole

end Json

end CardBattle
