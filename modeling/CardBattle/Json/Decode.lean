import CardBattle.Json.Basic

/-!
# Reading records from JSON values

A record is written as an object of its fields in any order, or as an array of its fields in their
own order; one that stands under the name of a case may be an array in files only. Unknown members
of an object are ignored, a field given twice is refused. A field that
is left out has its default, if it has one; at the end of an array nothing else may be left out,
while in an object an optional field may.
-/

namespace CardBattle

namespace Json

variable {α β : Type}

/-- An integer of 64 bits with sign. -/
def word? : Json → Option Int
  | .int n => if -Int.pow 2 63 ≤ n ∧ n < Int.pow 2 63 then some n else none
  | _ => none

/-- A natural number of so many bits. -/
def nat? (bits : Nat) : Json → Option Nat
  | .int n => if 0 ≤ n ∧ n < Int.pow 2 bits then some n.toNat else none
  | _ => none

def bool? : Json → Option Bool
  | .bool b => some b
  | _ => none

def string? : Json → Option String
  | .str s => some s
  | _ => none

def list? (read : Json → Option α) : Json → Option (List α)
  | .arr items => items.mapM read
  | _ => none

def nullable? (read : Json → Option α) : Json → Option (Option α)
  | .null => some none
  | j => (read j).map some

/-- The name in a value that names a constant, alone or with null. -/
def constantName? : Json → Option String
  | .str name => some name
  | .obj [(name, .null)] => some name
  | _ => none

/-- Reads one of a list of constants by its name. -/
def constant? (all : List α) (name : α → String) (j : Json) : Option α :=
  (constantName? j).bind fun s => all.find? fun a => name a = s

/-- The name and the content of a value with one member. -/
def tagged? : Json → Option (String × Json)
  | .obj [(tag, content)] => some (tag, content)
  | _ => none

/-- The fields of a record that are given, and whether they were given in an array. -/
structure Record (α : Type) where
  fields : List (String × α)
  positional : Bool

/-- The given fields of a record whose fields have these names. -/
def record? (names : List String) : Json → Option (Record Json)
  | .obj members =>
    if names.all fun name => decide ((members.countP fun m => m.1 = name) ≤ 1) then
      some ⟨members, false⟩
    else none
  | .arr items =>
    if items.length ≤ names.length then some ⟨names.zip items, true⟩ else none
  | _ => none

/-- Where a value comes from: a file of its own, or a message that holds it among other things. -/
inductive Medium where
  | file
  | message
  deriving DecidableEq, Repr

/-- The given fields of a record that stands under the name of a case. In messages such a record is
never an array. -/
def caseRecord? (medium : Medium) (names : List String) (j : Json) : Option (Record Json) :=
  match medium, j with
  | .message, .arr _ => none
  | _, j => j.record? names

namespace Record

/-- The same fields with other values, given in the same order. -/
def withValues (r : Record α) (values : List β) : Record β :=
  ⟨(r.fields.map (·.1)).zip values, r.positional⟩

def required (r : Record α) (name : String) (read : α → Option β) : Option β :=
  (r.fields.lookup name).bind read

/-- A field that has a default. -/
def withDefault (r : Record α) (name : String) (default : β) (read : α → Option β) : Option β :=
  match r.fields.lookup name with
  | none => some default
  | some a => read a

/-- A field that may be null, or left out of an object. -/
def optional (r : Record Json) (name : String) (read : Json → Option β) : Option (Option β) :=
  match r.fields.lookup name with
  | none => if r.positional then none else some none
  | some j => nullable? read j

end Record

def ofOption (write : α → Json) : Option α → Json
  | none => .null
  | some a => write a

def ofList (write : α → Json) (as : List α) : Json :=
  .arr (as.map write)

def ofNat (n : Nat) : Json :=
  .int n

end Json

end CardBattle
