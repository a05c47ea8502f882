import CardBattle.Card.Definition
import CardBattle.KeyMap

/-!
# Catalogs of definitions
-/

namespace CardBattle

structure Catalog where
  cards : KeyMap CardDefinition

namespace Catalog

def empty : Catalog := ⟨KeyMap.empty⟩

instance : Inhabited Catalog := ⟨empty⟩

def get? (c : Catalog) (id : CardId) : Option CardDefinition :=
  c.cards.get? id.number

/-- The definition of a card, or the error that names the card. -/
def require (c : Catalog) (id : CardId) : Except CatalogError CardDefinition :=
  match c.get? id with
  | some d => .ok d
  | none => .error (.unknownCard id)

def contains (c : Catalog) (id : CardId) : Bool :=
  c.cards.contains id.number

def size (c : Catalog) : Nat :=
  c.cards.size

def ids (c : Catalog) : List CardId :=
  c.cards.keys.map CardId.mk

/-- Adds a definition under its own number, in place of an earlier one. -/
def insert (c : Catalog) (d : CardDefinition) : Catalog :=
  ⟨c.cards.insert d.id.number d⟩

/-- Adds a definition; refused if its number is taken, or else if it has a fault. -/
def register (c : Catalog) (d : CardDefinition) : Except CatalogError Catalog :=
  if c.contains d.id then .error (.invalid (.alreadyRegistered d.id))
  else
    match d.validate with
    | .error e => .error e
    | .ok () => .ok (c.insert d)

/-- Adds definitions one after another; the first refusal is the answer. -/
def registerAll (c : Catalog) : List CardDefinition → Except CatalogError Catalog
  | [] => .ok c
  | d :: ds =>
    match c.register d with
    | .error e => .error e
    | .ok c => c.registerAll ds

/-- The catalog of a list in which later definitions replace earlier ones, with no check. -/
def ofList (ds : List CardDefinition) : Catalog :=
  ds.foldl insert empty

@[simp] theorem get?_empty (id : CardId) : empty.get? id = none := rfl

@[simp] theorem get?_insert_self (c : Catalog) (d : CardDefinition) :
    (c.insert d).get? d.id = some d := by
  simp [get?, insert]

theorem get?_insert_of_ne (c : Catalog) (d : CardDefinition) {id : CardId} (h : d.id ≠ id) :
    (c.insert d).get? id = c.get? id :=
  KeyMap.get?_insert_of_ne _ _ fun e => h (by cases hd : d.id; cases id; simp_all)

end Catalog

end CardBattle
