import CardBattle.Target

/-!
# The effect language

Abilities and spells are scripts: lists of statements over expressions. Scripts read the state of
a game, ask for targets, and queue operations; they never change a game themselves.
-/

namespace CardBattle

/-- Which side of the board, seen from the player an effect acts for. -/
inductive Side where
  | friendly
  | enemy
  | any
  deriving DecidableEq, Repr, Inhabited

inductive Arith where
  | add
  | sub
  | mul
  | min
  | max
  deriving DecidableEq, Repr, Inhabited

inductive Expr where
  | int (n : Int)
  | bool (b : Bool)
  | text (s : String)
  | var (name : String)
  /-- The player the effect acts for. -/
  | caster
  /-- The first opponent of the caster. -/
  | opponent
  /-- The card the effect comes from. -/
  | source
  /-- What the triggering damage hit; nothing outside damage events. -/
  | triggerTarget
  /-- What dealt the triggering damage; nothing outside damage events. -/
  | triggerSource
  /-- The triggering damage; 0 outside damage events. -/
  | triggerAmount
  /-- Current health of a player or card. -/
  | health (e : Expr)
  /-- Greatest health of a player or card. -/
  | maxHealth (e : Expr)
  /-- Attack of a card. -/
  | attack (e : Expr)
  /-- Energy of a player. -/
  | energy (e : Expr)
  /-- Number of cards in a player's hand. -/
  | handSize (e : Expr)
  /-- Creatures in play. -/
  | creatures (side : Side)
  /-- Artifacts in play. -/
  | artifacts (side : Side)
  | arith (op : Arith) (a b : Expr)
  | eq (a b : Expr)
  | lt (a b : Expr)
  | gt (a b : Expr)
  | not (a : Expr)
  | and (a b : Expr)
  | or (a b : Expr)
  /-- Length of a list or text. -/
  | len (a : Expr)
  /-- First element of a list; nothing for an empty one. -/
  | first (a : Expr)
  /-- The texts of the parts, joined. -/
  | concat (parts : List Expr)
  deriving Inhabited

inductive Stmt where
  /-- Binds a variable in the current block. -/
  | letVar (name : String) (value : Expr)
  /-- Asks for targets and binds the list of those chosen. -/
  | selectTargets (name : String) (selector : Selector)
  | damagePlayer (player amount : Expr)
  | damageCard (card amount : Expr)
  | healPlayer (player amount : Expr)
  | healCard (card amount : Expr)
  | destroyCard (card : Expr)
  /-- Writes a line to the game log. -/
  | log (message : Expr)
  /-- The caster draws a card; for abilities only. -/
  | drawCard
  /-- The caster gains energy; for abilities only. -/
  | gainEnergy (amount : Expr)
  | ifElse (condition : Expr) (yes no : List Stmt)
  /-- Runs a block once for each element of a list. -/
  | forEach (name : String) (items : Expr) (body : List Stmt)
  /-- Ends the script with a value; `false` declines. -/
  | stop (value : Expr)
  /-- Ends the script with an error. -/
  | fail (message : String)
  deriving Inhabited

/-- The body of an ability or spell. -/
structure Script where
  body : List Stmt := []
  deriving Inhabited

end CardBattle
