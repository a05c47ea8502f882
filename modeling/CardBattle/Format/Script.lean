import CardBattle.Format.Target

/-!
# Written forms of scripts

An expression or statement is written as its name, or as an object whose one member has its name.
Operators take an array of their two operands; the other fields form a record under the name. To
read a node, its content is first read in the ways in which it may hold smaller nodes, and these
readings are handed to the table of names.
-/

namespace CardBattle

open Json

namespace Arith

def all : List Arith :=
  [.add, .sub, .mul, .min, .max]

def name : Arith → String
  | .add => "add"
  | .sub => "sub"
  | .mul => "mul"
  | .min => "min"
  | .max => "max"

end Arith

namespace Expr

mutual

def toJson : Expr → Json
  | .int n => .obj [("int", .int n)]
  | .bool b => .obj [("bool", .bool b)]
  | .text s => .obj [("text", .str s)]
  | .var name => .obj [("var", .str name)]
  | .caster => .str "caster"
  | .opponent => .str "opponent"
  | .source => .str "source"
  | .triggerTarget => .str "trigger_target"
  | .triggerSource => .str "trigger_source"
  | .triggerAmount => .str "trigger_amount"
  | .health e => .obj [("health", e.toJson)]
  | .maxHealth e => .obj [("max_health", e.toJson)]
  | .attack e => .obj [("attack", e.toJson)]
  | .energy e => .obj [("energy", e.toJson)]
  | .handSize e => .obj [("hand_size", e.toJson)]
  | .creatures side => .obj [("creatures", .obj [("side", side.toJson)])]
  | .artifacts side => .obj [("artifacts", .obj [("side", side.toJson)])]
  | .arith op a b => .obj [(op.name, .arr [a.toJson, b.toJson])]
  | .eq a b => .obj [("eq", .arr [a.toJson, b.toJson])]
  | .lt a b => .obj [("lt", .arr [a.toJson, b.toJson])]
  | .gt a b => .obj [("gt", .arr [a.toJson, b.toJson])]
  | .not a => .obj [("not", a.toJson)]
  | .and a b => .obj [("and", .arr [a.toJson, b.toJson])]
  | .or a b => .obj [("or", .arr [a.toJson, b.toJson])]
  | .len a => .obj [("len", a.toJson)]
  | .first a => .obj [("first", a.toJson)]
  | .concat parts => .obj [("concat", .arr (listToJson parts))]

def listToJson : List Expr → List Json
  | [] => []
  | e :: es => e.toJson :: listToJson es

end

/-- The expressions that are a name alone. -/
def constants : List (String × Expr) :=
  [("caster", .caster), ("opponent", .opponent), ("source", .source),
    ("trigger_target", .triggerTarget), ("trigger_source", .triggerSource),
    ("trigger_amount", .triggerAmount)]

def readSide (medium : Medium) (content : Json) : Option Side := do
  let r ← content.caseRecord? medium ["side"]
  r.required "side" Side.ofJson?

/-- Gives two operands to an operator. -/
def applyPair (make : Expr → Expr → Expr) : Option (List Expr) → Option Expr
  | some [a, b] => some (make a b)
  | _ => none

/-- The expression of a name and its content, given the content read as an expression and as a list
of expressions. -/
def ofTagged? (medium : Medium) (tag : String) (content : Json) (operand : Option Expr)
    (operands : Option (List Expr)) : Option Expr :=
  match tag with
  | "int" => (word? content).map .int
  | "bool" => (bool? content).map .bool
  | "text" => (string? content).map .text
  | "var" => (string? content).map .var
  | "health" => operand.map .health
  | "max_health" => operand.map .maxHealth
  | "attack" => operand.map .attack
  | "energy" => operand.map .energy
  | "hand_size" => operand.map .handSize
  | "creatures" => (readSide medium content).map .creatures
  | "artifacts" => (readSide medium content).map .artifacts
  | "eq" => applyPair .eq operands
  | "lt" => applyPair .lt operands
  | "gt" => applyPair .gt operands
  | "not" => operand.map .not
  | "and" => applyPair .and operands
  | "or" => applyPair .or operands
  | "len" => operand.map .len
  | "first" => operand.map .first
  | "concat" => operands.map .concat
  | tag =>
    match Arith.all.find? fun op => op.name = tag with
    | some op => applyPair (.arith op) operands
    | none => none

mutual

def ofJson? (medium : Medium) : Json → Option Expr
  | .str name => constants.lookup name
  | .obj [(tag, content)] =>
    match content with
    | .null => constants.lookup tag
    | content =>
      ofTagged? medium tag content (ofJson? medium content) (listOfContent? medium content)
  | _ => none

def listOfContent? (medium : Medium) : Json → Option (List Expr)
  | .arr items => listOfJson? medium items
  | _ => none

def listOfJson? (medium : Medium) : List Json → Option (List Expr)
  | [] => some []
  | j :: js =>
    match ofJson? medium j, listOfJson? medium js with
    | some e, some es => some (e :: es)
    | _, _ => none

end

end Expr

namespace Stmt

mutual

def toJson : Stmt → Json
  | .letVar name value => .obj [("let", .obj [("name", .str name), ("value", value.toJson)])]
  | .selectTargets name selector =>
    .obj [("select_targets", .obj [("name", .str name), ("selector", selector.toJson)])]
  | .damagePlayer player amount =>
    .obj [("deal_damage_to_player",
      .obj [("player", player.toJson), ("amount", amount.toJson)])]
  | .damageCard card amount =>
    .obj [("deal_damage_to_creature",
      .obj [("creature", card.toJson), ("amount", amount.toJson)])]
  | .healPlayer player amount =>
    .obj [("heal_player", .obj [("player", player.toJson), ("amount", amount.toJson)])]
  | .healCard card amount =>
    .obj [("heal_creature", .obj [("creature", card.toJson), ("amount", amount.toJson)])]
  | .destroyCard card => .obj [("destroy_creature", .obj [("creature", card.toJson)])]
  | .log message => .obj [("log", .obj [("message", message.toJson)])]
  | .drawCard => .str "draw_card"
  | .gainEnergy amount => .obj [("gain_energy", .obj [("amount", amount.toJson)])]
  | .ifElse condition yes no =>
    .obj [("if", .obj [
      ("condition", condition.toJson),
      ("then", .arr (listToJson yes)),
      ("otherwise", .arr (listToJson no))])]
  | .forEach name items body =>
    .obj [("for_each", .obj [
      ("name", .str name),
      ("items", items.toJson),
      ("body", .arr (listToJson body))])]
  | .stop value => .obj [("return", value.toJson)]
  | .fail message => .obj [("fail", .str message)]

def listToJson : List Stmt → List Json
  | [] => []
  | s :: ss => s.toJson :: listToJson ss

end

def readPair (medium : Medium) (make : Expr → Expr → Stmt) (a b : String) (content : Json) :
    Option Stmt := do
  let r ← content.caseRecord? medium [a, b]
  let x ← r.required a (Expr.ofJson? medium)
  let y ← r.required b (Expr.ofJson? medium)
  return make x y

def readSingle (medium : Medium) (make : Expr → Stmt) (a : String) (content : Json) :
    Option Stmt := do
  let r ← content.caseRecord? medium [a]
  let x ← r.required a (Expr.ofJson? medium)
  return make x

def readLet (medium : Medium) (content : Json) : Option Stmt := do
  let r ← content.caseRecord? medium ["name", "value"]
  let name ← r.required "name" string?
  let value ← r.required "value" (Expr.ofJson? medium)
  return .letVar name value

def readSelect (medium : Medium) (content : Json) : Option Stmt := do
  let r ← content.caseRecord? medium ["name", "selector"]
  let name ← r.required "name" string?
  let selector ← r.required "selector" Selector.ofJson?
  return .selectTargets name selector

/-- Reads a choice, given the values of its fields read as blocks. -/
def readIf (medium : Medium) (content : Json) (blocks : List (Option (List Stmt))) :
    Option Stmt := do
  let r ← content.caseRecord? medium ["condition", "then", "otherwise"]
  let condition ← r.required "condition" (Expr.ofJson? medium)
  let yes ← (r.withValues blocks).required "then" id
  let no ← (r.withValues blocks).withDefault "otherwise" [] id
  return .ifElse condition yes no

/-- Reads a loop, given the values of its fields read as blocks. -/
def readLoop (medium : Medium) (content : Json) (blocks : List (Option (List Stmt))) :
    Option Stmt := do
  let r ← content.caseRecord? medium ["name", "items", "body"]
  let name ← r.required "name" string?
  let items ← r.required "items" (Expr.ofJson? medium)
  let body ← (r.withValues blocks).required "body" id
  return .forEach name items body

/-- The statement of a name and its content, given the values inside the content read as blocks. -/
def ofTagged? (medium : Medium) (tag : String) (content : Json)
    (blocks : List (Option (List Stmt))) : Option Stmt :=
  match tag with
  | "let" => readLet medium content
  | "select_targets" => readSelect medium content
  | "deal_damage_to_player" => readPair medium .damagePlayer "player" "amount" content
  | "deal_damage_to_creature" => readPair medium .damageCard "creature" "amount" content
  | "heal_player" => readPair medium .healPlayer "player" "amount" content
  | "heal_creature" => readPair medium .healCard "creature" "amount" content
  | "destroy_creature" => readSingle medium .destroyCard "creature" content
  | "log" => readSingle medium .log "message" content
  | "gain_energy" => readSingle medium .gainEnergy "amount" content
  | "if" => readIf medium content blocks
  | "for_each" => readLoop medium content blocks
  | "return" => (Expr.ofJson? medium content).map .stop
  | "fail" => (string? content).map .fail
  | _ => none

mutual

def ofJson? (medium : Medium) : Json → Option Stmt
  | .str name => if name = "draw_card" then some .drawCard else none
  | .obj [(tag, content)] =>
    match content with
    | .null => if tag = "draw_card" then some .drawCard else none
    | content => ofTagged? medium tag content (blocksOf medium content)
  | _ => none

def blockOfJson? (medium : Medium) : Json → Option (List Stmt)
  | .arr items => listOfJson? medium items
  | _ => none

def listOfJson? (medium : Medium) : List Json → Option (List Stmt)
  | [] => some []
  | j :: js =>
    match ofJson? medium j, listOfJson? medium js with
    | some s, some ss => some (s :: ss)
    | _, _ => none

/-- The values inside an array or object, each read as a block. -/
def blocksOf (medium : Medium) : Json → List (Option (List Stmt))
  | .arr items => blocksOfItems medium items
  | .obj members => blocksOfMembers medium members
  | _ => []

def blocksOfItems (medium : Medium) : List Json → List (Option (List Stmt))
  | [] => []
  | j :: js => blockOfJson? medium j :: blocksOfItems medium js

def blocksOfMembers (medium : Medium) : List (String × Json) → List (Option (List Stmt))
  | [] => []
  | (_, j) :: ms => blockOfJson? medium j :: blocksOfMembers medium ms

end

end Stmt

namespace Script

def toJson (s : Script) : Json :=
  .obj [("body", .arr (Stmt.listToJson s.body))]

def ofJson? (medium : Medium) (j : Json) : Option Script := do
  let r ← j.record? ["body"]
  let body ← r.withDefault "body" [] (Stmt.blockOfJson? medium)
  return { body }

end Script

end CardBattle
