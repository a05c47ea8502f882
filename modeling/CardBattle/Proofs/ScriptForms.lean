import CardBattle.Format.Script
import CardBattle.Proofs.Forms

/-!
# Forms of scripts

Expressions are written in one way. Selectors, statements and scripts are written in one way for
every choice of fields that are left out because they have their defaults, at whatever depth. In
whatever way a script is written, it is read back as it was, provided that its numbers have the bits
that their fields have room for.
-/

namespace CardBattle

open Json

variable {medium : Medium} {j : Json}

/-! ### Expressions -/

namespace Expr

mutual

def sized : Expr → Bool
  | .int n => inWord n
  | .health e | .maxHealth e | .attack e | .energy e | .handSize e | .not e | .len e | .first e =>
    e.sized
  | .arith _ a b | .eq a b | .lt a b | .gt a b | .and a b | .or a b => a.sized && b.sized
  | .concat parts => allSized parts
  | _ => true

/-- Whether every integer written in some expressions has 64 bits. -/
def allSized : List Expr → Bool
  | [] => true
  | e :: es => e.sized && allSized es

end

theorem toJson_ne_null (e : Expr) : e.toJson ≠ .null := by
  cases e <;> simp [toJson]

theorem ofJson?_tagged {tag : String} {content : Json} (present : content ≠ .null) :
    ofJson? medium (.obj [(tag, content)]) =
      ofTagged? medium tag content (ofJson? medium content) (listOfContent? medium content) := by
  cases content with
  | null => exact absurd rfl present
  | _ => rfl

/-- An expression of one operand is read back if the operand is. -/
theorem ofJson?_operand {tag : String} {e made : Expr} (read : ofJson? medium e.toJson = some e)
    (table : ∀ operands, ofTagged? medium tag e.toJson (some e) operands = some made) :
    ofJson? medium (.obj [(tag, e.toJson)]) = some made := by
  rw [ofJson?_tagged e.toJson_ne_null, read]
  exact table _

/-- An expression of several operands is read back if these are. -/
theorem ofJson?_operands {tag : String} {es : List Expr} {made : Expr}
    (read : listOfJson? medium (listToJson es) = some es)
    (table : ∀ content operand, ofTagged? medium tag content operand (some es) = some made) :
    ofJson? medium (.obj [(tag, .arr (listToJson es))]) = some made := by
  rw [ofJson?_tagged (by simp), listOfContent?, read]
  exact table _ _

theorem listOfJson?_pair {a b : Expr} (first : ofJson? medium a.toJson = some a)
    (second : ofJson? medium b.toJson = some b) :
    listOfJson? medium (listToJson [a, b]) = some [a, b] := by
  simp [listToJson, listOfJson?, first, second]

mutual

/-- An expression is read back as it was written, from either medium. -/
theorem ofJson?_toJson (medium : Medium) (e : Expr) (sized : e.sized = true) :
    ofJson? medium e.toJson = some e := by
  cases e with
  | int n =>
    rw [toJson, ofJson?_tagged (by simp)]
    exact congrArg (Option.map Expr.int) (word?_int sized)
  | bool _ | text _ | var _ | caster | opponent | source | triggerTarget | triggerSource
  | triggerAmount => rfl
  | creatures side | artifacts side => cases side <;> cases medium <;> rfl
  | health e | maxHealth e | attack e | energy e | handSize e | not e | len e | first e =>
    exact ofJson?_operand (ofJson?_toJson medium e sized) fun _ => rfl
  | arith op a b =>
    obtain ⟨left, right⟩ := Bool.and_eq_true_iff.mp sized
    have pair := listOfJson?_pair (ofJson?_toJson medium a left) (ofJson?_toJson medium b right)
    cases op <;> exact ofJson?_operands pair fun _ _ => rfl
  | eq a b | lt a b | gt a b | and a b | or a b =>
    obtain ⟨left, right⟩ := Bool.and_eq_true_iff.mp sized
    have pair := listOfJson?_pair (ofJson?_toJson medium a left) (ofJson?_toJson medium b right)
    exact ofJson?_operands pair fun _ _ => rfl
  | concat parts =>
    exact ofJson?_operands (listOfJson?_listToJson medium parts sized) fun _ _ => rfl

theorem listOfJson?_listToJson (medium : Medium) (es : List Expr) (sized : allSized es = true) :
    listOfJson? medium (listToJson es) = some es := by
  cases es with
  | nil => rfl
  | cons e es =>
    obtain ⟨head, tail⟩ := Bool.and_eq_true_iff.mp sized
    rw [listToJson, listOfJson?, ofJson?_toJson medium e head,
      listOfJson?_listToJson medium es tail]

end

end Expr

/-! ### Selectors and attack rules -/

theorem TargetKind.ofJson?_toJson (kind : TargetKind) : ofJson? kind.toJson = some kind := by
  cases kind <;> rfl

namespace Selector

/-- Selectors may leave out every field that has its default. -/
def form (s : Selector) : Form := .record [
  .defaulted "kind" (.only s.kind.toJson) (s.kind = .any),
  .defaulted "count" (.only (ofNat s.count)) (s.count = 1),
  .defaulted "can_target_self" (.only (.bool s.canTargetSelf)) (s.canTargetSelf = false),
  .defaulted "can_target_enemies" (.only (.bool s.canTargetEnemies)) (s.canTargetEnemies = true),
  .defaulted "can_target_players" (.only (.bool s.canTargetPlayers)) (s.canTargetPlayers = true),
  .defaulted "can_target_creatures" (.only (.bool s.canTargetCreatures))
    (s.canTargetCreatures = true),
  .defaulted "can_target_artifacts" (.only (.bool s.canTargetArtifacts))
    (s.canTargetArtifacts = true),
  .defaulted "allowed_kinds" (.only (ofOption (ofList TargetKind.toJson) s.allowedKinds))
    (s.allowedKinds = none),
  .defaulted "prompt" (.only (.str s.prompt)) (s.prompt = "")]

def sized (s : Selector) : Bool :=
  decide (s.count < Nat.pow 2 64)

/-- What is written for a selector is one of its forms. -/
theorem form_toJson (s : Selector) : s.form s.toJson :=
  ⟨_, rfl, .given rfl <| .given rfl <| .given rfl <| .given rfl <| .given rfl <| .given rfl <|
    .given rfl <| .given rfl <| .given rfl .nil⟩

/-- A selector is read from every form in which it may be given. -/
theorem ofJson?_of_form {s : Selector} (sized : s.sized = true) (h : s.form j) :
    ofJson? j = some s := by
  obtain ⟨r, readable, -, allows⟩ := h.seen fieldNames rfl (by decide)
  simp only [List.forall_mem_cons] at allows
  obtain ⟨kind, count, self, enemies, players, creatures, artifacts, kinds, prompt, -⟩ := allows
  have kinds_read : nullable? (list? TargetKind.ofJson?)
      (ofOption (ofList TargetKind.toJson) s.allowedKinds) = some s.allowedKinds :=
    nullable?_ofOption (fun _ => by simp [ofList])
      fun ks _ => list?_ofList fun k _ => TargetKind.ofJson?_toJson k
  rw [ofJson?]
  exact bind_eq_some_of readable <|
    bind_eq_some_of (kind.withDefault (reads_only s.kind.ofJson?_toJson)) <|
    bind_eq_some_of (count.withDefault (reads_only (nat?_ofNat (of_decide_eq_true sized)))) <|
    bind_eq_some_of (self.withDefault (reads_only (bool?_bool _))) <|
    bind_eq_some_of (enemies.withDefault (reads_only (bool?_bool _))) <|
    bind_eq_some_of (players.withDefault (reads_only (bool?_bool _))) <|
    bind_eq_some_of (creatures.withDefault (reads_only (bool?_bool _))) <|
    bind_eq_some_of (artifacts.withDefault (reads_only (bool?_bool _))) <|
    bind_eq_some_of (kinds.withDefault (reads_only kinds_read)) <|
    bind_eq_some_of (prompt.withDefault (reads_only (string?_str _))) rfl

end Selector

namespace AttackRules

def form (r : AttackRules) : Form := .record [
  .defaulted "can_target_players" (.only (.bool r.canTargetPlayers)) (r.canTargetPlayers = true),
  .defaulted "can_target_creatures" (.only (.bool r.canTargetCreatures))
    (r.canTargetCreatures = true),
  .defaulted "can_target_artifacts" (.only (.bool r.canTargetArtifacts))
    (r.canTargetArtifacts = true)]

theorem form_toJson (r : AttackRules) : r.form r.toJson :=
  ⟨_, rfl, .given rfl <| .given rfl <| .given rfl .nil⟩

theorem ofJson?_of_form {r : AttackRules} (h : r.form j) : ofJson? j = some r := by
  obtain ⟨_, readable, -, allows⟩ := h.seen
    ["can_target_players", "can_target_creatures", "can_target_artifacts"] rfl (by decide)
  simp only [List.forall_mem_cons] at allows
  obtain ⟨players, creatures, artifacts, -⟩ := allows
  rw [ofJson?]
  exact bind_eq_some_of readable <|
    bind_eq_some_of (players.withDefault (reads_only (bool?_bool _))) <|
    bind_eq_some_of (creatures.withDefault (reads_only (bool?_bool _))) <|
    bind_eq_some_of (artifacts.withDefault (reads_only (bool?_bool _))) rfl

end AttackRules

/-! ### Statements -/

namespace Stmt

mutual

/-- Whether every number written in a statement has the bits it may have. -/
def sized : Stmt → Bool
  | .letVar _ e | .destroyCard e | .log e | .gainEnergy e | .stop e => e.sized
  | .selectTargets _ selector => selector.sized
  | .damagePlayer a b | .damageCard a b | .healPlayer a b | .healCard a b => a.sized && b.sized
  | .ifElse condition yes no => condition.sized && (allSized yes && allSized no)
  | .forEach _ items body => items.sized && allSized body
  | .drawCard | .fail _ => true

/-- Whether every number written in some statements has the bits it may have. -/
def allSized : List Stmt → Bool
  | [] => true
  | s :: ss => s.sized && allSized ss

end

mutual

/-- Choices may leave out an empty second block, and their blocks, like those of loops, hold
statements in any of their forms; selectors too stand in any of their forms. -/
def form : Stmt → Form
  | .selectTargets name selector => .tagged "select_targets" <| .record [
      .given "name" (.only (.str name)),
      .given "selector" selector.form]
  | .ifElse condition yes no => .tagged "if" <| .record [
      .given "condition" (.only condition.toJson),
      .given "then" (.list (forms yes)),
      .defaulted "otherwise" (.list (forms no)) (no = [])]
  | .forEach name items body => .tagged "for_each" <| .record [
      .given "name" (.only (.str name)),
      .given "items" (.only items.toJson),
      .given "body" (.list (forms body))]
  | s => .only s.toJson

/-- The forms of statements in a row. -/
def forms : List Stmt → List Form
  | [] => []
  | s :: ss => s.form :: forms ss

end

mutual

theorem form_toJson (s : Stmt) : s.form s.toJson := by
  cases s with
  | selectTargets _ selector =>
    exact ⟨_, rfl, _, rfl, .given rfl <| .given selector.form_toJson .nil⟩
  | ifElse _ yes no =>
    exact ⟨_, rfl, _, rfl, .given rfl <| .given (forms_listToJson yes) <|
      .given (forms_listToJson no) .nil⟩
  | forEach _ _ body =>
    exact ⟨_, rfl, _, rfl, .given rfl <| .given rfl <| .given (forms_listToJson body) .nil⟩
  | letVar _ _ | damagePlayer _ _ | damageCard _ _ | healPlayer _ _ | healCard _ _ | destroyCard _
  | log _ | drawCard | gainEnergy _ | stop _ | fail _ => rfl

theorem forms_listToJson (ss : List Stmt) : Form.list (forms ss) (.arr (listToJson ss)) := by
  cases ss with
  | nil => exact ⟨_, rfl, .nil⟩
  | cons s ss =>
    obtain ⟨items, same, rows⟩ := forms_listToJson ss
    cases same
    exact ⟨_, rfl, .cons (form_toJson s) rows⟩

end

/-! ### Reading statements -/

theorem ofJson?_tagged {tag : String} {content : Json} (present : content ≠ .null) :
    ofJson? medium (.obj [(tag, content)]) =
      ofTagged? medium tag content (blocksOf medium content) := by
  cases content with
  | null => exact absurd rfl present
  | _ => rfl

/-- The readings of its fields as blocks belong to the fields of an object. -/
theorem lookup_withValues_blocksOf (r : Record Json) (name : String) :
    (r.withValues (blocksOf medium (.obj r.fields))).fields.lookup name =
      (r.fields.lookup name).map (blockOfJson? medium) := by
  obtain ⟨ms, positional⟩ := r
  show ((ms.map (·.1)).zip (blocksOfMembers medium ms)).lookup name = _
  induction ms with
  | nil => rfl
  | cons m ms ih =>
    obtain ⟨key, j⟩ := m
    rw [blocksOfMembers, List.map_cons, List.zip_cons_cons, List.lookup_cons, List.lookup_cons]
    cases name == key with
    | true => rfl
    | false => exact ih

theorem required_block (r : Record Json) (name : String) :
    (r.withValues (blocksOf medium (.obj r.fields))).required name id =
      r.required name (blockOfJson? medium) := by
  rw [Record.required, lookup_withValues_blocksOf, Record.required]
  cases r.fields.lookup name <;> rfl

theorem withDefault_block (r : Record Json) (name : String) (default : List Stmt) :
    (r.withValues (blocksOf medium (.obj r.fields))).withDefault name default id =
      r.withDefault name default (blockOfJson? medium) := by
  rw [Record.withDefault, lookup_withValues_blocksOf, Record.withDefault]
  cases r.fields.lookup name <;> rfl

theorem readSelect_of_form {name : String} {selector : Selector} (sized : selector.sized = true)
    (h : Form.record [.given "name" (.only (.str name)), .given "selector" selector.form] j) :
    readSelect medium j = some (.selectTargets name selector) := by
  obtain ⟨r, readable, rfl, allows⟩ := h.seen ["name", "selector"] rfl (by decide)
  simp only [List.forall_mem_cons] at allows
  obtain ⟨named, selects, -⟩ := allows
  rw [readSelect, caseRecord?_obj]
  exact bind_eq_some_of readable <|
    bind_eq_some_of (named.required (reads_only (string?_str _))) <|
    bind_eq_some_of (selects.required fun _ => Selector.ofJson?_of_form sized) rfl

/-- A choice is read from every form if its blocks are. -/
theorem readIf_of_form {condition : Expr} {yes no : List Stmt} (sized : condition.sized = true)
    (read_yes : ∀ j, Form.list (forms yes) j → blockOfJson? medium j = some yes)
    (read_no : ∀ j, Form.list (forms no) j → blockOfJson? medium j = some no)
    (h : Form.record [.given "condition" (.only condition.toJson),
      .given "then" (.list (forms yes)),
      .defaulted "otherwise" (.list (forms no)) (no = [])] j) :
    readIf medium j (blocksOf medium j) = some (.ifElse condition yes no) := by
  obtain ⟨r, readable, rfl, allows⟩ := h.seen ["condition", "then", "otherwise"] rfl (by decide)
  simp only [List.forall_mem_cons] at allows
  obtain ⟨decides, thens, others, -⟩ := allows
  rw [readIf, caseRecord?_obj]
  exact bind_eq_some_of readable <|
    bind_eq_some_of (decides.required (reads_only (Expr.ofJson?_toJson medium _ sized))) <|
    bind_eq_some_of ((required_block r _).trans (thens.required read_yes)) <|
    bind_eq_some_of ((withDefault_block r _ _).trans (others.withDefault read_no)) rfl

/-- A loop is read from every form if its body is. -/
theorem readLoop_of_form {name : String} {items : Expr} {body : List Stmt}
    (sized : items.sized = true)
    (read_body : ∀ j, Form.list (forms body) j → blockOfJson? medium j = some body)
    (h : Form.record [.given "name" (.only (.str name)), .given "items" (.only items.toJson),
      .given "body" (.list (forms body))] j) :
    readLoop medium j (blocksOf medium j) = some (.forEach name items body) := by
  obtain ⟨r, readable, rfl, allows⟩ := h.seen ["name", "items", "body"] rfl (by decide)
  simp only [List.forall_mem_cons] at allows
  obtain ⟨named, ranges, bodies, -⟩ := allows
  rw [readLoop, caseRecord?_obj]
  exact bind_eq_some_of readable <|
    bind_eq_some_of (named.required (reads_only (string?_str _))) <|
    bind_eq_some_of (ranges.required (reads_only (Expr.ofJson?_toJson medium _ sized))) <|
    bind_eq_some_of ((required_block r _).trans (bodies.required read_body)) rfl

theorem readSingle_obj {make : Expr → Stmt} {name : String} {e : Expr} (sized : e.sized = true) :
    readSingle medium make name (.obj [(name, e.toJson)]) = some (make e) := by
  rw [readSingle, caseRecord?_obj]
  exact bind_eq_some_of (record?_named rfl (List.nodup_singleton name)) <|
    bind_eq_some_of
      (required_of_lookup List.lookup_cons_self (Expr.ofJson?_toJson medium e sized)) rfl

theorem readPair_obj {make : Expr → Expr → Stmt} {a b : String} {x y : Expr} (distinct : a ≠ b)
    (left : x.sized = true) (right : y.sized = true) :
    readPair medium make a b (.obj [(a, x.toJson), (b, y.toJson)]) = some (make x y) := by
  have second : [(a, x.toJson), (b, y.toJson)].lookup b = some y.toJson := by
    rw [List.lookup_cons, beq_eq_false_iff_ne.mpr distinct.symm]
    exact List.lookup_cons_self
  rw [readPair, caseRecord?_obj]
  exact bind_eq_some_of (record?_named rfl (by simp [distinct])) <|
    bind_eq_some_of
      (required_of_lookup List.lookup_cons_self (Expr.ofJson?_toJson medium x left)) <|
    bind_eq_some_of (required_of_lookup second (Expr.ofJson?_toJson medium y right)) rfl

theorem readLet_obj {name : String} {e : Expr} (sized : e.sized = true) :
    readLet medium (.obj [("name", .str name), ("value", e.toJson)]) = some (.letVar name e) := by
  rw [readLet, caseRecord?_obj]
  exact bind_eq_some_of (record?_named rfl (by decide)) <|
    bind_eq_some_of (required_of_lookup rfl (string?_str name)) <|
    bind_eq_some_of (required_of_lookup rfl (Expr.ofJson?_toJson medium e sized)) rfl

mutual

/-- A statement is read from every form in which it may be given. -/
theorem ofJson?_of_form (medium : Medium) (s : Stmt) (sized : s.sized = true) (j : Json)
    (h : s.form j) : ofJson? medium j = some s := by
  -- The first three leave room for defaults; every other statement is written in one way.
  cases s with
  | selectTargets _ _ =>
    obtain ⟨content, rfl, h⟩ := h
    rw [ofJson?_tagged h.ne_null]
    exact readSelect_of_form sized h
  | ifElse _ yes no =>
    obtain ⟨content, rfl, h⟩ := h
    obtain ⟨sized, blocks⟩ := Bool.and_eq_true_iff.mp sized
    obtain ⟨sized_yes, sized_no⟩ := Bool.and_eq_true_iff.mp blocks
    rw [ofJson?_tagged h.ne_null]
    exact readIf_of_form sized (blockOfJson?_of_forms medium yes sized_yes)
      (blockOfJson?_of_forms medium no sized_no) h
  | forEach _ _ body =>
    obtain ⟨content, rfl, h⟩ := h
    obtain ⟨sized, sized_body⟩ := Bool.and_eq_true_iff.mp sized
    rw [ofJson?_tagged h.ne_null]
    exact readLoop_of_form sized (blockOfJson?_of_forms medium body sized_body) h
  | letVar _ _ =>
    cases h
    exact readLet_obj sized
  | damagePlayer _ _ | damageCard _ _ | healPlayer _ _ | healCard _ _ =>
    cases h
    obtain ⟨left, right⟩ := Bool.and_eq_true_iff.mp sized
    exact readPair_obj (by decide) left right
  | destroyCard _ | log _ | gainEnergy _ =>
    cases h
    exact readSingle_obj sized
  | stop e =>
    cases h
    rw [toJson, ofJson?_tagged e.toJson_ne_null]
    exact congrArg (Option.map Stmt.stop) (Expr.ofJson?_toJson medium e sized)
  | drawCard | fail _ =>
    cases h
    rfl

theorem blockOfJson?_of_forms (medium : Medium) (ss : List Stmt) (sized : allSized ss = true)
    (j : Json) (h : Form.list (forms ss) j) : blockOfJson? medium j = some ss := by
  obtain ⟨items, rfl, rows⟩ := h
  cases ss with
  | nil =>
    cases rows
    rfl
  | cons s ss =>
    obtain ⟨head, tail⟩ := Bool.and_eq_true_iff.mp sized
    obtain ⟨j, items, written, rest, rfl⟩ := List.forall₂_cons_left_iff.mp rows
    have read_rest : listOfJson? medium items = some ss :=
      blockOfJson?_of_forms medium ss tail _ ⟨items, rfl, rest⟩
    rw [blockOfJson?, listOfJson?, ofJson?_of_form medium s head j written, read_rest]

end

end Stmt

/-! ### Scripts -/

namespace Script

/-- Whether every number written in a script has the bits it may have. -/
def sized (s : Script) : Bool :=
  Stmt.allSized s.body

def form (s : Script) : Form := .record [
  .defaulted "body" (.list (Stmt.forms s.body)) (s.body = [])]

theorem form_toJson (s : Script) : s.form s.toJson :=
  ⟨_, rfl, .given (Stmt.forms_listToJson s.body) .nil⟩

/-- A script is read from every form in which it may be given. -/
theorem ofJson?_of_form {s : Script} (sized : s.sized = true) (h : s.form j) :
    ofJson? medium j = some s := by
  obtain ⟨r, readable, -, allows⟩ := h.seen ["body"] rfl (by decide)
  simp only [List.forall_mem_cons] at allows
  obtain ⟨body, -⟩ := allows
  rw [ofJson?]
  exact bind_eq_some_of readable <|
    bind_eq_some_of (body.withDefault (Stmt.blockOfJson?_of_forms medium s.body sized)) rfl

end Script

end CardBattle
