import CardBattle.Format.Card
import CardBattle.Format.Operation
import CardBattle.Proofs.ScriptForms

/-!
# Forms of definitions and operations

Definitions are written with their scripts, each in any of its forms, and with or without the fields
that have their defaults. Operations have one written form, which names the operation first.
-/

namespace CardBattle

open Json

variable {medium : Medium} {j : Json}

/-! ### Identities and constants -/

namespace Seat

/-- Seats have 8 bits. -/
def sized (seat : Seat) : Bool :=
  decide (seat.index < Nat.pow 2 8)

theorem ofJson?_toJson {seat : Seat} (sized : seat.sized = true) :
    ofJson? seat.toJson = some seat :=
  congrArg (Option.map Seat.mk) (nat?_ofNat (of_decide_eq_true sized))

end Seat

namespace CardId

def sized (id : CardId) : Bool :=
  decide (id.number < Nat.pow 2 32)

theorem ofJson?_toJson {id : CardId} (sized : id.sized = true) : ofJson? id.toJson = some id :=
  congrArg (Option.map CardId.mk) (nat?_ofNat (of_decide_eq_true sized))

end CardId

namespace InstanceId

/-- Numbers of copies have 32 bits. -/
def sized (id : InstanceId) : Bool :=
  decide (id.number < Nat.pow 2 32)

theorem ofJson?_toJson {id : InstanceId} (sized : id.sized = true) :
    ofJson? id.toJson = some id :=
  congrArg (Option.map InstanceId.mk) (nat?_ofNat (of_decide_eq_true sized))

end InstanceId

theorem CardKind.ofJson?_toJson (kind : CardKind) : ofJson? kind.toJson = some kind := by
  cases kind <;> rfl

theorem TriggerEvent.ofJson?_toJson (event : TriggerEvent) :
    ofJson? event.toJson = some event := by
  cases event <;> rfl

/-! ### Definitions -/

namespace Ability

def sized (a : Ability) : Bool :=
  a.effect.sized

/-- Abilities give all their fields, with the script in any of its forms. -/
def form (a : Ability) : Form := .record [
  .given "trigger" (.only a.trigger.toJson),
  .given "effect" a.effect.form,
  .given "description" (.only (.str a.description))]

theorem form_toJson (a : Ability) : a.form a.toJson :=
  ⟨_, rfl, .given rfl <| .given a.effect.form_toJson <| .given rfl .nil⟩

/-- An ability is read from every form in which it may be given. -/
theorem ofJson?_of_form {a : Ability} (sized : a.sized = true) (h : a.form j) :
    ofJson? medium j = some a := by
  obtain ⟨_, readable, -, allows⟩ := h.seen ["trigger", "effect", "description"] rfl (by decide)
  simp only [List.forall_mem_cons] at allows
  obtain ⟨trigger, effect, description, -⟩ := allows
  rw [ofJson?]
  exact bind_eq_some_of readable <|
    bind_eq_some_of (trigger.required (reads_only a.trigger.ofJson?_toJson)) <|
    bind_eq_some_of (effect.required fun _ => Script.ofJson?_of_form sized) <|
    bind_eq_some_of (description.required (reads_only (string?_str _))) rfl

end Ability

namespace CardDefinition

/-- Whether every number written in a definition has the bits it may have. -/
def sized (d : CardDefinition) : Bool :=
  d.id.sized && inWord d.cost && inWord d.attack && inWord d.health && d.abilities.all Ability.sized
    && d.spellEffect.all Script.sized

/-- Definitions may leave out the fields from `attack` on that have their defaults. -/
def form (d : CardDefinition) : Form := .record [
  .given "id" (.only d.id.toJson),
  .given "name" (.only (.str d.name)),
  .given "kind" (.only d.kind.toJson),
  .given "cost" (.only (.int d.cost)),
  .defaulted "attack" (.only (.int d.attack)) (d.attack = 0),
  .defaulted "health" (.only (.int d.health)) (d.health = 0),
  .defaulted "description" (.only (.str d.description)) (d.description = ""),
  .defaulted "triggered_abilities" (.list (d.abilities.map Ability.form)) (d.abilities = []),
  .defaulted "spell_effect" (.option Script.form d.spellEffect) (d.spellEffect = none),
  .defaulted "attack_targeting" d.attackRules.form (d.attackRules = {})]

/-- What is written for a definition is one of its forms. -/
theorem form_toJson (d : CardDefinition) : d.form d.toJson := by
  have effect : Form.option Script.form d.spellEffect (ofOption Script.toJson d.spellEffect) := by
    cases d.spellEffect with
    | none => rfl
    | some script => exact script.form_toJson
  exact ⟨_, rfl, .given rfl <| .given rfl <| .given rfl <| .given rfl <| .given rfl <|
    .given rfl <| .given rfl <| .given (Form.list_map fun a _ => a.form_toJson) <|
    .given effect <| .given d.attackRules.form_toJson .nil⟩

/-- A definition is read from every form in which it may be given. -/
theorem ofJson?_of_form {d : CardDefinition} (sized : d.sized = true) (h : d.form j) :
    ofJson? medium j = some d := by
  simp only [CardDefinition.sized, Bool.and_eq_true, List.all_eq_true] at sized
  obtain ⟨⟨⟨⟨⟨id_sized, cost_sized⟩, attack_sized⟩, health_sized⟩, abilities_sized⟩,
    effect_sized⟩ := sized
  obtain ⟨_, readable, -, allows⟩ := h.seen fieldNames rfl (by decide)
  simp only [List.forall_mem_cons] at allows
  obtain ⟨id, name, kind, cost, attack, health, description, abilities, effect, rules, -⟩ := allows
  have abilities_read : ∀ j, Form.list (d.abilities.map Ability.form) j →
      list? (Ability.ofJson? medium) j = some d.abilities := fun _ written =>
    list?_of_form written fun a ha _ => Ability.ofJson?_of_form (abilities_sized a ha)
  have effect_read : ∀ j, Form.option Script.form d.spellEffect j →
      nullable? (Script.ofJson? medium) j = some d.spellEffect := fun _ written =>
    nullable?_of_form written (fun _ _ h => h.ne_null rfl) fun script present _ =>
      Script.ofJson?_of_form (holds_of_all effect_sized script present)
  rw [ofJson?]
  exact bind_eq_some_of readable <|
    bind_eq_some_of (id.required (reads_only (CardId.ofJson?_toJson id_sized))) <|
    bind_eq_some_of (name.required (reads_only (string?_str _))) <|
    bind_eq_some_of (kind.required (reads_only d.kind.ofJson?_toJson)) <|
    bind_eq_some_of (cost.required (reads_only (word?_int cost_sized))) <|
    bind_eq_some_of (attack.withDefault (reads_only (word?_int attack_sized))) <|
    bind_eq_some_of (health.withDefault (reads_only (word?_int health_sized))) <|
    bind_eq_some_of (description.withDefault (reads_only (string?_str _))) <|
    bind_eq_some_of (abilities.withDefault abilities_read) <|
    bind_eq_some_of (effect.withDefault effect_read) <|
    bind_eq_some_of (rules.withDefault fun _ => AttackRules.ofJson?_of_form) rfl

end CardDefinition

/-! ### Operations -/

namespace Operation

/-- Whether every number written in an operation has the bits it may have. -/
def sized : Operation → Bool
  | .damagePlayer player n | .healPlayer player n | .gainEnergy player n =>
    player.sized && inWord n
  | .damageCard card n => card.sized && inWord n
  | .healCard card n greatest => card.sized && inWord n && inWord greatest
  | .destroyCard card => card.sized
  | .log player _ | .drawCard player => player.sized

/-- Every operation about a player and an amount is read the same way. -/
theorem readPlayerAmount_obj {make : Seat → Int → Operation} {tag : String} {player : Seat}
    {n : Int} (seated : player.sized = true) (amount : inWord n = true) :
    readPlayerAmount make (.obj [("type", .str tag), ("player", player.toJson),
      ("amount", .int n)]) = some (make player n) := by
  rw [readPlayerAmount]
  exact bind_eq_some_of (record?_obj (show ["type", "player", "amount"].Nodup by decide)) <|
    bind_eq_some_of (required_of_lookup rfl (Seat.ofJson?_toJson seated)) <|
    bind_eq_some_of (required_of_lookup rfl (word?_int amount)) rfl

theorem ofJson?_toJson {op : Operation} (sized : op.sized = true) :
    ofJson? op.toJson = some op := by
  cases op with
  | damagePlayer _ _ | healPlayer _ _ | gainEnergy _ _ =>
    obtain ⟨seated, amount⟩ := Bool.and_eq_true_iff.mp sized
    exact readPlayerAmount_obj seated amount
  | damageCard card n =>
    obtain ⟨numbered, amount⟩ := Bool.and_eq_true_iff.mp sized
    show readDamageCard (damageCard card n).toJson = _
    rw [readDamageCard]
    exact bind_eq_some_of (record?_obj (show ["type", "instance", "amount"].Nodup by decide)) <|
      bind_eq_some_of (required_of_lookup rfl (InstanceId.ofJson?_toJson numbered)) <|
      bind_eq_some_of (required_of_lookup rfl (word?_int amount)) rfl
  | healCard card n greatest =>
    obtain ⟨numbers, greatest_sized⟩ := Bool.and_eq_true_iff.mp sized
    obtain ⟨numbered, amount⟩ := Bool.and_eq_true_iff.mp numbers
    show readHealCard (healCard card n greatest).toJson = _
    rw [readHealCard]
    exact bind_eq_some_of
      (record?_obj (show ["type", "instance", "amount", "max_health"].Nodup by decide)) <|
      bind_eq_some_of (required_of_lookup rfl (InstanceId.ofJson?_toJson numbered)) <|
      bind_eq_some_of (required_of_lookup rfl (word?_int amount)) <|
      bind_eq_some_of (required_of_lookup rfl (word?_int greatest_sized)) rfl
  | destroyCard card =>
    show readDestroyCard (destroyCard card).toJson = _
    rw [readDestroyCard]
    exact bind_eq_some_of (record?_obj (show ["type", "instance"].Nodup by decide)) <|
      bind_eq_some_of (required_of_lookup rfl (InstanceId.ofJson?_toJson sized)) rfl
  | log player text =>
    show readLog (log player text).toJson = _
    rw [readLog]
    exact bind_eq_some_of (record?_obj (show ["type", "player", "description"].Nodup by decide)) <|
      bind_eq_some_of (required_of_lookup rfl (Seat.ofJson?_toJson sized)) <|
      bind_eq_some_of (required_of_lookup rfl (string?_str text)) rfl
  | drawCard player =>
    show readDrawCard (drawCard player).toJson = _
    rw [readDrawCard]
    exact bind_eq_some_of (record?_obj (show ["type", "player"].Nodup by decide)) <|
      bind_eq_some_of (required_of_lookup rfl (Seat.ofJson?_toJson sized)) rfl

end Operation

end CardBattle
