import CardBattle.Format.Session
import CardBattle.Proofs.Accepted
import CardBattle.Proofs.CardForms
import CardBattle.Proofs.KeyMapEntries
import Mathlib

/-!
# Reading what was written

Sessions are read back as they were, record by record and field by field, provided that their
numbers have the bits that their fields have room for. The copies of a session are written under
their numbers; read back, they stand in the order of the numbers again. With this, whatever is
written in one of its forms comes back: scripts, definitions, operations and sessions.
-/

namespace CardBattle

open Json

variable {medium : Medium}

/-! ### Log entries -/

theorem LogAction.ofJson?_toJson (action : LogAction) : ofJson? action.toJson = some action := by
  cases action <;> rfl

theorem Status.ofJson?_toJson (status : Status) : ofJson? status.toJson = some status := by
  cases status <;> rfl

namespace Target

/-- Whether every number of a target has the bits it may have. -/
def sized : Target → Bool
  | .player seat => seat.sized
  | .creature card owner | .artifact card owner => card.sized && owner.sized

theorem toJson_ne_null (target : Target) : target.toJson ≠ .null := by
  cases target <;> nofun

/-- A target that is a card is read back with its owner. -/
theorem readCard_obj {make : InstanceId → Seat → Target} {card : InstanceId} {owner : Seat}
    (numbered : card.sized = true) (seated : owner.sized = true) :
    readCard medium make (.obj [("instance", card.toJson), ("owner", owner.toJson)]) =
      some (make card owner) := by
  rw [readCard, caseRecord?_obj]
  exact bind_eq_some_of (record?_named rfl (by decide)) <|
    bind_eq_some_of (required_of_lookup rfl (InstanceId.ofJson?_toJson numbered)) <|
    bind_eq_some_of (required_of_lookup rfl (Seat.ofJson?_toJson seated)) rfl

theorem ofJson?_toJson {target : Target} (sized : target.sized = true) :
    ofJson? medium target.toJson = some target := by
  cases target with
  | player seat =>
    show (Seat.ofJson? seat.toJson).map Target.player = _
    rw [Seat.ofJson?_toJson sized, Option.map_some]
  | creature _ _ | artifact _ _ =>
    obtain ⟨numbered, seated⟩ := Bool.and_eq_true_iff.mp sized
    exact readCard_obj numbered seated

end Target

namespace LogEntry

def sized (e : LogEntry) : Bool :=
  e.player.sized && e.amount.all inWord && e.target.all Target.sized
    && decide (e.timestamp < Nat.pow 2 64)

theorem ofJson?_toJson {e : LogEntry} (sized : e.sized = true) :
    ofJson? medium e.toJson = some e := by
  simp only [LogEntry.sized, Bool.and_eq_true, decide_eq_true_eq] at sized
  obtain ⟨⟨⟨seated, amount⟩, target⟩, timestamp⟩ := sized
  have amount_read : nullable? word? (ofOption .int e.amount) = some e.amount :=
    nullable?_ofOption nofun fun n hn => word?_int (holds_of_all amount n hn)
  have target_read : nullable? (Target.ofJson? medium) (ofOption Target.toJson e.target) =
      some e.target :=
    nullable?_ofOption Target.toJson_ne_null fun target' h =>
      Target.ofJson?_toJson (holds_of_all target target' h)
  rw [ofJson?]
  exact bind_eq_some_of (record?_named rfl (by decide)) <|
    bind_eq_some_of (required_of_lookup rfl (Seat.ofJson?_toJson seated)) <|
    bind_eq_some_of (required_of_lookup rfl e.action.ofJson?_toJson) <|
    bind_eq_some_of (optional_of_lookup rfl amount_read) <|
    bind_eq_some_of (optional_of_lookup rfl target_read) <|
    bind_eq_some_of (required_of_lookup rfl (string?_str _)) <|
    bind_eq_some_of (required_of_lookup rfl (nat?_ofNat timestamp)) rfl

end LogEntry

/-! ### Players and their cards -/

namespace CardInstance

def sized (c : CardInstance) : Bool :=
  c.id.sized && c.card.sized && c.owner.sized && inWord c.health

/-- A copy is read back as it was written. -/
theorem ofJson?_toJson {c : CardInstance} (sized : c.sized = true) :
    ofJson? c.toJson = some c := by
  simp only [CardInstance.sized, Bool.and_eq_true] at sized
  obtain ⟨⟨⟨id, card⟩, owner⟩, health⟩ := sized
  rw [ofJson?]
  exact bind_eq_some_of (record?_named rfl (by decide)) <|
    bind_eq_some_of (required_of_lookup rfl (InstanceId.ofJson?_toJson id)) <|
    bind_eq_some_of (required_of_lookup rfl (CardId.ofJson?_toJson card)) <|
    bind_eq_some_of (required_of_lookup rfl (Seat.ofJson?_toJson owner)) <|
    bind_eq_some_of (required_of_lookup rfl (word?_int health)) <|
    bind_eq_some_of (required_of_lookup rfl (bool?_bool _)) rfl

end CardInstance

namespace Zones

def sized (z : Zones) : Bool :=
  z.deck.all InstanceId.sized && z.hand.all InstanceId.sized && z.battlefield.all InstanceId.sized
    && z.graveyard.all InstanceId.sized

theorem ofJson?_toJson {z : Zones} (sized : z.sized = true) : ofJson? z.toJson = some z := by
  simp only [Zones.sized, Bool.and_eq_true] at sized
  obtain ⟨⟨⟨deck, hand⟩, battlefield⟩, graveyard⟩ := sized
  have cards_read {ids : List InstanceId} (ids_sized : ids.all InstanceId.sized = true) :
      list? InstanceId.ofJson? (ofList InstanceId.toJson ids) = some ids :=
    list?_ofList fun id h => InstanceId.ofJson?_toJson (List.all_eq_true.mp ids_sized id h)
  rw [ofJson?]
  exact bind_eq_some_of (record?_named rfl (by decide)) <|
    bind_eq_some_of (required_of_lookup rfl (cards_read deck)) <|
    bind_eq_some_of (required_of_lookup rfl (cards_read hand)) <|
    bind_eq_some_of (required_of_lookup rfl (cards_read battlefield)) <|
    bind_eq_some_of (required_of_lookup rfl (cards_read graveyard)) rfl

end Zones

namespace Player

def sized (p : Player) : Bool :=
  p.id.sized && inWord p.health && inWord p.maxHealth && inWord p.energy && inWord p.maxEnergy
    && p.zones.sized && p.deckList.all CardId.sized

/-- A player is read back as it was written. -/
theorem ofJson?_toJson {p : Player} (sized : p.sized = true) : ofJson? p.toJson = some p := by
  simp only [Player.sized, Bool.and_eq_true] at sized
  obtain ⟨⟨⟨⟨⟨⟨id, health⟩, maxHealth⟩, energy⟩, maxEnergy⟩, zones⟩, deck⟩ := sized
  have deck_read : list? CardId.ofJson? (ofList CardId.toJson p.deckList) = some p.deckList :=
    list?_ofList fun id h => CardId.ofJson?_toJson (List.all_eq_true.mp deck id h)
  rw [ofJson?]
  exact bind_eq_some_of (record?_named rfl (by decide)) <|
    bind_eq_some_of (required_of_lookup rfl (Seat.ofJson?_toJson id)) <|
    bind_eq_some_of (required_of_lookup rfl (string?_str _)) <|
    bind_eq_some_of (required_of_lookup rfl (word?_int health)) <|
    bind_eq_some_of (required_of_lookup rfl (word?_int maxHealth)) <|
    bind_eq_some_of (required_of_lookup rfl (word?_int energy)) <|
    bind_eq_some_of (required_of_lookup rfl (word?_int maxEnergy)) <|
    bind_eq_some_of (required_of_lookup rfl (Zones.ofJson?_toJson zones)) <|
    bind_eq_some_of (required_of_lookup rfl deck_read) rfl

end Player

/-- What sits at the table is read back seat by seat. -/
theorem SeatMap.ofJson?_toJson {α : Type} {read : Json → Option α} {write : α → Json}
    {m : SeatMap α} (reads : ∀ a ∈ m.data, read (write a) = some a) :
    ofJson? read (m.toJson write) = some m := by
  rw [ofJson?]
  exact bind_eq_some_of (record?_named rfl (by decide)) <|
    bind_eq_some_of (required_of_lookup rfl (list?_ofList reads)) rfl

/-! ### Sessions -/

namespace Random.Generator

/-- Positions in the random stream have 128 bits. -/
def sized (g : Generator) : Bool :=
  decide (g.position < Nat.pow 2 128)

theorem ofJson?_toJson {g : Generator} (sized : g.sized = true) : ofJson? g.toJson = some g := by
  have seed_small : g.seed.toNat < Nat.pow 2 64 := g.seed.toNat_lt
  rw [ofJson?]
  refine bind_eq_some_of (record?_named rfl (by decide)) <|
    bind_eq_some_of (required_of_lookup rfl (nat?_ofNat seed_small)) <|
    bind_eq_some_of (required_of_lookup rfl (nat?_ofNat (of_decide_eq_true sized))) ?_
  rw [UInt64.ofNat_toNat]
  rfl

end Random.Generator

namespace Session

/-- The number of a copy is read back from the name it has as a key. -/
theorem keyOfName?_toString {key : Nat} (small : key < Nat.pow 2 32) :
    keyOfName? (toString key) = some key := by
  have digits : (toString key).toNat? = some key := Nat.toNat?_repr key
  rw [keyOfName?, digits]
  exact if_pos ⟨rfl, small⟩

/-- Copies written under their numbers are found under them again, in the same order. -/
theorem instancesOfJson?_instancesToJson {m : KeyMap CardInstance}
    (sized : ∀ e ∈ m.entries, e.1 < Nat.pow 2 32 ∧ e.2.sized = true) :
    instancesOfJson? (instancesToJson m) = some m := by
  have entries_read : (m.entries.map fun e => (toString e.1, e.2.toJson)).mapM
      (fun member : String × Json => do
        let key ← keyOfName? member.1
        let c ← CardInstance.ofJson? member.2
        return (key, c)) = some m.entries := by
    refine mapM_map fun e he => ?_
    obtain ⟨small, copy⟩ := sized e he
    simp only [Option.bind_eq_bind, Option.bind_eq_some_iff]
    exact ⟨_, keyOfName?_toString small, _, CardInstance.ofJson?_toJson copy, rfl⟩
  rw [instancesToJson, instancesOfJson?, entries_read, Option.map_some, KeyMap.ofList_entries]

/-- Whether every number of a session has the bits it may have. -/
def sized (s : Session) : Bool :=
  s.players.data.all Player.sized && s.current.sized && s.starting.sized
    && decide (s.turn < Nat.pow 2 32) && s.log.all LogEntry.sized && s.winner.all Seat.sized
    && decide (s.revision < Nat.pow 2 64) && s.rng.sized
    && (s.instances.entries.all fun e => decide (e.1 < Nat.pow 2 32) && e.2.sized)
    && s.nextId.sized

/-- A session is read back as it was written. -/
theorem ofJson?_toJson {s : Session} (sized : s.sized = true) :
    ofJson? medium s.toJson = some s := by
  simp only [Session.sized, Bool.and_eq_true, List.all_eq_true, decide_eq_true_eq] at sized
  obtain ⟨⟨⟨⟨⟨⟨⟨⟨⟨players, current⟩, starting⟩, turn⟩, log⟩, winner⟩, revision⟩, rng⟩, copies⟩,
    nextId⟩ := sized
  have players_read : SeatMap.ofJson? Player.ofJson? (s.players.toJson Player.toJson) =
      some s.players := SeatMap.ofJson?_toJson fun p h => Player.ofJson?_toJson (players p h)
  have log_read : list? (LogEntry.ofJson? medium) (ofList LogEntry.toJson s.log) = some s.log :=
    list?_ofList fun e h => LogEntry.ofJson?_toJson (log e h)
  have winner_read : nullable? Seat.ofJson? (ofOption Seat.toJson s.winner) = some s.winner :=
    nullable?_ofOption nofun fun seat h =>
      Seat.ofJson?_toJson (holds_of_all winner seat h)
  rw [ofJson?]
  exact bind_eq_some_of (record?_named rfl (by decide)) <|
    bind_eq_some_of (required_of_lookup rfl s.status.ofJson?_toJson) <|
    bind_eq_some_of (required_of_lookup rfl players_read) <|
    bind_eq_some_of (required_of_lookup rfl (Seat.ofJson?_toJson current)) <|
    bind_eq_some_of (required_of_lookup rfl (Seat.ofJson?_toJson starting)) <|
    bind_eq_some_of (required_of_lookup rfl (nat?_ofNat turn)) <|
    bind_eq_some_of (required_of_lookup rfl log_read) <|
    bind_eq_some_of (optional_of_lookup rfl winner_read) <|
    bind_eq_some_of (required_of_lookup rfl (nat?_ofNat revision)) <|
    bind_eq_some_of (required_of_lookup rfl (Random.Generator.ofJson?_toJson rng)) <|
    bind_eq_some_of (required_of_lookup rfl (instancesOfJson?_instancesToJson copies)) <|
    bind_eq_some_of (required_of_lookup rfl (InstanceId.ofJson?_toJson nextId)) rfl

end Session

/-! ### Round trips -/

/-- Whatever is written is read back as it was. Scripts and definitions, and the selectors and
statements in them, are so too if fields with their defaults are left out, at any depth. All that is
asked of a value is that its numbers have the bits that its fields have room for. -/
theorem formats_round_trip (medium : Medium) :
    (∀ e : Expr, e.sized = true → Expr.ofJson? medium e.toJson = some e) ∧
    (∀ s : Selector, s.sized = true → Selector.ofJson? s.toJson = some s ∧
      ∀ j, s.form j → Selector.ofJson? j = some s) ∧
    (∀ s : Stmt, s.sized = true → Stmt.ofJson? medium s.toJson = some s ∧
      ∀ j, s.form j → Stmt.ofJson? medium j = some s) ∧
    (∀ s : Script, s.sized = true → Script.ofJson? medium s.toJson = some s ∧
      ∀ j, s.form j → Script.ofJson? medium j = some s) ∧
    (∀ d : CardDefinition, d.sized = true → CardDefinition.ofJson? medium d.toJson = some d ∧
      ∀ j, d.form j → CardDefinition.ofJson? medium j = some d) ∧
    (∀ op : Operation, op.sized = true → Operation.ofJson? op.toJson = some op) ∧
    (∀ s : Session, s.sized = true → Session.ofJson? medium s.toJson = some s) :=
  ⟨Expr.ofJson?_toJson medium,
    fun s sized => ⟨Selector.ofJson?_of_form sized s.form_toJson,
      fun _ => Selector.ofJson?_of_form sized⟩,
    fun s sized => ⟨Stmt.ofJson?_of_form medium s sized _ s.form_toJson,
      Stmt.ofJson?_of_form medium s sized⟩,
    fun s sized => ⟨Script.ofJson?_of_form sized s.form_toJson,
      fun _ => Script.ofJson?_of_form sized⟩,
    fun d sized => ⟨CardDefinition.ofJson?_of_form sized d.form_toJson,
      fun _ => CardDefinition.ofJson?_of_form sized⟩,
    fun _ => Operation.ofJson?_toJson, fun _ => Session.ofJson?_toJson⟩

/-- A spell with nothing in it but a request for a target and a choice. -/
def kindling : CardDefinition :=
  .spell ⟨7⟩ "Kindling" 2 ⟨[.selectTargets "t" {}, .ifElse (.bool true) [.log (.text "lit")] []]⟩

def kindlingJson : Json := .obj [
  ("id", .int 7), ("name", .str "Kindling"), ("kind", .str "spell"), ("cost", .int 2),
  ("spell_effect", .obj [("body", .arr [
    .obj [("select_targets", .obj [("name", .str "t"), ("selector", .obj [])])],
    .obj [("if", .obj [
      ("condition", .obj [("bool", .bool true)]),
      ("then", .arr [.obj [("log", .obj [("message", .obj [("text", .str "lit")])])]])])]])])]

theorem kindling_form : kindling.form kindlingJson := by
  have asks : (Stmt.selectTargets "t" {}).form
      (.obj [("select_targets", .obj [("name", .str "t"), ("selector", .obj [])])]) :=
    ⟨_, rfl, _, rfl, .given rfl <| .given ⟨[], rfl, .omitted rfl <| .omitted rfl <|
      .omitted rfl <| .omitted rfl <| .omitted rfl <| .omitted rfl <| .omitted rfl <|
      .omitted rfl <| .omitted rfl .nil⟩ .nil⟩
  have chooses : (Stmt.ifElse (.bool true) [.log (.text "lit")] []).form (.obj [("if", .obj [
      ("condition", .obj [("bool", .bool true)]),
      ("then", .arr [.obj [("log", .obj [("message", .obj [("text", .str "lit")])])]])])]) :=
    ⟨_, rfl, _, rfl, .given rfl <| .given ⟨_, rfl, .cons rfl .nil⟩ <| .omitted rfl .nil⟩
  exact ⟨_, rfl, .given rfl <| .given rfl <| .given rfl <| .given rfl <| .omitted rfl <|
    .omitted rfl <| .omitted rfl <| .omitted rfl <|
    .given ⟨_, rfl, .given ⟨_, rfl, .cons asks (.cons chooses .nil)⟩ .nil⟩ <| .omitted rfl .nil⟩

/-- Kindling is read from its shortest form and from its longest, a session from a message. -/
theorem kindling_round_trip :
    CardDefinition.ofJson? .file kindlingJson = some kindling ∧
    CardDefinition.ofJson? .file kindling.toJson = some kindling ∧
    Session.ofJson? .message Session.showdown.toJson = some Session.showdown := by
  have kindling_sized : kindling.sized = true := by decide
  have showdown_sized : Session.showdown.sized = true := by decide
  obtain ⟨-, -, -, -, definitions, -, -⟩ := formats_round_trip .file
  obtain ⟨-, -, -, -, -, -, sessions⟩ := formats_round_trip .message
  obtain ⟨whole, short⟩ := definitions kindling kindling_sized
  exact ⟨short kindlingJson kindling_form, whole, sessions Session.showdown showdown_sized⟩

end CardBattle
