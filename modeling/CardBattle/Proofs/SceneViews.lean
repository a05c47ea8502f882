import CardBattle.Proofs.VisibleState

/-!
# What running scripts see

The cards that a running script can name are its source, those in the damage event, and those on
battlefields. In two sessions that agree in what can be seen of these, every reading of the script
and every check of its calls comes out the same.
-/

namespace CardBattle

/-! ### Values -/

namespace Value

mutual

def Within (shown : InstanceId → Prop) : Value → Prop
  | .card id => shown id
  | .list items => AllWithin shown items
  | .unit | .int _ | .bool _ | .text _ | .player _ => True

def AllWithin (shown : InstanceId → Prop) : List Value → Prop
  | [] => True
  | v :: vs => v.Within shown ∧ AllWithin shown vs

end

variable {shown : InstanceId → Prop}

theorem allWithin_iff {vs : List Value} : AllWithin shown vs ↔ ∀ v ∈ vs, v.Within shown := by
  induction vs with
  | nil => simp [AllWithin]
  | cons v vs ih => simp [AllWithin, ih]

theorem within_list {vs : List Value} (h : ∀ v ∈ vs, v.Within shown) :
    (Value.list vs).Within shown :=
  allWithin_iff.mpr h

theorem within_ofTarget {target : Target} (h : ∀ id, target.card? = some id → shown id) :
    (ofTarget target).Within shown := by
  cases target with
  | player seat => trivial
  | creature card owner => exact h card rfl
  | artifact card owner => exact h card rfl

/-- What is taken out of a value that shows nothing hidden shows nothing hidden. -/
theorem within_head {v w : Value} (h : v.Within shown) (head : v.head = .ok w) :
    w.Within shown := by
  cases v with
  | list items =>
    cases items with
    | nil =>
      cases head
      trivial
    | cons first rest =>
      cases head
      exact h.1
  | _ => cases head

/-- A card that a value names is shown. -/
theorem within_asCard {v : Value} {id : InstanceId} (h : v.Within shown)
    (isCard : v.asCard = .ok id) : shown id := by
  cases v <;> cases isCard
  exact h

theorem within_asList {v : Value} {vs : List Value} (h : v.Within shown)
    (isList : v.asList = .ok vs) : ∀ v ∈ vs, v.Within shown := by
  cases v <;> cases isList
  exact allWithin_iff.mp h

end Value

/-! ### What scenes answer -/

def DamageEvent.Names (e : DamageEvent) (id : InstanceId) : Prop :=
  ∃ target, (e.source = some target ∨ e.target = some target) ∧ target.card? = some id

namespace Scene

/-- The cards that a script can name: its source, those of the damage event, and permanents. -/
def Shown (sc : Scene) (id : InstanceId) : Prop :=
  sc.invocation.source = some id ∨ (∃ e, sc.invocation.event = some e ∧ e.Names id) ∨
    ∃ seat, id ∈ sc.session.battlefield seat

def withSession (sc : Scene) (s : Session) : Scene :=
  { sc with session := s }

variable {sc : Scene} {s : Session} {id : InstanceId} {v : Value}

/-- What only reads the face of a player reads the same in both sessions. -/
theorem requirePlayer_bind {α : Type} (veil : sc.session.Veil sc.Shown s) (seat : Seat)
    {f g : Player → Except ScriptError α} (same : ∀ p q, p.face = q.face → f p = g q) :
    (sc.requirePlayer seat >>= f) = ((sc.withSession s).requirePlayer seat >>= g) := by
  simp only [requirePlayer, withSession]
  rcases veil.player_cases seat with ⟨hp, hq⟩ | ⟨p, q, hp, hq, face⟩
  · simp only [hp, hq]
    rfl
  · simp only [hp, hq]
    exact same p q face

theorem requireInstance_bind {α : Type} (veil : sc.session.Veil sc.Shown s) (see : sc.Shown id)
    {f g : CardInstance → Except ScriptError α} (same : ∀ c e, c.face = e.face → f c = g e) :
    (sc.requireInstance id >>= f) = ((sc.withSession s).requireInstance id >>= g) := by
  simp only [requireInstance, withSession]
  rcases veil.copy_cases see with ⟨hc, he⟩ | ⟨c, e, hc, he, face⟩
  · simp only [hc, he]
    rfl
  · simp only [hc, he]
    exact same c e face

/-- A shown card has the same definition in both scenes. -/
theorem definitionOf_eq (veil : sc.session.Veil sc.Shown s) (see : sc.Shown id) :
    sc.definitionOf id = (sc.withSession s).definitionOf id := by
  simp only [definitionOf, requireInstance, withSession]
  rcases veil.copy_cases see with ⟨hc, he⟩ | ⟨c, e, hc, he, face⟩
  · simp only [hc, he]
  · have card : c.card = e.card := congrArg CardInstance.Face.card face
    simp only [hc, he, card]

theorem opponent_eq (veil : sc.session.Veil sc.Shown s) :
    sc.opponent = (sc.withSession s).opponent := by
  have seats : sc.session.opponents sc.caster = s.opponents sc.caster := by
    rw [Session.opponents, Session.opponents, veil.seats]
  rw [opponent]
  rw [seats]
  rfl

/-- Both scenes have the same permanents in play. -/
theorem permanents_eq (veil : sc.session.Veil sc.Shown s) (side : Side) (kind : CardKind) :
    sc.permanents side kind = (sc.withSession s).permanents side kind := by
  have ofKind : ∀ id, sc.Shown id → sc.isOfKind kind id = (sc.withSession s).isOfKind kind id := by
    intro id see
    rw [isOfKind, isOfKind, definitionOf_eq veil see]
  have battlefield : sc.session.battlefield = s.battlefield := funext veil.battlefield
  simp only [permanents]
  congr 2
  change _ = ((s.players.seats.filter (sc.onSide side)).flatMap s.battlefield).filter _
  rw [← battlefield, ← veil.seats]
  refine List.filter_congr fun id mem => ofKind id ?_
  obtain ⟨seat, -, mem⟩ := List.mem_flatMap.mp mem
  exact veil.seen seat id mem

/-- The permanents in play are shown. -/
theorem permanents_within (side : Side) (kind : CardKind) :
    (sc.permanents side kind).Within sc.Shown := by
  refine Value.within_list fun v listed => ?_
  obtain ⟨id, mem, rfl⟩ := List.mem_map.mp listed
  obtain ⟨seat, -, mem⟩ := List.mem_flatMap.mp (List.mem_filter.mp mem).1
  exact Or.inr (Or.inr ⟨seat, mem⟩)

theorem sourceCard_within (h : sc.sourceCard = .ok v) : v.Within sc.Shown := by
  rw [sourceCard] at h
  split at h <;> cases h
  rename_i id source
  exact Or.inl source

theorem opponent_within (h : sc.opponent = .ok v) : v.Within sc.Shown := by
  rw [opponent] at h
  split at h <;> cases h
  trivial

/-- What the damage event names is in view. -/
theorem triggerEnd_within {side : DamageEvent → Option Target}
    (named : ∀ e, side e = e.source ∨ side e = e.target) :
    (sc.triggerEnd side).Within sc.Shown := by
  rw [triggerEnd]
  cases event : sc.invocation.event with
  | none => trivial
  | some e =>
    change (Value.ofTarget? (side e)).Within sc.Shown
    cases ended : side e with
    | none => trivial
    | some target =>
      refine Value.within_ofTarget fun id isCard => Or.inr (Or.inl ⟨e, event, target, ?_, isCard⟩)
      rw [← ended]
      exact (named e).imp Eq.symm Eq.symm

/-! ### Readings -/

theorem healthOf_eq (veil : sc.session.Veil sc.Shown s) (see : v.Within sc.Shown) :
    sc.healthOf v = (sc.withSession s).healthOf v := by
  cases v with
  | player seat =>
    exact requirePlayer_bind veil seat fun _ _ face =>
      congrArg Except.ok (congrArg Player.Face.health face)
  | card id =>
    exact requireInstance_bind veil see fun _ _ face =>
      congrArg Except.ok (congrArg CardInstance.Face.health face)
  | _ => rfl

theorem maxHealthOf_eq (veil : sc.session.Veil sc.Shown s) (see : v.Within sc.Shown) :
    sc.maxHealthOf v = (sc.withSession s).maxHealthOf v := by
  cases v with
  | player seat =>
    exact requirePlayer_bind veil seat fun _ _ face =>
      congrArg Except.ok (congrArg Player.Face.maxHealth face)
  | card id => rw [maxHealthOf, maxHealthOf, definitionOf_eq veil see]
  | _ => rfl

theorem attackOf_eq (veil : sc.session.Veil sc.Shown s) (see : v.Within sc.Shown) :
    sc.attackOf v = (sc.withSession s).attackOf v := by
  cases v with
  | card id => exact congrArg (· >>= fun d => pure d.attack) (definitionOf_eq veil see)
  | _ => rfl

theorem energyOf_eq (veil : sc.session.Veil sc.Shown s) :
    sc.energyOf v = (sc.withSession s).energyOf v := by
  cases v with
  | player seat =>
    exact requirePlayer_bind veil seat fun _ _ face =>
      congrArg Except.ok (congrArg Player.Face.energy face)
  | _ => rfl

theorem handSizeOf_eq (veil : sc.session.Veil sc.Shown s) :
    sc.handSizeOf v = (sc.withSession s).handSizeOf v := by
  cases v with
  | player seat =>
    exact requirePlayer_bind veil seat fun _ _ face =>
      congrArg (fun n : Nat => Except.ok (n : Int)) (congrArg Player.Face.handSize face)
  | _ => rfl

/-! ### Calls -/

/-- Calls about a player do the same in both scenes. -/
theorem onPlayer_eq (veil : sc.session.Veil sc.Shown s) (make : Seat → Int → Operation)
    (seat : Seat) (n : Int) : sc.onPlayer make seat n = (sc.withSession s).onPlayer make seat n :=
  requirePlayer_bind veil seat fun _ _ _ => rfl

/-- Calls about a shown card do the same in both scenes. -/
theorem onCard_eq (veil : sc.session.Veil sc.Shown s) (see : sc.Shown id)
    (make : CardDefinition → Operation) (n : Int) :
    sc.onCard make id n = (sc.withSession s).onCard make id n := by
  rw [onCard, onCard, definitionOf_eq veil see]

theorem destroyCard_eq (veil : sc.session.Veil sc.Shown s) (see : sc.Shown id) :
    sc.destroyCard id = (sc.withSession s).destroyCard id := by
  rw [destroyCard, destroyCard, definitionOf_eq veil see]

end Scene

end CardBattle
