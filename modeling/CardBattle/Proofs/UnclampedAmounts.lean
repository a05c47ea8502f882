import CardBattle.Proofs.Capabilities
import CardBattle.Proofs.Lifelines
import CardBattle.Proofs.RoundTrips

/-!
# Amounts before they are clamped

Damage, healing and energy are clamped after the amount has been taken off or added. What is formed
in between is no field of a session, but must have 64 bits as well. In a session that the checker
accepts, a difference always has. A sum has if the amount leaves room above the greatest value that
the sum is clamped to. Scripts may ask for more than that, and then it has not.
-/

namespace CardBattle

/-- What is left of something within bounds is a word if its bounds and the amount are. -/
theorem inWord_lessened {held greatest amount : Int} (bounds : 0 ≤ held ∧ held ≤ greatest)
    (word : inWord greatest = true) (carried : inWord amount = true) :
    inWord (lessened held amount) = true := by
  rw [inWord_iff] at word carried ⊢
  simp only [lessened]
  omega

/-- A sum is a word if there is room for the amount above the ceiling. -/
theorem inWord_increased {held greatest amount : Int} (bounds : 0 ≤ held ∧ held ≤ greatest)
    (word : inWord greatest = true) (room : inWord (greatest + amount) = true) :
    inWord (increased held amount) = true := by
  rw [inWord_iff] at word room ⊢
  simp only [increased]
  omega

namespace Operation

/-- The greatest value to which an operation clamps a sum. -/
def ceiling? (s : Session) : Operation → Option Int
  | .healPlayer player _ => (s.player? player).map (·.maxHealth)
  | .healCard _ _ greatest => some greatest
  | .gainEnergy player _ => (s.player? player).map (·.maxEnergy)
  | .damagePlayer _ _ | .damageCard _ _ | .destroyCard _ | .log _ _ | .drawCard _ => none

/-- An operation acts on a copy that has a definition, and heals it to the health given there. -/
def Defined (K : Catalog) (s : Session) (op : Operation) : Prop :=
  ∀ id, op.card? = some id → ∃ c d, s.instance? id = some c ∧ K.get? c.card = some d ∧
    ∀ n greatest, op = .healCard id n greatest → greatest = d.health

/-- What an operation forms has 64 bits, or its amount does not leave room above its ceiling. -/
def Accommodated (s : Session) (op : Operation) (n : Int) : Prop :=
  inWord n = true ∨ ∃ amount ceiling, op.amount? = some amount ∧ op.ceiling? s = some ceiling ∧
    inWord (ceiling + amount) = false

end Operation

namespace Session

open Operation (Defined Accommodated)

variable {K : Catalog} {s s' : Session} {op : Operation} {r : BatchReport} {now : Nat} {n : Int}

/-! ### What a batch keeps within bounds -/

/-- Players have no more than their greatest, and permanents no more health than their definition
gives them. -/
structure Bounded (K : Catalog) (s : Session) : Prop where
  apart : s.Apart
  solvent : s.Solvent
  health : ∀ id c d, s.instance? id = some c → K.get? c.card = some d →
    s.zoneOf? id = some .battlefield → 0 ≤ c.health ∧ c.health ≤ d.health

theorem bounded_of_accepted (accepted : s.violation? K = none) (labelled : s.Labelled) :
    s.Bounded K where
  apart := apart_of_accepted accepted labelled
  solvent := solvent_of_accepted accepted
  health := by
    intro id c d hc hd inPlay
    obtain ⟨-, alive, capped⟩ := permanent_of_accepted accepted labelled hc hd inPlay
    exact ⟨by omega, capped⟩

/-- Players have the greatest values they had. -/
def SameMaxima (s s' : Session) : Prop :=
  ∀ seat, (s'.player? seat).map (fun p => (p.maxHealth, p.maxEnergy))
    = (s.player? seat).map fun p => (p.maxHealth, p.maxEnergy)

/-- No script changes a greatest value. -/
theorem Contained.sameMaxima {actor : Option Seat} {dead : InstanceId → Prop}
    (h : Contained actor dead s s') : SameMaxima s s' := by
  intro seat
  cases hq : s'.player? seat with
  | some q =>
    obtain ⟨p, drawn, fallen, hp, frame⟩ := h.frame hq
    rw [hp, Option.map_some, Option.map_some, frame.maxHealth, frame.maxEnergy]
  | none =>
    cases hp : s.player? seat with
    | none => rfl
    | some p =>
      obtain ⟨q, -, -, hq', -⟩ := h.players seat p hp
      rw [hq] at hq'
      cases hq'

theorem SameMaxima.ceiling? (same : SameMaxima s s') (op : Operation) :
    op.ceiling? s' = op.ceiling? s := by
  cases op with
  | healPlayer player amount =>
    have maxHealth := congrArg (Option.map Prod.fst) (same player)
    rwa [Option.map_map, Option.map_map] at maxHealth
  | gainEnergy player amount =>
    have maxEnergy := congrArg (Option.map Prod.snd) (same player)
    rwa [Option.map_map, Option.map_map] at maxEnergy
  | _ => rfl

theorem defined_perform {next : Operation} (defined : next.Defined K s) (op : Operation)
    (now : Nat) (r : BatchReport) : next.Defined K (s.perform op now r).2 := by
  intro id own
  obtain ⟨c, d, hc, hd, cap⟩ := defined id own
  refine ⟨_, d, by rw [perform_copies, hc, Option.map_some], ?_, cap⟩
  split
  · rw [op.changed_eq]
    exact hd
  · exact hd

theorem changed_bounds {c : CardInstance} {d : CardDefinition} {id : InstanceId}
    (bounds : 0 ≤ c.health ∧ c.health ≤ d.health)
    (cap : ∀ n greatest, op = .healCard id n greatest → greatest = d.health)
    (own : op.card? = some id) :
    0 ≤ (op.changed c).health ∧ (op.changed c).health ≤ d.health := by
  refine ⟨op.changed_nonneg bounds.1, ?_⟩
  cases op with
  | healCard target amount greatest =>
    cases own
    cases cap amount greatest rfl
    simp only [Operation.changed, CardInstance.heal]
    omega
  | damageCard target amount =>
    simp only [Operation.changed, CardInstance.takeDamage, lessened]
    omega
  | destroyCard target =>
    simp only [Operation.changed]
    omega
  | _ => cases own

/-- An operation keeps values in their bounds and the greatest values as they are. -/
theorem perform_bounded (bounded : s.Bounded K) (defined : op.Defined K s)
    (going : s.status ≠ .finished) (may : s.mayAct r.lethal op = true) (now : Nat) :
    (s.perform op now r).2.Bounded K ∧ SameMaxima s (s.perform op now r).2 := by
  obtain ⟨actor, allowed⟩ := op.exists_for
  have contained : Contained actor (fun _ => False) s (s.perform op now r).2 :=
    perform_contained allowed now r
  have apart := contained.apart bounded.apart
  have capped : op.Capped K s := by
    cases op with
    | healCard id amount greatest =>
      obtain ⟨c, d, hc, hd, cap⟩ := defined id rfl
      exact ⟨c, d, hc, hd, cap amount greatest rfl⟩
    | _ => trivial
  refine ⟨⟨apart, ?_, ?_⟩, contained.sameMaxima⟩
  · have touched : (s.perform op now r).2 = s ∨ Touch K s (s.perform op now r).2 :=
      perform_touches going may capped
    rcases touched with same | change | harm
    · rw [same]
      exact bounded.solvent
    · exact change.solvent bounded.solvent
    · exact harm.solvent bounded.solvent
  · -- no operation of a batch moves a permanent, and only its own ones change its health
    intro id c d hc hd inPlay
    have before : s.zoneOf? id = some .battlefield :=
      (inPlay_congr bounded.apart apart contained.battlefield (perform_owners op now r s id)).mp
        inPlay
    rw [perform_copies] at hc
    obtain ⟨e, he, rfl⟩ := Option.map_eq_some_iff.mp hc
    by_cases own : op.card? = some id
    · have card : (op.changed e).card = e.card := by rw [op.changed_eq]
      rw [if_pos own] at hd ⊢
      rw [card] at hd
      obtain ⟨e', d', he', hd', cap⟩ := defined id own
      cases he.symm.trans he'
      cases hd.symm.trans hd'
      exact changed_bounds (bounded.health id e d he hd before) cap own
    · rw [if_neg own] at hd ⊢
      exact bounded.health id e d he hd before

/-! ### What is formed -/

structure Roomy (K : Catalog) (s : Session) : Prop where
  players : ∀ seat p, s.player? seat = some p →
    inWord p.maxHealth = true ∧ inWord p.maxEnergy = true
  definitions : ∀ id d, K.get? id = some d → inWord d.health = true

theorem Roomy.congr (roomy : s.Roomy K) (same : SameMaxima s s') : s'.Roomy K where
  players := by
    intro seat q hq
    have maxima := same seat
    rw [hq, Option.map_some] at maxima
    obtain ⟨p, hp, eq⟩ := Option.map_eq_some_iff.mp maxima.symm
    obtain ⟨maxHealth, maxEnergy⟩ := Prod.mk.inj eq
    rw [← maxHealth, ← maxEnergy]
    exact roomy.players seat p hp
  definitions := roomy.definitions

theorem roomy_of_sized (sized : s.sized = true)
    (definitions : K.cards.values.all CardDefinition.sized = true) : s.Roomy K where
  players := by
    intro seat p hp
    simp only [Session.sized, Bool.and_eq_true] at sized
    have players := sized.1.1.1.1.1.1.1.1.1
    have player := List.all_eq_true.mp players p (List.mem_of_getElem? hp)
    simp only [Player.sized, Bool.and_eq_true] at player
    obtain ⟨⟨⟨⟨⟨⟨-, -⟩, maxHealth⟩, -⟩, maxEnergy⟩, -⟩, -⟩ := player
    exact ⟨maxHealth, maxEnergy⟩
  definitions := by
    intro id d hd
    have listed : d ∈ K.cards.values := KeyMap.mem_values_iff.mpr ⟨id.number, hd⟩
    have sized := List.all_eq_true.mp definitions d listed
    simp only [CardDefinition.sized, Bool.and_eq_true] at sized
    exact sized.1.1.2

/-- What an operation that may act forms. -/
theorem formed_accommodated (bounded : s.Bounded K) (roomy : s.Roomy K)
    (defined : op.Defined K s) (may : s.mayAct r.lethal op = true) (sized : op.sized = true)
    (formed : op.formed? s = some n) : op.Accommodated s n := by
  -- the card of an operation is in play, and its health within the bounds of a definition
  have health : ∀ id c, op.card? = some id → s.instance? id = some c →
      ∃ d : CardDefinition, (0 ≤ c.health ∧ c.health ≤ d.health) ∧ inWord d.health = true ∧
        ∀ n greatest, op = .healCard id n greatest → greatest = d.health := by
    intro id c own hc
    obtain ⟨c', d, hc', hd, cap⟩ := defined id own
    cases hc.symm.trans hc'
    exact ⟨d, bounded.health id c d hc hd (mayAct_iff.mp may id own).2,
      roomy.definitions _ d hd, cap⟩
  cases op with
  | damagePlayer player amount =>
    obtain ⟨p, hp, rfl⟩ := Option.map_eq_some_iff.mp formed
    have carried : inWord amount = true := (Bool.and_eq_true_iff.mp sized).2
    exact Or.inl (inWord_lessened (bounded.solvent player p hp).health
      (roomy.players player p hp).1 carried)
  | damageCard id amount =>
    obtain ⟨c, hc, rfl⟩ := Option.map_eq_some_iff.mp formed
    have carried : inWord amount = true := (Bool.and_eq_true_iff.mp sized).2
    obtain ⟨d, bounds, word, -⟩ := health id c rfl hc
    exact Or.inl (inWord_lessened bounds word carried)
  | healPlayer player amount =>
    obtain ⟨p, hp, rfl⟩ := Option.map_eq_some_iff.mp formed
    have ceiling : (Operation.healPlayer player amount).ceiling? s = some p.maxHealth := by
      rw [Operation.ceiling?, hp, Option.map_some]
    cases room : inWord (p.maxHealth + amount) with
    | true => exact Or.inl (inWord_increased (bounded.solvent player p hp).health
        (roomy.players player p hp).1 room)
    | false => exact Or.inr ⟨amount, p.maxHealth, rfl, ceiling, room⟩
  | healCard id amount greatest =>
    obtain ⟨c, hc, rfl⟩ := Option.map_eq_some_iff.mp formed
    obtain ⟨d, bounds, word, cap⟩ := health id c rfl hc
    cases cap amount greatest rfl
    cases room : inWord (d.health + amount) with
    | true => exact Or.inl (inWord_increased bounds word room)
    | false => exact Or.inr ⟨amount, d.health, rfl, rfl, room⟩
  | gainEnergy player amount =>
    obtain ⟨p, hp, rfl⟩ := Option.map_eq_some_iff.mp formed
    have ceiling : (Operation.gainEnergy player amount).ceiling? s = some p.maxEnergy := by
      rw [Operation.ceiling?, hp, Option.map_some]
    cases room : inWord (p.maxEnergy + amount) with
    | true => exact Or.inl (inWord_increased (bounded.solvent player p hp).energy
        (roomy.players player p hp).2 room)
    | false => exact Or.inr ⟨amount, p.maxEnergy, rfl, ceiling, room⟩
  | destroyCard _ | log _ _ | drawCard _ => cases formed

/-! ### Batches -/

theorem applyOne_of_acts {state : BatchReport × Session} (acting : acts state op = true)
    (now : Nat) :
    state.2.status ≠ .finished ∧ state.2.mayAct state.1.lethal op = true ∧
      applyOne now state op = state.2.perform op now state.1 := by
  simp only [acts, Bool.and_eq_true, Bool.not_eq_true'] at acting
  obtain ⟨going, may⟩ := acting
  refine ⟨isFinished_eq_false_iff.mp going, may, ?_⟩
  simp only [applyOne, going, may, Bool.false_eq_true, if_false, if_true]

/-- An operation that does not act changes nothing. -/
theorem applyOne_of_not_acts {state : BatchReport × Session} (idle : acts state op = false) :
    (applyOne now state op).2 = state.2 := by
  simp only [acts, Bool.and_eq_false_iff, Bool.not_eq_false'] at idle
  rcases idle with finished | barred
  · simp only [applyOne, finished, if_true]
  · simp only [applyOne, barred, Bool.false_eq_true, if_false, ite_self]

/-- Whatever a batch forms is accommodated, from its first operation to its last. -/
theorem formedBy_accommodated (now : Nat) {state : BatchReport × Session} {ops : List Operation}
    (bounded : state.2.Bounded K) (roomy : state.2.Roomy K)
    (defined : ∀ op ∈ ops, op.Defined K state.2) (sized : ∀ op ∈ ops, op.sized = true) :
    ∀ e ∈ formedBy now state ops, e.1.Accommodated state.2 e.2 := by
  induction ops generalizing state with
  | nil => exact fun e h => absurd h List.not_mem_nil
  | cons op ops ih =>
    intro e mem
    have defined_rest : ∀ op ∈ ops, op.Defined K state.2 :=
      fun op h => defined op (List.mem_cons_of_mem _ h)
    have sized_rest : ∀ op ∈ ops, op.sized = true := fun op h => sized op (List.mem_cons_of_mem _ h)
    rw [formedBy] at mem
    cases acting : acts state op with
    | false =>
      rw [acting, if_neg Bool.false_ne_true, List.nil_append] at mem
      have same : (applyOne now state op).2 = state.2 := applyOne_of_not_acts acting
      have rest := @ih (applyOne now state op)
      rw [same] at rest
      exact rest bounded roomy defined_rest sized_rest e mem
    | true =>
      have op_defined := defined op List.mem_cons_self
      obtain ⟨going, may, performed⟩ := applyOne_of_acts acting now
      rw [acting, if_pos rfl, performed] at mem
      rcases List.mem_append.mp mem with first | later
      · obtain ⟨n, formed, rfl⟩ := Option.map_eq_some_iff.mp (Option.mem_toList.mp first)
        exact formed_accommodated bounded roomy op_defined may (sized op List.mem_cons_self) formed
      · obtain ⟨bounded', same⟩ := perform_bounded bounded op_defined going may now
        have rest := ih bounded' (roomy.congr same)
          (fun next h => defined_perform (defined_rest next h) op now state.1) sized_rest e later
        rw [Operation.Accommodated, same.ceiling?] at rest
        exact rest

/-- What a completed script has queued forms sums and differences of 64 bits when it is applied,
apart from sums for whose amounts the ceiling leaves no room: those of heals and of energy. -/
theorem completed_accommodated {sc : Scene} {script : Script} {asked asked' : List TargetRequest}
    {ops : List Operation} (accepted : sc.session.violation? sc.catalog = none)
    (labelled : sc.session.Labelled) (sized : sc.session.sized = true)
    (definitions : sc.catalog.cards.values.all CardDefinition.sized = true)
    (done : script.invoke sc asked = (.completed ops, asked'))
    (carried : ∀ op ∈ ops, op.sized = true) (now : Nat) :
    ∀ e ∈ formedBy now ({}, sc.session) ops, inWord e.2 = true ∨
      ∃ amount ceiling, e.1.amount? = some amount ∧ e.1.ceiling? sc.session = some ceiling ∧
        inWord (ceiling + amount) = false :=
  formedBy_accommodated now (bounded_of_accepted accepted labelled)
    (roomy_of_sized sized definitions)
    (fun op mem _ => (Script.invoke_admits done op mem).card_defined) carried

def foresight : Scene :=
  ⟨showdown, arena.catalog, .first, ⟨.ability, ⟨0⟩, some ⟨4⟩, none⟩, arena.config.limits⟩

def allOf (amount : Int) : Script :=
  ⟨[.healPlayer .caster (.int amount), .healCard .source (.int amount),
    .gainEnergy (.int amount), .damagePlayer .opponent (.int amount)]⟩

def queueOf (amount : Int) : List Operation :=
  [.healPlayer ⟨0⟩ amount, .healCard ⟨4⟩ amount 2, .gainEnergy ⟨0⟩ amount,
    .damagePlayer ⟨1⟩ amount]

theorem foresight_sized : foresight.session.Labelled ∧ foresight.session.sized = true ∧
    foresight.catalog.cards.values.all CardDefinition.sized = true := by
  decide +kernel

theorem foresight_accommodated :
    ((allOf 5).invoke foresight []).1 = .completed (queueOf 5) ∧
    (formedBy 0 ({}, foresight.session) (queueOf 5)).map (·.2) = [35, 7, 6, 25] ∧
    ∀ e ∈ formedBy 0 ({}, foresight.session) (queueOf 5), inWord e.2 = true ∨
      ∃ amount ceiling, e.1.amount? = some amount ∧
        e.1.ceiling? foresight.session = some ceiling ∧ inWord (ceiling + amount) = false := by
  have done : ((allOf 5).invoke foresight []).1 = .completed (queueOf 5) := by decide +kernel
  have whole : (allOf 5).invoke foresight []
      = (.completed (queueOf 5), ((allOf 5).invoke foresight []).2) := by
    rw [← done]
  obtain ⟨labelled, sized, definitions⟩ := foresight_sized
  exact ⟨done, by decide +kernel, completed_accommodated showdown_accepted labelled sized
    definitions whole (by decide +kernel) 0⟩

/-- Scripts may heal by the greatest integer, which added to any health has more than 64 bits. -/
theorem foresight_exceeds : ¬∀ (sc : Scene) (script : Script) (asked asked' : List TargetRequest)
    (ops : List Operation) (now : Nat), sc.session.violation? sc.catalog = none →
    sc.session.Labelled → sc.session.sized = true →
    sc.catalog.cards.values.all CardDefinition.sized = true →
    script.invoke sc asked = (.completed ops, asked') → (∀ op ∈ ops, op.sized = true) →
    ∀ e ∈ formedBy now ({}, sc.session) ops, inWord e.2 = true := by
  intro fits
  have done : ((allOf 9223372036854775807).invoke foresight []).1
      = .completed (queueOf 9223372036854775807) := by decide +kernel
  have whole : (allOf 9223372036854775807).invoke foresight []
      = (.completed (queueOf 9223372036854775807),
        ((allOf 9223372036854775807).invoke foresight []).2) := by
    rw [← done]
  obtain ⟨labelled, sized, definitions⟩ := foresight_sized
  have word := fits foresight _ [] _ _ 0 showdown_accepted labelled sized definitions whole
    (by decide +kernel) (.healPlayer ⟨0⟩ 9223372036854775807, 9223372036854775837)
    (by decide +kernel)
  exact absurd word (by decide)

end Session

end CardBattle
