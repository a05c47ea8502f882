import CardBattle.Proofs.Accepted
import CardBattle.Proofs.ScriptQueue

/-!
# What scripts may ask for

The queue of a completed script is applied without asking again whether its amounts make sense,
whom they concern and how far a card can heal. The facts that this relies on are read off the
calls, by what an operation carries: an amount, a player, a card, or the player it was queued for.
-/

namespace CardBattle

namespace Operation

def amount? : Operation → Option Int
  | damagePlayer _ n | damageCard _ n | healPlayer _ n | healCard _ n _ | gainEnergy _ n => some n
  | destroyCard _ | log _ _ | drawCard _ => none

/-- The player whom an operation damages or heals, if there is one. -/
def patient? : Operation → Option Seat
  | damagePlayer seat _ | healPlayer seat _ => some seat
  | _ => none

/-- The player on whose account an operation writes to the log, draws or gains energy. -/
def beneficiary? : Operation → Option Seat
  | log seat _ | drawCard seat | gainEnergy seat _ => some seat
  | _ => none

def isReserved : Operation → Bool
  | drawCard _ | gainEnergy _ _ => true
  | _ => false

end Operation

namespace Scene

variable {sc : Scene} {op : Operation} {seat : Seat} {id : InstanceId} {n greatest : Int}

/-- What a script queues carries no negative amount. -/
theorem Admits.amount_nonneg (h : sc.Admits op) (carried : op.amount? = some n) : 0 ≤ n := by
  cases op with
  | damagePlayer _ _ | damageCard _ _ | healPlayer _ _ | healCard _ _ _ | gainEnergy _ _ =>
    cases carried
    exact h.1
  | destroyCard _ | log _ _ | drawCard _ => cases carried

/-- A script damages and heals only players who have a seat. -/
theorem Admits.patient_seated (h : sc.Admits op) (hit : op.patient? = some seat) :
    sc.session.players.contains seat = true := by
  have present : ∃ p, sc.session.player? seat = some p := by
    cases op with
    | damagePlayer _ _ | healPlayer _ _ =>
      cases hit
      exact h.2
    | damageCard _ _ | healCard _ _ _ | destroyCard _ | log _ _ | drawCard _ | gainEnergy _ _ =>
      cases hit
  obtain ⟨p, hp⟩ := present
  exact (SeatMap.contains_iff _ seat).mpr (List.getElem?_eq_some_iff.mp hp).1

/-- A script acts only on copies whose definition is known, and heals no further than that
definition allows. -/
theorem Admits.card_defined (h : sc.Admits op) (acts : op.card? = some id) :
    ∃ c d, sc.session.instance? id = some c ∧ sc.catalog.get? c.card = some d ∧
      ∀ n greatest, op = .healCard id n greatest → greatest = d.health := by
  cases op with
  | damageCard _ _ =>
    cases acts
    obtain ⟨-, d, defined⟩ := h
    obtain ⟨c, hc, hd⟩ := definitionOf_ok_iff.mp defined
    exact ⟨c, d, hc, hd, fun _ _ other => by cases other⟩
  | healCard _ _ _ =>
    cases acts
    obtain ⟨-, d, defined, cap⟩ := h
    obtain ⟨c, hc, hd⟩ := definitionOf_ok_iff.mp defined
    refine ⟨c, d, hc, hd, fun _ _ same => ?_⟩
    cases same
    exact cap
  | destroyCard _ =>
    cases acts
    obtain ⟨d, defined⟩ := h
    obtain ⟨c, hc, hd⟩ := definitionOf_ok_iff.mp defined
    exact ⟨c, d, hc, hd, fun _ _ other => by cases other⟩
  | damagePlayer _ _ | healPlayer _ _ | log _ _ | drawCard _ | gainEnergy _ _ => cases acts

/-- A script writes, draws and gains energy for its caster only. -/
theorem Admits.for_caster (h : sc.Admits op) (credited : op.beneficiary? = some seat) :
    seat = sc.caster := by
  cases op with
  | log _ _ =>
    cases credited
    exact h
  | drawCard _ =>
    cases credited
    exact h.1
  | gainEnergy _ _ =>
    cases credited
    exact h.2.1
  | damagePlayer _ _ | damageCard _ _ | healPlayer _ _ | healCard _ _ _ | destroyCard _ =>
    cases credited

/-- Only abilities queue what is reserved for them. -/
theorem Admits.by_ability (h : sc.Admits op) (reserved : op.isReserved = true) :
    sc.invocation.kind = .ability := by
  cases op with
  | drawCard _ => exact h.2
  | gainEnergy _ _ => exact h.2.2
  | damagePlayer _ _ | damageCard _ _ | healPlayer _ _ | healCard _ _ _ | destroyCard _ | log _ _ =>
    cases reserved

end Scene

/-- Every operation of a completed script carries no negative amount, damages and heals players of
the snapshot only, acts on copies of the snapshot with a definition and heals them up to the health
given there, and is queued for the caster, draws and energy by abilities only. -/
theorem Script.invoke_disciplined {sc : Scene} {script : Script}
    {asked asked' : List TargetRequest} {ops : List Operation}
    (done : script.invoke sc asked = (.completed ops, asked')) :
    ∀ op ∈ ops,
      (∀ n, op.amount? = some n → 0 ≤ n) ∧
      (∀ seat, op.patient? = some seat → sc.session.players.contains seat = true) ∧
      (∀ id, op.card? = some id →
        ∃ c d, sc.session.instance? id = some c ∧ sc.catalog.get? c.card = some d ∧
          ∀ n greatest, op = .healCard id n greatest → greatest = d.health) ∧
      (∀ seat, op.beneficiary? = some seat → seat = sc.caster) ∧
      (op.isReserved = true → sc.invocation.kind = .ability) := by
  intro op mem
  have admitted := Script.invoke_admits done op mem
  exact ⟨fun _ => admitted.amount_nonneg, fun _ => admitted.patient_seated,
    fun _ => admitted.card_defined, fun _ => admitted.for_caster, admitted.by_ability⟩

/-- Ann's seer hits what it can, mends itself by twice its health at most, and pays her. -/
theorem Script.invoke_foresight :
    let sc : Scene :=
      ⟨Session.showdown, arena.catalog, .first, ⟨.ability, ⟨0⟩, some ⟨4⟩, none⟩,
        arena.config.limits⟩
    let insight : Script := ⟨[.selectTargets "t" .enemyCreature,
      .forEach "c" (.var "t") [.damageCard (.var "c") (.int 3), .damagePlayer .opponent (.int 1)],
      .healCard .source (.arith .mul (.int 2) (.health .source)), .drawCard, .gainEnergy (.int 1),
      .log (.text "seen")]⟩
    let ops : List Operation := [.damageCard ⟨2⟩ 3, .damagePlayer ⟨1⟩ 1, .healCard ⟨4⟩ 4 2,
      .drawCard ⟨0⟩, .gainEnergy ⟨0⟩ 1, .log ⟨0⟩ "seen"]
    (insight.invoke sc []).1 = .completed ops ∧ ∀ op ∈ ops,
      (∀ n, op.amount? = some n → 0 ≤ n) ∧
      (∀ seat, op.patient? = some seat → sc.session.players.contains seat = true) ∧
      (∀ id, op.card? = some id →
        ∃ c d, sc.session.instance? id = some c ∧ sc.catalog.get? c.card = some d ∧
          ∀ n greatest, op = .healCard id n greatest → greatest = d.health) ∧
      (∀ seat, op.beneficiary? = some seat → seat = sc.caster) ∧
      (op.isReserved = true → sc.invocation.kind = .ability) := by
  intro sc insight ops
  have done : (insight.invoke sc []).1 = .completed ops := by decide +kernel
  have whole : insight.invoke sc [] = (.completed ops, (insight.invoke sc []).2) := by
    rw [← done]
  exact ⟨done, Script.invoke_disciplined whole⟩

end CardBattle
