import CardBattle.Proofs.Sweeps

/-!
# What a batch does to one permanent

A batch mixes operations on many cards and players. For the health of one permanent only the
operations on it count, up to the one that ends the game, and health 0 is final. The cards that are
reported as lethal are those that came to 0, and so are the cards that the sweep finds. All of this
is about batches whose heals form sums that are words: others lose what was to be healed.
-/

namespace CardBattle

namespace Operation

def changed (op : Operation) (c : CardInstance) : CardInstance :=
  match op with
  | .damageCard _ amount => c.takeDamage amount
  | .healCard _ amount greatest => c.heal amount greatest
  | .destroyCard _ => { c with health := 0 }
  | _ => c

/-- The health of a card after an operation on it: damage stops at 0, and a heal at the greatest
health that it carries. -/
def healthAfter (op : Operation) (health : Int) : Int :=
  match op with
  | .damageCard _ amount => max (lessened health amount) 0
  | .healCard _ amount greatest => max (min (increased health amount) greatest) health
  | .destroyCard _ => 0
  | _ => health

theorem changed_eq (op : Operation) (c : CardInstance) :
    op.changed c = { c with health := (op.changed c).health } := by
  cases op <;> rfl

/-- No operation leaves a card with negative health. -/
theorem changed_nonneg (op : Operation) {c : CardInstance} (nonneg : 0 ≤ c.health) :
    0 ≤ (op.changed c).health := by
  cases op with
  | damageCard id amount => exact c.takeDamage_nonneg amount
  | healCard id amount greatest => exact Int.le_trans nonneg (c.health_le_heal amount greatest)
  | destroyCard id => exact Int.le_refl 0
  | _ => exact nonneg

/-- The sum or difference that an operation forms when it acts on a session, if it forms one. -/
def formed? (s : Session) : Operation → Option Int
  | .damagePlayer player amount => (s.player? player).map fun p => lessened p.health amount
  | .healPlayer player amount => (s.player? player).map fun p => increased p.health amount
  | .damageCard id amount => (s.instance? id).map fun c => lessened c.health amount
  | .healCard id amount _ => (s.instance? id).map fun c => increased c.health amount
  | .gainEnergy player amount => (s.player? player).map fun p => increased p.energy amount
  | .destroyCard _ | .log _ _ | .drawCard _ => none

def healsCard : Operation → Bool
  | .healCard _ _ _ => true
  | _ => false

/-- The health of a card of an operation is what it should be. -/
def Exact (s : Session) (op : Operation) : Prop :=
  ∀ id c, op.card? = some id → s.instance? id = some c →
    (op.changed c).health = op.healthAfter c.health

/-- A heal is exact if its sum is a word. -/
theorem exact_of_inWord {s : Session} {op : Operation}
    (word : ∀ n, op.healsCard = true → op.formed? s = some n → inWord n = true) : op.Exact s := by
  intro id c own hc
  cases op with
  | healCard target amount greatest =>
    cases own
    have sum : inWord (increased c.health amount) = true := by
      refine word _ rfl ?_
      rw [formed?, hc, Option.map_some]
    simp only [changed, healthAfter, CardInstance.heal, toWord_of_inWord sum]
  | _ => rfl

/-- The health of a card after some operations, of which only those on the card count. No operation
helps a card at 0. -/
def lifeline (id : InstanceId) (ops : List Operation) (health : Int) : Int :=
  (ops.filter fun op => decide (op.card? = some id)).foldl
    (fun health op => if health = 0 then 0 else op.healthAfter health) health

def affect (id : InstanceId) (op : Operation) (health : Int) : Int :=
  if op.card? = some id ∧ health ≠ 0 then op.healthAfter health else health

theorem lifeline_nil (id : InstanceId) (health : Int) : lifeline id [] health = health := rfl

theorem lifeline_cons (id : InstanceId) (op : Operation) (ops : List Operation) (health : Int) :
    lifeline id (op :: ops) health = lifeline id ops (affect id op health) := by
  by_cases own : op.card? = some id
  · by_cases final : health = 0
    · simp [lifeline, affect, own, final]
    · simp [lifeline, affect, own, final]
  · simp [lifeline, affect, own]

/-- Somebody may be drawing cards or gaining energy. -/
theorem exists_for (op : Operation) : ∃ actor, op.For actor := by
  cases op with
  | drawCard player => exact ⟨some player, rfl⟩
  | gainEnergy player amount => exact ⟨some player, rfl⟩
  | _ => exact ⟨none, trivial⟩

end Operation

namespace Session

open Operation (affect lifeline)

variable {K : Catalog} {s s' : Session} {id : InstanceId} {op : Operation} {r r' : BatchReport}
  {now : Nat}

/-- The operations of a batch up to the first that ends the game. -/
def effective (now : Nat) : BatchReport × Session → List Operation → List Operation
  | _, [] => []
  | state, op :: ops =>
    if state.2.isFinished then [] else op :: effective now (applyOne now state op) ops

def acts (state : BatchReport × Session) (op : Operation) : Bool :=
  !state.2.isFinished && state.2.mayAct state.1.lethal op

/-- The operations of a batch that form a sum or a difference when they act, each with what it
forms. -/
def formedBy (now : Nat) : BatchReport × Session → List Operation → List (Operation × Int)
  | _, [] => []
  | state, op :: ops =>
    (if acts state op then ((op.formed? state.2).map fun n => (op, n)).toList else [])
      ++ formedBy now (applyOne now state op) ops

/-- The sums that the heals of cards form in a batch are words. -/
def HealsFit (now : Nat) (state : BatchReport × Session) (ops : List Operation) : Prop :=
  ∀ e ∈ formedBy now state ops, e.1.healsCard = true → inWord e.2 = true

instance {state : BatchReport × Session} {ops : List Operation} :
    Decidable (HealsFit now state ops) :=
  inferInstanceAs (Decidable (∀ e ∈ formedBy now state ops, _ → _))

theorem HealsFit.of_cons {state : BatchReport × Session} {ops : List Operation}
    (fit : HealsFit now state (op :: ops)) :
    (acts state op = true → op.Exact state.2) ∧ HealsFit now (applyOne now state op) ops := by
  rw [HealsFit, formedBy] at fit
  refine ⟨fun acting => Operation.exact_of_inWord fun n heals formed => ?_,
    fun e mem => fit e (List.mem_append_right _ mem)⟩
  refine fit (op, n) (List.mem_append_left _ ?_) heals
  rw [if_pos acting, formed]
  exact List.mem_singleton_self _

/-! ### Carrying out one operation -/

theorem instances_finish {loser : Seat} : (s.finish loser now).instances = s.instances := by
  rw [finish]
  split <;> rfl

theorem attempt_instances {α : Type} {u : Update α} (atomic : Atomic u)
    (ran : ∀ a s', u s = .ok a s' → s'.instances = s.instances) :
    (s.attempt u).2.instances = s.instances := by
  rcases of_attempt (s := s) atomic with same | ⟨a, done⟩
  · rw [same]
  · exact ran a _ done

/-- Operations that are not on a card leave all copies alone. -/
theorem perform_instances (noCard : op.card? = none) (now : Nat) (r : BatchReport) :
    (s.perform op now r).2.instances = s.instances := by
  cases op with
  | damagePlayer player amount =>
    refine attempt_instances atomic_damagePlayer fun dealt s' ran => ?_
    obtain ⟨p, -, -, rfl⟩ := damagePlayer_ok_iff.mp ran
    split
    · exact instances_finish
    · rfl
  | healPlayer player amount =>
    refine attempt_instances atomic_healPlayer fun healed s' ran => ?_
    obtain ⟨p, -, -, rfl⟩ := healPlayer_ok_iff.mp ran
    rfl
  | drawCard player =>
    refine attempt_instances atomic_drawCard fun drawn s' ran => ?_
    rw [drawCard] at ran
    split at ran
    · cases ran
    · split at ran <;> cases ran <;> rfl
  | gainEnergy player amount =>
    refine attempt_instances atomic_gainEnergy fun _ s' ran => ?_
    obtain ⟨p, -, rfl⟩ := gainEnergy_ok_iff.mp ran
    rfl
  | log player text => rfl
  | damageCard id amount => cases noCard
  | healCard id amount greatest => cases noCard
  | destroyCard id => cases noCard

/-- An operation on a card changes this card alone. -/
theorem perform_on_card {target : InstanceId} (onCard : op.card? = some target)
    {c : CardInstance} (hc : s.instance? target = some c) (now : Nat) (r : BatchReport) :
    (s.perform op now r).2 = s.modifyInstance target fun _ => op.changed c := by
  cases op with
  | damageCard id amount | healCard id amount greatest | destroyCard id =>
    cases onCard
    simp only [perform, hc]
    rfl
  | _ => cases onCard

/-- An operation changes its own card and no other. -/
theorem perform_copies (op : Operation) (now : Nat) (r : BatchReport) (s : Session)
    (id : InstanceId) : (s.perform op now r).2.instance? id
      = (s.instance? id).map fun c => if op.card? = some id then op.changed c else c := by
  cases onCard : op.card? with
  | none =>
    have same : (s.perform op now r).2.instance? id = s.instance? id := by
      rw [instance?, perform_instances onCard]
      rfl
    simp [same]
  | some target =>
    cases hc : s.instance? target with
    | none =>
      have same : (s.perform op now r).2 = s := by
        cases op <;> cases onCard <;> simp [perform, hc]
      rw [same]
      cases he : s.instance? id with
      | none => rfl
      | some e =>
        have differ : target ≠ id := by
          rintro rfl
          cases hc.symm.trans he
        simp [differ]
    | some c =>
      rw [perform_on_card onCard hc]
      by_cases same : target = id
      · subst same
        rw [instance?_modifyInstance_self, hc]
        simp
      · rw [instance?_modifyInstance_of_ne _ _ same]
        simp [same]

theorem perform_owners (op : Operation) (now : Nat) (r : BatchReport) (s : Session)
    (id : InstanceId) :
    ((s.perform op now r).2.instance? id).map (·.owner) = (s.instance? id).map (·.owner) := by
  rw [perform_copies, Option.map_map]
  congr 1
  funext c
  simp only [Function.comp_apply]
  split
  · rw [op.changed_eq]
  · rfl

/-- An operation reports its card as lethal if it brings the card to 0, and else nothing. -/
theorem perform_lethal (alive : ∀ id c, op.card? = some id → s.instance? id = some c →
    0 < c.health) (now : Nat) (r : BatchReport) :
    ((s.perform op now r).1.lethal = r.lethal ∧
        ∀ id c, op.card? = some id → s.instance? id = some c → (op.changed c).health ≠ 0) ∨
      ∃ id c, op.card? = some id ∧ s.instance? id = some c ∧ (op.changed c).health = 0 ∧
        (s.perform op now r).1.lethal = r.lethal ++ [id] := by
  have count : ∀ done, (r.count done).lethal = r.lethal := by
    intro done
    cases done <;> rfl
  cases op with
  | damagePlayer player amount => exact Or.inl ⟨count _, nofun⟩
  | healPlayer player amount => exact Or.inl ⟨count _, nofun⟩
  | drawCard player => exact Or.inl ⟨count _, nofun⟩
  | gainEnergy player amount => exact Or.inl ⟨count _, nofun⟩
  | log player text => exact Or.inl ⟨rfl, nofun⟩
  | damageCard id amount =>
    cases hc : s.instance? id with
    | none =>
      refine Or.inl ⟨by simp [perform, hc, BatchReport.skip], ?_⟩
      rintro _ c ⟨⟩ hc'
      cases hc.symm.trans hc'
    | some c =>
      by_cases lethal : (c.takeDamage amount).health = 0
      · exact Or.inr ⟨id, c, rfl, hc, lethal, by simp [perform, hc, lethal, BatchReport.kill]⟩
      · refine Or.inl ⟨by simp [perform, hc, lethal, BatchReport.apply], ?_⟩
        rintro _ c' ⟨⟩ hc'
        cases hc.symm.trans hc'
        exact lethal
  | healCard id amount greatest =>
    left
    constructor
    · cases hc : s.instance? id <;> simp [perform, hc, BatchReport.skip, BatchReport.apply]
    · intro id' c onCard hc
      have before := alive id' c onCard hc
      have raised := c.health_le_heal amount greatest
      exact Int.ne_of_gt (Int.lt_of_lt_of_le before raised)
  | destroyCard id =>
    cases hc : s.instance? id with
    | none =>
      refine Or.inl ⟨by simp [perform, hc, BatchReport.skip], ?_⟩
      rintro _ c ⟨⟩ hc'
      cases hc.symm.trans hc'
    | some c => exact Or.inr ⟨id, c, rfl, hc, rfl, by simp [perform, hc, BatchReport.kill]⟩

/-- Every operation is counted once, as applied or as skipped. -/
theorem perform_counted (op : Operation) (now : Nat) (r : BatchReport) (s : Session) :
    (s.perform op now r).1.applied + (s.perform op now r).1.skipped
      = r.applied + r.skipped + 1 := by
  have count : ∀ done, (r.count done).applied + (r.count done).skipped
      = r.applied + r.skipped + 1 := by
    intro done
    cases done <;> simp only [BatchReport.count, BatchReport.apply, BatchReport.skip,
      if_true, Bool.false_eq_true, if_false] <;> omega
  cases op with
  | damagePlayer | healPlayer | drawCard | gainEnergy => exact count _
  | log => exact count true
  | healCard id =>
    simp only [perform]
    split
    · exact count false
    · exact count true
  | destroyCard id =>
    simp only [perform]
    split
    · exact count false
    · exact count true
  | damageCard id amount =>
    simp only [perform]
    split
    · exact count false
    · split <;> exact count true

/-! ### The course of a batch -/

structure Booked (r : BatchReport) (s : Session) : Prop where
  tidy : s.Tidy
  nodup : r.lethal.Nodup
  lethal : ∀ id, id ∈ r.lethal ↔ s.zoneOf? id = some .battlefield ∧
    ∃ c, s.instance? id = some c ∧ c.health = 0
  nonneg : ∀ id c, s.instance? id = some c → s.zoneOf? id = some .battlefield → 0 ≤ c.health

/-- Some operations have been counted, and permanents in play have come to another health. -/
structure Worked (n : Nat) (alter : InstanceId → Int → Int)
    (state state' : BatchReport × Session) : Prop where
  counted : state'.1.applied + state'.1.skipped = state.1.applied + state.1.skipped + n
  seats : state'.2.players.count = state.2.players.count
  battlefield : ∀ seat, state'.2.battlefield seat = state.2.battlefield seat
  inPlay : ∀ id, state'.2.zoneOf? id = some .battlefield ↔ state.2.zoneOf? id = some .battlefield
  copies : ∀ id, state'.2.instance? id = (state.2.instance? id).map fun c =>
    if state.2.zoneOf? id = some .battlefield then { c with health := alter id c.health } else c

variable {n n' : Nat} {alter alter' : InstanceId → Int → Int}
  {state state' state'' : BatchReport × Session}

/-- What two parts of a batch have done is what they have done one after the other. -/
theorem Worked.trans (h : Worked n alter state state') (h' : Worked n' alter' state' state'') :
    Worked (n + n') (fun id health => alter' id (alter id health)) state state'' where
  counted := by
    rw [h'.counted, h.counted]
    omega
  seats := h'.seats.trans h.seats
  battlefield := fun seat => (h'.battlefield seat).trans (h.battlefield seat)
  inPlay := fun id => (h'.inPlay id).trans (h.inPlay id)
  copies := by
    intro id
    rw [h'.copies, h.copies, Option.map_map]
    simp only [h.inPlay]
    congr 1
    funext c
    by_cases inPlay : state.2.zoneOf? id = some .battlefield
    · simp [inPlay]
    · simp [inPlay]

theorem Worked.skip (same : ∀ id c, s.instance? id = some c → s.zoneOf? id = some .battlefield →
    alter id c.health = c.health) : Worked 1 alter (r, s) (r.skip, s) where
  counted := by
    simp only [BatchReport.skip]
    omega
  seats := rfl
  battlefield := fun _ => rfl
  inPlay := fun _ => Iff.rfl
  copies := by
    intro id
    cases hc : s.instance? id with
    | none => rfl
    | some c =>
      by_cases inPlay : s.zoneOf? id = some .battlefield
      · simp [inPlay, same id c hc inPlay]
      · simp [inPlay]

/-- An operation on a card may act while the card is in play and was not reported dead. -/
theorem mayAct_iff : s.mayAct r.lethal op = true ↔ ∀ id, op.card? = some id →
    id ∉ r.lethal ∧ s.zoneOf? id = some .battlefield := by
  rw [mayAct]
  cases op.card? with
  | none => simp
  | some id => simp [onBattlefield]

/-- The card of an operation that may act has health left. -/
theorem Booked.alive (booked : Booked r s) (may : s.mayAct r.lethal op = true) :
    ∀ id c, op.card? = some id → s.instance? id = some c → 0 < c.health := by
  intro id c onCard hc
  obtain ⟨unlisted, inPlay⟩ := mayAct_iff.mp may id onCard
  have nonneg := booked.nonneg id c hc inPlay
  have nonzero : c.health ≠ 0 := fun zero =>
    unlisted ((booked.lethal id).mpr ⟨inPlay, c, hc, zero⟩)
  omega

theorem perform_inPlay (booked : Booked r s) (op : Operation) (now : Nat) :
    (s.perform op now r).2.Tidy ∧ ∀ id, (s.perform op now r).2.zoneOf? id = some .battlefield ↔
      s.zoneOf? id = some .battlefield := by
  obtain ⟨actor, allowed⟩ := op.exists_for
  have contained : Contained actor (fun _ => False) s (s.perform op now r).2 :=
    perform_contained allowed now r
  have owner := perform_owners op now r s
  have tidy : (s.perform op now r).2.Tidy := contained.tidy owner booked.tidy
  exact ⟨tidy, fun id =>
    inPlay_congr booked.tidy.apart tidy.apart contained.battlefield (owner id)⟩

/-- An operation that may act takes its card one step along its lifeline. -/
theorem perform_worked (booked : Booked r s) (may : s.mayAct r.lethal op = true)
    (exact : op.Exact s) (now : Nat) :
    Worked 1 (fun id => affect id op) (r, s) (s.perform op now r) := by
  obtain ⟨actor, allowed⟩ := op.exists_for
  have contained : Contained actor (fun _ => False) s (s.perform op now r).2 :=
    perform_contained allowed now r
  refine ⟨perform_counted op now r s, contained.count, contained.battlefield,
    (perform_inPlay booked op now).2, fun id => ?_⟩
  rw [perform_copies]
  cases hc : s.instance? id with
  | none => rfl
  | some c =>
    by_cases own : op.card? = some id
    · have inPlay := (mayAct_iff.mp may id own).2
      have alive := booked.alive may id c own hc
      have changed : op.changed c = { c with health := op.healthAfter c.health } := by
        rw [op.changed_eq, exact id c own hc]
      simp [own, inPlay, affect, Int.ne_of_gt alive, changed]
    · simp [own, affect]

theorem perform_nonneg (booked : Booked r s)
    (stays : ∀ id, (s.perform op now r).2.zoneOf? id = some .battlefield ↔
      s.zoneOf? id = some .battlefield) (id : InstanceId) (c : CardInstance)
    (hc : (s.perform op now r).2.instance? id = some c)
    (inPlay : (s.perform op now r).2.zoneOf? id = some .battlefield) : 0 ≤ c.health := by
  rw [perform_copies] at hc
  obtain ⟨e, he, rfl⟩ := Option.map_eq_some_iff.mp hc
  have before := booked.nonneg id e he ((stays id).mp inPlay)
  split
  · exact op.changed_nonneg before
  · exact before

theorem nodup_lethal_perform (booked : Booked r s) (may : s.mayAct r.lethal op = true)
    (now : Nat) : (s.perform op now r).1.lethal.Nodup := by
  rcases perform_lethal (booked.alive may) now r with ⟨same, -⟩ | ⟨target, c, own, -, -, listed⟩
  · rw [same]
    exact booked.nodup
  · obtain ⟨unlisted, -⟩ := mayAct_iff.mp may target own
    rw [listed]
    refine List.nodup_append.mpr ⟨booked.nodup, List.nodup_singleton _, ?_⟩
    intro id mem other mem' same
    rw [same, List.mem_singleton.mp mem'] at mem
    exact unlisted mem

theorem mem_lethal_perform (booked : Booked r s) (may : s.mayAct r.lethal op = true) (now : Nat)
    (id : InstanceId) : id ∈ (s.perform op now r).1.lethal ↔ s.zoneOf? id = some .battlefield ∧
      ∃ c, (s.perform op now r).2.instance? id = some c ∧ c.health = 0 := by
  have others : ∀ id, op.card? ≠ some id →
      (s.perform op now r).2.instance? id = s.instance? id := by
    intro id other
    rw [perform_copies]
    simp [other]
  rcases perform_lethal (booked.alive may) now r with ⟨same, spared⟩ |
    ⟨target, c, own, hc, zero, listed⟩
  · rw [same, booked.lethal]
    by_cases own : op.card? = some id
    · -- a card that may act has health before and after
      refine and_congr_right fun _ => ⟨?_, ?_⟩
      · rintro ⟨c, hc, zero⟩
        exact absurd zero (Int.ne_of_gt (booked.alive may id c own hc))
      · rintro ⟨e, he, zero⟩
        rw [perform_copies] at he
        obtain ⟨c, hc, rfl⟩ := Option.map_eq_some_iff.mp he
        rw [if_pos own] at zero
        exact absurd zero (spared id c own hc)
    · rw [others id own]
  · have inPlay := (mayAct_iff.mp may target own).2
    rw [listed, List.mem_append, List.mem_singleton, booked.lethal]
    by_cases same : id = target
    · subst same
      simp only [or_true, true_iff]
      refine ⟨inPlay, op.changed c, ?_, zero⟩
      rw [perform_copies, hc, Option.map_some, if_pos own]
    · have other : op.card? ≠ some id := by
        rw [own]
        exact fun h => same (Option.some.inj h).symm
      rw [others id other]
      simp [same]

/-- The report of a batch stays in order from one operation to the next. -/
theorem perform_booked (booked : Booked r s) (may : s.mayAct r.lethal op = true) (now : Nat) :
    Booked (s.perform op now r).1 (s.perform op now r).2 := by
  obtain ⟨tidy, stays⟩ := perform_inPlay booked op now
  refine ⟨tidy, nodup_lethal_perform booked may now, ?_, perform_nonneg booked stays⟩
  intro id
  rw [mem_lethal_perform booked may now, stays]

/-- Once the game is over, operations are counted and nothing else. -/
theorem applyOne_worked (booked : Booked r s) (now : Nat) (op : Operation)
    (exact : acts (r, s) op = true → op.Exact s) :
    Worked 1 (fun id health => if s.isFinished then health else affect id op health)
        (r, s) (applyOne now (r, s) op) ∧
      Booked (applyOne now (r, s) op).1 (applyOne now (r, s) op).2 := by
  have skipped : Booked r.skip s := ⟨booked.tidy, booked.nodup, booked.lethal, booked.nonneg⟩
  simp only [applyOne]
  split
  · exact ⟨.skip fun _ _ _ _ => rfl, skipped⟩
  · split
    · rename_i going may
      have acting : acts (r, s) op = true := by
        rw [acts, may, Bool.and_true, Bool.not_eq_true']
        exact Bool.not_eq_true _ ▸ going
      exact ⟨perform_worked booked may (exact acting) now, perform_booked booked may now⟩
    · rename_i going barred
      refine ⟨.skip fun id c hc inPlay => ?_, skipped⟩
      rw [affect]
      split
      · rename_i own
        refine absurd (mayAct_iff.mpr fun id' own' => ?_) barred
        cases own.1.symm.trans own'
        refine ⟨fun listed => ?_, inPlay⟩
        obtain ⟨-, e, he, zero⟩ := (booked.lethal id).mp listed
        cases hc.symm.trans he
        exact own.2 zero
      · rfl

/-- In a finished game no operation has an effect. -/
theorem effective_of_finished {state : BatchReport × Session} (finished : state.2.isFinished = true)
    (ops : List Operation) : effective now state ops = [] := by
  cases ops with
  | nil => rfl
  | cons op ops => rw [effective, if_pos finished]

/-- The induction is on the operations that are left; the report and the session stand for those
before them. -/
theorem foldl_applyOne_worked (ops : List Operation) (booked : Booked state.1 state.2)
    (fit : HealsFit now state ops) :
    Worked ops.length (fun id => lifeline id (effective now state ops)) state
        (ops.foldl (applyOne now) state) ∧
      Booked (ops.foldl (applyOne now) state).1 (ops.foldl (applyOne now) state).2 := by
  induction ops generalizing state with
  | nil =>
    refine ⟨⟨rfl, rfl, fun _ => rfl, fun _ => Iff.rfl, fun id => ?_⟩, booked⟩
    cases hc : state.2.instance? id <;> simp [hc, effective, Operation.lifeline_nil]
  | cons op ops ih =>
    obtain ⟨r, s⟩ := state
    obtain ⟨exact, fit'⟩ := fit.of_cons
    obtain ⟨first, booked'⟩ := applyOne_worked booked now op exact
    obtain ⟨rest, booked''⟩ := ih booked' fit'
    refine ⟨?_, booked''⟩
    have lines : (fun id => lifeline id (effective now (r, s) (op :: ops))) = fun id health =>
        lifeline id (effective now (applyOne now (r, s) op) ops)
          (if s.isFinished then health else affect id op health) := by
      funext id health
      rw [effective]
      split
      · rename_i finished
        have ended : (applyOne now (r, s) op).2.isFinished = true := by
          simp [applyOne, finished]
        rw [effective_of_finished ended]
      · rename_i going
        rw [Operation.lifeline_cons]
    rw [lines, List.length_cons, Nat.add_comm]
    exact first.trans rest

/-! ### The batch and the sweep after it -/

/-- What a batch makes of a session and reports, and what the sweep finds and makes of that. -/
structure Accounted (K : Catalog) (now : Nat) (ops : List Operation) (s : Session)
    (report : BatchReport) (m : Session) (fallen : List InstanceId) (s' : Session) : Prop where
  counted : report.applied + report.skipped = ops.length
  battlefield : ∀ seat, m.battlefield seat = s.battlefield seat
  /-- Permanents in play follow their lifelines, and other copies stay as they are. -/
  copies : ∀ id, m.instance? id = (s.instance? id).map fun c =>
    if s.zoneOf? id = some .battlefield then
      { c with health := lifeline id (effective now ({}, s) ops) c.health }
    else c
  once : report.lethal.Nodup
  lethal : ∀ id, id ∈ report.lethal ↔ s.zoneOf? id = some .battlefield ∧
    ∃ c, s.instance? id = some c ∧ lifeline id (effective now ({}, s) ops) c.health = 0
  found : fallen.Perm report.lethal
  /-- By seat and then in battlefield order. -/
  order : fallen = (s.players.seats.flatMap s.battlefield).filter (· ∈ report.lethal)
  swept : Swept K now fallen m s'
  zones : ∀ id, s'.zoneOf? id = if id ∈ fallen then some .graveyard else m.zoneOf? id
  alive : s'.Alive

theorem Orderly.booked (orderly : s.Orderly K) : Booked {} s where
  tidy := orderly.tidy
  nodup := List.nodup_nil
  lethal := by
    intro id
    simp only [List.not_mem_nil, false_iff, not_and, not_exists]
    intro inPlay c hc zero
    have alive := orderly.alive id c hc inPlay
    omega
  nonneg := by
    intro id c hc inPlay
    have alive := orderly.alive id c hc inPlay
    omega

/-- The report of a batch and the sweep after it agree on the dead, and these are the permanents
whose lifelines come to 0. -/
theorem batch_accounted (orderly : s.Orderly K) (few : s.players.count < Seat.bound)
    (ops : List Operation) (now : Nat) (fit : HealsFit now ({}, s) ops) :
    Accounted K now ops s (s.applyOperations ops now).1 (s.applyOperations ops now).2
      ((s.applyOperations ops now).2.sweep K now).1
      ((s.applyOperations ops now).2.sweep K now).2 := by
  obtain ⟨worked, booked⟩ : Worked ops.length (fun id => lifeline id (effective now ({}, s) ops))
        ({}, s) (s.applyOperations ops now) ∧
      Booked (s.applyOperations ops now).1 (s.applyOperations ops now).2 :=
    foldl_applyOne_worked ops orderly.booked fit
  generalize s.applyOperations ops now = state at worked booked
  obtain ⟨report, m⟩ := state
  have few' : m.players.count < Seat.bound := by
    rw [worked.seats]
    exact few
  have dead : ∀ id, id ∈ m.dead ↔ id ∈ report.lethal := by
    intro id
    rw [mem_dead_iff booked.tidy few', booked.lethal]
    constructor
    · rintro ⟨c, hc, inPlay, noHealth⟩
      exact ⟨inPlay, c, hc, Int.le_antisymm noHealth (booked.nonneg id c hc inPlay)⟩
    · rintro ⟨inPlay, c, hc, zero⟩
      exact ⟨c, hc, inPlay, Int.le_of_eq zero⟩
  have swept := sweep_swept booked.tidy K now
  refine ⟨worked.counted.trans (Nat.zero_add _), worked.battlefield, worked.copies, booked.nodup,
    ?_, ?_, ?_, swept, ?_, alive_sweep booked.tidy few' K now⟩
  · intro id
    rw [booked.lethal, worked.inPlay, worked.copies]
    refine and_congr_right fun inPlay => ?_
    cases s.instance? id <;> simp [inPlay]
  · exact (List.perm_ext_iff_of_nodup booked.tidy.nodup_dead booked.nodup).mpr dead
  · have seats : m.players.seats = s.players.seats := by
      have count : m.players.count = s.players.count := worked.seats
      simp only [SeatMap.seats, count]
    have fields : m.battlefield = s.battlefield := funext worked.battlefield
    have sameList : m.dead
        = (m.players.seats.flatMap m.battlefield).filter (· ∈ report.lethal) := by
      refine List.filter_congr fun id listed => ?_
      have found := dead id
      rw [Session.dead, List.mem_filter, and_iff_right listed] at found
      rw [Bool.eq_iff_iff, decide_eq_true_iff]
      exact found
    rw [seats, fields] at sameList
    exact sameList
  · exact swept.zoneOf? (apart_sweep booked.tidy.apart K now) fun _ => booked.tidy.inPlay_of_dead

/-- Bob's wisp dies at once and for good, and with Bob's death the batch is over. -/
theorem showdown_batch :
    let ops : List Operation := [.damageCard ⟨2⟩ 1, .healCard ⟨2⟩ 5 1, .drawCard ⟨0⟩,
      .healCard ⟨4⟩ 3 2, .damageCard ⟨4⟩ 1, .damagePlayer ⟨1⟩ 30, .destroyCard ⟨4⟩]
    let m := (showdown.applyOperations ops 0).2
    let s' := (m.sweep arena.catalog 0).2
    (showdown.Orderly arena.catalog ∧ showdown.players.count < Seat.bound ∧
        HealsFit 0 ({}, showdown) ops) ∧
      (showdown.applyOperations ops 0).1 = ⟨5, 2, [⟨2⟩]⟩ ∧
      (m.instance? ⟨4⟩).map (·.health) = some 1 ∧ s'.zoneOf? ⟨2⟩ = some .graveyard ∧ s'.Alive := by
  intro ops m s'
  have few : showdown.players.count < Seat.bound := by decide
  have fit : HealsFit 0 ({}, showdown) ops := by decide +kernel
  have accounted := batch_accounted showdown_orderly few ops 0 fit
  have report : (showdown.applyOperations ops 0).1 = ⟨5, 2, [⟨2⟩]⟩ := by decide +kernel
  refine ⟨⟨showdown_orderly, few, fit⟩, report, ?_, ?_, accounted.alive⟩
  · rw [accounted.copies]
    decide +kernel
  · rw [accounted.zones, if_pos]
    rw [accounted.found.mem_iff, report]
    exact List.mem_singleton_self _

/-- Where records are misfiled, the sweep may find a permanent that no operation killed, or an
operation may miss a permanent in play; and among 256 players the sweep finds nobody. -/
theorem mislaid_batches_unaccounted :
    (mislaid.violation? arena.catalog = none ∧ mislaid.Known arena.catalog ∧
      (mislaid.applyOperations [] 0).1.lethal = [] ∧
      ((mislaid.applyOperations [] 0).2.sweep arena.catalog 0).1 = [⟨2⟩, ⟨2⟩]) ∧
    (estranged.violation? arena.catalog = none ∧ estranged.Known arena.catalog ∧
      ⟨2⟩ ∈ estranged.battlefield ⟨1⟩ ∧
      (estranged.instance? ⟨2⟩).map (·.health) = some 5 ∧
      lifeline ⟨2⟩ (effective 0 ({}, estranged) [.damageCard ⟨2⟩ 1]) 5 = 4 ∧
      ((estranged.applyOperations [.damageCard ⟨2⟩ 1] 0).2.instance? ⟨2⟩).map (·.health)
        = some 5) ∧
    throng.violation? arena.catalog = none ∧ throng.Known arena.catalog ∧
      (throng.applyOperations [.destroyCard ⟨1⟩] 0).1.lethal = [⟨1⟩] ∧
      ((throng.applyOperations [.destroyCard ⟨1⟩] 0).2.sweep arena.catalog 0).1 = [] := by
  decide +kernel

end Session

end CardBattle
