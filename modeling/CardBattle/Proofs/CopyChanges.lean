import CardBattle.Proofs.Changes

/-!
# Conditions on single copies

Many facts about a game are conditions on every copy by itself: on its record, its definition and
the zone where it lies. Such a condition lasts when it is carried over by the few things that happen
to a copy. A draw or a cast leaves its record as it is, and everything else happens to it in play.
-/

namespace CardBattle

abbrev Condition := InstanceId → CardInstance → CardDefinition → Zone → Prop

/-- A condition that every change carries over. -/
structure Condition.Lasts (K : Catalog) (fit : Condition) : Prop where
  draw : ∀ id c d, fit id c d .deck → fit id c d .hand
  cast : ∀ id c d, fit id c d .hand → fit id c d .graveyard
  enter : ∀ id c d, K.get? c.card = some d → d.kind ≠ .spell → fit id c d .hand →
    fit id (c.entering d) d .battlefield
  heal : ∀ id c d amount, fit id c d .battlefield → fit id (c.heal amount d.health) d .battlefield
  sap : ∀ id c d, fit id c d .battlefield → fit id c.sap d .battlefield
  bury : ∀ id c d, fit id c d .battlefield → fit id c.buried d .graveyard

namespace Session

def Suits (fit : Condition) (K : Catalog) (s : Session) : Prop :=
  ∀ id c d zone, s.instance? id = some c → K.get? c.card = some d → s.zoneOf? id = some zone →
    fit id c d zone

variable {K : Catalog} {fit : Condition} {s s' : Session} {id : InstanceId} {player : Seat}

namespace Suits

theorem of_same (h : s.Suits fit K) (copies : ∀ id, s'.instance? id = s.instance? id)
    (zones : ∀ id, s'.zoneOf? id = s.zoneOf? id) : s'.Suits fit K := by
  intro id c d zone hc hd hz
  exact h id c d zone (copies id ▸ hc) hd (zones id ▸ hz)

/-- A change of one copy only needs a look at that copy. -/
theorem of_one (id : InstanceId) (h : s.Suits fit K)
    (others : ∀ other, other ≠ id → s'.zoneOf? other = s.zoneOf? other ∧
      s'.instance? other = s.instance? other)
    (one : ∀ c d zone, s'.instance? id = some c → K.get? c.card = some d →
      s'.zoneOf? id = some zone → fit id c d zone) : s'.Suits fit K := by
  intro other c d zone hc hd hz
  by_cases same : other = id
  · subst same
    exact one c d zone hc hd hz
  · obtain ⟨zones, copies⟩ := others other same
    exact h other c d zone (copies ▸ hc) hd (zones ▸ hz)

/-- A copy that moves needs to fit where it arrives. -/
theorem arrives {zone : Zone} (h : s.Suits fit K) (arrived : s'.zoneOf? id = some zone)
    (others : ∀ other, other ≠ id → s'.zoneOf? other = s.zoneOf? other ∧
      s'.instance? other = s.instance? other)
    (one : ∀ c d, s'.instance? id = some c → K.get? c.card = some d → fit id c d zone) :
    s'.Suits fit K := by
  refine h.of_one id others ?_
  intro c d zone' hc hd hz
  cases arrived.symm.trans hz
  exact one c d hc hd

/-- A permanent in play that changes needs to fit there still. -/
theorem in_play (h : s.Suits fit K) (housed : s.Housed) (mem : id ∈ s.battlefield player)
    {f : CardInstance → CardInstance} (keeps : ∀ c : CardInstance, c.Continues (f c))
    (fits : ∀ c d, s.instance? id = some c → K.get? c.card = some d → c.owner = player →
      fit id c d .battlefield → fit id (f c) d .battlefield) :
    (s.modifyInstance id f).Suits fit K := by
  obtain ⟨c, hc, own, inPlay⟩ := housed.of_mem_battlefield mem
  have zones : ∀ other, (s.modifyInstance id f).zoneOf? other = s.zoneOf? other := fun other =>
    zoneOf?_modifyInstance s fun c => (keeps c).owner
  refine h.of_one id (fun other ne => ⟨zones other, ?_⟩) ?_
  · exact instance?_modifyInstance_of_ne s f ne.symm
  · intro e d zone he hd hz
    rw [zones, inPlay] at hz
    cases hz
    rw [instance?_modifyInstance_self, hc] at he
    cases he
    rw [(keeps c).card] at hd
    exact fits c d hc hd own (h id c d .battlefield hc hd inPlay)

theorem finish (h : s.Suits fit K) {loser : Seat} {now : Nat} :
    (s.finish loser now).Suits fit K := by
  unfold Session.finish
  split
  · exact h
  · exact h.of_same (fun _ => rfl) fun _ => rfl

end Suits

/-- A player who keeps the zones leaves every card in its zone. -/
theorem zoneOf?_modifyPlayer_const {p q : Player} (hp : s.player? player = some p)
    (zones : q.zones = p.zones) :
    (s.modifyPlayer player fun _ => q).zoneOf? id = s.zoneOf? id := by
  rw [modifyPlayer_congr (g := fun r => { q with zones := r.zones }) hp (by rw [← zones])]
  exact zoneOf?_modifyPlayer s fun _ => rfl

/-- A lasting condition holds of the copies after a change if it held before. -/
theorem Change.suits (lasts : fit.Lasts K) (housed : s.Housed) (h : s.Suits fit K)
    (change : Change K s s') : s'.Suits fit K := by
  cases change with
  | note e _ => exact h.of_same (fun _ => rfl) fun _ => rfl
  | @hurt _ player amount _ now _ ran =>
    obtain ⟨p, hp, -, rfl⟩ := damagePlayer_ok_iff.mp ran
    have hurt : (s.modifyPlayer player fun _ => p.takeDamage amount).Suits fit K :=
      h.of_same (fun _ => rfl) fun _ => zoneOf?_modifyPlayer_const hp rfl
    split
    · exact hurt.finish
    · exact hurt
  | mend _ ran =>
    obtain ⟨p, hp, -, rfl⟩ := healPlayer_ok_iff.mp ran
    exact h.of_same (fun _ => rfl) fun _ => zoneOf?_modifyPlayer_const hp rfl
  | gain _ ran =>
    obtain ⟨p, hp, rfl⟩ := gainEnergy_ok_iff.mp ran
    exact h.of_same (fun _ => rfl) fun _ => zoneOf?_modifyPlayer_const hp rfl
  | draw _ ran =>
    obtain ⟨p, hp, ⟨-, -, rfl⟩ | ⟨id, -, -, mem, rfl⟩⟩ := of_drawCard (housed.apart _) ran
    · exact h.of_same (fun _ => rfl) fun _ => rfl
    · obtain ⟨c, hc, rfl, inDeck⟩ := housed.of_mem hp mem
      have drawn : Zone.deck ≠ .hand := by decide
      have arrived := zoneOf?_carry_self housed hc hp drawn mem
      refine h.arrives arrived (fun other ne => ⟨?_, rfl⟩) ?_
      · exact zoneOf?_carry_of_ne housed hp drawn mem ne
      · intro e d he hd
        cases hc.symm.trans he
        exact lasts.draw id c d (h id c d .deck hc hd inDeck)
  | @heal player id c d amount _ mem hc hd =>
    refine h.in_play housed mem (fun _ => ⟨rfl, rfl, rfl⟩) ?_
    intro e d' he hd' _ fits
    cases hc.symm.trans he
    cases hd.symm.trans hd'
    exact lasts.heal id c d amount fits
  | sap _ mem =>
    refine h.in_play housed mem (fun _ => ⟨rfl, rfl, rfl⟩) ?_
    exact fun c d _ _ _ fits => lasts.sap _ c d fits
  | @enter p id c d e _ hc hp hd permanent mem _ _ _ _ =>
    have charged : (s.charge c.owner d.cost).Housed :=
      (continues_charge (K := K)).housed housed
    have plays : Zone.hand ≠ .battlefield := by decide
    obtain ⟨arrived, entered, others⟩ := carry_views (p := { p with energy := _ })
      (f := (·.entering d)) charged hc (player?_charge hp) plays mem (fun _ => rfl) rfl
    refine h.arrives arrived (fun other ne => ⟨?_, (others other ne).2⟩) ?_
    · exact (others other ne).1.trans zoneOf?_charge
    · intro c' d' hc' hd'
      cases entered.symm.trans hc'
      cases hd.symm.trans hd'
      have inHand : s.zoneOf? id = some .hand := (housed.zoneOf?_iff hc hp).mpr mem
      exact lasts.enter id c d hd permanent (h id c d .hand hc hd inHand)
  | @cast p id c d e _ hc hp hd spell mem _ _ _ _ =>
    have charged : (s.charge c.owner d.cost).Housed :=
      (continues_charge (K := K)).housed housed
    have spent : Zone.hand ≠ .graveyard := by decide
    have arrived := zoneOf?_carry_self (c := c) (p := { p with energy := _ }) charged hc
      (player?_charge hp) spent mem
    refine h.arrives arrived (fun other ne => ⟨?_, rfl⟩) ?_
    · exact (zoneOf?_carry_of_ne (c := c) (p := { p with energy := _ }) charged
        (player?_charge hp) spent mem ne).trans zoneOf?_charge
    · intro c' d' hc' hd'
      cases hc.symm.trans hc'
      have inHand : s.zoneOf? id = some .hand := (housed.zoneOf?_iff hc hp).mpr mem
      exact lasts.cast id c d' (h id c d' .hand hc hd' inHand)
  | @bury p id c e hc hp _ mem _ _ =>
    have dies : Zone.battlefield ≠ .graveyard := by decide
    obtain ⟨arrived, buried, others⟩ := carry_views (f := (·.buried)) housed hc hp dies mem
      (fun _ => rfl) rfl
    refine h.arrives arrived others fun c' d hc' hd => ?_
    cases buried.symm.trans hc'
    have inPlay : s.zoneOf? id = some .battlefield := (housed.zoneOf?_iff hc hp).mpr mem
    exact lasts.bury id c d (h id c d .battlefield hc hd inPlay)

theorem Harm.suits (wound : ∀ id c d amount, fit id c d .battlefield →
      fit id (c.takeDamage amount) d .battlefield)
    (doom : ∀ id c d, fit id c d .battlefield → fit id { c with health := 0 } d .battlefield)
    (housed : s.Housed) (h : s.Suits fit K) (harm : Harm s s') : s'.Suits fit K := by
  cases harm with
  | wound amount _ mem =>
    refine h.in_play housed mem (fun _ => ⟨rfl, rfl, rfl⟩) ?_
    exact fun c d _ _ _ fits => wound _ c d amount fits
  | doom _ mem =>
    refine h.in_play housed mem (fun _ => ⟨rfl, rfl, rfl⟩) ?_
    exact fun c d _ _ _ fits => doom _ c d fits

end Session

end CardBattle
