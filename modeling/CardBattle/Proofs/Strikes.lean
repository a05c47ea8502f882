import CardBattle.Proofs.Settling

/-!
# One strike

A strike deals damage to one permanent in play and sweeps. In a session where nothing in play is
dead, this changes the permanent alone: it loses health, and falls if none is left.
-/

namespace CardBattle

namespace CardInstance

def afterBlow (c : CardInstance) (amount : Int) : CardInstance :=
  { c with health := max (c.health - amount) 0, sapped := c.sapped && decide (amount < c.health) }

theorem afterBlow_of_lethal {c : CardInstance} {amount : Int} (lethal : c.health ≤ amount) :
    c.afterBlow amount = c.buried := by
  have none_left : max (c.health - amount) 0 = 0 := by omega
  simp [afterBlow, buried, none_left, Int.not_lt.mpr lethal]

theorem afterBlow_of_spared {c : CardInstance} {amount : Int} (nonneg : 0 ≤ amount)
    (spared : amount < c.health) : c.afterBlow amount = c.takeDamage amount := by
  simp [afterBlow, takeDamage, lessened_of_nonneg nonneg, spared]

end CardInstance

namespace Zones

variable {z : Zones} {fallen later : List InstanceId}

/-- Permanents fall one after another or together. -/
theorem bury_bury (fresh : ∀ id ∈ later, id ∉ fallen) :
    (z.bury fallen).bury later = z.bury (fallen ++ later) := by
  have kept : (z.bury fallen).battlefield = z.battlefield.filter (· ∉ fallen) := rfl
  have battlefield : (z.bury fallen).battlefield.filter (· ∉ later)
      = z.battlefield.filter (· ∉ fallen ++ later) := by
    rw [kept, List.filter_filter]
    refine List.filter_congr fun id _ => ?_
    rw [Bool.eq_iff_iff]
    simp [and_comm]
  have graveyard : later.filter (· ∈ (z.bury fallen).battlefield)
      = later.filter (· ∈ z.battlefield) := by
    refine List.filter_congr fun id mem => ?_
    simp [kept, fresh id mem]
  change (⟨z.deck, z.hand, _, z.graveyard ++ fallen.filter (· ∈ z.battlefield) ++ _⟩ : Zones) = _
  rw [battlefield, graveyard, List.append_assoc, ← List.filter_append]
  rfl

end Zones

namespace Session

variable {K : Catalog} {s m s' : Session} {id victim : InstanceId} {c : CardInstance}
  {d : CardDefinition} {player : Seat} {now : Nat} {amount : Int}

/-- A game that goes on, in which zones and copies agree and nothing in play is dead. -/
structure Steady (s : Session) : Prop where
  going : s.isFinished = false
  tidy : s.Tidy
  alive : s.Alive
  few : s.players.count < Seat.bound

/-- A permanent on the battlefield of a player. -/
structure InPlay (K : Catalog) (s : Session) (player : Seat) (id : InstanceId) (c : CardInstance)
    (d : CardDefinition) : Prop where
  listed : id ∈ s.battlefield player
  copy : s.instance? id = some c
  known : K.get? c.card = some d

theorem InPlay.owner (h : InPlay K s player id c d) (tidy : s.Tidy) :
    c.owner = player ∧ s.zoneOf? id = some .battlefield := by
  obtain ⟨c', hc, own, inPlay⟩ := tidy.of_mem_battlefield h.listed
  cases h.copy.symm.trans hc
  exact ⟨own, inPlay⟩

/-- A permanent in play is a target. -/
theorem InPlay.targetOf? (h : InPlay K s player id c d) (tidy : s.Tidy) :
    s.targetOf? K id = Target.ofCard? d.kind id player := by
  rw [Session.targetOf?, h.copy]
  dsimp only
  rw [h.known, (h.owner tidy).1]

theorem InPlay.cardName (h : InPlay K s player id c d) : s.cardName K id = d.name := by
  rw [Session.cardName, h.copy]
  dsimp only
  rw [h.known]

/-! ### Changes that keep a session steady -/

/-- A sweep leaves the zones tidy. -/
theorem Swept.tidy {fallen : List InstanceId} (h : Swept K now fallen s s') (tidy : s.Tidy)
    (contained : s.Contained none (fun _ => True) s') : s'.Tidy := by
  refine contained.tidy (fun id => ?_) tidy
  rw [h.copies, Option.map_map]
  congr 1
  funext c
  simp only [Function.comp_apply]
  split <;> rfl

theorem Steady.record (h : s.Steady) (e : LogEntry) : (s.record e).Steady :=
  ⟨h.going, ⟨h.tidy.apart, h.tidy.owned⟩, h.alive, h.few⟩

theorem Tidy.modifyInstance {f : CardInstance → CardInstance} (tidy : s.Tidy)
    (keeps : ∀ c, (f c).owner = c.owner) : (s.modifyInstance id f).Tidy := by
  have contained : s.Contained none (fun _ => True) (s.modifyInstance id f) :=
    .of_players rfl ⟨rfl, rfl, rfl, rfl, rfl⟩
  exact contained.tidy (fun _ => map_instance?_modifyInstance s keeps) tidy

/-- The sapping of a creature leaves a game steady. -/
theorem Steady.sap (h : s.Steady) (id : InstanceId) :
    (s.modifyInstance id CardInstance.sap).Steady where
  going := h.going
  tidy := h.tidy.modifyInstance fun _ => rfl
  alive := by
    intro other c hc inPlay
    have zone : (s.modifyInstance id CardInstance.sap).zoneOf? other = s.zoneOf? other :=
      zoneOf?_modifyInstance s fun _ => rfl
    rw [zone] at inPlay
    by_cases same : id = other
    · subst same
      rw [instance?_modifyInstance_self] at hc
      obtain ⟨e, he, rfl⟩ := Option.map_eq_some_iff.mp hc
      exact h.alive id e he inPlay
    · rw [instance?_modifyInstance_of_ne _ _ same] at hc
      exact h.alive other c hc inPlay
  few := h.few

/-! ### Damage and the sweep after it -/

def fallenBy (victim : InstanceId) (c : CardInstance) (amount : Int) : List InstanceId :=
  if c.health ≤ amount then [victim] else []

/-- The victim of a blow falls if the blow takes all its health. -/
theorem mem_fallenBy : id ∈ fallenBy victim c amount ↔ id = victim ∧ c.health ≤ amount := by
  rw [fallenBy]
  split <;> simp_all

/-- What a strike makes of a session: one copy changes, some permanents fall, and it is told. -/
structure Struck (victim : InstanceId) (c : CardInstance) (fallen : List InstanceId)
    (told : List LogEntry) (s s' : Session) : Prop where
  rest : s'.bare = s.bare
  players : ∀ seat, s'.player? seat = (s.player? seat).map fun p =>
    { p with zones := p.zones.bury fallen }
  hit : s'.instance? victim = some c
  others : ∀ id, id ≠ victim → s'.instance? id = s.instance? id
  zones : ∀ id, s'.zoneOf? id = if id ∈ fallen then some .graveyard else s.zoneOf? id
  log : s'.log = s.log ++ told

/-- Nobody strikes. -/
theorem Struck.refl (hc : s.instance? victim = some c) : Struck victim c [] [] s s where
  rest := rfl
  players := by
    intro seat
    simp [Zones.bury_nil]
  hit := hc
  others := fun _ _ => rfl
  zones := by simp
  log := (List.append_nil _).symm

/-- A strike on another permanent leaves one in play as it is. -/
theorem InPlay.after_strike {other : InstanceId} {e : CardInstance} {fallen : List InstanceId}
    {told : List LogEntry} (mine : InPlay K s player id c d)
    (struck : Struck other e fallen told s m) (tidy : s.Tidy) (tidy' : m.Tidy)
    (differ : id ≠ other) (spared : id ∉ fallen) : InPlay K m player id c d := by
  obtain ⟨own, inPlay⟩ := mine.owner tidy
  have copy : m.instance? id = some c := (struck.others id differ).trans mine.copy
  have stays : m.zoneOf? id = some .battlefield := by
    rw [struck.zones, if_neg spared]
    exact inPlay
  exact ⟨tidy'.mem_battlefield_iff.mpr ⟨c, copy, own, stays⟩, copy, mine.known⟩

/-- A batch of one blow hurts its victim and nobody else. -/
theorem applyOperations_damage (going : s.isFinished = false) (hc : s.instance? victim = some c)
    (inPlay : s.zoneOf? victim = some .battlefield) (amount : Int) (now : Nat) :
    (s.applyOperations [.damageCard victim amount] now).2
      = s.modifyInstance victim fun _ => c.takeDamage amount := by
  have may : s.mayAct [] (.damageCard victim amount) = true := by
    simp [mayAct, Operation.card?, onBattlefield, inPlay]
  simp only [applyOperations, List.foldl_cons, List.foldl_nil, applyOne, going, Bool.false_eq_true,
    if_false, may, if_true, perform, hc]

/-- Of all that is in play, only the victim of a blow may be dead. -/
theorem dead_of_damage (steady : s.Steady) (hc : s.instance? victim = some c)
    (inPlay : s.zoneOf? victim = some .battlefield) (nonneg : 0 ≤ amount) :
    (s.modifyInstance victim fun _ => c.takeDamage amount).dead = fallenBy victim c amount := by
  have hurt : (s.modifyInstance victim fun _ => c.takeDamage amount)
      = s.modifyInstance victim fun c => c.takeDamage amount := modifyInstance_congr hc rfl
  rw [hurt]
  have tidy : (s.modifyInstance victim fun c => c.takeDamage amount).Tidy :=
    steady.tidy.modifyInstance fun _ => rfl
  have zone : ∀ id, (s.modifyInstance victim fun c => c.takeDamage amount).zoneOf? id
      = s.zoneOf? id := fun id => zoneOf?_modifyInstance _ fun _ => rfl
  have few : (s.modifyInstance victim fun c => c.takeDamage amount).players.count < Seat.bound :=
    steady.few
  have onlyVictim : ∀ id, id ∈ (s.modifyInstance victim fun c => c.takeDamage amount).dead ↔
      id = victim ∧ c.health ≤ amount := by
    intro id
    rw [mem_dead_iff tidy few, zone]
    by_cases same : victim = id
    · subst same
      rw [instance?_modifyInstance_self, hc]
      have alive := steady.alive victim c hc inPlay
      simp only [Option.map_some, Option.some.injEq, exists_eq_left', inPlay, true_and,
        CardInstance.takeDamage, lessened_of_nonneg nonneg]
      omega
    · rw [instance?_modifyInstance_of_ne _ _ same]
      constructor
      · rintro ⟨e, he, there, noHealth⟩
        have alive := steady.alive id e he there
        omega
      · rintro ⟨rfl, -⟩
        exact absurd rfl same
  rw [fallenBy]
  split
  · rename_i lethal
    refine List.perm_singleton.mp ?_
    refine (List.perm_ext_iff_of_nodup tidy.nodup_dead (List.nodup_singleton _)).mpr fun id => ?_
    rw [onlyVictim, List.mem_singleton, and_iff_left lethal]
  · rename_i spared
    rw [List.eq_nil_iff_forall_not_mem]
    intro id mem
    exact spared ((onlyVictim id).mp mem).2

def blowEntry (striker : Seat) (name : String) (owner : Seat) (victim : InstanceId)
    (d : CardDefinition) (amount : Int) (now : Nat) : LogEntry :=
  { player := striker, action := .damage, amount := some amount
    target := Target.ofCard? d.kind victim owner
    description := name ++ " deals " ++ toString amount ++ " damage to " ++ d.name
    timestamp := now }

variable {ctx : Context}

def strikeEntries (K : Catalog) (striker : Seat) (name : String) (owner : Seat)
    (victim : InstanceId) (c : CardInstance) (d : CardDefinition) (amount : Int) (now : Nat) :
    List LogEntry :=
  blowEntry striker name owner victim d amount now ::
    (fallenBy victim c amount).map fun id => destroyEntry K c id now

theorem length_strikeEntries (striker : Seat) (name : String) (owner : Seat)
    (victim : InstanceId) (c : CardInstance) (d : CardDefinition) (amount : Int) (now : Nat) :
    (strikeEntries K striker name owner victim c d amount now).length
      = (fallenBy victim c amount).length + 1 := by
  rw [strikeEntries, List.length_cons, List.length_map]

/-- A strike logs no failure. -/
theorem calm_strikeEntries {striker owner : Seat} {name : String} {entry : LogEntry}
    (mem : entry ∈ strikeEntries K striker name owner victim c d amount now) :
    entry.action ≠ .failure := by
  rcases List.mem_cons.mp mem with rfl | mem
  · exact nofun
  · obtain ⟨id, -, rfl⟩ := List.mem_map.mp mem
    rw [(destroyEntry_spec K c id now).2]
    exact nofun

/-- What a sweep tells of the victim of a blow. -/
theorem entries_of_fallen {entries : List LogEntry}
    (hurt : m.instance? victim = some (c.takeDamage amount))
    (each : List.Forall₂ (fun id e => ∃ c, m.instance? id = some c ∧ e = destroyEntry K c id now)
      (fallenBy victim c amount) entries) :
    entries = (fallenBy victim c amount).map fun id => destroyEntry K c id now := by
  rw [fallenBy] at each ⊢
  split at each
  · rename_i lethal
    rw [if_pos lethal]
    obtain ⟨e, _, ⟨c', hc', rfl⟩, none, rfl⟩ := List.forall₂_cons_left_iff.mp each
    cases hurt.symm.trans hc'
    cases none
    rfl
  · rename_i spared
    rw [if_neg spared]
    cases each
    rfl

/-- What the sweep after a blow leaves. -/
theorem struck_of_swept {entry : LogEntry} (hc : s.instance? victim = some c)
    (inPlay : s.zoneOf? victim = some .battlefield) (nonneg : 0 ≤ amount)
    (hm : m = (s.record entry).modifyInstance victim fun _ => c.takeDamage amount)
    (swept : Swept K now (fallenBy victim c amount) m s') (apart : s'.Apart) :
    Struck victim (c.afterBlow amount) (fallenBy victim c amount)
      (entry :: (fallenBy victim c amount).map fun id => destroyEntry K c id now) s s' := by
  subst hm
  have hurt : ((s.record entry).modifyInstance victim fun _ => c.takeDamage amount).instance? victim
      = some (c.takeDamage amount) := by
    rw [instance?_modifyInstance_self]
    change (s.instance? victim).map _ = _
    rw [hc]
    rfl
  have spared : ∀ id, id ≠ victim → id ∉ fallenBy victim c amount :=
    fun id other mem => other (mem_fallenBy.mp mem).1
  have zone : ∀ id, ((s.record entry).modifyInstance victim fun _ => c.takeDamage amount).zoneOf? id
      = s.zoneOf? id := by
    intro id
    rw [modifyInstance_congr (g := fun c => c.takeDamage amount) (s := s.record entry) hc rfl]
    exact zoneOf?_modifyInstance _ fun _ => rfl
  refine ⟨swept.rest, swept.players, ?_, ?_, ?_, ?_⟩
  · rw [swept.copies, hurt, Option.map_some]
    by_cases lethal : c.health ≤ amount
    · rw [if_pos (mem_fallenBy.mpr ⟨rfl, lethal⟩), CardInstance.afterBlow_of_lethal lethal]
      rfl
    · rw [if_neg fun mem => lethal (mem_fallenBy.mp mem).2,
        CardInstance.afterBlow_of_spared nonneg (Int.not_le.mp lethal)]
  · intro id other
    rw [swept.copies, instance?_modifyInstance_of_ne _ _ (Ne.symm other)]
    simp only [spared id other, if_false, Option.map_id']
    rfl
  · intro id
    rw [swept.zoneOf? apart, zone]
    intro id mem
    rw [zone, (mem_fallenBy.mp mem).1, inPlay]
  · obtain ⟨entries, log, each⟩ := swept.log
    rw [log, entries_of_fallen hurt each]
    exact List.append_assoc s.log [entry] _

/-- A strike hurts one permanent, sweeps it if it falls, and tells of both. -/
theorem strike_struck (steady : s.Steady) (there : InPlay ctx.catalog s player victim c d)
    (nonneg : 0 ≤ amount) (striker : Seat) (name : String) :
    Struck victim (c.afterBlow amount) (fallenBy victim c amount)
        (strikeEntries ctx.catalog striker name player victim c d amount (ctx.now s))
        s (s.strike ctx striker name victim amount) ∧
      (s.strike ctx striker name victim amount).Steady := by
  obtain ⟨own, inPlay⟩ := there.owner steady.tidy
  rw [strikeEntries]
  generalize told : blowEntry striker name player victim d amount (ctx.now s) = entry
  have steady' : (s.record entry).Steady := steady.record entry
  obtain ⟨m, hm⟩ : ∃ m, m = (s.record entry).modifyInstance victim fun _ => c.takeDamage amount :=
    ⟨_, rfl⟩
  have struck : s.strike ctx striker name victim amount = (m.sweep ctx.catalog (ctx.now s)).2 := by
    rw [strike, if_pos (onBattlefield_iff.mpr inPlay)]
    dsimp only
    rw [there.targetOf? steady.tidy, there.cardName]
    change (s.record (blowEntry striker name player victim d amount (ctx.now s))).settle _ _ _ = _
    rw [told, settle, applyOperations_damage steady'.going there.copy inPlay, hm]
  have fallen : m.dead = fallenBy victim c amount := by
    rw [hm]
    exact dead_of_damage steady' there.copy inPlay nonneg
  have tidy : m.Tidy := by
    have hurt : m = (s.record entry).modifyInstance victim fun c => c.takeDamage amount := by
      rw [hm]
      exact modifyInstance_congr there.copy rfl
    rw [hurt]
    exact steady'.tidy.modifyInstance fun _ => rfl
  have few : m.players.count < Seat.bound := by
    rw [hm]
    exact steady.few
  have swept := sweep_swept tidy ctx.catalog (ctx.now s)
  have contained : m.Contained none (· ∈ m.dead) (m.sweep ctx.catalog (ctx.now s)).2 :=
    sweep_contained ctx.catalog (ctx.now s)
  rw [struck]
  have whole := struck_of_swept there.copy inPlay nonneg hm (fallen ▸ swept)
    (apart_sweep tidy.apart ctx.catalog (ctx.now s))
  refine ⟨whole, ?_, swept.tidy tidy (contained.mono fun _ _ => trivial),
    alive_sweep tidy few ctx.catalog (ctx.now s), ?_⟩
  · change (m.sweep ctx.catalog (ctx.now s)).2.bare.isFinished = false
    rw [whole.rest]
    exact steady.going
  · rw [contained.count]
    exact few

end Session

end CardBattle
