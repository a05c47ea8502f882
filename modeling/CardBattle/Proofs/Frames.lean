import CardBattle.Proofs.Batches
import CardBattle.Proofs.Checks

/-!
# What scripts leave alone

A batch of operations and the sweep after it touch the players within narrow bounds. Cards leave a
deck from the top and a battlefield anywhere, and no zone gains cards from elsewhere. Only
operations for the actor draw cards and gain energy. None of this needs zones and copies to fit
together; where no copy lies twice with a player, every card that leaves one zone arrives in the
next.
-/

namespace CardBattle

namespace Zones

/-- What happens to the zones of a player: `drawn` leaves the deck, first card first, and `fallen`
leaves the battlefield. -/
structure Frame (drawn fallen : List InstanceId) (z w : Zones) : Prop where
  deck : w.deck ++ drawn.reverse = z.deck
  hand : ∃ kept, kept.Sublist drawn ∧ w.hand = z.hand ++ kept
  battlefield : w.battlefield.Sublist z.battlefield
  left : (w.battlefield ++ fallen).Perm z.battlefield
  arrive : z.allInstances.Nodup →
    w.hand = z.hand ++ drawn ∧ w.graveyard = z.graveyard ++ fallen

variable {z w v : Zones} {id : InstanceId} {drawn drawn' fallen fallen' : List InstanceId}

namespace Frame

theorem refl (z : Zones) : Frame [] [] z z where
  deck := List.append_nil _
  hand := ⟨[], .slnil, (List.append_nil _).symm⟩
  battlefield := List.Sublist.refl _
  left := by rw [List.append_nil]
  arrive := fun _ => ⟨(List.append_nil _).symm, (List.append_nil _).symm⟩

/-- Where no card is lost on the way, the player has the same copies as before. -/
theorem perm (h : Frame drawn fallen z w) (apart : z.allInstances.Nodup) :
    w.allInstances.Perm z.allInstances := by
  obtain ⟨hand, graveyard⟩ := h.arrive apart
  rw [List.perm_iff_count]
  intro a
  have deck := congrArg (List.count a) h.deck
  have battlefield := h.left.count_eq a
  simp only [List.count_append, List.count_reverse] at deck battlefield
  simp only [count_allInstances, cards, hand, graveyard, List.count_append]
  omega

/-- Frames are composed by appending what was drawn and what has fallen. -/
theorem trans (h : Frame drawn fallen z w) (h' : Frame drawn' fallen' w v) :
    Frame (drawn ++ drawn') (fallen ++ fallen') z v where
  deck := by rw [List.reverse_append, ← List.append_assoc, h'.deck, h.deck]
  hand := by
    obtain ⟨kept, inOrder, hand⟩ := h.hand
    obtain ⟨kept', inOrder', hand'⟩ := h'.hand
    exact ⟨kept ++ kept', inOrder.append inOrder', by rw [hand', hand, List.append_assoc]⟩
  battlefield := h'.battlefield.trans h.battlefield
  left := by
    have swapped : (v.battlefield ++ (fallen ++ fallen')).Perm
        ((v.battlefield ++ fallen') ++ fallen) := by
      rw [List.append_assoc]
      exact List.perm_append_comm.append_left _
    exact swapped.trans ((h'.left.append_right fallen).trans h.left)
  arrive := by
    intro apart
    obtain ⟨hand, graveyard⟩ := h.arrive apart
    obtain ⟨hand', graveyard'⟩ := h'.arrive ((h.perm apart).nodup_iff.mpr apart)
    rw [hand', hand, graveyard', graveyard, List.append_assoc, List.append_assoc]
    exact ⟨rfl, rfl⟩

/-- The top card leaves the deck, and the hand admits it unless the player has it twice. -/
theorem pop {rest : Zones} (h : z.popTop? .deck = some (id, rest)) :
    Frame [id] [] z ((rest.push? .hand id .top).getD rest) := by
  have last : z.deck.getLast? = some id := getLast?_of_popTop h
  have popped : rest = { z with deck := z.deck.dropLast } := by
    rw [popTop?] at h
    split at h <;> cases h
    rfl
  have deck : z.deck.dropLast ++ [id].reverse = z.deck := List.dropLast_append_getLast? id last
  cases pushed : rest.push? .hand id .top with
  | none =>
    subst popped
    exact {
      deck
      hand := ⟨[], List.nil_sublist _, (List.append_nil _).symm⟩
      battlefield := List.Sublist.refl _
      left := by rw [List.append_nil]; exact List.Perm.refl _
      arrive := by
        intro apart
        cases pushed.symm.trans (push_of_popTop apart h).2 }
  | some w =>
    rw [push?] at pushed
    split at pushed <;> cases pushed
    subst popped
    exact {
      deck
      hand := ⟨[id], List.Sublist.refl _, rfl⟩
      battlefield := List.Sublist.refl _
      left := by rw [List.append_nil]; exact List.Perm.refl _
      arrive := fun _ => ⟨rfl, (List.append_nil _).symm⟩ }

/-- A permanent leaves the battlefield, and the graveyard admits it unless the player has it
twice. -/
theorem fall (mem : id ∈ z.battlefield) (battlefield : w.battlefield = z.battlefield.erase id)
    (deck : w.deck = z.deck) (hand : w.hand = z.hand)
    (arrive : z.allInstances.Nodup → w.graveyard = z.graveyard ++ [id]) :
    Frame [] [id] z w where
  deck := by rw [deck]; exact List.append_nil _
  hand := ⟨[], .slnil, by rw [hand, List.append_nil]⟩
  battlefield := battlefield ▸ List.erase_sublist
  left := by
    rw [battlefield]
    exact (List.perm_append_singleton id _).trans (List.perm_cons_erase mem).symm
  arrive := fun apart => ⟨by rw [hand, List.append_nil], arrive apart⟩

end Frame

/-- A move that is refused leaves a copy that lies elsewhere as well. -/
theorem of_move_refused {source destination : Zone} {left : Zones}
    (h : z.move id source destination .top = .refused left) :
    id ∈ z.cards source ∧ left = z.setCards source ((z.cards source).erase id) ∧
      ¬z.allInstances.Nodup := by
  have mem : id ∈ z.cards source := by
    by_contra absent
    cases h.symm.trans (move_eq_absent_iff.mpr absent)
  refine ⟨mem, ?_, ?_⟩
  · rw [move, remove?] at h
    rw [if_pos mem] at h
    dsimp only at h
    split at h <;> cases h
    rfl
  · intro apart
    cases h.symm.trans (move_of_mem apart mem)

end Zones

structure Player.Frame (drawn fallen : List InstanceId) (p q : Player) : Prop where
  maxHealth : q.maxHealth = p.maxHealth
  maxEnergy : q.maxEnergy = p.maxEnergy
  deckList : q.deckList = p.deckList
  zones : p.zones.Frame drawn fallen q.zones

theorem Player.Frame.trans {p q r : Player} {drawn drawn' fallen fallen' : List InstanceId}
    (h : p.Frame drawn fallen q) (h' : q.Frame drawn' fallen' r) :
    p.Frame (drawn ++ drawn') (fallen ++ fallen') r where
  maxHealth := h'.maxHealth.trans h.maxHealth
  maxEnergy := h'.maxEnergy.trans h.maxEnergy
  deckList := h'.deckList.trans h.deckList
  zones := h.zones.trans h'.zones

theorem Player.Frame.of_zones {p q : Player} (maxHealth : q.maxHealth = p.maxHealth)
    (maxEnergy : q.maxEnergy = p.maxEnergy) (deckList : q.deckList = p.deckList)
    (zones : q.zones = p.zones) : p.Frame [] [] q :=
  ⟨maxHealth, maxEnergy, deckList, zones ▸ Zones.Frame.refl _⟩

/-- Operations that draw cards or gain energy are for the actor. -/
def Operation.For (actor : Option Seat) : Operation → Prop
  | .drawCard player => actor = some player
  | .gainEnergy player _ => actor = some player
  | _ => True

def Invocation.actor? (i : Invocation) : Option Seat :=
  match i.kind with
  | .spell => none
  | .ability => some i.caster

/-- A script queues draws and gains for its actor only. -/
theorem Operation.for_of_admits {sc : Scene} {op : Operation} (h : sc.Admits op) :
    op.For sc.invocation.actor? := by
  cases op with
  | drawCard player =>
    obtain ⟨rfl, ability⟩ := h
    simp only [For, Invocation.actor?, ability, Scene.caster]
  | gainEnergy player amount =>
    obtain ⟨-, rfl, ability⟩ := h
    simp only [For, Invocation.actor?, ability, Scene.caster]
  | _ => trivial

namespace Session

/-- What scripts may do to a session: every player stays within their frame, only permanents that
are `dead` fall, and nobody but the actor draws cards or gains energy. -/
structure Contained (actor : Option Seat) (dead : InstanceId → Prop) (s s' : Session) : Prop where
  sameTurn : SameTurn s s'
  count : s'.players.count = s.players.count
  players : ∀ seat p, s.player? seat = some p → ∃ q drawn fallen, s'.player? seat = some q ∧
    p.Frame drawn fallen q ∧ (∀ id ∈ fallen, dead id) ∧
    (actor ≠ some seat → drawn = [] ∧ q.energy = p.energy)

variable {s s' s'' : Session} {actor : Option Seat} {dead dead' : InstanceId → Prop} {seat : Seat}
  {p q : Player} {id : InstanceId} {now : Nat}

namespace Contained

theorem trans (h : Contained actor dead s s') (h' : Contained actor dead s' s'') :
    Contained actor dead s s'' where
  sameTurn := h.sameTurn.trans h'.sameTurn
  count := h'.count.trans h.count
  players := by
    intro seat p hp
    obtain ⟨q, drawn, fallen, hq, frame, died, idle⟩ := h.players seat p hp
    obtain ⟨r, drawn', fallen', hr, frame', died', idle'⟩ := h'.players seat q hq
    refine ⟨r, drawn ++ drawn', fallen ++ fallen', hr, frame.trans frame', ?_, ?_⟩
    · intro id mem
      exact (List.mem_append.mp mem).elim (died id) (died' id)
    · intro other
      obtain ⟨rfl, energy⟩ := idle other
      obtain ⟨rfl, energy'⟩ := idle' other
      exact ⟨rfl, energy'.trans energy⟩

/-- Containment is weaker if more may die. -/
theorem mono (h : Contained actor dead s s') (weaker : ∀ id, dead id → dead' id) :
    Contained actor dead' s s' where
  sameTurn := h.sameTurn
  count := h.count
  players := by
    intro seat p hp
    obtain ⟨q, drawn, fallen, hq, frame, died, idle⟩ := h.players seat p hp
    exact ⟨q, drawn, fallen, hq, frame, fun id mem => weaker id (died id mem), idle⟩

/-- Changes of anything but players and the turn. -/
theorem of_players (players : s'.players = s.players) (sameTurn : SameTurn s s') :
    Contained actor dead s s' where
  sameTurn
  count := by rw [players]
  players := by
    intro seat p hp
    refine ⟨p, [], [], ?_, .of_zones rfl rfl rfl rfl, nofun,
      fun _ => ⟨rfl, rfl⟩⟩
    rw [player?, players]
    exact hp

theorem refl (s : Session) : Contained actor dead s s :=
  of_players rfl (.refl s)

theorem record (e : LogEntry) : Contained actor dead s (s.record e) :=
  of_players rfl ⟨rfl, rfl, rfl, rfl, rfl⟩

theorem finish (loser : Seat) : Contained actor dead s (s.finish loser now) := by
  refine of_players ?_ sameTurn_finish
  rw [Session.finish]
  split <;> rfl

/-- One player changes within their frame. -/
theorem modifyPlayer {f : Player → Player} {drawn fallen : List InstanceId}
    (hp : s.player? seat = some p) (frame : p.Frame drawn fallen (f p))
    (died : ∀ id ∈ fallen, dead id)
    (idle : actor ≠ some seat → drawn = [] ∧ (f p).energy = p.energy) :
    Contained actor dead s (s.modifyPlayer seat f) where
  sameTurn := ⟨rfl, rfl, rfl, rfl, rfl⟩
  count := count_modifyPlayer _ _
  players := by
    intro other r hr
    obtain ⟨q, hq, ⟨rfl, -⟩ | ⟨rfl, rfl⟩⟩ := player?_modifyPlayer_some seat f hr
    · exact ⟨q, [], [], hq, .of_zones rfl rfl rfl rfl, nofun,
        fun _ => ⟨rfl, rfl⟩⟩
    · cases hp.symm.trans hr
      exact ⟨_, drawn, fallen, hq, frame, died, idle⟩

/-- Without a permanent that may fall, battlefields stay as they are. -/
theorem battlefield (h : Contained actor (fun _ => False) s s') (seat : Seat) :
    s'.battlefield seat = s.battlefield seat := by
  simp only [Session.battlefield]
  cases hp : s.player? seat with
  | none =>
    have out : s'.player? seat = none := by
      have same := h.count
      simp only [player?, SeatMap.get?, SeatMap.count, List.getElem?_eq_none_iff] at hp same ⊢
      omega
    rw [out]
  | some p =>
    obtain ⟨q, drawn, fallen, hq, frame, died, -⟩ := h.players seat p hp
    have none_fell : fallen = [] := List.eq_nil_iff_forall_not_mem.mpr died
    have length := frame.zones.left.length_eq
    rw [none_fell, List.append_nil] at length
    rw [hq]
    exact frame.zones.battlefield.eq_of_length length

end Contained

/-! ### One operation -/

theorem contained_attempt {α : Type} {u : Update α} (atomic : Atomic u)
    (ran : ∀ a s', u s = .ok a s' → Contained actor dead s s') :
    Contained actor dead s (s.attempt u).2 := by
  rcases of_attempt (s := s) atomic with same | ⟨a, done⟩
  · rw [same]
    exact .refl s
  · exact ran a _ done

theorem damagePlayer_contained {amount dealt : Int}
    (h : damagePlayer seat amount now s = .ok dealt s') : Contained actor dead s s' := by
  obtain ⟨p, hp, -, rfl⟩ := damagePlayer_ok_iff.mp h
  have hurt : Contained actor dead s (s.modifyPlayer seat fun _ => p.takeDamage amount) :=
    .modifyPlayer hp (.of_zones rfl rfl rfl rfl) nofun
      fun _ => ⟨rfl, rfl⟩
  split
  · exact hurt.trans (.finish seat)
  · exact hurt

theorem healPlayer_contained {amount healed : Int}
    (h : healPlayer seat amount s = .ok healed s') : Contained actor dead s s' := by
  obtain ⟨p, hp, -, rfl⟩ := healPlayer_ok_iff.mp h
  exact .modifyPlayer hp (.of_zones rfl rfl rfl rfl) nofun
    fun _ => ⟨rfl, rfl⟩

theorem gainEnergy_contained {amount : Int} {u : Unit}
    (h : gainEnergy seat amount now s = .ok u s') : Contained (some seat) dead s s' := by
  obtain ⟨p, hp, rfl⟩ := gainEnergy_ok_iff.mp h
  refine Contained.trans ?_ (.record _)
  exact .modifyPlayer hp (.of_zones rfl rfl rfl rfl) nofun
    fun other => absurd rfl other

theorem drawCard_contained {drawn : Option InstanceId}
    (h : drawCard seat now s = .ok drawn s') : Contained (some seat) dead s s' := by
  rw [drawCard] at h
  split at h
  · cases h
  · rename_i p hp
    split at h
    · cases h
      exact .record _
    · rename_i id rest popped
      cases h
      refine Contained.trans ?_ (.record _)
      exact .modifyPlayer hp ⟨rfl, rfl, rfl, .pop popped⟩
        nofun fun other => absurd rfl other

/-- An operation for the actor is contained. -/
theorem perform_contained {op : Operation} (allowed : op.For actor) (now : Nat) (r : BatchReport) :
    Contained actor dead s (s.perform op now r).2 := by
  cases op with
  | damagePlayer player amount =>
    exact contained_attempt atomic_damagePlayer fun _ _ => damagePlayer_contained
  | healPlayer player amount =>
    exact contained_attempt atomic_healPlayer fun _ _ => healPlayer_contained
  | drawCard player =>
    cases allowed
    exact contained_attempt atomic_drawCard fun _ _ => drawCard_contained
  | gainEnergy player amount =>
    cases allowed
    exact contained_attempt atomic_gainEnergy fun _ _ => gainEnergy_contained
  | log player text => exact .record _
  | damageCard | healCard | destroyCard =>
    -- copies change, and players only in the sweep
    simp only [perform]
    split
    · exact .refl s
    · exact .of_players rfl ⟨rfl, rfl, rfl, rfl, rfl⟩

/-! ### Batches and sweeps -/

theorem applyOne_contained {op : Operation} (allowed : op.For actor) (now : Nat) (r : BatchReport) :
    Contained actor dead s (applyOne now (r, s) op).2 := by
  simp only [applyOne]
  split
  · exact .refl s
  · split
    · exact perform_contained allowed now r
    · exact .refl s

theorem foldl_applyOne_contained (ops : List Operation) (r : BatchReport)
    (allowed : ∀ op ∈ ops, op.For actor) :
    Contained actor dead s (ops.foldl (applyOne now) (r, s)).2 := by
  induction ops generalizing r s with
  | nil => exact .refl s
  | cons op ops ih =>
    rw [List.foldl_cons]
    have first : Contained actor dead s (applyOne now (r, s) op).2 :=
      applyOne_contained (allowed op List.mem_cons_self) now r
    generalize applyOne now (r, s) op = next at first ⊢
    obtain ⟨r', m⟩ := next
    exact first.trans (ih r' fun op' mem => allowed op' (List.mem_cons_of_mem _ mem))

/-- A batch of operations for the actor is contained. -/
theorem applyOperations_contained (now : Nat) {ops : List Operation}
    (allowed : ∀ op ∈ ops, op.For actor) :
    Contained actor dead s (s.applyOperations ops now).2 :=
  foldl_applyOne_contained ops _ allowed

theorem destroy_contained (died : dead id) : Contained actor dead s (s.destroy id).2 := by
  rw [destroy]
  split
  · exact .refl s
  · rename_i c hc
    split
    · exact .refl s
    · rename_i p hp
      have falls : ∀ zones, p.zones.Frame [] [id] zones →
          Contained actor dead s (s.setZones c.owner zones) := by
        intro zones frame
        refine .modifyPlayer hp ⟨rfl, rfl, rfl, frame⟩ ?_ fun _ => ⟨rfl, rfl⟩
        intro other mem
        rw [List.mem_singleton.mp mem]
        exact died
      split
      · exact .refl s
      · rename_i left refused
        obtain ⟨mem, rfl, twice⟩ := Zones.of_move_refused refused
        exact falls _ (.fall mem rfl rfl rfl fun apart => absurd apart twice)
      · rename_i zones moved
        obtain ⟨mem, rfl⟩ := Zones.of_move moved
        have fallen : Contained actor dead s
            (s.setZones c.owner (p.zones.carry id .battlefield .graveyard)) :=
          falls _ (.fall mem rfl rfl rfl fun _ => rfl)
        exact fallen.trans (.of_players rfl ⟨rfl, rfl, rfl, rfl, rfl⟩)

theorem bury_contained (catalog : Catalog) (now : Nat) (died : dead id) :
    Contained actor dead s (bury catalog now s id) := by
  rw [bury]
  split
  · exact .refl s
  · dsimp only
    split
    · exact (destroy_contained died).trans (.record _)
    · exact destroy_contained died

theorem foldl_bury_contained (catalog : Catalog) (now : Nat) (ids : List InstanceId)
    (died : ∀ id ∈ ids, dead id) : Contained actor dead s (ids.foldl (bury catalog now) s) := by
  induction ids generalizing s with
  | nil => exact .refl s
  | cons id ids ih =>
    rw [List.foldl_cons]
    exact (bury_contained catalog now (died id List.mem_cons_self)).trans
      (ih fun other mem => died other (List.mem_cons_of_mem _ mem))

/-- The sweep fells what is dead. -/
theorem sweep_contained (catalog : Catalog) (now : Nat) :
    Contained actor (· ∈ s.dead) s (s.sweep catalog now).2 :=
  foldl_bury_contained catalog now s.dead fun _ mem => mem

/-- A batch for the actor is contained when it is settled, whoever falls. -/
theorem settle_contained (catalog : Catalog) (now : Nat) {ops : List Operation}
    (allowed : ∀ op ∈ ops, op.For actor) :
    Contained actor (fun _ => True) s (s.settle catalog ops now) :=
  (applyOperations_contained now allowed).trans
    ((sweep_contained catalog now).mono fun _ _ => trivial)

end Session

/-! ### Scripts and abilities -/

namespace Context

variable {ctx : Context} {t : Table}

theorem invoke_for {script : Script} {invocation : Invocation} {ops : List Operation}
    (h : (ctx.invoke script invocation t).1 = .completed ops) :
    ∀ op ∈ ops, op.For invocation.actor? := by
  intro op mem
  have ran : script.invoke (ctx.scene t invocation) t.asked
      = (.completed ops, (ctx.invoke script invocation t).2.asked) := Prod.ext h rfl
  exact Operation.for_of_admits (Script.invoke_admits ran op mem)

theorem runAbility_contained (d : CardDefinition) (o : Occasion) (a : Ability) :
    t.session.Contained (some o.player) (fun _ => True) (ctx.runAbility d o a t).2.session := by
  simp only [runAbility]
  split
  · rename_i ops completed
    exact (Session.Contained.record _).trans
      (Session.settle_contained ctx.catalog (ctx.now t.session) (invoke_for completed))
  · exact .record _

theorem runAbilities_contained (d : CardDefinition) (o : Occasion) (abilities : List Ability) :
    t.session.Contained (some o.player) (fun _ => True)
      (ctx.runAbilities d o abilities t).2.session := by
  induction abilities generalizing t with
  | nil => exact .refl _
  | cons a rest ih =>
    rw [runAbilities]
    split
    · exact .refl _
    · exact (runAbility_contained d o a).trans ih

/-- What an event sets off on a card is contained, with the player as actor. -/
theorem triggerCard_contained (event : TriggerEvent) (o : Occasion) :
    t.session.Contained (some o.player) (fun _ => True) (ctx.triggerCard event o t).2.session := by
  rw [triggerCard]
  split
  · exact .refl _
  · split
    · split
      · exact .refl _
      · exact runAbilities_contained _ _ _
    · exact .refl _

end Context

end CardBattle
