import CardBattle.Proofs.LegalAttacks
import CardBattle.Proofs.PlayableCards
import CardBattle.Proofs.Rotation
import CardBattle.Proofs.VisibleState

/-!
# Rules that fail leave no trace

Rules check before they change anything, but not everything that they do after their checks is
checked again: cards are paid for before they are moved, and attackers are sapped before their
targets are looked up. Where every copy lies in one place, which belongs to its owner, nothing after
the checks fails, so that a rule that fails leaves the session as it was. The end of a turn does not
fail at all.
-/

namespace CardBattle

section Rules

variable {ε σ τ α β : Type} {view : σ → τ} {x : EStateM ε σ α} {k : α → EStateM ε σ β} {s : σ}

/-- Where the computation fails from a state, what is seen of the state stays as it was. -/
def Traceless (view : σ → τ) (x : EStateM ε σ α) (s : σ) : Prop :=
  ∀ e s', x s = .error e s' → view s' = view s

/-- What succeeds has no failure that could leave a trace. -/
theorem traceless_of_succeeds (h : ∃ a s', x s = .ok a s') : Traceless view x s := by
  intro e s' failed
  obtain ⟨a, m, done⟩ := h
  cases done.symm.trans failed

theorem traceless_modifyGet (f : σ → α × σ) :
    Traceless view (modifyGet f : EStateM ε σ α) s :=
  nofun

theorem traceless_throw (e : ε) : Traceless view (throw e : EStateM ε σ α) s := by
  rintro _ _ ⟨⟩
  rfl

/-- The first part may change something, but nothing that is seen. -/
theorem traceless_bind (first : Traceless view x s)
    (rest : ∀ a m, x s = .ok a m → view m = view s ∧ Traceless view (k a) m) :
    Traceless view (x >>= k) s := by
  intro e s' h
  rcases bind_error_iff.mp h with failed | ⟨a, m, done, failed⟩
  · exact first e s' failed
  · obtain ⟨same, later⟩ := rest a m done
    exact (later e s' failed).trans same

theorem Update.traceless_check {view : Session → τ} {k : α → Update β} {s : Session}
    {f : Session → Except GameError α} (rest : ∀ a, f s = .ok a → Traceless view (k a) s) :
    Traceless view (Update.check f >>= k) s := by
  refine traceless_bind ?_ fun a m done => ?_
  · intro e s' h
    unfold check at h
    split at h <;> cases h
    rfl
  · obtain ⟨passed, rfl⟩ := check_ok_iff.mp done
    exact ⟨rfl, rest a passed⟩

theorem Play.traceless_check {view : Table → τ} {k : α → Play β} {t : Table}
    {f : Session → Except GameError α} (rest : ∀ a, f t.session = .ok a → Traceless view (k a) t) :
    Traceless view (Play.check f >>= k) t := by
  refine traceless_bind ?_ fun a m done => ?_
  · intro e s' h
    unfold check at h
    split at h <;> cases h
    rfl
  · obtain ⟨passed, rfl⟩ := check_ok_iff.mp done
    exact ⟨rfl, rest a passed⟩

end Rules

namespace Session

variable {ctx : Context} {s s' : Session} {player : Seat} {card : InstanceId} {c : CardInstance}
  {d : CardDefinition} {p : Player}

theorem traceless_payEnergy (cost : Int) : Traceless id (payEnergy player cost) s := by
  intro e s' h
  unfold payEnergy at h
  split at h
  · cases h
    rfl
  · split at h <;> cases h
    rfl

/-- A permanent that cannot be paid for stays in the hand; one that is paid for enters play. -/
theorem traceless_enterPlay (once : p.zones.allInstances.count card ≤ 1)
    (hc : s.instance? card = some c) (hp : s.player? c.owner = some p) (mem : card ∈ p.zones.hand) :
    Traceless id (enterPlay ctx c.owner card d) s := by
  by_cases afford : d.cost ≤ p.energy
  · obtain ⟨s', entered⟩ := (enterPlay_ok_iff once hc hp mem).mpr afford
    exact traceless_of_succeeds ⟨_, s', entered⟩
  · refine traceless_bind (traceless_payEnergy d.cost) fun _ m paid => ?_
    exact absurd (cost_le_of_paid hp paid) afford

/-- A deck is noted down last, when every check is passed. -/
theorem traceless_submitDeck (catalog : Catalog) (player : Seat) (deck : List CardId) :
    Traceless id (submitDeck catalog player deck) s := by
  unfold submitDeck
  dsimp only
  refine Update.traceless_check fun _ _ => Update.traceless_check fun p _ => ?_
  split
  · exact traceless_bind (traceless_throw _) nofun
  split
  · exact traceless_bind (traceless_throw _) nofun
  · exact Update.traceless_check fun _ _ => traceless_of_succeeds ⟨_, _, rfl⟩

end Session

namespace Play

open Session

variable {ctx : Context} {t : Table} {player target : Seat} {card attacker defender : InstanceId}

abbrev Clean {α : Type} (x : Play α) (t : Table) : Prop :=
  Traceless (·.session) x t

/-- An update that leaves no trace in the session leaves none at the table. -/
theorem clean_update {α : Type} {u : Update α} (h : Traceless id u t.session) :
    Clean (update u) t := by
  intro e t' failed
  unfold update at failed
  split at failed <;> cases failed
  rename_i s' ran
  exact h _ s' ran

/-- A copy that passed the check for the hand lies there, and nowhere else. -/
theorem of_hand {c : CardInstance} (placed : t.session.Placed)
    (own : requireOwnedIn player card .hand t.session = .ok c) :
    t.session.instance? card = some c ∧ c.owner = player ∧ ∃ p,
      t.session.player? c.owner = some p ∧ p.zones.allInstances.count card ≤ 1 ∧
      card ∈ p.zones.hand := by
  obtain ⟨hc, owner, inHand⟩ := requireOwnedIn_ok_iff.mp own
  obtain ⟨c', p, hc', hp, found⟩ := zoneOf?_eq_some_iff.mp inHand
  cases hc.symm.trans hc'
  exact ⟨hc, owner, p, hp, placed.once hc hp, Zones.mem_of_locate found⟩

/-- The script of a spell runs before anything is paid, and the price was checked before it. -/
theorem castSpell_clean (placed : t.session.Placed) : Clean (castSpell ctx player card) t := by
  unfold castSpell
  refine traceless_check fun _ _ => traceless_check fun c own => traceless_check fun d _ =>
    traceless_check fun script spell => ?_
  refine traceless_bind (traceless_modifyGet _) fun outcome m ran => ?_
  have same : m.session = t.session := by
    rw [← (modifyGet_ok_iff.mp ran).2]
    exact Context.session_invoke
  refine ⟨same, ?_⟩
  obtain ⟨hc, rfl, p, hp, once, mem⟩ := of_hand placed own
  obtain ⟨-, ⟨q, hq, afford⟩, -⟩ := requireSpell_ok_iff.mp spell
  cases hp.symm.trans hq
  cases outcome with
  | completed ops =>
    obtain ⟨s', resolved⟩ : ∃ s', resolveSpell ctx c.owner card d ops t.session = .ok () s' :=
      (resolveSpell_ok_iff once hc hp mem).mpr afford
    refine traceless_of_succeeds ⟨(), _, update_ok_iff.mpr ⟨s', ?_, rfl⟩⟩
    rw [same]
    exact resolved
  | declined => exact traceless_throw _
  | failed error => exact traceless_throw _

theorem playCard_clean (placed : t.session.Placed) : Clean (playCard ctx player card) t := by
  unfold playCard
  refine traceless_check fun _ _ => traceless_check fun c own => traceless_check fun d _ => ?_
  obtain ⟨hc, rfl, p, hp, once, mem⟩ := of_hand placed own
  split
  · exact castSpell_clean placed
  · intro e t' h
    rcases bind_error_iff.mp h with failed | ⟨_, m, -, fires⟩
    · exact clean_update (traceless_enterPlay once hc hp mem) e t' failed
    · cases fires

/-- An attack that its checks admit is carried out, whatever abilities it sets off. -/
theorem attackPlayerWith_clean : Clean (attackPlayerWith ctx player attacker target) t := by
  unfold attackPlayerWith
  refine traceless_check fun d ready => traceless_check fun _ legal => ?_
  obtain ⟨-, ⟨c, hc, -, -, -, hd⟩, -⟩ := requireAttacker_ok_iff.mp ready
  obtain ⟨p, hp⟩ := player?_of_legal legal
  obtain ⟨t', done⟩ := attackPlayer_succeeds hc hd hp
  exact traceless_of_succeeds ⟨(), t', done⟩

theorem attackCardWith_clean : Clean (attackCardWith ctx player attacker defender) t := by
  unfold attackCardWith
  refine traceless_check fun d ready => traceless_check fun target makes =>
    traceless_check fun _ _ => ?_
  obtain ⟨-, ⟨c, hc, -, -, -, hd⟩, -⟩ := requireAttacker_ok_iff.mp ready
  obtain ⟨e, f, he, hf, -⟩ := targetOf?_eq_some_iff.mp (requireAttackable_ok_iff.mp makes)
  obtain ⟨t', done⟩ := attackCard_succeeds hc hd he hf
  exact traceless_of_succeeds ⟨(), t', done⟩

/-- A healing of creatures that fails leaves everything as it was. -/
theorem healCreatures_clean (amount : Int) : Clean (healCreatures ctx player amount) t := by
  unfold healCreatures
  refine traceless_check fun _ _ => ?_
  split
  · exact traceless_bind (traceless_throw _) nofun
  · exact traceless_check fun p _ => traceless_of_succeeds ⟨_, _, rfl⟩

/-- A rule that fails on a session whose copies lie in one place each, with their owners, leaves the
session as it was, and the turn of a player at the table can always be ended. -/
theorem rules_traceless (ctx : Context) (t : Table) (placed : t.session.Placed) :
    (∀ player card, Clean (playCard ctx player card) t) ∧
    (∀ player card, Clean (castSpell ctx player card) t) ∧
    (∀ player attacker target, Clean (attackPlayerWith ctx player attacker target) t) ∧
    (∀ player attacker defender, Clean (attackCardWith ctx player attacker defender) t) ∧
    (∀ player amount, Clean (healCreatures ctx player amount) t) ∧
    (∀ player deck, Clean (update (submitDeck ctx.catalog player deck)) t) ∧
    (t.session.status = .playing → t.session.players.contains t.session.current = true →
      ∃ t', endTurn ctx t = .ok () t') :=
  ⟨fun _ _ => playCard_clean placed, fun _ _ => castSpell_clean placed,
    fun _ _ _ => attackPlayerWith_clean, fun _ _ _ => attackCardWith_clean,
    fun _ amount => healCreatures_clean amount,
    fun player deck => clean_update (traceless_submitDeck ctx.catalog player deck),
    endTurn_succeeds⟩

def hasty : Context :=
  { arena with config := { stepBudget := 1 } }

/-- A bolt that runs out of steps is not cast, Bob's wisp is not played by Ann, and her turn can be
ended. -/
theorem showdown_traceless : showdown.Placed ∧
    (∃ e t', castSpell hasty ⟨0⟩ ⟨1⟩ ⟨showdown, []⟩ = .error e t' ∧ t'.session = showdown) ∧
    (∃ e t', playCard hasty ⟨0⟩ ⟨2⟩ ⟨showdown, []⟩ = .error e t' ∧ t'.session = showdown) ∧
    ∃ t', endTurn hasty ⟨showdown, []⟩ = .ok () t' := by
  have placed : showdown.Placed := by decide +kernel
  have cut : castSpell hasty ⟨0⟩ ⟨1⟩ ⟨showdown, []⟩
      = .error (.script "Bolt" (.budgetExhausted 1)) ⟨showdown, []⟩ := rfl
  have refused : playCard hasty ⟨0⟩ ⟨2⟩ ⟨showdown, []⟩
      = .error (.notOwner ⟨0⟩ ⟨2⟩) ⟨showdown, []⟩ := rfl
  obtain ⟨plays, casts, -, -, -, -, ends⟩ := rules_traceless hasty ⟨showdown, []⟩ placed
  exact ⟨placed, ⟨_, _, cut, casts ⟨0⟩ ⟨1⟩ _ _ cut⟩, ⟨_, _, refused, plays ⟨0⟩ ⟨2⟩ _ _ refused⟩,
    ends rfl (by decide)⟩

end Play

end CardBattle
