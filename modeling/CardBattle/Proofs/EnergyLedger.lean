import CardBattle.Proofs.Accepted
import CardBattle.Proofs.Playing
import CardBattle.Proofs.StepsAsMotions

/-!
# The energy ledger

Energy is paid when a card leaves the hand and gained by scripts, up to the greatest. Both are
logged with an amount. Within a turn the energy of every player can be worked out from these
entries alone, whoever's abilities ran in between: the log is a ledger of energy.
-/

namespace CardBattle

def LogAction.movesEnergy : LogAction → Bool
  | .gainEnergy | .playCard | .castSpell => true
  | _ => false

def totalOf (player : Seat) (actions : List LogAction) : List LogEntry → Int
  | [] => 0
  | e :: rest =>
    if e.player = player ∧ e.action ∈ actions then
      e.amount.getD 0 + totalOf player actions rest
    else totalOf player actions rest

section Totals

variable {player : Seat} {actions : List LogAction} {entries : List LogEntry} {e : LogEntry}

/-- The total of two lists of entries is the sum of their totals. -/
theorem totalOf_append (player : Seat) (actions : List LogAction)
    (entries entries' : List LogEntry) : totalOf player actions (entries ++ entries')
      = totalOf player actions entries + totalOf player actions entries' := by
  induction entries with
  | nil => exact (Int.zero_add _).symm
  | cons e rest ih =>
    simp only [List.cons_append, totalOf, ih]
    split
    · exact (Int.add_assoc _ _ _).symm
    · rfl

theorem totalOf_other (other : ∀ e ∈ entries, e.player ≠ player ∨ e.action ∉ actions) :
    totalOf player actions entries = 0 := by
  induction entries with
  | nil => rfl
  | cons e rest ih =>
    have skipped : ¬(e.player = player ∧ e.action ∈ actions) := by
      rintro ⟨about, mem⟩
      rcases other e List.mem_cons_self with ne | out
      · exact ne about
      · exact out mem
    rw [totalOf, if_neg skipped]
    exact ih fun e' mem => other e' (List.mem_cons_of_mem e mem)

theorem totalOf_entry {amount : Int} (about : e.player = player) (mem : e.action ∈ actions)
    (named : e.amount = some amount) : totalOf player actions [e] = amount := by
  rw [totalOf, if_pos ⟨about, mem⟩, named]
  exact Int.add_zero amount

end Totals

/-- What entries say of the energy of a player: gains come in and payments go out. -/
structure Player.Settles (seat : Seat) (entries : List LogEntry) (p q : Player) : Prop where
  maxEnergy : q.maxEnergy = p.maxEnergy
  energy : q.energy - p.energy
    = totalOf seat [.gainEnergy] entries - totalOf seat LogAction.payments entries

namespace Player.Settles

variable {p q r : Player} {seat : Seat} {entries entries' : List LogEntry}

/-- Entries that move no energy settle with an unchanged player. -/
theorem of_same (quiet : ∀ e ∈ entries, e.player ≠ seat ∨ e.action.movesEnergy = false)
    (energy : q.energy = p.energy) (maxEnergy : q.maxEnergy = p.maxEnergy) :
    Settles seat entries p q where
  maxEnergy
  energy := by
    have none : ∀ actions : List LogAction, (∀ a ∈ actions, a.movesEnergy = true) →
        totalOf seat actions entries = 0 := by
      intro actions moving
      refine totalOf_other fun e mem => (quiet e mem).imp_right fun still inside => ?_
      rw [moving _ inside] at still
      cases still
    rw [none [.gainEnergy] (by decide), none LogAction.payments (by decide), energy]
    omega

/-- Accounts that settle one after another settle together. -/
theorem trans (h : Settles seat entries p q) (h' : Settles seat entries' q r) :
    Settles seat (entries ++ entries') p r where
  maxEnergy := h'.maxEnergy.trans h.maxEnergy
  energy := by
    have first := h.energy
    have second := h'.energy
    rw [totalOf_append, totalOf_append]
    omega

/-- One entry that says what was gained. -/
theorem gain {e : LogEntry} {amount : Int} (about : e.player = seat)
    (action : e.action = .gainEnergy) (named : e.amount = some amount)
    (energy : q.energy - p.energy = amount) (maxEnergy : q.maxEnergy = p.maxEnergy) :
    Settles seat [e] p q where
  maxEnergy
  energy := by
    have gained : totalOf seat [.gainEnergy] [e] = amount :=
      totalOf_entry about (by rw [action]; decide) named
    have paid : totalOf seat LogAction.payments [e] = 0 := by
      refine totalOf_other fun e' mem => Or.inr ?_
      rw [List.mem_singleton.mp mem, action]
      decide
    rw [gained, paid, energy, Int.sub_zero]

/-- One entry that says what was paid. -/
theorem pay {e : LogEntry} {amount : Int} (about : e.player = seat)
    (action : e.action ∈ LogAction.payments) (named : e.amount = some amount)
    (energy : p.energy - q.energy = amount) (maxEnergy : q.maxEnergy = p.maxEnergy) :
    Settles seat [e] p q where
  maxEnergy
  energy := by
    have gained : totalOf seat [.gainEnergy] [e] = 0 := by
      refine totalOf_other fun e' mem => Or.inr ?_
      rw [List.mem_singleton.mp mem, List.mem_singleton]
      intro gain
      rw [gain] at action
      exact absurd action (by decide)
    have paid : totalOf seat LogAction.payments [e] = amount := totalOf_entry about action named
    rw [gained, paid]
    omega

end Player.Settles

namespace Session

def Ledger (s s' : Session) : Prop :=
  ∃ entries, s'.log = s.log ++ entries ∧
    (∀ e ∈ entries, e.action.movesEnergy = true → e.amount.isSome = true) ∧
    ∀ seat p, s.player? seat = some p → ∃ q, s'.player? seat = some q ∧ p.Settles seat entries q

variable {K : Catalog} {s s' s'' : Session} {player : Seat} {p : Player} {e : LogEntry}

namespace Ledger

theorem trans (h : Ledger s s') (h' : Ledger s' s'') : Ledger s s'' := by
  obtain ⟨entries, log, named, players⟩ := h
  obtain ⟨entries', log', named', players'⟩ := h'
  refine ⟨entries ++ entries', by rw [log', log, List.append_assoc], ?_, ?_⟩
  · intro e mem
    exact (List.mem_append.mp mem).elim (named e) (named' e)
  · intro seat p hp
    obtain ⟨q, hq, settles⟩ := players seat p hp
    obtain ⟨r, hr, settles'⟩ := players' seat q hq
    exact ⟨r, hr, settles.trans settles'⟩

/-- Entries that move no energy, while all players stay as they are. -/
theorem of_players (players : s'.players = s.players)
    (quiet : Logs (·.movesEnergy = false) s s') : Ledger s s' := by
  obtain ⟨entries, log, still⟩ := quiet
  refine ⟨entries, log, ?_, ?_⟩
  · intro e mem moves
    rw [still e mem] at moves
    cases moves
  · intro seat p hp
    refine ⟨p, by rw [player?, players]; exact hp, ?_⟩
    exact .of_same (fun e mem => Or.inr (still e mem)) rfl rfl

theorem refl (s : Session) : Ledger s s :=
  of_players rfl (.of_same rfl)

theorem record (still : e.action.movesEnergy = false) : Ledger s (s.record e) :=
  of_players rfl (.of_entry rfl still)

/-- One player changes, and keeps their energy. -/
theorem modifyPlayer {f : Player → Player}
    (keeps : ∀ p, s.player? player = some p →
      (f p).energy = p.energy ∧ (f p).maxEnergy = p.maxEnergy) :
    Ledger s (s.modifyPlayer player f) := by
  have quiet : ∀ e ∈ ([] : List LogEntry), e.action.movesEnergy = false :=
    fun _ mem => absurd mem List.not_mem_nil
  refine ⟨[], (List.append_nil _).symm, fun e mem => absurd mem List.not_mem_nil, ?_⟩
  intro seat p hp
  obtain ⟨q, hq, ⟨rfl, -⟩ | ⟨rfl, rfl⟩⟩ := player?_modifyPlayer_some player f hp
  · exact ⟨q, hq, .of_same (fun e mem => Or.inr (quiet e mem)) rfl rfl⟩
  · obtain ⟨energy, maxEnergy⟩ := keeps p hp
    exact ⟨f p, hq, .of_same (fun e mem => Or.inr (quiet e mem)) energy maxEnergy⟩

theorem setZones (player : Seat) (zones : Zones) : Ledger s (s.setZones player zones) :=
  modifyPlayer fun _ _ => ⟨rfl, rfl⟩

theorem at_player {f : Player → Player} (hp : s.player? player = some p)
    (energy : (f p).energy = p.energy) (maxEnergy : (f p).maxEnergy = p.maxEnergy) :
    Ledger s (s.modifyPlayer player f) := by
  refine modifyPlayer fun p' hp' => ?_
  cases hp.symm.trans hp'
  exact ⟨energy, maxEnergy⟩

/-- The energy of one player moves, and one entry about that player says by how much. -/
theorem transfer {f : Player → Player} {amount : Int} (about : e.player = player)
    (named : e.amount = some amount)
    (mine : ∀ p, s.player? player = some p → p.Settles player [e] (f p)) :
    Ledger s ((s.modifyPlayer player f).record e) := by
  refine ⟨[e], rfl, ?_, ?_⟩
  · intro e' mem _
    rw [List.mem_singleton.mp mem, named]
    rfl
  · intro seat p hp
    obtain ⟨q, hq, ⟨rfl, other⟩ | ⟨rfl, rfl⟩⟩ := player?_modifyPlayer_some player f hp
    · refine ⟨q, hq, .of_same (fun e' mem => Or.inl ?_) rfl rfl⟩
      rw [List.mem_singleton.mp mem, about]
      exact other
    · exact ⟨f p, hq, mine p hp⟩

/-- The end of a game costs nobody energy. -/
theorem finish {loser : Seat} {now : Nat} : Ledger s (s.finish loser now) := by
  rw [Session.finish]
  split
  · exact .refl s
  · exact of_players rfl (.of_entry rfl rfl)

end Ledger

/-- A gain is logged as what it really added. -/
theorem gainEnergy_ledger {amount : Int} {now : Nat} {u : Unit}
    (h : gainEnergy player amount now s = .ok u s') : Ledger s s' := by
  obtain ⟨p, hp, rfl⟩ := gainEnergy_ok_iff.mp h
  refine .transfer rfl rfl fun p' hp' => ?_
  cases hp.symm.trans hp'
  exact .gain rfl rfl rfl rfl rfl

/-- A payment is logged as the cost of the card, which is never negative. -/
theorem charge_ledger {cost : Int} (least : 0 ≤ cost) (about : e.player = player)
    (action : e.action ∈ LogAction.payments) (named : e.amount = some cost) :
    Ledger s ((s.charge player cost).record e) := by
  refine .transfer about named fun p _ => .pay about action named ?_ rfl
  dsimp only
  omega

/-- Every motion is accounted for. -/
theorem Motion.ledger (valid : ∀ card d, K.get? card = some d → d.fault? = none)
    (h : Motion K s s') : Ledger s s' := by
  cases h with
  | write e plain =>
    refine .record ?_
    rcases plain with plain | burial
    · cases action : e.action <;> rw [action] at plain <;> cases plain <;> rfl
    · rw [burial]
      rfl
  | @hurt _ player amount _ _ h =>
    obtain ⟨p, hp, -, rfl⟩ := damagePlayer_ok_iff.mp h
    have hurt : Ledger s (s.modifyPlayer player fun _ => p.takeDamage amount) :=
      .at_player hp rfl rfl
    split
    · exact hurt.trans .finish
    · exact hurt
  | mend h =>
    obtain ⟨p, hp, -, rfl⟩ := healPlayer_ok_iff.mp h
    exact .at_player hp rfl rfl
  | gain h => exact gainEnergy_ledger h
  | draw h =>
    rw [drawCard] at h
    split at h
    · cases h
    · split at h <;> cases h
      · exact .record rfl
      · exact (Ledger.setZones _ _).trans (.record rfl)
  | pay hd by_owner action cost =>
    have least := (CardDefinition.of_fault?_eq_none (valid _ _ hd)).1
    exact charge_ledger least by_owner action cost
  | lay player zones => exact .setZones player zones
  | copy instances => exact .of_players rfl (.of_same rfl)

/-- The log accounts for the energy over any number of motions. -/
theorem Motions.ledger (valid : ∀ card d, K.get? card = some d → d.fault? = none)
    (h : Motions K s s') : Ledger s s' := by
  induction h with
  | refl => exact .refl s
  | tail _ motion ih => exact ih.trans (motion.ledger valid)

end Session

namespace Call

/-- Within a turn the energy of every player changes by what the new entries say they gained less
what they say was paid, and the greatest energy not at all. -/
theorem energy_accounted (call : Call) (ctx : Context) (t t' : Table)
    (playing : t.session.status = .playing)
    (valid : ∀ card d, ctx.catalog.get? card = some d → d.fault? = none)
    (sameTurn : ∀ player, call ≠ .endTurn player) (h : call.play ctx t = .ok () t') :
    ∃ entries, t'.session.log = t.session.log ++ entries ∧
      (∀ e ∈ entries, e.action.movesEnergy = true → e.amount.isSome = true) ∧
      ∀ seat p, t.session.player? seat = some p → ∃ q, t'.session.player? seat = some q ∧
        q.energy - p.energy = totalOf seat [.gainEnergy] entries
          - totalOf seat [.playCard, .castSpell] entries ∧
        q.maxEnergy = p.maxEnergy := by
  have known : ctx.catalog.Within ctx.catalog := fun _ _ hd => hd
  have steps := steps_of_play known playing sameTurn h
  obtain ⟨entries, log, named, players⟩ := steps.motions.ledger valid
  refine ⟨entries, log, named, fun seat p hp => ?_⟩
  obtain ⟨q, hq, settles⟩ := players seat p hp
  exact ⟨q, hq, settles.energy, settles.maxEnergy⟩

/-- A spring gives five energy when it is played, as far as there is room for it. -/
def oasis : Context :=
  { arena with
    catalog := .ofList [.creature ⟨2⟩ "Wisp" 1 1 1,
      { CardDefinition.creature ⟨3⟩ "Spring" 1 0 2 with
        abilities := [⟨.playCard, ⟨[.gainEnergy (.int 5)]⟩, "Flow"⟩] }] }

/-- Ann plays a spring with her last energy, and gains back one of five. -/
theorem oasis_accounted : ∃ t' entries q,
    (Call.playCard ⟨0⟩ ⟨5⟩).play oasis ⟨Session.showdown, []⟩ = .ok () t' ∧
    t'.session.log = Session.showdown.log ++ entries ∧ t'.session.player? ⟨0⟩ = some q ∧
    totalOf ⟨0⟩ [.gainEnergy] entries = 1 ∧ totalOf ⟨0⟩ [.playCard, .castSpell] entries = 1 ∧
    q.energy = 1 ∧ q.maxEnergy = 1 := by
  have valid : oasis.catalog.Sound := (Catalog.sound_empty.insert rfl).insert rfl
  have totals : ((Call.playCard ⟨0⟩ ⟨5⟩).play oasis >>= fun _ => Play.view fun s =>
      (totalOf ⟨0⟩ [.gainEnergy] s.log, totalOf ⟨0⟩ [.playCard, .castSpell] s.log)).run'
        ⟨Session.showdown, []⟩ = some (1, 1) := by
    decide +kernel
  obtain ⟨t, ran⟩ := run'_eq_some_iff.mp totals
  obtain ⟨_, t', ran, viewed⟩ := bind_ok_iff.mp ran
  obtain ⟨gained, paid⟩ := Prod.mk.inj (Play.view_ok_iff.mp viewed).1
  obtain ⟨entries, log, -, players⟩ := energy_accounted (.playCard ⟨0⟩ ⟨5⟩) oasis
    ⟨Session.showdown, []⟩ t' rfl (fun card d hd => (valid card d hd).2) (by simp) ran
  obtain ⟨q, hq, energy, maxEnergy⟩ := players ⟨0⟩ _ rfl
  have all : t'.session.log = entries := log
  rw [all] at gained paid
  rw [gained, paid] at energy
  have back : q.energy - 1 = 1 - 1 := energy
  exact ⟨t', entries, q, ran, log, hq, gained, paid, by omega, maxEnergy⟩

end Call

end CardBattle
