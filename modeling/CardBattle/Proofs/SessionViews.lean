import CardBattle.Proofs.KeyMapEntries
import CardBattle.Proofs.ZoneMoves
import CardBattle.Session.Basic

/-!
# Looking at a changed session

Rules look at a session through its players, its copies and the zone of a copy. For each way of
changing a session: what these three views show afterwards.
-/

namespace CardBattle

theorem InstanceId.number_ne {a b : InstanceId} (h : a ≠ b) : a.number ≠ b.number := by
  intro e
  apply h
  cases a
  cases b
  simp_all

namespace Session

variable (s : Session) {id other : InstanceId} {player seat : Seat}

/-! ### Changes that touch neither players nor copies -/

@[simp] theorem zoneOf?_record (e : LogEntry) : (s.record e).zoneOf? id = s.zoneOf? id := rfl

@[simp] theorem log_record (e : LogEntry) : (s.record e).log = s.log ++ [e] := rfl

/-- Where a copy lies is decided by the zones of its owner. -/
theorem zoneOf?_eq_bind : s.zoneOf? id = ((s.instance? id).map (·.owner)).bind fun seat =>
    ((s.player? seat).map (·.zones)).bind fun z => z.locate id := by
  unfold zoneOf?
  cases s.instance? id with
  | none => rfl
  | some c =>
    cases hp : s.player? c.owner with
    | none => simp [hp]
    | some p => simp [hp]

/-- The zone of a copy depends on its owner and on the zones of that player only. -/
theorem zoneOf?_congr {s s' : Session} {id : InstanceId}
    (owner : (s'.instance? id).map (·.owner) = (s.instance? id).map (·.owner))
    (zones : ∀ seat, (s'.player? seat).map (·.zones) = (s.player? seat).map (·.zones)) :
    s'.zoneOf? id = s.zoneOf? id := by
  rw [zoneOf?_eq_bind, zoneOf?_eq_bind, owner]
  simp only [zones]

/-! ### Players -/

/-- Players are those who have a seat. -/
theorem mem_players_iff {s : Session} {p : Player} :
    p ∈ s.players.data ↔ ∃ seat, s.player? seat = some p := by
  rw [List.mem_iff_getElem?]
  constructor
  · rintro ⟨i, hi⟩
    exact ⟨⟨i⟩, hi⟩
  · rintro ⟨seat, hp⟩
    exact ⟨seat.index, hp⟩

@[simp] theorem player?_modifyPlayer_self (f : Player → Player) :
    (s.modifyPlayer player f).player? player = (s.player? player).map f :=
  SeatMap.get?_modify_self _ _ _

theorem player?_modifyPlayer_of_ne (f : Player → Player) (ne : player ≠ seat) :
    (s.modifyPlayer player f).player? seat = s.player? seat :=
  SeatMap.get?_modify_of_ne _ _ ne

@[simp] theorem count_modifyPlayer (f : Player → Player) :
    (s.modifyPlayer player f).players.count = s.players.count :=
  SeatMap.count_modify _ _ _

/-- A player after a change is a player from before, changed if in that seat. -/
theorem of_player?_modifyPlayer {s : Session} {f : Player → Player} {q : Player}
    (h : (s.modifyPlayer player f).player? seat = some q) :
    ∃ p, s.player? seat = some p ∧ (q = p ∧ player ≠ seat ∨ q = f p ∧ player = seat) := by
  by_cases same : player = seat
  · subst same
    rw [player?_modifyPlayer_self] at h
    obtain ⟨p, hp, rfl⟩ := Option.map_eq_some_iff.mp h
    exact ⟨p, hp, Or.inr ⟨rfl, rfl⟩⟩
  · rw [player?_modifyPlayer_of_ne _ _ same] at h
    exact ⟨q, h, Or.inl ⟨rfl, same⟩⟩

/-- A player who was there is still there when somebody was changed. -/
theorem player?_modifyPlayer_some {s : Session} (player : Seat) (f : Player → Player) {p : Player}
    (h : s.player? seat = some p) : ∃ q, (s.modifyPlayer player f).player? seat = some q ∧
      (q = p ∧ player ≠ seat ∨ q = f p ∧ player = seat) := by
  by_cases same : player = seat
  · subst same
    exact ⟨f p, by rw [player?_modifyPlayer_self, h]; rfl, Or.inr ⟨rfl, rfl⟩⟩
  · exact ⟨p, by rw [player?_modifyPlayer_of_ne _ _ same, h], Or.inl ⟨rfl, same⟩⟩

/-- Copies stay in place while players keep their zones. -/
theorem zoneOf?_modifyPlayer {f : Player → Player} (keeps : ∀ p, (f p).zones = p.zones) :
    (s.modifyPlayer player f).zoneOf? id = s.zoneOf? id := by
  refine zoneOf?_congr (by rfl) ?_
  intro seat
  by_cases same : player = seat
  · subst same
    rw [player?_modifyPlayer_self, Option.map_map]
    congr 1
    funext p
    exact keeps p
  · rw [player?_modifyPlayer_of_ne _ _ same]

def Keeps {α : Type} (view : Player → α) (s s' : Session) : Prop :=
  ∀ seat q, s'.player? seat = some q → ∃ p, s.player? seat = some p ∧ view q = view p

namespace Keeps

variable {α : Type} {view : Player → α} {s s' s'' : Session}

theorem of_players (same : s'.players = s.players) : Keeps view s s' :=
  fun seat q hq => ⟨q, by rw [player?, ← same]; exact hq, rfl⟩

theorem trans (h : Keeps view s s') (h' : Keeps view s' s'') : Keeps view s s'' := by
  intro seat r hr
  obtain ⟨q, hq, rq⟩ := h' seat r hr
  obtain ⟨p, hp, qp⟩ := h seat q hq
  exact ⟨p, hp, rq.trans qp⟩

theorem modifyPlayer {f : Player → Player}
    (keeps : ∀ p, s.player? player = some p → view (f p) = view p) :
    Keeps view s (s.modifyPlayer player f) := by
  intro seat q hq
  obtain ⟨p, hp, ⟨rfl, -⟩ | ⟨rfl, rfl⟩⟩ := of_player?_modifyPlayer hq
  · exact ⟨q, hp, rfl⟩
  · exact ⟨p, hp, keeps p hp⟩

/-- Only what a change makes of the player in the seat counts. -/
theorem modifyPlayer_at {f : Player → Player} {p : Player} (hp : s.player? player = some p)
    (keeps : view (f p) = view p) : Keeps view s (s.modifyPlayer player f) := by
  refine modifyPlayer fun q hq => ?_
  cases hp.symm.trans hq
  exact keeps

end Keeps

/-- Two changes that make the same of the player in the seat are one. -/
theorem modifyPlayer_congr {s : Session} {f g : Player → Player} {p : Player}
    (h : s.player? player = some p) (same : f p = g p) :
    s.modifyPlayer player f = s.modifyPlayer player g := by
  have data : s.players.data.modify player.index f = s.players.data.modify player.index g := by
    apply List.ext_getElem?
    intro i
    simp only [List.getElem?_modify]
    by_cases hi : player.index = i
    · subst hi
      have hp : s.players.data[player.index]? = some p := h
      simp [hp, same]
    · simp [hi]
  simp only [modifyPlayer, SeatMap.modify, data]

/-! ### Copies -/

@[simp] theorem player?_modifyInstance (f : CardInstance → CardInstance) :
    (s.modifyInstance id f).player? seat = s.player? seat := rfl

@[simp] theorem instance?_modifyInstance_self (f : CardInstance → CardInstance) :
    (s.modifyInstance id f).instance? id = (s.instance? id).map f :=
  KeyMap.get?_modify_self _ _ _

theorem instance?_modifyInstance_of_ne (f : CardInstance → CardInstance) (ne : id ≠ other) :
    (s.modifyInstance id f).instance? other = s.instance? other :=
  KeyMap.get?_modify_of_ne _ _ (InstanceId.number_ne ne)

/-- What a change keeps of a copy, it keeps of all copies. -/
theorem map_instance?_modifyInstance {α : Type} {view : CardInstance → α}
    {f : CardInstance → CardInstance} (keeps : ∀ c, view (f c) = view c) :
    ((s.modifyInstance id f).instance? other).map view = (s.instance? other).map view := by
  by_cases same : id = other
  · subst same
    rw [instance?_modifyInstance_self, Option.map_map]
    congr 1
    funext c
    exact keeps c
  · rw [instance?_modifyInstance_of_ne _ _ same]

/-- Copies stay in place while they keep their owners. -/
theorem zoneOf?_modifyInstance {f : CardInstance → CardInstance}
    (keeps : ∀ c, (f c).owner = c.owner) :
    (s.modifyInstance id f).zoneOf? other = s.zoneOf? other :=
  zoneOf?_congr (map_instance?_modifyInstance s keeps) fun _ => rfl

/-- Only what a change makes of the copy with the id counts. -/
theorem modifyInstance_congr {s : Session} {f g : CardInstance → CardInstance} {c : CardInstance}
    (h : s.instance? id = some c) (same : f c = g c) :
    s.modifyInstance id f = s.modifyInstance id g := by
  have maps : s.instances.modify id.number f = s.instances.modify id.number g :=
    KeyMap.modify_congr h same
  rw [modifyInstance, modifyInstance, maps]

@[simp] theorem keys_modifyInstance (f : CardInstance → CardInstance) :
    (s.modifyInstance id f).instances.keys = s.instances.keys := by
  simp [modifyInstance, KeyMap.modify, KeyMap.keys]

/-! ### Zones -/

theorem onBattlefield_iff {s : Session} :
    s.onBattlefield id = true ↔ s.zoneOf? id = some .battlefield := by
  simp [onBattlefield]

/-- A copy lies in a zone if its owner has it there. -/
theorem zoneOf?_eq_some_iff {s : Session} {zone : Zone} : s.zoneOf? id = some zone ↔
    ∃ c p, s.instance? id = some c ∧ s.player? c.owner = some p ∧
      p.zones.locate id = some zone := by
  unfold zoneOf?
  cases s.instance? id with
  | none => simp
  | some c =>
    cases hp : s.player? c.owner with
    | none => simp [hp]
    | some p => simp [hp]

end Session

end CardBattle
