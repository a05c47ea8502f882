import CardBattle.Zone
import Mathlib.Data.List.Nodup
import Mathlib.Data.List.Perm.Basic

/-!
# Copies moving between zones

When no copy occurs twice in the zones of a player, the search for a copy agrees with membership,
and taking a copy out of one zone always makes room for it in another. A move then permutes all
copies of the player and changes the place of one.
-/

namespace CardBattle

namespace Zones

theorem allInstances_eq (z : Zones) :
    z.allInstances = z.deck ++ (z.hand ++ (z.battlefield ++ z.graveyard)) := by
  simp [allInstances, Zone.all, cards]

/-- The copies of a player are those in the four zones. -/
theorem mem_allInstances {z : Zones} {id : InstanceId} :
    id ∈ z.allInstances ↔ ∃ zone, id ∈ z.cards zone := by
  rw [allInstances_eq]
  simp only [List.mem_append]
  constructor
  · rintro (h | h | h | h)
    · exact ⟨.deck, h⟩
    · exact ⟨.hand, h⟩
    · exact ⟨.battlefield, h⟩
    · exact ⟨.graveyard, h⟩
  · rintro ⟨zone, h⟩
    cases zone with
    | deck => exact Or.inl h
    | hand => exact Or.inr (Or.inl h)
    | battlefield => exact Or.inr (Or.inr (Or.inl h))
    | graveyard => exact Or.inr (Or.inr (Or.inr h))

theorem count_allInstances (z : Zones) (id : InstanceId) :
    z.allInstances.count id = (z.cards .deck).count id + (z.cards .hand).count id
      + (z.cards .battlefield).count id + (z.cards .graveyard).count id := by
  simp only [allInstances_eq, List.count_append, cards]
  omega

/-! ### The search for a copy -/

/-- A copy is in the zone where it is found. -/
theorem mem_of_locate {z : Zones} {id : InstanceId} {zone : Zone}
    (h : z.locate id = some zone) : id ∈ z.cards zone := by
  have found := List.find?_some h
  simpa [contains] using found

theorem locate_eq_none_iff {z : Zones} {id : InstanceId} :
    z.locate id = none ↔ id ∉ z.allInstances := by
  rw [mem_allInstances]
  simp only [locate, List.find?_eq_none, contains, decide_eq_true_eq, not_exists]
  constructor
  · intro h zone
    exact h zone (by cases zone <;> simp [Zone.all])
  · intro h zone _
    exact h zone

/-- A copy that occurs once lies in one zone only. -/
theorem zone_unique {z : Zones} {id : InstanceId} (once : z.allInstances.count id ≤ 1) {a b : Zone}
    (ha : id ∈ z.cards a) (hb : id ∈ z.cards b) : a = b := by
  rw [count_allInstances] at once
  have na := List.count_pos_iff.mpr ha
  have nb := List.count_pos_iff.mpr hb
  cases a <;> cases b <;> first | rfl | omega

theorem locate_eq_some_iff_of_once {z : Zones} {id : InstanceId}
    (once : z.allInstances.count id ≤ 1) {zone : Zone} :
    z.locate id = some zone ↔ id ∈ z.cards zone := by
  constructor
  · exact mem_of_locate
  · intro h
    cases found : z.locate id with
    | none => exact absurd (mem_allInstances.mpr ⟨zone, h⟩) (locate_eq_none_iff.mp found)
    | some other => rw [zone_unique once (mem_of_locate found) h]

/-- A copy is found in the zone where it is, if no copy is in two. -/
theorem locate_eq_some_iff {z : Zones} (apart : z.allInstances.Nodup) {id : InstanceId}
    {zone : Zone} : z.locate id = some zone ↔ id ∈ z.cards zone :=
  locate_eq_some_iff_of_once (List.nodup_iff_count_le_one.mp apart id)

/-- Zones that hold the same copies answer every search alike. -/
theorem locate_congr {z z' : Zones} (apart' : z'.allInstances.Nodup) {id : InstanceId}
    (same : ∀ zone, id ∈ z'.cards zone ↔ id ∈ z.cards zone) : z'.locate id = z.locate id := by
  cases found : z.locate id with
  | none =>
    rw [locate_eq_none_iff, mem_allInstances] at found ⊢
    rintro ⟨zone, h⟩
    exact found ⟨zone, (same zone).mp h⟩
  | some zone =>
    rw [locate_eq_some_iff apart']
    exact (same zone).mpr (mem_of_locate found)

/-! ### Moves -/

/-- The zones after a copy has gone from one zone to the top of another. -/
def carry (z : Zones) (id : InstanceId) (source destination : Zone) : Zones :=
  let left := z.setCards source ((z.cards source).erase id)
  left.setCards destination (left.cards destination ++ [id])

variable {z z' : Zones} {id other : InstanceId} {source destination : Zone}

theorem cards_carry_source (different : source ≠ destination) :
    (z.carry id source destination).cards source = (z.cards source).erase id := by
  rw [carry, cards_setCards_of_ne _ _ different.symm, cards_setCards_self]

theorem cards_carry_destination (different : source ≠ destination) :
    (z.carry id source destination).cards destination = z.cards destination ++ [id] := by
  rw [carry, cards_setCards_self, cards_setCards_of_ne _ _ different]

theorem cards_carry_of_ne {zone : Zone} (hs : source ≠ zone) (hd : destination ≠ zone) :
    (z.carry id source destination).cards zone = z.cards zone := by
  rw [carry, cards_setCards_of_ne _ _ hd, cards_setCards_of_ne _ _ hs]

/-- A copy that is carried is neither lost nor doubled. -/
theorem carry_perm (different : source ≠ destination) (h : id ∈ z.cards source) :
    (z.carry id source destination).allInstances.Perm z.allInstances := by
  rw [List.perm_iff_count]
  intro a
  have taken := List.count_pos_iff.mpr h
  simp only [count_allInstances, carry]
  by_cases same : a = id
  · subst a
    cases source <;> cases destination <;>
      simp only [setCards, cards, List.count_append, List.count_erase_self,
        List.count_singleton_self, ne_eq, not_true_eq_false] at * <;> omega
  · have off : [id].count a = 0 := List.count_eq_zero.mpr (by simpa using same)
    cases source <;> cases destination <;>
      simp only [setCards, cards, List.count_append, List.count_erase_of_ne same, off,
        ne_eq, not_true_eq_false] at * <;> omega

/-- A copy that is carried does not come to be in two places. -/
theorem carry_apart (apart : z.allInstances.Nodup) (different : source ≠ destination)
    (h : id ∈ z.cards source) : (z.carry id source destination).allInstances.Nodup :=
  (carry_perm different h).nodup_iff.mpr apart

theorem locate_carry_self (apart : z.allInstances.Nodup) (different : source ≠ destination)
    (h : id ∈ z.cards source) : (z.carry id source destination).locate id = some destination := by
  rw [locate_eq_some_iff (carry_apart apart different h), cards_carry_destination different]
  simp

theorem mem_cards_carry_of_ne (different : source ≠ destination) (ne : other ≠ id) {zone : Zone} :
    other ∈ (z.carry id source destination).cards zone ↔ other ∈ z.cards zone := by
  by_cases hs : source = zone
  · subst zone
    rw [cards_carry_source different]
    exact List.mem_erase_of_ne ne
  · by_cases hd : destination = zone
    · subst zone
      rw [cards_carry_destination different]
      simp [ne]
    · rw [cards_carry_of_ne hs hd]

theorem locate_carry_of_ne (apart : z.allInstances.Nodup) (different : source ≠ destination)
    (h : id ∈ z.cards source) (ne : other ≠ id) :
    (z.carry id source destination).locate other = z.locate other :=
  locate_congr (carry_apart apart different h) fun _ => mem_cards_carry_of_ne different ne

/-- A move that succeeds took the copy from its source. -/
theorem of_move (h : z.move id source destination .top = .moved z') :
    id ∈ z.cards source ∧ z' = z.carry id source destination := by
  unfold move at h
  split at h
  · cases h
  · rename_i left removed
    unfold remove? at removed
    split at removed
    · rename_i mem
      cases removed
      split at h
      · cases h
      · rename_i zones pushed
        cases h
        unfold push? at pushed
        split at pushed
        · cases pushed
        · cases pushed
          exact ⟨mem, rfl⟩
    · cases removed

/-- A move is refused if the copy is not in the source. -/
theorem move_eq_absent_iff : z.move id source destination .top = .absent ↔
    id ∉ z.cards source := by
  unfold move remove?
  by_cases mem : id ∈ z.cards source
  · simp only [mem, if_true, not_true_eq_false, iff_false]
    split <;> simp
  · simp [mem]

/-- The copy taken out is found in no zone, so that the other zone admits it. -/
theorem move_of_once (once : z.allInstances.count id ≤ 1) (h : id ∈ z.cards source) :
    z.move id source destination .top = .moved (z.carry id source destination) := by
  have gone : (z.setCards source ((z.cards source).erase id)).locate id = none := by
    rw [locate_eq_none_iff, ← List.count_eq_zero, count_allInstances]
    rw [count_allInstances] at once
    have taken := List.count_pos_iff.mpr h
    cases source <;> simp only [setCards, cards, List.count_erase_self] at * <;> omega
  simp only [move, remove?, h, if_true, push?, gone]
  rfl

/-- A copy that is in the source is carried. -/
theorem move_of_mem (apart : z.allInstances.Nodup) (h : id ∈ z.cards source) :
    z.move id source destination .top = .moved (z.carry id source destination) :=
  move_of_once (List.nodup_iff_count_le_one.mp apart id) h

/-! ### Drawing and shuffling -/

theorem popTop?_eq_none_iff : z.popTop? .deck = none ↔ z.deck = [] := by
  unfold popTop?
  split
  · rename_i empty
    simpa [cards] using empty
  · rename_i last
    simp only [reduceCtorEq, false_iff]
    exact List.ne_nil_of_mem (List.mem_of_getLast? last)

theorem getLast?_of_popTop {rest : Zones} (h : z.popTop? .deck = some (id, rest)) :
    z.deck.getLast? = some id := by
  unfold popTop? at h
  split at h
  · cases h
  · rename_i last
    cases h
    exact last

theorem nodup_deck (apart : z.allInstances.Nodup) : z.deck.Nodup := by
  rw [allInstances_eq] at apart
  exact apart.of_append_left

theorem erase_of_getLast? {ids : List InstanceId} (nodup : ids.Nodup)
    (last : ids.getLast? = some id) : ids.erase id = ids.dropLast := by
  have split : ids = ids.dropLast ++ [id] := (List.dropLast_append_getLast? id last).symm
  have fresh : id ∉ ids.dropLast := by
    rw [split, List.nodup_append] at nodup
    intro again
    exact nodup.2.2 id again id (by simp) rfl
  conv_lhs => rw [split]
  rw [List.erase_append_right _ fresh]
  simp

/-- The top card of a deck is its last one, and the hand always admits it. -/
theorem push_of_popTop (apart : z.allInstances.Nodup) {rest : Zones}
    (h : z.popTop? .deck = some (id, rest)) :
    id ∈ z.cards .deck ∧ rest.push? .hand id .top = some (z.carry id .deck .hand) := by
  unfold popTop? at h
  split at h
  · cases h
  · rename_i top last
    cases h
    have mem : id ∈ z.cards .deck := List.mem_of_getLast? last
    have erased : (z.cards .deck).erase id = (z.cards .deck).dropLast :=
      erase_of_getLast? (nodup_deck apart) last
    refine ⟨mem, ?_⟩
    have moved : z.move id .deck .hand .top = .moved (z.carry id .deck .hand) :=
      move_of_mem apart mem
    simp only [move, remove?, mem, if_true, erased] at moved
    split at moved
    · cases moved
    · rename_i pushed
      cases moved
      exact pushed

/-- A deck may be put into any other order. -/
theorem reorder?_of_perm {order : List InstanceId} (perm : order.Perm z.deck) :
    z.reorder? .deck order = some { z with deck := order } :=
  if_pos (List.isPerm_iff.mpr perm.symm)

end Zones

end CardBattle
