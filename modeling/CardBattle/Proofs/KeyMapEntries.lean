import CardBattle.KeyMap
import Mathlib.Data.List.Nodup

/-!
# Entries of finite maps

Looking a key up agrees with membership among the entries, since no key occurs twice. The entries of
a map, added one after another to the empty map, give the map back.
-/

namespace CardBattle

namespace KeyMap

variable {α : Type} {m : KeyMap α} {key : Nat} {value : α}

theorem mem_of_get? (h : m.get? key = some value) : (key, value) ∈ m.entries := by
  obtain ⟨entries, ascending⟩ := m
  change entries.lookup key = some value at h
  change (key, value) ∈ entries
  clear ascending
  induction entries with
  | nil => simp at h
  | cons head rest ih =>
    obtain ⟨k, v⟩ := head
    rw [List.lookup_cons] at h
    split at h
    · rename_i same
      cases h
      rw [beq_iff_eq.mp same]
      exact List.mem_cons_self
    · exact List.mem_cons_of_mem _ (ih h)

theorem get?_of_mem (h : (key, value) ∈ m.entries) : m.get? key = some value := by
  obtain ⟨entries, ascending⟩ := m
  change entries.lookup key = some value
  change (key, value) ∈ entries at h
  induction entries with
  | nil => cases h
  | cons head rest ih =>
    obtain ⟨k, v⟩ := head
    obtain ⟨first, ascending⟩ := List.pairwise_cons.mp ascending
    rw [List.lookup_cons]
    rcases List.mem_cons.mp h with same | h
    · cases same
      simp
    · have later : k < key := first (key, value) h
      have differ : (key == k) = false := beq_eq_false_iff_ne.mpr (by omega)
      rw [differ]
      exact ih ascending h

/-- A value is found under a key if and only if the two are an entry. -/
theorem get?_eq_some_iff : m.get? key = some value ↔ (key, value) ∈ m.entries :=
  ⟨mem_of_get?, get?_of_mem⟩

theorem mem_values_iff : value ∈ m.values ↔ ∃ key, m.get? key = some value := by
  simp only [values, List.mem_map, get?_eq_some_iff]
  constructor
  · rintro ⟨⟨key, v⟩, h, rfl⟩
    exact ⟨key, h⟩
  · rintro ⟨key, h⟩
    exact ⟨(key, value), h, rfl⟩

theorem mem_keys_iff : key ∈ m.keys ↔ ∃ value, m.get? key = some value := by
  simp only [keys, List.mem_map, get?_eq_some_iff]
  constructor
  · rintro ⟨⟨k, value⟩, h, rfl⟩
    exact ⟨value, h⟩
  · rintro ⟨value, h⟩
    exact ⟨(key, value), h, rfl⟩

/-- A key above all others goes to the end. -/
theorem entries_insert_of_lt (above : ∀ k ∈ m.keys, k < key) :
    (m.insert key value).entries = m.entries ++ [(key, value)] := by
  obtain ⟨entries, ascending⟩ := m
  change insertSorted key value entries = entries ++ [(key, value)]
  change ∀ k ∈ entries.map (·.1), k < key at above
  clear ascending
  induction entries with
  | nil => rfl
  | cons head rest ih =>
    obtain ⟨k, v⟩ := head
    have below : k < key := above k (by simp)
    rw [insertSorted, if_neg (by omega), if_neg (by omega),
      ih fun k hk => above k (List.mem_cons_of_mem _ hk), List.cons_append]

/-- A key above all others comes last. -/
theorem keys_insert_of_lt (above : ∀ k ∈ m.keys, k < key) :
    (m.insert key value).keys = m.keys ++ [key] := by
  rw [keys, entries_insert_of_lt above, List.map_append]
  rfl

/-- Entries in ascending order are added one after another at the end. -/
theorem entries_foldl_insert (entries : List (Nat × α)) (m : KeyMap α)
    (ascending : (m.entries ++ entries).Pairwise fun a b => a.1 < b.1) :
    (entries.foldl (fun m e => m.insert e.1 e.2) m).entries = m.entries ++ entries := by
  induction entries generalizing m with
  | nil => simp
  | cons e rest ih =>
    have above : ∀ k ∈ m.keys, k < e.1 := by
      intro k hk
      obtain ⟨d, hd, rfl⟩ := List.mem_map.mp hk
      exact (List.pairwise_append.mp ascending).2.2 d hd e List.mem_cons_self
    have inserted : (m.insert e.1 e.2).entries = m.entries ++ [e] := entries_insert_of_lt above
    rw [List.foldl_cons, ih _ (by simpa [inserted] using ascending), inserted]
    simp

/-- Maps with the same entries are the same. -/
theorem eq_of_entries_eq {m' : KeyMap α} (h : m.entries = m'.entries) : m = m' := by
  cases m
  cases m'
  cases h
  rfl

theorem ofList_entries (m : KeyMap α) : ofList m.entries = m :=
  eq_of_entries_eq (entries_foldl_insert m.entries empty m.ascending)

theorem modify_congr {f g : α → α} (h : m.get? key = some value) (same : f value = g value) :
    m.modify key f = m.modify key g := by
  have entries : ∀ e ∈ m.entries, (e.1, if e.1 = key then f e.2 else e.2)
      = (e.1, if e.1 = key then g e.2 else e.2) := by
    rintro ⟨k, v⟩ mem
    by_cases at_key : k = key
    · subst at_key
      have hv : v = value := Option.some.inj ((get?_of_mem mem).symm.trans h)
      simp [hv, same]
    · simp [at_key]
  simp only [modify, List.map_congr_left entries]

end KeyMap

end CardBattle
