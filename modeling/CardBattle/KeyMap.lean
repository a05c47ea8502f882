/-!
# Finite maps with numbers as keys

Entries are kept in strictly ascending order of their keys, so that two maps with the same entries
are equal and enumeration is in key order. The order is part of the type.
-/

namespace CardBattle

variable {α : Type}

namespace KeyMap

/-- Puts an entry at its place among ascending keys, in place of an entry with the same key. -/
def insertSorted (key : Nat) (value : α) : List (Nat × α) → List (Nat × α)
  | [] => [(key, value)]
  | (k, v) :: rest =>
    if key < k then (key, value) :: (k, v) :: rest
    else if key = k then (key, value) :: rest
    else (k, v) :: insertSorted key value rest

theorem key_of_mem_insertSorted {key : Nat} {value : α} {entries : List (Nat × α)} {e : Nat × α}
    (h : e ∈ insertSorted key value entries) : e.1 = key ∨ e ∈ entries := by
  induction entries with
  | nil => simp_all [insertSorted]
  | cons head rest ih =>
    obtain ⟨k, v⟩ := head
    rw [insertSorted] at h
    split at h
    · rcases List.mem_cons.1 h with rfl | h
      · exact .inl rfl
      · exact .inr h
    · split at h
      · rcases List.mem_cons.1 h with rfl | h
        · exact .inl rfl
        · exact .inr (List.mem_cons_of_mem _ h)
      · rcases List.mem_cons.1 h with rfl | h
        · exact .inr List.mem_cons_self
        · exact (ih h).imp_right (List.mem_cons_of_mem _)

theorem pairwise_insertSorted (key : Nat) (value : α) {entries : List (Nat × α)}
    (h : entries.Pairwise fun a b => a.1 < b.1) :
    (insertSorted key value entries).Pairwise fun a b => a.1 < b.1 := by
  induction entries with
  | nil => simp [insertSorted]
  | cons head rest ih =>
    obtain ⟨k, v⟩ := head
    obtain ⟨hhead, hrest⟩ := List.pairwise_cons.1 h
    rw [insertSorted]
    split
    · rename_i hlt
      refine List.pairwise_cons.2 ⟨fun e he => ?_, h⟩
      rcases List.mem_cons.1 he with rfl | he
      · exact hlt
      · exact Nat.lt_trans hlt (hhead e he)
    · split
      · rename_i heq
        subst heq
        exact List.pairwise_cons.2 ⟨hhead, hrest⟩
      · refine List.pairwise_cons.2 ⟨fun e he => ?_, ih hrest⟩
        rcases key_of_mem_insertSorted he with hk | he
        · show k < e.1
          omega
        · exact hhead e he

end KeyMap

/-- A finite map from numbers to values. -/
structure KeyMap (α : Type) where
  entries : List (Nat × α)
  ascending : entries.Pairwise fun a b => a.1 < b.1
  deriving DecidableEq

namespace KeyMap

def empty : KeyMap α :=
  ⟨[], List.Pairwise.nil⟩

instance : Inhabited (KeyMap α) := ⟨empty⟩

def get? (m : KeyMap α) (key : Nat) : Option α :=
  m.entries.lookup key

def contains (m : KeyMap α) (key : Nat) : Bool :=
  (m.get? key).isSome

def insert (m : KeyMap α) (key : Nat) (value : α) : KeyMap α :=
  ⟨insertSorted key value m.entries, pairwise_insertSorted key value m.ascending⟩

/-- Changes the value of a key; a key without a value changes nothing. -/
def modify (m : KeyMap α) (key : Nat) (f : α → α) : KeyMap α :=
  ⟨m.entries.map fun e => (e.1, if e.1 = key then f e.2 else e.2), by
    exact List.pairwise_map.2 m.ascending⟩

/-- The map of a list of entries; of two entries with one key the later counts. -/
def ofList (entries : List (Nat × α)) : KeyMap α :=
  entries.foldl (fun m e => m.insert e.1 e.2) empty

/-- The keys, ascending. -/
def keys (m : KeyMap α) : List Nat :=
  m.entries.map (·.1)

def values (m : KeyMap α) : List α :=
  m.entries.map (·.2)

def size (m : KeyMap α) : Nat :=
  m.entries.length

@[simp] theorem get?_insert_self (m : KeyMap α) (key : Nat) (value : α) :
    (m.insert key value).get? key = some value := by
  obtain ⟨entries, hm⟩ := m
  show (insertSorted key value entries).lookup key = some value
  clear hm
  induction entries with
  | nil => simp [insertSorted]
  | cons head rest ih =>
    obtain ⟨k, v⟩ := head
    rw [insertSorted]
    split
    · simp
    · split
      · simp
      · rename_i h
        have hb : (key == k) = false := beq_eq_false_iff_ne.2 h
        simpa [List.lookup_cons, hb] using ih

theorem get?_insert_of_ne (m : KeyMap α) {key other : Nat} (value : α) (h : key ≠ other) :
    (m.insert key value).get? other = m.get? other := by
  obtain ⟨entries, hm⟩ := m
  show (insertSorted key value entries).lookup other = entries.lookup other
  clear hm
  have hne : (other == key) = false := beq_eq_false_iff_ne.2 (Ne.symm h)
  induction entries with
  | nil => simp [insertSorted, List.lookup_cons, hne]
  | cons head rest ih =>
    obtain ⟨k, v⟩ := head
    rw [insertSorted]
    split
    · simp [List.lookup_cons, hne]
    · split
      · rename_i heq
        subst heq
        simp [List.lookup_cons, hne]
      · simp only [List.lookup_cons, ih]

@[simp] theorem get?_modify_self (m : KeyMap α) (key : Nat) (f : α → α) :
    (m.modify key f).get? key = (m.get? key).map f := by
  obtain ⟨entries, hm⟩ := m
  show (entries.map _).lookup key = (entries.lookup key).map f
  clear hm
  induction entries with
  | nil => rfl
  | cons head rest ih =>
    obtain ⟨k, v⟩ := head
    by_cases h : key = k
    · simp [h]
    · have hb : (key == k) = false := beq_eq_false_iff_ne.2 h
      simpa [List.lookup_cons, hb] using ih

theorem get?_modify_of_ne (m : KeyMap α) {key other : Nat} (f : α → α) (h : key ≠ other) :
    (m.modify key f).get? other = m.get? other := by
  obtain ⟨entries, hm⟩ := m
  show (entries.map _).lookup other = entries.lookup other
  clear hm
  induction entries with
  | nil => rfl
  | cons head rest ih =>
    obtain ⟨k, v⟩ := head
    by_cases ho : other = k
    · have hk : k ≠ key := fun e => h (by omega)
      simp [ho, hk]
    · have hb : (other == k) = false := beq_eq_false_iff_ne.2 ho
      simpa [List.lookup_cons, hb] using ih

end KeyMap

end CardBattle
