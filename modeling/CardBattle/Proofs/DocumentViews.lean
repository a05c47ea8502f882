import CardBattle.Document

/-!
# Looking at a changed store

Documents are never removed. A change shows in its own document only, and a new document takes the
number after all others.
-/

namespace CardBattle

namespace DocumentStore

variable {store : DocumentStore} {id other : SessionId} {s : Session} {f : Session → Session}

/-- Documents are numbered from 1 in the order of their creation. -/
theorem find?_eq_some_iff : store.find? id = some s ↔
    ∃ i d, id.number = i + 1 ∧ store.documents[i]? = some d ∧ d.session = s := by
  unfold find? document? place?
  cases h : id.number with
  | zero => simp
  | succ i => simp

theorem find?_eq_bind : store.find? id
    = (place? id).bind fun i => (store.documents[i]?).map (·.session) := by
  unfold find? document?
  cases place? id <;> rfl

/-- The numbers of documents go from 1 up to the size of the store. -/
theorem find?_isSome_iff :
    (∃ s, store.find? id = some s) ↔ 0 < id.number ∧ id.number ≤ store.size := by
  simp only [find?_eq_some_iff, size]
  constructor
  · rintro ⟨s, i, d, hi, hd, -⟩
    have bound := (List.getElem?_eq_some_iff.mp hd).1
    omega
  · rintro ⟨positive, bound⟩
    have inside : id.number - 1 < store.documents.length := by omega
    exact ⟨_, id.number - 1, _, by omega, List.getElem?_eq_getElem inside, rfl⟩

/-! ### Changes -/

theorem tell_of_none {place : Nat} (h : store.pending[place]? = none) :
    store.tell place = store := by
  rw [tell, h]

@[simp] theorem documents_tell (store : DocumentStore) (place : Nat) :
    (store.tell place).documents = store.documents := by
  rw [tell]
  split <;> rfl

theorem find?_tell (store : DocumentStore) (place : Nat) (id : SessionId) :
    (store.tell place).find? id = store.find? id := by
  rw [find?, document?, documents_tell]
  rfl

/-- Nothing can be committed to a document that is not there. -/
theorem commit_of_none (h : store.find? id = none) : store.commit id f = store := by
  have missing : store.document? id = none := by
    simpa [find?] using h
  rw [commit, missing]

theorem change_of_none (h : store.find? id = none) : store.change id f = store := by
  rw [change, commit_of_none h]
  exact tell_of_none (List.getElem?_eq_none (Nat.le_refl _))

theorem documents_change_of_some {i : Nat} {d : Document} (hi : id.number = i + 1)
    (hd : store.documents[i]? = some d) : (store.change id f).documents
      = store.documents.set i { d with session := f d.session } := by
  simp [change, commit, document?, put, place?, hi, hd]

/-- What has been committed is found, whether or not observers have been told. -/
theorem find?_commit : (store.commit id f).find? other = (store.change id f).find? other :=
  (find?_tell _ _ other).symm

@[simp] theorem size_change : (store.change id f).size = store.size := by
  cases h : store.find? id with
  | none => rw [change_of_none h]
  | some s =>
    obtain ⟨i, d, hi, hd, -⟩ := find?_eq_some_iff.mp h
    simp [size, documents_change_of_some hi hd]

/-- A document that is changed is found as the change left it. -/
theorem find?_change_self (h : store.find? id = some s) :
    (store.change id f).find? id = some (f s) := by
  obtain ⟨i, d, hi, hd, rfl⟩ := find?_eq_some_iff.mp h
  have bound := (List.getElem?_eq_some_iff.mp hd).1
  rw [find?_eq_some_iff]
  refine ⟨i, { d with session := f d.session }, hi, ?_, rfl⟩
  rw [documents_change_of_some hi hd, List.getElem?_set_self bound]

/-- A change of one document leaves the others. -/
theorem find?_change_of_ne (ne : id ≠ other) :
    (store.change id f).find? other = store.find? other := by
  cases h : store.find? id with
  | none => rw [change_of_none h]
  | some s =>
    obtain ⟨i, d, hi, hd, -⟩ := find?_eq_some_iff.mp h
    rw [find?_eq_bind, find?_eq_bind, documents_change_of_some hi hd]
    cases place : place? other with
    | none => rfl
    | some j =>
      have apart : i ≠ j := by
        rintro rfl
        apply ne
        cases hn : other.number with
        | zero => simp [place?, hn] at place
        | succ k =>
          simp only [place?, hn, Option.some.injEq] at place
          cases id
          cases other
          simp_all
      simp [List.getElem?_set_ne apart]

/-- Only what a change makes of the document counts. -/
theorem commit_congr {g : Session → Session} (h : store.find? id = some s) (same : f s = g s) :
    store.commit id f = store.commit id g := by
  obtain ⟨d, found, rfl⟩ : ∃ d, store.document? id = some d ∧ d.session = s := by
    simpa [find?] using h
  simp [commit, found, same]

theorem change_congr {g : Session → Session} (h : store.find? id = some s) (same : f s = g s) :
    store.change id f = store.change id g := by
  rw [change, change, commit_congr h same]

/-! ### New documents -/

@[simp] theorem size_create : (store.create s).2.size = store.size + 1 := by
  simp [create, size]

theorem find?_create_self : (store.create s).2.find? (store.create s).1 = some s := by
  rw [find?_eq_some_iff]
  exact ⟨store.documents.length, { session := s }, rfl, by simp [create], rfl⟩

theorem find?_create_of_ne (ne : (store.create s).1 ≠ other) :
    (store.create s).2.find? other = store.find? other := by
  rw [find?_eq_bind, find?_eq_bind]
  cases hn : other.number with
  | zero => simp [place?, hn]
  | succ j =>
    have apart : j ≠ store.documents.length := by
      rintro rfl
      apply ne
      cases other
      simp_all [create]
    simp only [place?, hn, Option.bind_some, create]
    rcases Nat.lt_or_gt_of_ne apart with below | above
    · rw [List.getElem?_append_left below]
    · rw [List.getElem?_eq_none (by simp; omega), List.getElem?_eq_none (by omega)]

/-- A document that exists is not the new one. -/
theorem ne_created (h : store.find? id = some s) (session : Session) :
    (store.create session).1 ≠ id := by
  rintro rfl
  have bound := (find?_isSome_iff.mp ⟨s, h⟩).2
  simp only [create, size] at bound
  omega

/-- A new document replaces none. -/
theorem find?_create_of_some (h : store.find? id = some s) (session : Session) :
    (store.create session).2.find? id = some s := by
  rw [find?_create_of_ne (ne_created h session), h]

end DocumentStore

end CardBattle
