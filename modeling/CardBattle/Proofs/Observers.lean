import CardBattle.Proofs.DocumentViews

/-!
# What observers are told

An observer watches one document from the time when it was added. What it was told, together with
the changes of its document that nobody has been told of yet, grows by one change at a time. To be
told moves a change from the one to the other: the oldest one, unless it is told out of turn.
-/

namespace CardBattle

namespace DocumentStore

/-- Everything that an observer was told, oldest first. -/
def told (store : DocumentStore) (observer : Nat) : List Notice :=
  store.notices.filter fun n => decide (n.observer = observer)

/-- The changes of a document that its observers have not been told of, oldest first. -/
def unsaid (store : DocumentStore) (id : SessionId) : List Announcement :=
  store.pending.filter fun a => decide (a.document = id)

/-- What an observer of a document was told, and then what it will be told. -/
def story (store : DocumentStore) (observer : Nat) (id : SessionId) : List Announcement :=
  (store.told observer).map (·.toAnnouncement) ++ store.unsaid id

variable {store store' : DocumentStore} {id other : SessionId} {s s' : Session} {d d' : Document}
  {f : Session → Session} {k place : Nat} {a : Announcement}

/-- No two documents share a place. -/
theorem place?_inj {i : Nat} (h : place? id = some i) (h' : place? other = some i) :
    id = other := by
  have number : ∀ {a : SessionId}, place? a = some i → a.number = i + 1 := by
    intro a ha
    unfold place? at ha
    split at ha
    · cases ha
    · rename_i n same
      cases ha
      exact same
  have same := (number h).trans (number h').symm
  cases id
  cases other
  exact congrArg SessionId.mk same

/-! ### Documents after an edit -/

theorem document?_put_self (h : store.document? id = some d) :
    (store.put id d').document? id = some d' := by
  obtain ⟨i, place, inside⟩ := Option.bind_eq_some_iff.mp h
  have bound := (List.getElem?_eq_some_iff.mp inside).1
  rw [put, document?, place]
  exact List.getElem?_set_self bound

theorem document?_put_of_ne (ne : id ≠ other) :
    (store.put id d').document? other = store.document? other := by
  unfold put
  split
  · rfl
  · rename_i i place
    unfold document?
    cases place' : place? other with
    | none => rfl
    | some j =>
      have apart : i ≠ j := by
        rintro rfl
        exact ne (place?_inj place place')
      exact List.getElem?_set_ne apart

/-- To replace a document is seen at that document and at no other. -/
theorem document?_of_put {g : Document → Document}
    (missing : store.document? id = none → store' = store)
    (written : ∀ d, store.document? id = some d →
      store'.document? other = (store.put id (g d)).document? other) :
    store'.document? other
      = if id = other then (store.document? other).map g else store.document? other := by
  cases found : store.document? id with
  | none =>
    rw [missing found]
    by_cases at_id : id = other
    · rw [if_pos at_id, ← at_id, found]
      rfl
    · rw [if_neg at_id]
  | some d =>
    rw [written d found]
    by_cases at_id : id = other
    · rw [if_pos at_id, ← at_id, found]
      exact document?_put_self found
    · rw [if_neg at_id]
      exact document?_put_of_ne at_id

/-- Only the session of the changed document changes. -/
theorem document?_commit : (store.commit id f).document? other
    = if id = other then (store.document? other).map fun d => { d with session := f d.session }
      else store.document? other := by
  refine document?_of_put (fun missing => ?_) fun d found => ?_
  · rw [commit, missing]
  · rw [commit, found]
    rfl

/-- A change of a document leaves its observers. -/
theorem observers_commit : (store.commit id f).observers other = store.observers other := by
  unfold observers
  rw [document?_commit]
  split
  · cases store.document? other <;> rfl
  · rfl

theorem observers_tell : (store.tell place).observers other = store.observers other := by
  rw [observers, document?, documents_tell]
  rfl

theorem document?_created (store : DocumentStore) (s : Session) :
    store.document? (store.create s).1 = none :=
  List.getElem?_eq_none (Nat.le_refl _)

theorem document?_create : (store.create s).2.document? other
    = if (store.create s).1 = other then some { session := s } else store.document? other := by
  by_cases at_end : (store.create s).1 = other
  · rw [if_pos at_end, ← at_end]
    exact List.getElem?_concat_length
  · rw [if_neg at_end]
    unfold document?
    cases place : place? other with
    | none => rfl
    | some i =>
      have apart : i ≠ store.documents.length := by
        rintro rfl
        exact at_end (place?_inj rfl place)
      change (store.documents ++ _)[i]? = store.documents[i]?
      rcases Nat.lt_or_gt_of_ne apart with below | above
      · exact List.getElem?_append_left below
      · rw [List.getElem?_eq_none (by simp; omega), List.getElem?_eq_none (by omega)]

theorem observers_create : (store.create s).2.observers other = store.observers other := by
  unfold observers
  rw [document?_create]
  split
  · rename_i at_end
    rw [← at_end, document?_created]
    rfl
  · rfl

theorem subscribe_of_none (h : store.find? id = none) : store.subscribe id = store := by
  have missing : store.document? id = none := by
    simpa [find?] using h
  rw [subscribe, missing]

/-- Only the observers of the document change, and the newcomer has the next number. -/
theorem document?_subscribe : (store.subscribe id).document? other
    = if id = other then
        (store.document? other).map fun d =>
          { d with observers := d.observers ++ [store.observerCount] }
      else store.document? other := by
  refine document?_of_put (fun missing => ?_) fun d found => ?_
  · rw [subscribe, missing]
  · rw [subscribe, found]
    rfl

/-- Who observes a document does not change it. -/
theorem find?_subscribe : (store.subscribe id).find? other = store.find? other := by
  unfold find?
  rw [document?_subscribe]
  split
  · cases store.document? other <;> rfl
  · rfl

/-- A newcomer is the last observer of the document. -/
theorem observers_subscribe (h : store.find? id = some s) : (store.subscribe id).observers other
    = store.observers other ++ if id = other then [store.observerCount] else [] := by
  unfold observers
  rw [document?_subscribe]
  split
  · rename_i same
    subst same
    obtain ⟨d, found, -⟩ := Option.map_eq_some_iff.mp h
    rw [found]
    rfl
  · exact (List.append_nil _).symm

theorem observerCount_subscribe (h : store.find? id = some s) :
    (store.subscribe id).observerCount = store.observerCount + 1 := by
  obtain ⟨d, found, -⟩ := Option.map_eq_some_iff.mp h
  rw [subscribe, found]

/-! ### What is told -/

/-- To replace a document changes nothing else of a store. -/
theorem put_rest : (store.put id d).observerCount = store.observerCount ∧
    (store.put id d).pending = store.pending ∧ (store.put id d).notices = store.notices := by
  unfold put
  split <;> exact ⟨rfl, rfl, rfl⟩

theorem observerCount_commit : (store.commit id f).observerCount = store.observerCount := by
  unfold commit
  split
  · rfl
  · exact put_rest.1

theorem observerCount_tell : (store.tell place).observerCount = store.observerCount := by
  unfold tell
  split <;> rfl

/-- A change tells nobody yet. -/
theorem notices_commit : (store.commit id f).notices = store.notices := by
  unfold commit
  split
  · rfl
  · exact put_rest.2.2

theorem notices_subscribe : (store.subscribe id).notices = store.notices := by
  unfold subscribe
  split
  · rfl
  · exact put_rest.2.2

/-- Telling of a change gives a notice to every observer of its document. -/
theorem notices_tell (h : store.pending[place]? = some a) : (store.tell place).notices
    = store.notices ++ (store.observers a.document).map fun k => ⟨a, k⟩ := by
  rw [tell, h]

/-- An observer is told as often as it is on the list of the document. -/
theorem told_tell (h : store.pending[place]? = some a) : (store.tell place).told k
    = store.told k ++ List.replicate ((store.observers a.document).count k) ⟨a, k⟩ := by
  rw [told, notices_tell h, List.filter_append]
  congr 1
  induction store.observers a.document with
  | nil => rfl
  | cons first rest ih =>
    rw [List.map_cons, List.count_cons]
    by_cases same : first = k
    · subst same
      rw [List.filter_cons_of_pos (by simp), ih, beq_self_eq_true, if_pos rfl]
      exact (List.replicate_succ ..).symm
    · rw [List.filter_cons_of_neg (by simpa using same), ih, if_neg (by simpa using same)]
      rfl

/-! ### What is still to be told -/

theorem pending_subscribe : (store.subscribe id).pending = store.pending := by
  unfold subscribe
  split
  · rfl
  · exact put_rest.2.1

theorem pending_commit (h : store.find? id = some s) :
    (store.commit id f).pending = store.pending ++ [⟨id, f s⟩] := by
  obtain ⟨d, found, rfl⟩ := Option.map_eq_some_iff.mp h
  rw [commit, found]

/-- A change is still to be told when it has been made. -/
theorem unsaid_commit (h : store.find? id = some s) : (store.commit id f).unsaid other
    = store.unsaid other ++ if id = other then [⟨id, f s⟩] else [] := by
  rw [unsaid, pending_commit h, List.filter_append]
  congr 1
  split
  · rename_i same
    exact List.filter_cons_of_pos (decide_eq_true same)
  · rename_i apart
    exact List.filter_cons_of_neg (by simpa using apart)

/-- A change that is told was between those before its place and those after it. -/
theorem unsaid_tell (h : store.pending[place]? = some a) (id : SessionId) : ∃ before after,
    (∀ b, b ∈ before ↔ b ∈ store.pending.take place ∧ b.document = id) ∧
    store.unsaid id = before ++ (if a.document = id then [a] else []) ++ after ∧
    (store.tell place).unsaid id = before ++ after := by
  obtain ⟨inside, rfl⟩ := List.getElem?_eq_some_iff.mp h
  refine ⟨(store.pending.take place).filter fun b => decide (b.document = id),
    (store.pending.drop (place + 1)).filter fun b => decide (b.document = id), ?_, ?_, ?_⟩
  · intro b
    rw [List.mem_filter, decide_eq_true_eq]
  · have parts : store.pending = store.pending.take place
        ++ store.pending[place] :: store.pending.drop (place + 1) := by
      rw [← List.drop_eq_getElem_cons inside, List.take_append_drop]
    refine (congrArg (List.filter _) parts).trans ?_
    rw [List.filter_append, List.filter_cons, List.append_assoc]
    split
    · rename_i here
      rw [if_pos (of_decide_eq_true here)]
      rfl
    · rename_i elsewhere
      rw [if_neg fun same => elsewhere (decide_eq_true same)]
      rfl
  · rw [unsaid, tell, h]
    dsimp only
    rw [List.eraseIdx_eq_take_drop_succ, List.filter_append]

/-! ### Edits -/

/-- What may become of documents and observers in one step: a document is changed, or the observers
of a change are told, or neither. -/
inductive Effect where
  | quiet
  | changes (document : SessionId)
  | tells (place : Nat)
  deriving DecidableEq

/-- No older change of the same document is passed over when observers are told. -/
def Effect.InTurn (store : DocumentStore) (id : SessionId) : Effect → Prop
  | .tells place => ∀ a ∈ store.pending[place]?, a.document = id →
      ∀ b ∈ store.pending.take place, b.document ≠ id
  | _ => True

instance (store : DocumentStore) (id : SessionId) (effect : Effect) :
    Decidable (effect.InTurn store id) := by
  cases effect <;> unfold Effect.InTurn <;> infer_instance

/-- What may happen to a store at once. A change raises the revision by one and leaves the old log
in place. -/
inductive Edit (store : DocumentStore) : Effect → DocumentStore → Prop where
  | nothing : Edit store .quiet store
  | created (s : Session) : Edit store .quiet (store.create s).2
  | subscribed (id : SessionId) : Edit store .quiet (store.subscribe id)
  | committed (id : SessionId) (f : Session → Session)
      (writes : ∀ s, store.find? id = some s →
        (f s).revision = s.revision + 1 ∧ s.log <+: (f s).log) :
      Edit store (.changes id) (store.commit id f)
  | told (place : Nat) : Edit store (.tells place) (store.tell place)

structure Assigned (store : DocumentStore) : Prop where
  observers : ∀ id, ∀ k ∈ store.observers id, k < store.observerCount
  notices : ∀ n ∈ store.notices, n.observer < store.observerCount

/-- An observer is on the list of one document once, and on no other list. -/
structure Watches (store : DocumentStore) (k : Nat) (id : SessionId) : Prop where
  assigned : k < store.observerCount
  once : ∀ other, (store.observers other).count k = if other = id then 1 else 0

/-- To be told of a change leaves the story as it is, unless the change is told out of turn. -/
theorem story_tell (h : store.Watches k id) :
    ((store.tell place).story k id).Perm (store.story k id) ∧
    (Effect.InTurn store id (.tells place) → (store.tell place).story k id = store.story k id) := by
  cases isPending : store.pending[place]? with
  | none =>
    rw [tell_of_none isPending]
    exact ⟨.refl _, fun _ => rfl⟩
  | some a =>
    obtain ⟨before, after, older, now, later⟩ := unsaid_tell isPending id
    have heard := told_tell (k := k) isPending
    rw [h.once] at heard
    by_cases here : a.document = id
    · rw [if_pos here] at now heard
      have told_later : store.story k id = (store.told k).map (·.toAnnouncement)
          ++ (before ++ a :: after) := by
        rw [story, now]
        simp
      have told_now : (store.tell place).story k id = (store.told k).map (·.toAnnouncement)
          ++ a :: (before ++ after) := by
        rw [story, heard, later]
        simp
      rw [told_later, told_now]
      refine ⟨List.perm_middle.symm.append_left _, fun in_turn => ?_⟩
      have first : before = [] := by
        refine List.eq_nil_iff_forall_not_mem.mpr fun b mem => ?_
        obtain ⟨passed, same⟩ := (older b).mp mem
        exact in_turn a isPending here b passed same
      rw [first]
      rfl
    · rw [if_neg here, List.append_nil] at now
      rw [if_neg here] at heard
      have same : (store.tell place).story k id = store.story k id := by
        rw [story, story, heard, later, now, List.replicate_zero, List.append_nil]
      exact ⟨.of_eq same, fun _ => same⟩

variable {effect : Effect}

/-- Numbers stay assigned while newcomers, and those who are told, have assigned numbers. -/
theorem Assigned.later (h : store.Assigned) (more : store.observerCount ≤ store'.observerCount)
    (watching : ∀ id, ∀ k ∈ store'.observers id,
      k ∈ store.observers id ∨ k < store'.observerCount)
    (heard : ∀ n ∈ store'.notices, n ∈ store.notices ∨ n.observer < store'.observerCount) :
    store'.Assigned where
  observers := by
    intro id k mem
    rcases watching id k mem with old | new
    · exact Nat.lt_of_lt_of_le (h.observers id k old) more
    · exact new
  notices := by
    intro n mem
    rcases heard n mem with old | new
    · exact Nat.lt_of_lt_of_le (h.notices n old) more
    · exact new

namespace Edit

/-- New observers have new numbers. -/
theorem assigned (h : store.Assigned) (edit : store.Edit effect store') : store'.Assigned := by
  cases edit with
  | nothing => exact h
  | created s =>
    exact ⟨fun id k mem => h.observers id k (observers_create ▸ mem), h.notices⟩
  | subscribed id =>
    cases found : store.find? id with
    | none => rwa [subscribe_of_none found]
    | some s =>
      have count := observerCount_subscribe found
      refine h.later (by omega) (fun other k mem => ?_) fun n mem => ?_
      · rw [observers_subscribe found] at mem
        rcases List.mem_append.mp mem with old | new
        · exact Or.inl old
        · split at new
          · have newest := List.mem_singleton.mp new
            exact Or.inr (by omega)
          · cases new
      · exact Or.inl (notices_subscribe ▸ mem)
  | committed id f _ =>
    exact h.later (Nat.le_of_eq observerCount_commit.symm)
      (fun other k mem => Or.inl (observers_commit ▸ mem))
      fun n mem => Or.inl (notices_commit ▸ mem)
  | told place =>
    cases isPending : store.pending[place]? with
    | none => rwa [tell_of_none isPending]
    | some a =>
      refine h.later (Nat.le_of_eq observerCount_tell.symm)
        (fun other k mem => Or.inl (observers_tell ▸ mem)) fun n mem => ?_
      rw [notices_tell isPending] at mem
      rcases List.mem_append.mp mem with old | new
      · exact Or.inl old
      · obtain ⟨k, watching, rfl⟩ := List.mem_map.mp new
        rw [observerCount_tell]
        exact Or.inr (h.observers a.document k watching)

/-- The changed document is at its next revision, and all others are as they were. -/
theorem session (found : store.find? id = some s) (edit : store.Edit effect store') :
    ∃ s', store'.find? id = some s' ∧ s.log <+: s'.log ∧
      (effect = .changes id ∧ s'.revision = s.revision + 1 ∨ effect ≠ .changes id ∧ s' = s) := by
  cases edit with
  | nothing => exact ⟨s, found, List.prefix_rfl, Or.inr ⟨nofun, rfl⟩⟩
  | created r =>
    exact ⟨s, find?_create_of_some found r, List.prefix_rfl, Or.inr ⟨nofun, rfl⟩⟩
  | subscribed document =>
    exact ⟨s, find?_subscribe.trans found, List.prefix_rfl, Or.inr ⟨nofun, rfl⟩⟩
  | committed document f writes =>
    by_cases same : document = id
    · subst same
      obtain ⟨raised, kept⟩ := writes s found
      exact ⟨f s, find?_commit.trans (find?_change_self found), kept, Or.inl ⟨rfl, raised⟩⟩
    · refine ⟨s, (find?_commit.trans (find?_change_of_ne same)).trans found, List.prefix_rfl,
        Or.inr ⟨?_, rfl⟩⟩
      intro h
      cases h
      exact same rfl
  | told place =>
    exact ⟨s, (find?_tell store place id).trans found, List.prefix_rfl, Or.inr ⟨nofun, rfl⟩⟩

/-- The story of an observer grows by the changes of its document and by nothing else. Telling it
out of turn changes the order of what was there. -/
theorem story (h : store.Watches k id) (found : store.find? id = some s)
    (found' : store'.find? id = some s') (edit : store.Edit effect store') :
    ∃ older, older.Perm (store.story k id) ∧
      (effect.InTurn store id → older = store.story k id) ∧
      store'.story k id = older ++ if effect = .changes id then [⟨id, s'⟩] else [] := by
  cases edit with
  | nothing => exact ⟨_, .refl _, fun _ => rfl, (List.append_nil _).symm⟩
  | created r => exact ⟨_, .refl _, fun _ => rfl, (List.append_nil _).symm⟩
  | subscribed document =>
    refine ⟨_, .refl _, fun _ => rfl, ?_⟩
    rw [DocumentStore.story, DocumentStore.told, notices_subscribe, unsaid, pending_subscribe]
    exact (List.append_nil _).symm
  | committed document f _ =>
    refine ⟨_, .refl _, fun _ => rfl, ?_⟩
    rw [DocumentStore.story, DocumentStore.told, notices_commit]
    cases at_document : store.find? document with
    | none =>
      have elsewhere : Effect.changes document ≠ .changes id := by
        rintro ⟨⟩
        cases found.symm.trans at_document
      rw [if_neg elsewhere, commit_of_none at_document]
      exact (List.append_nil _).symm
    | some r =>
      rw [unsaid_commit at_document]
      by_cases same : document = id
      · subst same
        cases found.symm.trans at_document
        cases (find?_commit.trans (find?_change_self found)).symm.trans found'
        rw [if_pos rfl, if_pos rfl, ← List.append_assoc]
        rfl
      · rw [if_neg same, if_neg fun h => same (Effect.changes.inj h), List.append_nil]
        exact (List.append_nil _).symm
  | told place =>
    obtain ⟨moved, kept⟩ := story_tell h
    exact ⟨_, moved, kept, (List.append_nil _).symm⟩

end Edit

end DocumentStore

end CardBattle
