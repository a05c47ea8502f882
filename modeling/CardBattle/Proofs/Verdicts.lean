import CardBattle.Engine
import CardBattle.Proofs.DocumentViews
import CardBattle.Proofs.Outcomes

/-!
# The two steps of a call

The first step of a call leaves all documents as they are. Its verdict is worked out from the
snapshot alone, and the final step brings a document to its next revision or does not touch it.
-/

namespace CardBattle

namespace Engine

variable {e : Engine} {call : Call} {w w' : World} {s s' : Session} {p : Pending}

/-- The rule of a call succeeds on a session, and makes this session of it. -/
def Yields (e : Engine) (call : Call) (w : World) (s s' : Session) : Prop :=
  ∃ catalog t, (e.loadCatalog s call.cards w).1 = .ok catalog ∧
    call.play (e.context catalog w) ⟨s, w.asked⟩ = .ok () t ∧ t.session = s'

/-- A rematch is prepared from a session, and its game started. -/
def Replays (e : Engine) (w : World) (s s' : Session) : Prop :=
  ∃ fresh starting catalog t, e.rematch s = .ok (fresh, starting) ∧
    (e.loadCatalog fresh [] w).1 = .ok catalog ∧
    Play.startGame (e.context catalog w) starting ⟨fresh, w.asked⟩ = .ok () t ∧ t.session = s'

/-! ### The first step -/

theorem work_documents {catalog : Catalog} {step : Context → Play Unit} :
    (e.work catalog s w step).2.documents = w.documents := by
  unfold work
  split <;> rfl

/-- A rule is tried at a table of its own. -/
theorem work_ok_iff {catalog : Catalog} {step : Context → Play Unit} :
    (e.work catalog s w step).1 = .ok s' ↔
      ∃ t, step (e.context catalog w) ⟨s, w.asked⟩ = .ok () t ∧ t.session = s' := by
  unfold work
  split
  · rename_i t ran
    constructor
    · intro h
      cases h
      exact ⟨t, ran, rfl⟩
    · rintro ⟨t', ran', rfl⟩
      cases ran.symm.trans ran'
      rfl
  · rename_i ran
    constructor
    · intro h
      cases h
    · rintro ⟨t', ran', -⟩
      cases ran.symm.trans ran'

/-- Loading definitions changes nothing in the world but the cache. -/
theorem of_loadCatalog {extra : List CardId} {answer : Except GameError Catalog}
    (h : e.loadCatalog s extra w = (answer, w')) :
    w' = { w with definitions := w'.definitions } := by
  have after : (e.loadCatalog s extra w).2 = w' := congrArg Prod.snd h
  rw [← after]
  rfl

theorem prepare_documents (e : Engine) (s : Session) (extra : List CardId) (w : World)
    (step : Context → Play Unit) : (e.prepare s extra step w).2.documents = w.documents := by
  unfold prepare
  split
  · rename_i loaded
    rw [of_loadCatalog loaded]
  · rename_i loaded
    rw [work_documents, of_loadCatalog loaded]

/-- A rule is tried once the definitions are loaded. -/
theorem prepare_ok_iff {extra : List CardId} {step : Context → Play Unit} :
    (e.prepare s extra step w).1 = .ok s' ↔
      ∃ catalog t, (e.loadCatalog s extra w).1 = .ok catalog ∧
        step (e.context catalog w) ⟨s, w.asked⟩ = .ok () t ∧ t.session = s' := by
  unfold prepare
  split
  · rename_i loaded
    simp [loaded]
  · rename_i catalog w₁ loaded
    rw [work_ok_iff, loaded, of_loadCatalog loaded]
    simp [context]

/-- No document changes while a call is judged. -/
theorem judge_documents (e : Engine) (call : Call) (s : Session) (w : World) :
    (e.judge call s w).2.documents = w.documents := by
  unfold judge
  split
  · split
    · rfl
    · rename_i fresh starting _
      have kept := prepare_documents e fresh [] w fun ctx => Play.startGame ctx starting
      split
      · rename_i h
        rw [h] at kept
        exact kept
      · rename_i h
        rw [h] at kept
        exact kept
  · have kept := prepare_documents e s call.cards w call.play
    split
    · rename_i h
      rw [h] at kept
      exact kept
    · rename_i h
      rw [h] at kept
      exact kept

/-- A verdict to commit holds what the rule of the call made of the snapshot. -/
theorem judge_commit {base : Nat} (h : (e.judge call s w).1 = .commit base s') :
    call ≠ .rematch ∧ base = s.revision ∧ e.Yields call w s s' := by
  unfold judge at h
  split at h
  · split at h
    · cases h
    · split at h <;> cases h
  · rename_i other
    split at h
    · cases h
    · rename_i prepared
      cases h
      exact ⟨other, rfl, prepare_ok_iff.mp (congrArg Prod.fst prepared)⟩

/-- A rule that succeeds is to be committed on the revision it started from. -/
theorem judge_of_yields (other : call ≠ .rematch) (yields : e.Yields call w s s') :
    (e.judge call s w).1 = .commit s.revision s' := by
  have prepared := prepare_ok_iff.mpr yields
  unfold judge
  split
  · exact absurd rfl other
  · split
    · rename_i failed
      rw [failed] at prepared
      cases prepared
    · rename_i done
      rw [done] at prepared
      cases prepared
      rfl

/-- A call is only rejected if its rule fails. -/
theorem judge_reject {error : GameError} (h : (e.judge call s w).1 = .reject error)
    (other : call ≠ .rematch) : ¬e.Yields call w s s' := by
  intro yields
  rw [judge_of_yields other yields] at h
  cases h

/-- Only a rematch makes a new document. -/
theorem judge_create (h : (e.judge call s w).1 = .create s') :
    call = .rematch ∧ e.Replays w s s' := by
  unfold judge at h
  split at h
  · split at h
    · cases h
    · rename_i fresh starting made
      split at h
      · cases h
      · rename_i prepared
        cases h
        obtain ⟨catalog, t, loaded, ran, same⟩ := prepare_ok_iff.mp (congrArg Prod.fst prepared)
        exact ⟨rfl, fresh, starting, catalog, t, made, loaded, ran, same⟩
  · split at h <;> cases h

theorem judge_of_replays (replays : e.Replays w s s') :
    (e.judge .rematch s w).1 = .create s' := by
  obtain ⟨fresh, starting, catalog, t, made, loaded, ran, same⟩ := replays
  have prepared : (e.prepare fresh [] (fun ctx => Play.startGame ctx starting) w).1 = .ok s' :=
    prepare_ok_iff.mpr ⟨catalog, t, loaded, ran, same⟩
  unfold judge
  rw [made]
  dsimp only
  split
  · rename_i failed
    rw [failed] at prepared
    cases prepared
  · rename_i done
    rw [done] at prepared
    cases prepared
    rfl

theorem start_eq_some (h : e.start call w = (some p, w')) :
    ∃ s, w.documents.find? e.document = some s ∧
      p = ⟨call.action, call.player s, (e.judge call s w).1⟩ ∧ w' = (e.judge call s w).2 := by
  unfold start at h
  split at h
  · cases h
  · rename_i s found
    cases h
    exact ⟨s, found, rfl, rfl⟩

/-- The first step of a call changes no document. -/
theorem start_documents (e : Engine) (call : Call) (w : World) :
    (e.start call w).2.documents = w.documents := by
  unfold start
  split
  · rfl
  · exact judge_documents e call _ w

/-! ### The final step -/

theorem revision_committed (base now : Nat) (session d : Session) :
    (committed p base session now d).revision = d.revision + 1 := by
  unfold committed
  split
  · rename_i same
    rw [same]
  · rfl

variable {error : GameError} {session d : Session} {base : Nat}

theorem conclude_reject (h : p.verdict = .reject error) : e.conclude p w =
    (.refused, { w with documents := w.documents.commit e.document (failed p error w.now) }) := by
  simp [conclude, h]

theorem conclude_create (h : p.verdict = .create session) : e.conclude p w =
    (.created (w.documents.create session).1,
      { w with documents := (w.documents.create session).2 }) := by
  simp [conclude, h]

theorem conclude_missing (h : p.verdict = .commit base session)
    (missing : w.documents.find? e.document = none) : e.conclude p w = (.refused, w) := by
  simp [conclude, h, missing]

/-- The document is still at the revision that the call started from. -/
theorem conclude_current (h : p.verdict = .commit base session)
    (found : w.documents.find? e.document = some d) (current : d.revision = base) :
    e.conclude p w = (.accepted, { w with
      documents := w.documents.commit e.document (committed p base session w.now) }) := by
  simp [conclude, h, found, current]

/-- The document has come to another revision in the meantime. -/
theorem conclude_stale (h : p.verdict = .commit base session)
    (found : w.documents.find? e.document = some d) (stale : d.revision ≠ base) :
    e.conclude p w = (.refused, { w with
      documents := w.documents.commit e.document
        (failed p (.conflict base d.revision) w.now) }) := by
  have same : w.documents.commit e.document (committed p base session w.now)
      = w.documents.commit e.document (failed p (.conflict base d.revision) w.now) := by
    apply DocumentStore.commit_congr found
    simp [committed, stale]
  rw [← same]
  simp [conclude, h, found, stale]

theorem finish_reject (h : p.verdict = .reject error) : e.finish p w =
    (.refused, { w with documents := w.documents.change e.document (failed p error w.now) }) := by
  rw [finish, conclude_reject h]
  rfl

theorem finish_create (h : p.verdict = .create session) : e.finish p w =
    (.created (w.documents.create session).1,
      { w with documents := (w.documents.create session).2 }) := by
  have quiet : (w.documents.create session).2.tell w.documents.pending.length
      = (w.documents.create session).2 :=
    DocumentStore.tell_of_none (List.getElem?_eq_none (Nat.le_refl _))
  rw [finish, conclude_create h]
  dsimp only
  rw [quiet]

/-- Nothing is left to do for a document that is gone. -/
theorem finish_missing (h : p.verdict = .commit base session)
    (missing : w.documents.find? e.document = none) : e.finish p w = (.refused, w) := by
  have quiet : w.documents.tell w.documents.pending.length = w.documents :=
    DocumentStore.tell_of_none (List.getElem?_eq_none (Nat.le_refl _))
  rw [finish, conclude_missing h missing]
  dsimp only
  rw [quiet]

theorem finish_current (h : p.verdict = .commit base session)
    (found : w.documents.find? e.document = some d) (current : d.revision = base) :
    e.finish p w = (.accepted, { w with
      documents := w.documents.change e.document (committed p base session w.now) }) := by
  rw [finish, conclude_current h found current]
  rfl

/-- A verdict on an older revision is refused. -/
theorem finish_stale (h : p.verdict = .commit base session)
    (found : w.documents.find? e.document = some d) (stale : d.revision ≠ base) :
    e.finish p w = (.refused, { w with
      documents := w.documents.change e.document
        (failed p (.conflict base d.revision) w.now) }) := by
  rw [finish, conclude_stale h found stale]
  rfl

/-! ### Both steps at once -/

theorem perform_of_none (missing : w.documents.find? e.document = none) :
    e.perform call w = (.refused, w) := by
  simp [perform, performAmid, start, missing]

theorem perform_of_some (found : w.documents.find? e.document = some s) : e.perform call w
    = e.finish ⟨call.action, call.player s, (e.judge call s w).1⟩ (e.judge call s w).2 := by
  simp [perform, performAmid, start, found]

/-- The reply to a call on a document, and what becomes of the documents. -/
inductive Answers (e : Engine) (call : Call) (w : World) (s : Session) :
    Reply → DocumentStore → Prop where
  | accepted (s' : Session) (other : call ≠ .rematch) (yields : e.Yields call w s s') :
      Answers e call w s .accepted
        (w.documents.change e.document fun _ => { s' with revision := s.revision + 1 })
  | refused (p : Pending) (error : GameError) (now : Nat)
      (fails : call ≠ .rematch → ∀ s', ¬e.Yields call w s s') :
      Answers e call w s .refused (w.documents.change e.document (failed p error now))
  | created (s' : Session) (again : call = .rematch) (replays : e.Replays w s s') :
      Answers e call w s (.created (w.documents.create s').1) (w.documents.create s').2

/-- Every call on a document has one of these answers. -/
theorem perform_answers (e : Engine) (call : Call)
    (found : w.documents.find? e.document = some s) :
    e.Answers call w s (e.perform call w).1 (e.perform call w).2.documents := by
  have documents := judge_documents e call s w
  rw [perform_of_some found]
  cases verdict : (e.judge call s w).1 with
  | reject error =>
    rw [finish_reject rfl, documents]
    exact .refused _ error _ fun other _ => judge_reject verdict other
  | create s' =>
    obtain ⟨again, replays⟩ := judge_create verdict
    rw [finish_create rfl, documents]
    exact .created s' again replays
  | commit base s' =>
    obtain ⟨other, rfl, yields⟩ := judge_commit verdict
    rw [finish_current rfl (documents ▸ found) rfl, documents]
    have same := DocumentStore.change_congr (f := committed ⟨call.action, call.player s,
        .commit s.revision s'⟩ s.revision s' (e.judge call s w).2.now)
      (g := fun _ => { s' with revision := s.revision + 1 }) found (by simp [committed])
    rw [same]
    exact .accepted s' other yields

/-- A call is accepted exactly if its rule succeeds. -/
theorem perform_accepted_iff (found : w.documents.find? e.document = some s)
    (other : call ≠ .rematch) :
    (e.perform call w).1 = .accepted ↔ ∃ s', e.Yields call w s s' := by
  have answers := perform_answers e call found
  generalize (e.perform call w).1 = reply at answers ⊢
  generalize (e.perform call w).2.documents = documents at answers
  cases answers with
  | accepted s' _ yields => exact ⟨fun _ => ⟨s', yields⟩, fun _ => rfl⟩
  | refused _ _ _ fails =>
    simp only [reduceCtorEq, false_iff, not_exists]
    exact fails other
  | created _ again => exact absurd again other

end Engine

end CardBattle
