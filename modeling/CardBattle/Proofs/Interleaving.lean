import CardBattle.Proofs.Verdicts
import CardBattle.Random.Shuffle

/-!
# Calls in any order

Many calls may be open at once, and their steps may come in any order, between changes made by
others. A final step compares revisions only. That this suffices is an invariant of the whole
traffic: whatever changes a document raises its revision, so that a document of the same revision
as a snapshot is that snapshot.
-/

namespace CardBattle

/-- A call between its two steps, with the world as it was at the first. -/
structure OpenCall where
  engine : Engine
  call : Call
  opened : World
  pending : Pending

structure Traffic where
  world : World
  calls : List OpenCall := []

namespace Traffic

inductive Event where
  /-- A call takes its snapshot and is worked out. -/
  | start (engine : Engine) (call : Call)
  /-- The open call at a place of the list takes its final step. -/
  | finish (place : Nat)
  /-- Someone else raises the revision of a document. -/
  | touch (document : SessionId)
  /-- Time passes, definitions are fetched, choosers are asked. -/
  | drift (definitions : DefinitionCache) (clock : Clock) (asked : List TargetRequest)

def step (t : Traffic) : Event → Traffic
  | .start engine call =>
    match engine.start call t.world with
    | (none, world) => { t with world }
    | (some pending, world) => ⟨world, t.calls ++ [⟨engine, call, t.world, pending⟩]⟩
  | .finish place =>
    match t.calls[place]? with
    | none => t
    | some o => ⟨(o.engine.finish o.pending t.world).2, t.calls.eraseIdx place⟩
  | .touch document =>
    { t with world := { t.world with documents := t.world.documents.touch document } }
  | .drift definitions clock asked =>
    { t with world := { t.world with definitions, clock, asked } }

def run (t : Traffic) (events : List Event) : Traffic :=
  events.foldl step t

end Traffic

namespace DocumentStore

def Advances (before after : DocumentStore) : Prop :=
  ∀ id d, before.find? id = some d →
    ∃ d', after.find? id = some d' ∧ (d' = d ∨ d.revision < d'.revision)

variable {store : DocumentStore}

theorem Advances.refl : store.Advances store :=
  fun _ d h => ⟨d, h, Or.inl rfl⟩

theorem Advances.tell {after : DocumentStore} (h : store.Advances after) (place : Nat) :
    store.Advances (after.tell place) := by
  intro id d found
  obtain ⟨d', found', state⟩ := h id d found
  exact ⟨d', (find?_tell after place id).trans found', state⟩

theorem advances_commit {id : SessionId} {f : Session → Session}
    (raises : ∀ d, (f d).revision = d.revision + 1) : store.Advances (store.commit id f) := by
  intro other d h
  by_cases same : id = other
  · subst same
    refine ⟨f d, find?_commit.trans (find?_change_self h), Or.inr ?_⟩
    rw [raises]
    omega
  · exact ⟨d, find?_commit.trans ((find?_change_of_ne same).trans h), Or.inl rfl⟩

/-- A change that raises the revision advances its document and leaves the others. -/
theorem advances_change {id : SessionId} {f : Session → Session}
    (raises : ∀ d, (f d).revision = d.revision + 1) : store.Advances (store.change id f) :=
  (advances_commit raises).tell _

/-- A new document advances the store. -/
theorem advances_create (s : Session) : store.Advances (store.create s).2 :=
  fun _ d h => ⟨d, find?_create_of_some h s, Or.inl rfl⟩

end DocumentStore

open DocumentStore

namespace Engine

variable {e : Engine} {w : World} {p : Pending}

theorem conclude_advances : w.documents.Advances (e.conclude p w).2.documents := by
  unfold conclude
  split
  · exact advances_commit fun _ => rfl
  · exact advances_create _
  · split
    · exact Advances.refl
    · exact advances_commit (revision_committed _ _ _)

/-- Every final step advances the documents. -/
theorem finish_advances : w.documents.Advances (e.finish p w).2.documents :=
  conclude_advances.tell _

end Engine

namespace OpenCall

/-- A call was worked out from a snapshot of a document that is still there, either unchanged or at
a higher revision. -/
def Coherent (o : OpenCall) (w : World) : Prop :=
  ∃ snapshot d, o.opened.documents.find? o.engine.document = some snapshot ∧
    w.documents.find? o.engine.document = some d ∧
    o.pending = ⟨o.call.action, o.call.player snapshot,
      (o.engine.judge o.call snapshot o.opened).1⟩ ∧
    (d = snapshot ∨ snapshot.revision < d.revision)

/-- What a reply tells about the document that the final step found and left. An accepted call found
its snapshot, and left what its rule makes of that document, at the next revision. A refused call
left a failure entry of the calling player and the next revision. A call that created another
document left this one as it was. -/
def Settles (o : OpenCall) (snapshot d d' : Session) : Reply → Prop
  | .accepted => d = snapshot ∧ ∃ s, o.engine.Yields o.call o.opened d s ∧
      d' = { s with revision := d.revision + 1 }
  | .refused => ∃ entry : LogEntry, entry.player = o.call.player snapshot ∧
      entry.action = .failure ∧
      d' = { d with log := d.log ++ [entry], revision := d.revision + 1 }
  | .created id => o.call = .rematch ∧ id ≠ o.engine.document ∧ d' = d

theorem settles_failed {o : OpenCall} {snapshot d : Session} {error : GameError} {now : Nat}
    (player : o.pending.player = o.call.player snapshot) :
    o.Settles snapshot d (Engine.failed o.pending error now d) .refused :=
  ⟨_, player, rfl, rfl⟩

/-- An open call stays coherent while documents advance. -/
theorem Coherent.advance {o : OpenCall} {w w' : World} (h : o.Coherent w)
    (advances : w.documents.Advances w'.documents) : o.Coherent w' := by
  obtain ⟨snapshot, d, taken, found, worked, state⟩ := h
  obtain ⟨d', found', state'⟩ := advances _ _ found
  refine ⟨snapshot, d', taken, found', worked, ?_⟩
  rcases state' with rfl | later
  · exact state
  · rcases state with rfl | later'
    · exact Or.inr later
    · exact Or.inr (Nat.lt_trans later' later)

/-- A call is coherent when it is opened. -/
theorem coherent_start {e : Engine} {call : Call} {w w' : World} {p : Pending}
    (h : e.start call w = (some p, w')) : Coherent ⟨e, call, w, p⟩ w' := by
  obtain ⟨snapshot, found, worked, rfl⟩ := Engine.start_eq_some h
  refine ⟨snapshot, snapshot, found, ?_, worked, Or.inl rfl⟩
  rw [Engine.judge_documents]
  exact found

end OpenCall

namespace Traffic

/-- Every open call is coherent. -/
def Coherent (t : Traffic) : Prop :=
  ∀ o ∈ t.calls, o.Coherent t.world

theorem Coherent.step {t : Traffic} (h : t.Coherent) (event : Event) : (t.step event).Coherent := by
  cases event with
  | start engine call =>
    have kept := Engine.start_documents engine call t.world
    unfold Traffic.step
    dsimp only
    split
    · rename_i world started
      rw [started] at kept
      intro o mem
      exact (h o mem).advance (by rw [kept]; exact Advances.refl)
    · rename_i pending world started
      rw [started] at kept
      intro o mem
      rcases List.mem_append.mp mem with old | new
      · exact (h o old).advance (by rw [kept]; exact Advances.refl)
      · rw [List.mem_singleton.mp new]
        exact OpenCall.coherent_start started
  | finish place =>
    unfold Traffic.step
    dsimp only
    split
    · exact h
    · intro o mem
      exact (h o (List.mem_of_mem_eraseIdx mem)).advance Engine.finish_advances
  | touch document =>
    intro o mem
    exact (h o mem).advance (advances_change fun _ => rfl)
  | drift definitions clock asked =>
    intro o mem
    exact (h o mem).advance Advances.refl

/-- After any events, every open call is coherent. -/
theorem coherent_run (events : List Event) {t : Traffic} (h : t.Coherent) :
    (t.run events).Coherent := by
  induction events generalizing t with
  | nil => exact h
  | cons event events ih => exact ih (h.step event)

/-- Whatever happened since the snapshot of an open call, its final step settles the document that
it finds. -/
theorem finish_after_any_order (w : World) (events : List Event) (place : Nat) (o : OpenCall)
    (isOpen : (Traffic.run ⟨w, []⟩ events).calls[place]? = some o) :
    ∃ snapshot d d' reply world,
      o.opened.documents.find? o.engine.document = some snapshot ∧
      (Traffic.run ⟨w, []⟩ events).world.documents.find? o.engine.document = some d ∧
      o.engine.finish o.pending (Traffic.run ⟨w, []⟩ events).world = (reply, world) ∧
      world.documents.find? o.engine.document = some d' ∧ o.Settles snapshot d d' reply := by
  have coherent : (Traffic.run ⟨w, []⟩ events).Coherent :=
    coherent_run events fun _ mem => absurd mem List.not_mem_nil
  obtain ⟨snapshot, d, taken, found, worked, state⟩ :=
    coherent o (List.mem_of_getElem? isOpen)
  generalize (Traffic.run ⟨w, []⟩ events).world = now at found ⊢
  have verdict : o.pending.verdict = (o.engine.judge o.call snapshot o.opened).1 := by
    rw [worked]
  have player : o.pending.player = o.call.player snapshot := by
    rw [worked]
  cases outcome : o.pending.verdict with
  | reject error =>
    refine ⟨snapshot, d, _, _, _, taken, found, Engine.finish_reject outcome,
      find?_change_self found, ?_⟩
    exact OpenCall.settles_failed player
  | create session =>
    refine ⟨snapshot, d, d, _, _, taken, found, Engine.finish_create outcome,
      find?_create_of_some found session, ?_⟩
    exact ⟨(Engine.judge_create (verdict.symm.trans outcome)).1, ne_created found session, rfl⟩
  | commit base session =>
    obtain ⟨_, rfl, yields⟩ := Engine.judge_commit (verdict.symm.trans outcome)
    by_cases current : d.revision = snapshot.revision
    · have same : d = snapshot := by
        rcases state with same | later
        · exact same
        · omega
      subst same
      refine ⟨d, d, _, _, _, taken, found, Engine.finish_current outcome found rfl,
        find?_change_self found, rfl, session, yields, ?_⟩
      simp [Engine.committed]
    · refine ⟨snapshot, d, _, _, _, taken, found, Engine.finish_stale outcome found current,
        find?_change_self found, ?_⟩
      exact OpenCall.settles_failed player

/-- Two players hand in their decks at once: the second final step finds a later document. -/
theorem finish_after_race : ∃ e w o, let events := [.start e (.startWithDeck ⟨0⟩ [⟨1⟩]),
      .start e (.startWithDeck ⟨1⟩ [⟨1⟩]), .finish 0]
    Engine.newGame ["Ann", "Bob"] {} (.ofCatalog (.ofList [.creature ⟨1⟩ "Wolf" 1 2 2])) .first
      ⟨.empty, .empty, .still 0, []⟩ = .ok (e, w) ∧
    (Traffic.run ⟨w, []⟩ events).calls[0]? = some o ∧
    o.call = .startWithDeck ⟨1⟩ [⟨1⟩] ∧
    ∃ snapshot d d' reply world,
      o.opened.documents.find? o.engine.document = some snapshot ∧
      (Traffic.run ⟨w, []⟩ events).world.documents.find? o.engine.document = some d ∧
      o.engine.finish o.pending (Traffic.run ⟨w, []⟩ events).world = (reply, world) ∧
      world.documents.find? o.engine.document = some d' ∧ o.Settles snapshot d d' reply :=
  ⟨_, _, _, rfl, rfl, rfl, finish_after_any_order _ _ 0 _ rfl⟩

end Traffic

end CardBattle
