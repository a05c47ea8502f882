import CardBattle.Proofs.Accepted
import CardBattle.Proofs.CallLogs
import CardBattle.Proofs.Interleaving
import CardBattle.Proofs.Observers

/-!
# Histories of documents

Open calls, queries, new documents, new observers and changes made by others come in any order. Of
all that, a document is changed by the second step of each call on it, unless the call made a
rematch, and by the changes of others. Each change is the next revision and keeps the log.

A change and the telling of its observers are two steps, and others may come between them. So an
observer is told of each change once, but of two changes in the order in which they come to their
second steps, and a newcomer is told of what was changed but not yet told when it came.
-/

namespace CardBattle

open DocumentStore

inductive Query where
  | playableCards (player : Seat)
  | availableAttackers (player : Seat)
  | attackTargets (attacker : InstanceId)

/-- The world after a question was answered. -/
def Query.ask (e : Engine) (w : World) : Query → World
  | .playableCards player => (e.playableCards player w).2
  | .availableAttackers player => (e.availableAttackers player w).2
  | .attackTargets attacker => (e.attackTargets attacker w).2

/-- What may happen to documents and around them. The end of a call and a change by someone else
have two steps each, and the second of both is to tell observers. -/
inductive Happening where
  | start (engine : Engine) (call : Call)
  | conclude (place : Nat)
  | touch (document : SessionId)
  | tell (place : Nat)
  | drift (definitions : DefinitionCache) (clock : Clock) (asked : List TargetRequest)
  | query (engine : Engine) (query : Query)
  | create (session : Session)
  | subscribe (document : SessionId)

namespace Traffic

def outset (definitions : DefinitionCache) (clock : Clock) (asked : List TargetRequest) :
    Traffic where
  world := { documents := .empty, definitions, clock, asked }

def withStore (t : Traffic) (documents : DocumentStore) : Traffic :=
  { t with world := { t.world with documents } }

/-- The traffic after something happened. -/
def happen (t : Traffic) : Happening → Traffic
  | .start engine call => t.step (.start engine call)
  | .conclude place =>
    match t.calls[place]? with
    | none => t
    | some o => ⟨(o.engine.conclude o.pending t.world).2, t.calls.eraseIdx place⟩
  | .touch document =>
    t.withStore (t.world.documents.commit document fun s => { s with revision := s.revision + 1 })
  | .tell place => t.withStore (t.world.documents.tell place)
  | .drift definitions clock asked => t.step (.drift definitions clock asked)
  | .query engine query => { t with world := query.ask engine t.world }
  | .create session => t.withStore (t.world.documents.create session).2
  | .subscribe document => t.withStore (t.world.documents.subscribe document)

def after (t : Traffic) (happenings : List Happening) : Traffic :=
  happenings.foldl happen t

/-- A call that comes to its end changes its document, unless it made a rematch. -/
def effect (t : Traffic) : Happening → Effect
  | .conclude place =>
    match t.calls[place]? with
    | none => .quiet
    | some o =>
      if o.call = .rematch ∧ (o.engine.conclude o.pending t.world).1.isAccepted = true then .quiet
      else .changes o.engine.document
  | .touch document => .changes document
  | .tell place => .tells place
  | _ => .quiet

/-- The sessions that the changes of a document left there, oldest first. -/
def versions (t : Traffic) (id : SessionId) : List Happening → List Session
  | [] => []
  | h :: happenings =>
    (if t.effect h = .changes id then ((t.happen h).world.documents.find? id).toList else [])
      ++ (t.happen h).versions id happenings

/-- Observers are told of the changes of a document in the order in which these were made. -/
def InTurn (t : Traffic) (id : SessionId) : List Happening → Prop
  | [] => True
  | h :: happenings =>
    (t.effect h).InTurn t.world.documents id ∧ (t.happen h).InTurn id happenings

instance decidableInTurn (t : Traffic) (id : SessionId) (happenings : List Happening) :
    Decidable (t.InTurn id happenings) :=
  match happenings with
  | [] => .isTrue trivial
  | h :: happenings =>
    have := decidableInTurn (t.happen h) id happenings
    inferInstanceAs (Decidable (_ ∧ _))

/-- The steps of a call that nobody interferes with. -/
def steps (t : Traffic) (e : Engine) (call : Call) : List Happening :=
  [.start e call, .conclude t.calls.length, .tell t.world.documents.pending.length]

end Traffic

/-! ### One happening -/

/-- A question changes no document. -/
theorem Query.ask_documents (query : Query) (e : Engine) (w : World) :
    (query.ask e w).documents = w.documents := by
  have asked : ∀ {α : Type} (ask : Session → Catalog → List α),
      (e.query ask w).2.documents = w.documents := by
    intro α ask
    unfold Engine.query
    split
    · rfl
    · split
      · rename_i loaded
        rw [Engine.of_loadCatalog loaded]
      · rename_i loaded
        rw [Engine.of_loadCatalog loaded]
  cases query with
  | playableCards player => exact asked _
  | availableAttackers player => exact asked _
  | attackTargets attacker => exact asked _

namespace OpenCall

variable {o : OpenCall} {w : World}

/-- The end of a call is one edit: a change of its document, or a new document for a rematch. -/
theorem Coherent.conclude_edit (h : o.Coherent w) : w.documents.Edit
    (if o.call = .rematch ∧ (o.engine.conclude o.pending w).1.isAccepted = true then .quiet
      else .changes o.engine.document)
    (o.engine.conclude o.pending w).2.documents := by
  obtain ⟨snapshot, d, taken, found, worked, state⟩ := h
  have verdict : o.pending.verdict = (o.engine.judge o.call snapshot o.opened).1 := by
    rw [worked]
  have failing : ∀ (error : GameError) (now : Nat) (s : Session),
      (Engine.failed o.pending error now s).revision = s.revision + 1 ∧
        s.log <+: (Engine.failed o.pending error now s).log :=
    fun error now s => ⟨rfl, Session.log_prefix_record _⟩
  cases outcome : o.pending.verdict with
  | reject error =>
    rw [Engine.conclude_reject outcome, if_neg (by rintro ⟨-, accepted⟩; cases accepted)]
    exact .committed _ _ fun s _ => failing error w.now s
  | create session =>
    have again := (Engine.judge_create (verdict.symm.trans outcome)).1
    rw [Engine.conclude_create outcome, if_pos ⟨again, rfl⟩]
    exact .created session
  | commit base session =>
    obtain ⟨other, rfl, yields⟩ := Engine.judge_commit (verdict.symm.trans outcome)
    rw [if_neg fun h => other h.1]
    by_cases current : d.revision = snapshot.revision
    · have same : d = snapshot := by
        rcases state with same | later
        · exact same
        · omega
      subst same
      rw [Engine.conclude_current outcome found rfl]
      refine .committed _ _ fun s found' => ?_
      cases found.symm.trans found'
      obtain ⟨catalog, t, -, ran, rfl⟩ := yields
      refine ⟨Engine.revision_committed _ _ _ _, ?_⟩
      rw [Engine.committed, if_pos rfl]
      exact Call.log_prefix_play ran
    · rw [Engine.conclude_stale outcome found current]
      exact .committed _ _ fun s _ => failing _ w.now s

end OpenCall

namespace Traffic

variable {t : Traffic} {id : SessionId} {s s' : Session} {k : Nat}

/-- Whatever happens is at most one edit of the store. -/
theorem happen_edit (coherent : t.Coherent) (h : Happening) :
    t.world.documents.Edit (t.effect h) (t.happen h).world.documents := by
  cases h with
  | start engine call =>
    have kept := Engine.start_documents engine call t.world
    unfold happen step
    dsimp only
    split
    · rename_i world started
      rw [started] at kept
      rw [show world.documents = t.world.documents from kept]
      exact .nothing
    · rename_i pending world started
      rw [started] at kept
      rw [show world.documents = t.world.documents from kept]
      exact .nothing
  | conclude place =>
    unfold happen effect
    dsimp only
    cases isOpen : t.calls[place]? with
    | none => exact .nothing
    | some o => exact (coherent o (List.mem_of_getElem? isOpen)).conclude_edit
  | touch document =>
    exact .committed document (fun s => { s with revision := s.revision + 1 })
      fun s _ => ⟨rfl, List.prefix_rfl⟩
  | tell place => exact .told place
  | drift definitions clock asked => exact .nothing
  | query engine query =>
    change Edit _ .quiet (query.ask engine t.world).documents
    rw [Query.ask_documents]
    exact .nothing
  | create session => exact .created session
  | subscribe document => exact .subscribed document

/-- Open calls stay coherent, whatever happens. -/
theorem Coherent.happen (coherent : t.Coherent) (h : Happening) : (t.happen h).Coherent := by
  have edit := happen_edit coherent h
  have advances : t.world.documents.Advances (t.happen h).world.documents := by
    intro id d found
    obtain ⟨d', found', -, ⟨-, raised⟩ | ⟨-, same⟩⟩ := edit.session found
    · exact ⟨d', found', Or.inr (by omega)⟩
    · exact ⟨d', found', Or.inl same⟩
  cases h with
  | start engine call => exact coherent.step _
  | drift definitions clock asked => exact coherent.step _
  | conclude place =>
    unfold Traffic.happen at advances ⊢
    dsimp only at advances ⊢
    split
    · exact coherent
    · rename_i o isOpen
      rw [isOpen] at advances
      intro other mem
      exact (coherent other (List.mem_of_mem_eraseIdx mem)).advance advances
  | touch document => exact fun o mem => (coherent o mem).advance advances
  | tell place => exact fun o mem => (coherent o mem).advance advances
  | query engine query => exact fun o mem => (coherent o mem).advance advances
  | create session => exact fun o mem => (coherent o mem).advance advances
  | subscribe document => exact fun o mem => (coherent o mem).advance advances

/-- A change leaves one version of its document. -/
theorem versions_cons (coherent : t.Coherent) (h : Happening) (happenings : List Happening)
    (found : t.world.documents.find? id = some s) :
    ∃ m, (t.happen h).world.documents.find? id = some m ∧
      t.versions id (h :: happenings) = (if t.effect h = .changes id then [m] else [])
        ++ (t.happen h).versions id happenings := by
  obtain ⟨m, found', -, -⟩ := (happen_edit coherent h).session found
  refine ⟨m, found', ?_⟩
  rw [versions, found']
  rfl

/-- A document has one version more if it is changed. -/
theorem length_versions_cons (coherent : t.Coherent) (h : Happening) (happenings : List Happening)
    (found : t.world.documents.find? id = some s) :
    (t.versions id (h :: happenings)).length = (if t.effect h = .changes id then 1 else 0)
      + ((t.happen h).versions id happenings).length := by
  obtain ⟨m, -, grown⟩ := versions_cons coherent h happenings found
  rw [grown, List.length_append]
  split <;> rfl

/-! ### Whole calls -/

theorem changes_iff {again : Prop} [Decidable again] {document : SessionId} :
    (if again then Effect.quiet else .changes document) = .changes id ↔
      document = id ∧ ¬again := by
  split <;> simp [*]

theorem happen_start (e : Engine) (call : Call)
    (found : t.world.documents.find? e.document = some s) :
    t.happen (.start e call) = ⟨(e.judge call s t.world).2, t.calls ++
      [⟨e, call, t.world, ⟨call.action, call.player s, (e.judge call s t.world).1⟩⟩]⟩ := by
  simp [happen, step, Engine.start, found]

/-- A call that nobody interferes with is its three steps, one after the other. -/
theorem after_steps (e : Engine) (call : Call)
    (found : t.world.documents.find? e.document = some s) :
    t.after (t.steps e call) = ⟨(e.perform call t.world).2, t.calls⟩ := by
  rw [after, steps, List.foldl_cons, List.foldl_cons, List.foldl_cons, happen_start e call found,
    Engine.perform_of_some found, Engine.finish, Engine.judge_documents]
  simp only [happen, withStore, List.getElem?_concat_length, List.foldl_nil]
  rw [List.eraseIdx_append_of_length_le (Nat.le_refl _), Nat.sub_self]
  exact congrArg _ (List.append_nil _)

/-- A call changes its document where it comes to its end, unless it has made a rematch. -/
theorem effect_conclude (e : Engine) (call : Call)
    (found : t.world.documents.find? e.document = some s) :
    (t.happen (.start e call)).effect (.conclude t.calls.length)
      = if call = .rematch ∧ (e.perform call t.world).1.isAccepted = true then .quiet
        else .changes e.document := by
  rw [happen_start e call found, Engine.perform_of_some found]
  simp only [effect, List.getElem?_concat_length]
  rfl

/-- What the steps of calls and queries change. A call that comes to its end changes its document
once, unless it made a rematch; a call that nobody interferes with has such an end; and nothing else
of calls and queries changes a document. -/
structure Accounted (t : Traffic) (id : SessionId) : Prop where
  start : ∀ e call, t.versions id [.start e call] = []
  conclude : ∀ (place : Nat) (o : OpenCall), t.calls[place]? = some o →
    (t.versions id [.conclude place]).length =
      if o.engine.document = id ∧ ¬(o.call = .rematch ∧
        (o.engine.conclude o.pending t.world).1.isAccepted = true) then 1 else 0
  perform : ∀ (e : Engine) (call : Call) (s : Session),
    t.world.documents.find? e.document = some s →
    t.after (t.steps e call) = ⟨(e.perform call t.world).2, t.calls⟩ ∧
    (t.versions id (t.steps e call)).length =
      if e.document = id ∧ ¬(call = .rematch ∧
        (e.perform call t.world).1.isAccepted = true) then 1 else 0
  query : ∀ e query, t.versions id [.query e query] = []

/-- At all times, calls and queries are accounted for. -/
theorem accounted (coherent : t.Coherent) (found : t.world.documents.find? id = some s) :
    t.Accounted id where
  start _ _ := rfl
  conclude place o isOpen := by
    have changes : t.effect (.conclude place) = .changes id ↔ o.engine.document = id ∧
        ¬(o.call = .rematch ∧ (o.engine.conclude o.pending t.world).1.isAccepted = true) := by
      rw [effect, isOpen]
      exact changes_iff
    rw [length_versions_cons coherent _ _ found]
    simp only [changes]
    rfl
  perform e call s' found' := by
    refine ⟨after_steps e call found', ?_⟩
    have started := coherent.happen (.start e call)
    obtain ⟨m, found₁, -⟩ := versions_cons coherent (.start e call) [] found
    have changes : (t.happen (.start e call)).effect (.conclude t.calls.length) = .changes id ↔
        e.document = id ∧ ¬(call = .rematch ∧ (e.perform call t.world).1.isAccepted = true) := by
      rw [effect_conclude e call found']
      exact changes_iff
    have quiet : t.effect (.start e call) ≠ .changes id := nofun
    rw [steps, length_versions_cons coherent _ _ found, if_neg quiet, Nat.zero_add,
      length_versions_cons started _ _ found₁]
    simp only [changes]
    rfl
  query _ _ := rfl

/-! ### One happening after another -/

def opening : Traffic :=
  (outset .empty (.still 0) []).after [.create .showdown]

def watched : Traffic :=
  opening.happen (.subscribe ⟨1⟩)

end Traffic

end CardBattle
