import CardBattle.Proofs.HeedlessPlays
import CardBattle.Proofs.NewGames
import CardBattle.Proofs.StaticSources

/-!
# Refused calls are invisible to play

Take the refused calls out of a run. With a source of definitions that does not change and a chooser
without memory, the other calls are answered as before, and the document at the end is the same but
for its revision and the failure entries in its log.
-/

namespace CardBattle

open DocumentStore

/-- A call and the clock by which it is made. -/
structure TimedCall where
  clock : Clock
  call : Call

namespace Engine

def performAt (e : Engine) (c : TimedCall) (w : World) : Reply × World :=
  e.perform c.call { w with clock := c.clock }

/-- Makes calls one after another, and pairs each with its reply. -/
def performAll (e : Engine) : List TimedCall → World → List (TimedCall × Reply) × World
  | [], w => ([], w)
  | c :: calls, w =>
    let (reply, w) := e.performAt c w
    let (replies, w) := e.performAll calls w
    ((c, reply) :: replies, w)

def taken (e : Engine) (calls : List TimedCall) (w : World) : List (TimedCall × Reply) :=
  (e.performAll calls w).1.filter (·.2.isAccepted)

/-- The world `w'` is what `w` would be without failures, as far as calls on the engine can tell:
its document has no failure entries, as many documents exist, and the same definitions can be
had. -/
structure Shadows (e : Engine) (w w' : World) : Prop where
  document : ∃ s revision, w.documents.find? e.document = some s ∧
    w'.documents.find? e.document = some (s.cleaned revision)
  size : w'.documents.size = w.documents.size
  definitions : w'.definitions.answer e.source = w.definitions.answer e.source

variable {e : Engine} {c : TimedCall} {call : Call} {w w' : World} {s s' : Session}
  {revision : Nat}

theorem performAll_calls (calls : List TimedCall) (w : World) :
    (e.performAll calls w).1.map (·.1) = calls := by
  induction calls generalizing w with
  | nil => rfl
  | cons c calls ih => exact congrArg (List.cons c) (ih _)

/-! ### Without failures -/

/-- A failure leaves no trace once failures are struck. -/
theorem cleaned_failed {p : Pending} {error : GameError} {now : Nat} :
    (failed p error now s).cleaned revision = s.cleaned revision := by
  change (s.record _).cleaned revision = _
  exact Session.cleaned_record_failure rfl

/-- The definitions that a call needs do not depend on failures in the log. -/
theorem loadCatalog_cleaned (static : e.source.Static) (extra : List CardId)
    (definitions : w'.definitions.answer e.source = w.definitions.answer e.source) :
    (e.loadCatalog (s.cleaned revision) extra w').1 = (e.loadCatalog s extra w).1 := by
  have loads := DefinitionCache.loadInto_congr static definitions Catalog.empty
    (referenced s ++ extra)
  exact congrArg (Except.mapError GameError.catalog) loads

/-- A rule yields the same without the failures. -/
theorem Yields.cleaned (static : e.source.Static) (memoryless : e.chooser.Memoryless)
    (definitions : w'.definitions.answer e.source = w.definitions.answer e.source)
    (clock : w'.clock = w.clock) (yields : e.Yields call w s s') :
    e.Yields call w' (s.cleaned revision) (s'.cleaned revision) := by
  obtain ⟨catalog, t, loaded, ran, rfl⟩ := yields
  have heedless : Play.Heedless revision (call.play (e.context catalog w)) :=
    call.play_heedless memoryless
  have paired := heedless ⟨s, w.asked⟩ ⟨s.cleaned revision, w'.asked⟩ rfl
  rw [ran] at paired
  obtain ⟨t', ran', related⟩ := paired.of_ok
  refine ⟨catalog, t', (loadCatalog_cleaned static _ definitions).trans loaded, ?_, related⟩
  rw [context, clock]
  exact ran'

theorem log_rematch {random : Random.Source} {fresh : Session} {starting : Seat} {config : Config}
    (made : s.rematch config = .ok (fresh, starting)) : fresh.log = [] := by
  simp only [Session.rematch, except_bind_ok_iff] at made
  obtain ⟨-, -, named, hnamed, made⟩ := made
  obtain ⟨-, -, -, rfl⟩ := Session.ofNames_ok_iff.mp hnamed
  cases made
  rfl

/-- A rematch is made the same without the failures. -/
theorem Replays.cleaned (static : e.source.Static) (memoryless : e.chooser.Memoryless)
    (definitions : w'.definitions.answer e.source = w.definitions.answer e.source)
    (clock : w'.clock = w.clock) (replays : e.Replays w s s') :
    ∃ s'', e.Replays w' (s.cleaned revision) s'' := by
  obtain ⟨fresh, starting, catalog, t, made, loaded, ran, rfl⟩ := replays
  have clean : fresh.cleaned fresh.revision = fresh := by
    refine Session.cleaned_of_log ?_
    rw [log_rematch made]
    exact fun _ mem => absurd mem List.not_mem_nil
  have heedless : Play.Heedless fresh.revision (Play.startGame (e.context catalog w) starting) :=
    Play.startGame_heedless memoryless starting
  have paired := heedless ⟨fresh, w.asked⟩ ⟨fresh, w'.asked⟩ clean.symm
  rw [ran] at paired
  obtain ⟨t', ran', -⟩ := paired.of_ok
  have loaded' : (e.loadCatalog (fresh.cleaned fresh.revision) [] w').1 = .ok catalog :=
    (loadCatalog_cleaned static [] definitions).trans loaded
  rw [clean] at loaded'
  refine ⟨t'.session, fresh, starting, catalog, t', made, loaded', ?_, rfl⟩
  rw [context, clock]
  exact ran'

/-! ### One call -/

/-- No call changes how a static source answers. -/
theorem perform_answer (static : e.source.Static) (call : Call) (w : World) :
    (e.perform call w).2.definitions.answer e.source = w.definitions.answer e.source := by
  cases found : w.documents.find? e.document with
  | none => rw [perform_of_none found]
  | some s =>
    rw [perform_of_some found, finish_definitions]
    rcases judge_loads e call s w with same | ⟨s', extra, loads⟩
    · rw [same]
    · rw [loads]
      exact DefinitionCache.answer_loadInto static _ _ _

theorem perform_of_yields (found : w.documents.find? e.document = some s)
    (other : call ≠ .rematch) (yields : e.Yields call w s s') :
    (e.perform call w).1 = .accepted ∧ (e.perform call w).2.documents
      = w.documents.change e.document fun _ => { s' with revision := s.revision + 1 } := by
  have documents := judge_documents e call s w
  rw [perform_of_some found, judge_of_yields other yields,
    finish_current rfl (documents ▸ found) rfl, documents]
  exact ⟨rfl, DocumentStore.change_congr found (by simp [committed])⟩

theorem perform_of_replays (found : w.documents.find? e.document = some s)
    (replays : e.Replays w s s') :
    (e.perform .rematch w).1 = .created (w.documents.create s').1 ∧
      (e.perform .rematch w).2.documents = (w.documents.create s').2 := by
  rw [perform_of_some found, judge_of_replays replays, finish_create rfl,
    judge_documents e .rematch s w]
  exact ⟨rfl, rfl⟩

/-- The clocks may show anything. -/
theorem Shadows.atTimes (h : e.Shadows w w') (clock clock' : Clock) :
    e.Shadows { w with clock } { w' with clock := clock' } :=
  ⟨h.document, h.size, h.definitions⟩

/-- A refused call leaves no trace but failures. -/
theorem Shadows.refused (static : e.source.Static) (h : e.Shadows w w')
    (refused : (e.perform call w).1 = .refused) : e.Shadows (e.perform call w).2 w' := by
  obtain ⟨s, revision, found, found'⟩ := h.document
  have answers := perform_answers e call found
  have definitions := h.definitions.trans (perform_answer static call w).symm
  rw [refused] at answers
  generalize documents : (e.perform call w).2.documents = after at answers
  cases answers with
  | refused p error now fails =>
    refine ⟨⟨failed p error now s, revision, ?_, ?_⟩, ?_, definitions⟩
    · rw [documents]
      exact find?_change_self found
    · rw [cleaned_failed]
      exact found'
    · rw [documents, size_change]
      exact h.size

/-- A call that is not refused is answered alike in both worlds. -/
theorem Shadows.taken (static : e.source.Static) (memoryless : e.chooser.Memoryless)
    (h : e.Shadows w w') (clock : w'.clock = w.clock)
    (taken : (e.perform call w).1.isAccepted = true) :
    (e.perform call w').1 = (e.perform call w).1 ∧
      e.Shadows (e.perform call w).2 (e.perform call w').2 := by
  obtain ⟨s, revision, found, found'⟩ := h.document
  have answers := perform_answers e call found
  have definitions := (perform_answer static call w').trans
    (h.definitions.trans (perform_answer static call w).symm)
  generalize (e.perform call w).1 = reply at answers taken
  generalize documents : (e.perform call w).2.documents = after at answers
  cases answers with
  | refused p error now fails => cases taken
  | accepted s' other yields =>
    obtain ⟨reply', documents'⟩ := perform_of_yields found' other
      (yields.cleaned static memoryless h.definitions clock)
    refine ⟨reply', ⟨{ s' with revision := s.revision + 1 }, revision + 1, ?_, ?_⟩, ?_,
      definitions⟩
    · rw [documents]
      exact find?_change_self found
    · rw [documents']
      exact find?_change_self found'
    · rw [documents, documents', size_change, size_change]
      exact h.size
  | created s' again replays =>
    subst again
    obtain ⟨s'', replays'⟩ := replays.cleaned static memoryless h.definitions clock
    obtain ⟨reply', documents'⟩ := perform_of_replays found' replays'
    refine ⟨reply'.trans ?_, ⟨s, revision, ?_, ?_⟩, ?_, definitions⟩
    · exact congrArg (fun n => Reply.created ⟨n + 1⟩) h.size
    · rw [documents]
      exact find?_create_of_some found s'
    · rw [documents']
      exact find?_create_of_some found' s''
    · rw [documents, documents', size_create, size_create]
      exact congrArg (· + 1) h.size

/-! ### Many calls -/

/-- The calls that were not refused have the same replies if they are made alone, and the documents
differ in failures only. -/
theorem Shadows.all (static : e.source.Static) (memoryless : e.chooser.Memoryless)
    (calls : List TimedCall) (h : e.Shadows w w') :
    (e.performAll ((e.taken calls w).map (·.1)) w').1 = e.taken calls w ∧
      e.Shadows (e.performAll calls w).2 (e.performAll ((e.taken calls w).map (·.1)) w').2 := by
  induction calls generalizing w w' with
  | nil => exact ⟨rfl, h⟩
  | cons c calls ih =>
    cases reply : (e.performAt c w).1.isAccepted with
    | false =>
      have refused : (e.performAt c w).1 = .refused := by
        cases r : (e.performAt c w).1 with
        | refused => rfl
        | _ => rw [r] at reply; cases reply
      have shadows : e.Shadows (e.performAt c w).2 w' :=
        (h.atTimes c.clock w'.clock).refused static refused
      simpa [Engine.taken, performAll, reply] using ih shadows
    | true =>
      obtain ⟨same, shadows⟩ : (e.performAt c w').1 = (e.performAt c w).1 ∧
          e.Shadows (e.performAt c w).2 (e.performAt c w').2 :=
        (h.atTimes c.clock c.clock).taken static memoryless rfl reply
      simpa [Engine.taken, performAll, reply, same] using ih shadows

end Engine

namespace Site

variable {config : Config} {site : Site}

/-- At first the document has no failures to lose. -/
theorem New.shadows (new : site.New config) : site.engine.Shadows site.world site.world := by
  obtain ⟨cache, new⟩ := new
  obtain ⟨s, named, rfl, rfl⟩ := Engine.newGame_ok_iff.mp new
  obtain ⟨-, -, -, rfl⟩ := Session.ofNames_ok_iff.mp named
  refine ⟨⟨_, 0, find?_create_self, ?_⟩, rfl, rfl⟩
  exact find?_create_self

/-- The calls of a run that were not refused, made alone and by the same clocks, are answered as
before. Both documents are then the same, but for the revision and the failure entries. -/
theorem refusals_invisible (new : site.New config) (static : site.engine.source.Static)
    (memoryless : site.engine.chooser.Memoryless) (calls : List TimedCall) :
    let taken := site.engine.taken calls site.world
    let all := site.engine.performAll calls site.world
    let alone := site.engine.performAll (taken.map (·.1)) site.world
    alone.1 = taken ∧
      ∃ s s', all.2.documents.find? site.engine.document = some s ∧
        alone.2.documents.find? site.engine.document = some s' ∧
        s' = { s with
          log := s.log.filter fun entry => decide (entry.action ≠ .failure)
          revision := s'.revision } := by
  intro taken all alone
  obtain ⟨same, shadows⟩ := new.shadows.all static memoryless calls
  obtain ⟨s, revision, found, found'⟩ := shadows.document
  exact ⟨same, s, s.cleaned revision, found, found', rfl⟩

def stumble : List TimedCall :=
  [⟨.still 10, .endTurn ⟨0⟩⟩, ⟨.still 20, .startWithDeck ⟨0⟩ [⟨1⟩]⟩,
    ⟨.still 30, .startWithDeck ⟨0⟩ [⟨1⟩]⟩, ⟨.still 40, .startWithDeck ⟨1⟩ [⟨1⟩]⟩,
    ⟨.still 50, .playCard ⟨1⟩ ⟨2⟩⟩, ⟨.still 60, .playCard ⟨0⟩ ⟨1⟩⟩,
    ⟨.still 70, .attackPlayer ⟨0⟩ ⟨1⟩ ⟨1⟩⟩, ⟨⟨fun n => 80 + n⟩, .endTurn ⟨0⟩⟩]

def stride : List TimedCall :=
  [⟨.still 20, .startWithDeck ⟨0⟩ [⟨1⟩]⟩, ⟨.still 40, .startWithDeck ⟨1⟩ [⟨1⟩]⟩,
    ⟨.still 60, .playCard ⟨0⟩ ⟨1⟩⟩, ⟨⟨fun n => 80 + n⟩, .endTurn ⟨0⟩⟩]

theorem stumble_invisible : ∃ s s',
    (duel.engine.performAll stride duel.world).1 = stride.map (fun c => (c, .accepted)) ∧
    (duel.engine.performAll stumble duel.world).2.documents.find? ⟨1⟩ = some s ∧
    (duel.engine.performAll stride duel.world).2.documents.find? ⟨1⟩ = some s' ∧
    s.countLog .failure = 4 ∧
    s' = { s with
      log := s.log.filter fun entry => decide (entry.action ≠ .failure)
      revision := s'.revision } := by
  have replies : (duel.engine.performAll stumble duel.world).1.map (·.2)
      = [.refused, .accepted, .refused, .accepted, .refused, .accepted, .refused, .accepted] := by
    decide +kernel
  have taken : duel.engine.taken stumble duel.world = stride.map fun c => (c, .accepted) := by
    rw [Engine.taken, List.zip_of_prod (Engine.performAll_calls stumble duel.world) replies]
    rfl
  have failures : ((duel.engine.performAll stumble duel.world).2.documents.find? ⟨1⟩).map
      (·.countLog .failure) = some 4 := by
    decide +kernel
  have bound : duel.engine.document = ⟨1⟩ := rfl
  have calls : (stride.map fun c => (c, Reply.accepted)).map (·.1) = stride := rfl
  obtain ⟨same, s, s', found, found', cleaned⟩ := refusals_invisible duel_new
    (DefinitionSource.static_ofCatalog _) Chooser.memoryless_first stumble
  rw [taken, calls] at same
  rw [bound] at found
  rw [taken, calls, bound] at found'
  rw [found] at failures
  exact ⟨s, s', same, found, found', Option.some.inj failures, cleaned⟩

end Site

end CardBattle
