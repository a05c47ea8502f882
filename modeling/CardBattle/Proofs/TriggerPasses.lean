import CardBattle.Proofs.HeedlessPlays
import CardBattle.Proofs.Visits

/-!
# The abilities of an event

Each ability that an event concerns runs at most once, in order, and leaves one entry about itself
in the log. One that fails or declines leaves nothing else: without it, the event takes the same
course.
-/

namespace CardBattle

namespace Context

variable {ctx : Context} {player : Seat} {v : Visit} {t t' u : Table}

/-! ### Without the visits that fail -/

/-- Visits that did not fail. -/
def spared (runs : List Attempt) : List Attempt :=
  runs.filter fun run => decide (run.fate ≠ .failed)

/-- The same visits once more, each at the time it had. -/
def again (runs : List Attempt) : List (Visit × Clock) :=
  runs.map fun run => (run.visit, .still run.now)

variable {revision : Nat}

/-- Failed abilities in the log make no difference to a script. -/
theorem outcome_without (memoryless : ctx.chooser.Memoryless)
    (related : t'.session = t.session.without .abilityFailed revision) :
    ctx.outcome player v t' = ctx.outcome player v t :=
  invoke_without memoryless v.ability.effect _ related

/-- Two tables whose sessions differ in the entries of failed abilities. -/
theorem outcome_congr (memoryless : ctx.chooser.Memoryless)
    (related : u.session.without .abilityFailed revision
      = t.session.without .abilityFailed revision) :
    ctx.outcome player v u = ctx.outcome player v t := by
  let struck : Table := { t with session := t.session.without .abilityFailed revision }
  have left : ctx.outcome player v struck = ctx.outcome player v t := outcome_without memoryless rfl
  have right : ctx.outcome player v struck = ctx.outcome player v u :=
    outcome_without memoryless related.symm
  exact right.symm.trans left

/-- Failed abilities in the log make no difference to whether a visit is run. -/
theorem runs_congr (related : u.session.without .abilityFailed revision
    = t.session.without .abilityFailed revision) : Runs v u ↔ Runs v t := by
  have left : Runs v u ↔ Runs v { u with session := u.session.without .abilityFailed revision } :=
    Iff.rfl
  rw [left, related]
  rfl

/-- A visit that fails is struck from the log with its entry. Any other visit takes the same course
at the other table, if it is made at the same time there. -/
theorem visit_congr (player : Seat) (memoryless : ctx.chooser.Memoryless)
    (related : u.session.without .abilityFailed revision
      = t.session.without .abilityFailed revision) (v : Visit) :
    let still : Context := { ctx with clock := .still (ctx.now t.session) }
    ((ctx.visit player v t).1 = .failed ∧
        u.session.without .abilityFailed revision
          = (ctx.visit player v t).2.session.without .abilityFailed revision) ∨
      (ctx.visit player v t).1 ≠ .failed ∧
        (still.visit player v u).1 = (ctx.visit player v t).1 ∧
        (still.visit player v u).2.session.without .abilityFailed revision
          = (ctx.visit player v t).2.session.without .abilityFailed revision := by
  intro still
  have here := visit_visited ctx player v t
  have there := visit_visited still player v u
  generalize ctx.visit player v t = run at here ⊢
  generalize still.visit player v u = run' at there ⊢
  obtain ⟨fate, t'⟩ := run
  obtain ⟨fate', u'⟩ := run'
  have alike : Runs v u ↔ Runs v t := runs_congr related
  have ends : still.outcome player v u = ctx.outcome player v t :=
    outcome_congr memoryless related
  cases here with
  | passed undue =>
    right
    cases there with
    | passed => exact ⟨by simp, rfl, related⟩
    | failed due => exact absurd (alike.mp due) undue
    | completed due => exact absurd (alike.mp due) undue
  | @failed due other entry listed _ session =>
    left
    refine ⟨rfl, ?_⟩
    rw [related, session]
    cases listed
    simp [Session.record, Session.without, List.filter_append]
  | @completed due ops ran entry listed _ session =>
    right
    cases there with
    | passed undue => exact absurd (alike.mpr due) undue
    | failed _ other => exact absurd (ends.trans ran) (other ops)
    | @completed _ ops' ran' entry' listed' _ session' =>
      cases ran'.symm.trans (ends.trans ran)
      cases listed.symm.trans listed'
      have calm : entry.action ≠ .abilityFailed := by
        cases listed
        simp
      refine ⟨by simp, rfl, ?_⟩
      have now : still.now u.session = ctx.now t.session := rfl
      rw [session, session', now, ← Session.settle_without, ← Session.settle_without,
        ← Session.record_without calm, ← Session.record_without calm, related]

/-- A pass without the visits that failed, each at the time it had, leaves the same but for the
failures. -/
theorem pass_spared (player : Seat) (memoryless : ctx.chooser.Memoryless) (vs : List Visit)
    (related : u.session.without .abilityFailed revision
      = t.session.without .abilityFailed revision) :
    let runs := (ctx.pass player (ctx.timed vs) t).1
    (ctx.pass player (again (spared runs)) u).1 = spared runs ∧
      (ctx.pass player (again (spared runs)) u).2.session.without .abilityFailed revision
        = (ctx.pass player (ctx.timed vs) t).2.session.without .abilityFailed revision := by
  intro runs
  induction vs generalizing t u with
  | nil => exact ⟨rfl, related⟩
  | cons v vs ih =>
    simp only [runs, pass_timed_cons]
    rcases visit_congr player memoryless related v with
      ⟨failed, related'⟩ | ⟨other, fate, related'⟩
    · have left : spared (⟨v, ctx.now t.session, (ctx.visit player v t).1⟩
          :: (ctx.pass player (ctx.timed vs) (ctx.visit player v t).2).1)
          = spared (ctx.pass player (ctx.timed vs) (ctx.visit player v t).2).1 := by
        simp [spared, failed]
      rw [left]
      exact ih related'
    · have left : spared (⟨v, ctx.now t.session, (ctx.visit player v t).1⟩
          :: (ctx.pass player (ctx.timed vs) (ctx.visit player v t).2).1)
          = ⟨v, ctx.now t.session, (ctx.visit player v t).1⟩
            :: spared (ctx.pass player (ctx.timed vs) (ctx.visit player v t).2).1 := by
        simp [spared, other]
      obtain ⟨same, sessions⟩ := ih related'
      rw [left, again, List.map_cons, pass_cons, fate, ← again, same]
      exact ⟨rfl, sessions⟩

/-! ### What an event comes to -/

/-- The course of an event: each visit in order, none twice, and what they leave in the log. -/
structure Course (ctx : Context) (player : Seat) (visits : List Visit) (t : Table)
    (report : TriggerReport) (t' : Table) (runs : List Attempt) (entries : List LogEntry) :
    Prop where
  once : (visits.map fun v => (v.card, v.place)).Nodup
  course : ctx.pass player (ctx.timed visits) t = (runs, t')
  order : runs.map (·.visit) = visits
  log : t'.session.log = t.session.log ++ entries
  told : entries.filter (fun e => e.action.isAbility) = runs.filterMap (·.note? player)
  fired : entries.countP (fun e => decide (e.action = .ability)) = report.fired
  failed : entries.countP (fun e => decide (e.action = .abilityFailed)) = report.failed
  /-- Without the visits that fail, the others take the same course if they are made at the same
  times, and only the entries of failed abilities are missing. -/
  isolated : ctx.chooser.Memoryless →
    (ctx.pass player (again (spared runs)) t).1 = spared runs ∧
    (ctx.pass player (again (spared runs)) t).2.session
      = { t'.session with
          log := t.session.log ++ entries.filter fun e => decide (e.action ≠ .abilityFailed) }

theorem countP_of_told {entries : List LogEntry} {runs : List Attempt} {action : LogAction}
    {fate : Fate} (ability : action.isAbility = true) (logged : fate.action? = some action)
    (told : entries.filter (fun e => e.action.isAbility) = runs.filterMap (·.note? player)) :
    entries.countP (fun e => decide (e.action = action))
      = runs.countP fun run => decide (run.fate = fate) := by
  rw [← countP_entries runs logged, ← told, List.countP_filter]
  refine List.countP_congr fun e _ => ?_
  simp only [Bool.and_eq_true, decide_eq_true_iff]
  constructor
  · rintro rfl
    exact ⟨rfl, ability⟩
  · exact And.left

/-- An entry that tells of a visit which did not fail. -/
theorem action_of_spared {runs : List Attempt} {e : LogEntry}
    (mem : e ∈ (spared runs).filterMap (·.note? player)) : e.action ≠ .abilityFailed := by
  obtain ⟨⟨v, now, fate⟩, kept, told⟩ := List.mem_filterMap.mp mem
  have other := (List.mem_filter.mp kept).2
  cases fate with
  | passed => cases told
  | failed => simp at other
  | completed =>
    cases told
    simp

/-- Equality of sessions from that of all but the logs, and of the logs. -/
theorem eq_of_without {s s' : Session} {log : List LogEntry}
    (same : s'.without .abilityFailed revision = s.without .abilityFailed revision)
    (revisions : s'.revision = s.revision) (logs : s'.log = log) : s' = { s with log } := by
  cases s
  cases s'
  simp only [Session.without, Session.mk.injEq] at same revisions logs ⊢
  simp [same, revisions, logs]

/-- An event runs the abilities of a battlefield in order, and one that fails is an entry in the
log. -/
theorem triggerAll_course (ctx : Context) (event : TriggerEvent) (player : Seat) (t : Table)
    (accepted : t.session.violation? ctx.catalog = none) (labelled : t.session.Labelled) :
    ∃ runs entries, Course ctx player (t.session.visits ctx.catalog event player) t
      (ctx.triggerAll event player t).1 (ctx.triggerAll event player t).2 runs entries := by
  have nodup : t.session.laid.Nodup := Session.nodup_laid_of_accepted accepted labelled
  generalize visited : t.session.visits ctx.catalog event player = visits
  obtain ⟨entries, log, told⟩ := pass_log ctx player (ctx.timed visits) t
  have order : (ctx.timed visits).map Prod.fst = visits := by
    rw [timed, List.map_map]
    exact List.map_id' visits
  rw [triggerAll_eq_pass nodup, visited]
  refine ⟨(ctx.pass player (ctx.timed visits) t).1, entries, ?_, rfl,
    (pass_visits _ t).trans order, log, told, countP_of_told rfl rfl told,
    countP_of_told rfl rfl told, fun memoryless => ?_⟩
  · rw [← visited]
    exact nodup_session_visits (Session.apart_of_nodup_laid nodup)
  · have alike : t.session.without .abilityFailed t.session.revision
        = t.session.without .abilityFailed t.session.revision := rfl
    obtain ⟨same, sessions⟩ := pass_spared player memoryless visits alike
    refine ⟨same, ?_⟩
    obtain ⟨entries', log', told'⟩ := pass_log ctx player
      (again (spared (ctx.pass player (ctx.timed visits) t).1)) t
    -- no entry of the second run tells of a failure
    have clean : entries'.filter (fun e => decide (e.action ≠ .abilityFailed)) = entries' := by
      rw [List.filter_eq_self]
      intro e mem
      rw [decide_eq_true_iff]
      intro failure
      have heard : e ∈ entries'.filter fun e => e.action.isAbility :=
        List.mem_filter.mpr ⟨mem, by rw [failure]; rfl⟩
      rw [told', same] at heard
      exact action_of_spared heard failure
    have logs := congrArg Session.log sessions
    simp only [Session.without, log, log', List.filter_append, List.append_cancel_left_eq,
      clean] at logs
    refine eq_of_without sessions ?_ (log'.trans (by rw [logs]))
    rw [(pass_contained _ t).sameTurn.revision, (pass_contained _ t).sameTurn.revision]

/-- Seers that fail first, then draw, then leave, and would draw again. The clock goes on. -/
def fickle : Context := { arena with
  clock := ⟨fun n => n⟩
  catalog := .ofList [.spell ⟨1⟩ "Bolt" 1 ⟨[]⟩, .creature ⟨2⟩ "Wisp" 1 1 1,
    { CardDefinition.creature ⟨3⟩ "Seer" 1 1 2 with
      abilities := [⟨.startTurn, ⟨[.fail "clouded"]⟩, "Doubt"⟩,
        ⟨.startTurn, ⟨[.drawCard]⟩, "Foresight"⟩,
        ⟨.startTurn, ⟨[.destroyCard .source]⟩, "Farewell"⟩,
        ⟨.startTurn, ⟨[.drawCard]⟩, "Hindsight"⟩] }] }

def moods : List Visit :=
  Session.showdown.visits fickle.catalog .startTurn ⟨0⟩

theorem fickle_course : Session.showdown.violation? fickle.catalog = none ∧
    Session.showdown.Labelled ∧ fickle.chooser.Memoryless ∧
    ∃ t' runs entries, fickle.triggerAll .startTurn ⟨0⟩ ⟨Session.showdown, []⟩ = (⟨2, 1⟩, t') ∧
      Course fickle ⟨0⟩ moods ⟨Session.showdown, []⟩ ⟨2, 1⟩ t' runs entries ∧
      runs.map (fun run => (run.now, run.fate))
        = [(1, .failed), (2, .completed), (4, .completed), (6, .passed)] := by
  have accepted : Session.showdown.violation? fickle.catalog = none := by decide +kernel
  have labelled : Session.showdown.Labelled := by decide +kernel
  obtain ⟨runs, entries, course⟩ :=
    triggerAll_course fickle .startTurn ⟨0⟩ ⟨Session.showdown, []⟩ accepted labelled
  have report : (fickle.triggerAll .startTurn ⟨0⟩ ⟨Session.showdown, []⟩).1 = ⟨2, 1⟩ := by
    decide +kernel
  rw [report] at course
  refine ⟨accepted, labelled, Chooser.memoryless_first, _, runs, entries, Prod.ext report rfl,
    course, ?_⟩
  have fates : (fickle.pass ⟨0⟩ (fickle.timed moods) ⟨Session.showdown, []⟩).1.map
      (fun run => (run.now, run.fate))
        = [(1, .failed), (2, .completed), (4, .completed), (6, .passed)] := by decide +kernel
  have course' := course.course
  rw [← moods] at course'
  rwa [course'] at fates

/-- A permanent that is listed twice is visited twice, and its one ability runs twice. Where the
clock goes on, abilities come earlier without one that fails before them. -/
theorem mislaid_visited_twice :
    (let s := Session.mislaid.modifyInstance ⟨2⟩ fun c => { c with health := 2 };
      s.violation? arena.catalog = none ∧
      ((s.visits arena.catalog .startTurn ⟨1⟩).map fun v => (v.card, v.place))
        = [(⟨2⟩, 0), (⟨2⟩, 0)] ∧
      (arena.triggerAll .startTurn ⟨1⟩ ⟨s, []⟩).1 = ⟨2, 0⟩) ∧
    ((fickle.pass ⟨0⟩ (fickle.timed moods) ⟨Session.showdown, []⟩).2.session.log.map
        (·.timestamp) = [1, 2, 2, 4, 4] ∧
      (fickle.pass ⟨0⟩ (fickle.timed moods.tail) ⟨Session.showdown, []⟩).2.session.log.map
        (·.timestamp) = [1, 1, 3, 3]) := by
  decide +kernel

end Context

end CardBattle
