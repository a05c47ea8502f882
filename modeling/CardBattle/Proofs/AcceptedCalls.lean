import CardBattle.Proofs.NewGames
import Mathlib.Data.List.Induction

/-!
# The deeds of a document

A deed is a call that was accepted, with the document before and after it. Between two deeds of a
document nothing happens to it but refusals and revisions. What holds of every document at birth,
survives those, and is carried over every deed therefore holds along all runs, also as a fact about
the deeds done so far.
-/

namespace CardBattle

open Relation

/-- A call that was accepted, with the document before and after it. -/
structure Deed where
  call : Call
  before : Session
  after : Session

/-- The rule of its call took the document to where the deed left it. -/
inductive Deed.Done (config : Config) (K : Catalog) (d : Deed) : Prop where
  | mk (ctx : Context) (asked asked' : List TargetRequest) (m : Session)
      (settings : ctx.config = config) (known : ctx.catalog.Within K) (other : d.call ≠ .rematch)
      (ran : d.call.play ctx ⟨d.before, asked⟩ = .ok () ⟨m, asked'⟩)
      (after : d.after = { m with revision := d.before.revision + 1 })

namespace Site

/-- What a move does to a document, if it is a call on it that is accepted. -/
def deed? (site : Site) (id : SessionId) : Move → Option Deed
  | .call call =>
    if site.engine.document = id ∧ (site.engine.perform call site.world).1 = .accepted then
      match site.world.documents.find? id, (site.move (.call call)).world.documents.find? id with
      | some before, some after => some { call, before, after }
      | _, _ => none
    else none
  | _ => none

def deeds (site : Site) (id : SessionId) : List Move → List Deed
  | [] => []
  | m :: moves => (site.deed? id m).toList ++ (site.move m).deeds id moves

variable {config : Config} {K : Catalog} {site : Site} {id : SessionId} {s : Session}
  {call : Call} {d : Deed} {m : Move}

/-- What is done during a longer game is what is done during its first part and then during the
rest. -/
theorem deeds_append (site : Site) (id : SessionId) (moves later : List Move) :
    site.deeds id (moves ++ later) = site.deeds id moves ++ (site.run moves).deeds id later := by
  induction moves generalizing site with
  | nil => rfl
  | cons m moves ih =>
    rw [List.cons_append, deeds, deeds, ih, List.append_assoc]
    rfl

theorem deeds_concat (site : Site) (id : SessionId) (moves : List Move) (m : Move) :
    site.deeds id (moves ++ [m]) = site.deeds id moves ++ ((site.run moves).deed? id m).toList := by
  rw [deeds_append, deeds, deeds, List.append_nil]

/-! ### One move -/

/-- Nothing is done to a document that does not exist. -/
theorem deed?_of_none (missing : site.world.documents.find? id = none) :
    site.deed? id m = none := by
  cases m with
  | call call => simp [deed?, missing]
  | _ => rfl

/-- A call that is refused, or made on another document, is no deed. -/
theorem deed?_of_unaccepted
    (unaccepted : ¬(site.engine.document = id ∧
      (site.engine.perform call site.world).1 = .accepted)) :
    site.deed? id (.call call) = none := by
  simp [deed?, unaccepted]

/-- Every accepted call on the document is a deed. -/
theorem deed?_of_accepted {s' : Session} (bound : site.engine.document = id)
    (accepted : (site.engine.perform call site.world).1 = .accepted)
    (found : site.world.documents.find? id = some s)
    (found' : (site.move (.call call)).world.documents.find? id = some s') :
    site.deed? id (.call call) = some ⟨call, s, s'⟩ := by
  simp [deed?, bound, accepted, found, found']

/-- A call leaves the documents of others as they are. -/
theorem find?_of_unbound (other : site.engine.document ≠ id)
    (found : site.world.documents.find? id = some s) :
    (site.move (.call call)).world.documents.find? id = some s := by
  rw [move]
  cases mine : site.world.documents.find? site.engine.document with
  | none =>
    rw [Engine.perform_of_none mine]
    exact found
  | some s₀ =>
    have answers := Engine.perform_answers site.engine call mine
    dsimp only
    generalize (site.engine.perform call site.world).1 = reply at answers
    generalize (site.engine.perform call site.world).2.documents = documents at answers ⊢
    cases answers with
    | accepted => rw [DocumentStore.find?_change_of_ne other, found]
    | refused => rw [DocumentStore.find?_change_of_ne other, found]
    | created => exact DocumentStore.find?_create_of_some found _

/-- One move does one thing to a document at most, and otherwise no more than annotate it. -/
theorem move_deed (sound : site.world.definitions.cached.Sound) (m : Move)
    (known : (site.move m).world.definitions.cached.Within K)
    (found : site.world.documents.find? id = some s) :
    ∃ s', (site.move m).world.documents.find? id = some s' ∧
      (site.deed? id m = none ∧ s.Annotates s' ∨
        ∃ call, site.deed? id m = some ⟨call, s, s'⟩ ∧
          Deed.Done site.engine.config K ⟨call, s, s'⟩) := by
  cases m with
  | call call =>
    by_cases bound : site.engine.document = id
    · subst bound
      have answers := Engine.perform_answers site.engine call found
      generalize reply : (site.engine.perform call site.world).1 = r at answers
      generalize after : (site.engine.perform call site.world).2.documents = documents at answers
      have unaccepted : r ≠ .accepted → site.deed? site.engine.document (.call call) = none :=
        fun ne => deed?_of_unaccepted fun h => ne (reply.symm.trans h.2)
      cases answers with
      | accepted s' other yields =>
        have found' : (site.move (.call call)).world.documents.find? site.engine.document
            = some { s' with revision := s.revision + 1 } := by
          rw [move, after, DocumentStore.find?_change_self found]
        obtain ⟨catalog, t, loaded, ran, rfl⟩ := yields
        rw [move, Engine.perform_definitions found other] at known
        refine ⟨_, found', Or.inr ⟨call, deed?_of_accepted rfl reply found found', ?_⟩⟩
        exact ⟨site.engine.context catalog site.world, site.world.asked, t.asked, t.session, rfl,
          (Engine.loadCatalog_within sound loaded).trans known, other, ran, rfl⟩
      | refused p error now _ =>
        refine ⟨Engine.failed p error now s, ?_, Or.inl ⟨unaccepted (by simp), ?_⟩⟩
        · rw [move, after, DocumentStore.find?_change_self found]
        · exact .refusal _ rfl _
      | created s' again replays =>
        refine ⟨s, ?_, Or.inl ⟨unaccepted (by simp), .refl s⟩⟩
        rw [move, after, DocumentStore.find?_create_of_some found]
    · refine ⟨s, find?_of_unbound bound found, Or.inl ⟨?_, .refl s⟩⟩
      exact deed?_of_unaccepted fun h => bound h.1
  | touch document =>
    by_cases same : document = id
    · subst same
      exact ⟨_, DocumentStore.find?_change_self found, Or.inl ⟨rfl, .revision s _⟩⟩
    · exact ⟨s, (DocumentStore.find?_change_of_ne same).trans found, Or.inl ⟨rfl, .refl s⟩⟩
  | switch document =>
    refine ⟨s, ?_, Or.inl ⟨rfl, .refl s⟩⟩
    simp only [move]
    split <;> exact found
  | wait clock => exact ⟨s, found, Or.inl ⟨rfl, .refl s⟩⟩
  | _ =>
    refine ⟨s, ?_, Or.inl ⟨rfl, .refl s⟩⟩
    exact (congrArg (·.find? id) (Engine.query_spec site.engine _ site.world).1).trans found

/-! ### Runs -/

/-- Nothing was done to a document that never came about. -/
theorem deeds_of_none (moves : List Move) (sound : site.world.definitions.cached.Sound)
    (missing : (site.run moves).world.documents.find? id = none) : site.deeds id moves = [] := by
  induction moves using List.reverseRecOn with
  | nil => rfl
  | append_singleton moves m ih =>
    rw [run_append] at missing
    have before : (site.run moves).world.documents.find? id = none := by
      by_contra present
      obtain ⟨s, found⟩ := Option.ne_none_iff_exists'.mp present
      have sound := (run_grows moves sound).sound sound
      obtain ⟨s', found', -⟩ := move_deed sound m (Catalog.Within.refl _) found
      exact absurd (found'.symm.trans missing) (by simp)
    rw [deeds_concat, ih before, deed?_of_none before]
    rfl

/-- What documents are born with, keep under refusals and revisions, and carry over every deed is
true of all documents of a run and their deeds. -/
theorem New.deeds_induct (new : site.New config) (follows : site.Follows id)
    {P : List Deed → Session → Prop} (born : ∀ s, Session.Born config K s → P [] s)
    (annotated : ∀ deeds s s', Session.Reachable config K s → P deeds s → s.Annotates s' →
      P deeds s')
    (done : ∀ deeds d, Session.Reachable config K d.before → P deeds d.before →
      d.Done config K → P (deeds ++ [d]) d.after)
    (moves : List Move) (known : (site.run moves).world.definitions.cached.Within K)
    (found : (site.run moves).world.documents.find? id = some s) : P (site.deeds id moves) s := by
  induction moves using List.reverseRecOn generalizing s with
  | nil => exact born s (new.born follows found)
  | append_singleton moves m ih =>
    have sound := new.definitions moves
    have grows := run_grows [m] sound
    rw [run_append] at known found
    have known' := grows.within.trans known
    rw [deeds_concat]
    cases before : (site.run moves).world.documents.find? id with
    | none =>
      rw [deeds_of_none moves new.sound before, deed?_of_none before]
      have documents := (move_spec sound m known).1
      rw [run_config, new.config_eq] at documents
      exact born s (documents.born id s before found)
    | some r =>
      have reachable := new.reachable moves follows known' before
      obtain ⟨s', found', ⟨none, annotates⟩ | ⟨call, some, law⟩⟩ := move_deed sound m known before
      · cases found'.symm.trans found
        rw [none, Option.toList, List.append_nil]
        exact annotated _ _ _ reachable (ih known' before) annotates
      · cases found'.symm.trans found
        rw [run_config, new.config_eq] at law
        rw [some]
        exact done _ _ reachable (ih known' before) law

end Site

end CardBattle
