import CardBattle.Proofs.LegalAttacks
import CardBattle.Proofs.Orderly

/-!
# Targets that are listed and targets that are chosen

The list of legal targets is made from seats, battlefields and definitions, and a single target is
checked from its own data. Both agree on every target, whatever the session holds. A choice with a
chooser takes the legal picks without repetitions, in the order of the picks, while places are left.
-/

namespace CardBattle

/-! ### Repeated elements -/

theorem nodup_eraseDups {α : Type} [DecidableEq α] : ∀ l : List α, l.eraseDups.Nodup
  | [] => List.nodup_nil
  | a :: l => by
    rw [List.eraseDups_cons, List.nodup_cons]
    refine ⟨?_, nodup_eraseDups _⟩
    rw [List.mem_eraseDups, List.mem_filter]
    rintro ⟨-, other⟩
    simp at other
termination_by l => l.length
decreasing_by exact Nat.lt_succ_of_le (List.length_filter_le _ _)

theorem eraseDups_of_nodup {α : Type} [DecidableEq α] {l : List α} (nodup : l.Nodup) :
    l.eraseDups = l := by
  induction l with
  | nil => rfl
  | cons a l ih =>
    obtain ⟨fresh, nodup⟩ := List.nodup_cons.mp nodup
    have others : l.filter (fun b => !b == a) = l := by
      refine List.filter_eq_self.mpr fun b mem => ?_
      have different : b ≠ a := fun same => fresh (same ▸ mem)
      simpa using different
    rw [List.eraseDups_cons, others, ih nodup]

namespace Session

variable {K : Catalog} {s : Session} {id : InstanceId} {source owner : Seat} {target : Target}
  {sel : Selector}

/-! ### The order of the list -/

/-- The order in which targets are listed: players by seat, then cards by the seat of the owner,
and the cards of one owner as they lie on the battlefield. -/
inductive Ahead (s : Session) : Target → Target → Prop where
  | seats {a b : Seat} (lower : a.index < b.index) : s.Ahead (.player a) (.player b)
  | player {a : Seat} {target : Target} {id : InstanceId} (card : target.card? = some id) :
    s.Ahead (.player a) target
  | owners {target target' : Target} {id id' : InstanceId} (card : target.card? = some id)
    (card' : target'.card? = some id') (lower : target.owner.index < target'.owner.index) :
    s.Ahead target target'
  | row {target target' : Target} {id id' : InstanceId} (card : target.card? = some id)
    (card' : target'.card? = some id') (same : target'.owner = target.owner)
    (order : [id, id'].Sublist (s.battlefield target.owner)) : s.Ahead target target'

/-- Where no battlefield repeats a card, no target comes ahead of itself. -/
theorem Ahead.ne (apart : ∀ seat, (s.battlefield seat).Nodup) {target target' : Target}
    (ahead : s.Ahead target target') : target ≠ target' := by
  rintro rfl
  cases ahead with
  | seats lower => exact Nat.lt_irrefl _ lower
  | player card => cases card
  | owners card card' lower => exact Nat.lt_irrefl _ lower
  | row card card' same order =>
    cases card.symm.trans card'
    exact List.nodup_iff_sublist.mp (apart _) _ order

/-- The cards of a player that can be targets, as they lie on the battlefield. -/
theorem cardCandidates_eq : Selector.cardCandidates s K owner =
    (s.battlefield owner).filterMap fun id => (s.instance? id).bind fun c =>
      (K.get? c.card).bind fun d => Target.ofCard? d.kind id owner := by
  unfold Selector.cardCandidates
  congr 1
  funext id
  cases s.instance? id with
  | none => rfl
  | some c => cases hd : K.get? c.card <;> simp [hd]

theorem of_candidate (made : ((s.instance? id).bind fun c =>
      (K.get? c.card).bind fun d => Target.ofCard? d.kind id owner) = some target) :
    target.card? = some id ∧ target.owner = owner := by
  obtain ⟨c, -, made⟩ := Option.bind_eq_some_iff.mp made
  obtain ⟨d, -, made⟩ := Option.bind_eq_some_iff.mp made
  exact Target.card?_ofCard? made

theorem of_mem_cardCandidates (mem : target ∈ Selector.cardCandidates s K owner) :
    ∃ id, target.card? = some id ∧ target.owner = owner := by
  rw [cardCandidates_eq] at mem
  obtain ⟨id, -, made⟩ := List.mem_filterMap.mp mem
  exact ⟨id, of_candidate made⟩

theorem pairwise_cardCandidates : (Selector.cardCandidates s K owner).Pairwise s.Ahead := by
  rw [cardCandidates_eq, List.pairwise_filterMap, List.pairwise_iff_forall_sublist]
  intro id id' order target made target' made'
  obtain ⟨card, own⟩ := of_candidate made
  obtain ⟨card', own'⟩ := of_candidate made'
  exact .row card card' (own'.trans own.symm) (own ▸ order)

/-- Candidates are listed in order. -/
theorem pairwise_candidates : (Selector.candidates s K).Pairwise s.Ahead := by
  refine List.pairwise_append.mpr ⟨?_, List.pairwise_flatMap.mpr ⟨?_, ?_⟩, ?_⟩
  · exact List.pairwise_map.mpr (pairwise_seats.imp .seats)
  · intro owner _
    exact pairwise_cardCandidates
  · refine pairwise_seats.imp ?_
    intro a b lower target mem target' mem'
    obtain ⟨id, card, rfl⟩ := of_mem_cardCandidates mem
    obtain ⟨id', card', rfl⟩ := of_mem_cardCandidates mem'
    exact .owners card card' lower
  · intro target mem target' mem'
    obtain ⟨seat, -, rfl⟩ := List.mem_map.mp mem
    obtain ⟨owner, -, mem'⟩ := List.mem_flatMap.mp mem'
    obtain ⟨id, card, -⟩ := of_mem_cardCandidates mem'
    exact .player card

/-- No target is listed twice. -/
theorem nodup_validTargets (apart : ∀ seat, (s.battlefield seat).Nodup) :
    (sel.validTargets s K source).Nodup :=
  (pairwise_candidates.imp (Ahead.ne apart)).filter _

/-- Where every seat has a name, the targets listed are those that pass the check. They are listed
in order, and none twice where no battlefield repeats a card. -/
theorem validTargets_exact (sel : Selector) (s : Session) (K : Catalog) (source : Seat)
    (few : s.players.count < Seat.bound) :
    (∀ target, target ∈ sel.validTargets s K source ↔ sel.accepts s K source target = true) ∧
      (sel.validTargets s K source).Pairwise s.Ahead ∧
      ((∀ seat, (s.battlefield seat).Nodup) → (sel.validTargets s K source).Nodup) := by
  refine ⟨?_, pairwise_candidates.filter _, nodup_validTargets⟩
  intro target
  exact mem_validTargets_iff few

def anyTwo : Selector :=
  ({} : Selector).includingSelf.withCount 2

/-- From Ann's side: Ann, Bob, her seer and his wisp. Her seer is not there as a card of Bob's. -/
theorem showdown_validTargets :
    (showdown.players.count < Seat.bound ∧ ∀ seat, (showdown.battlefield seat).Nodup) ∧
      anyTwo.validTargets showdown arena.catalog ⟨0⟩
        = [.player ⟨0⟩, .player ⟨1⟩, .creature ⟨4⟩ ⟨0⟩, .creature ⟨2⟩ ⟨1⟩] ∧
      (anyTwo.validTargets showdown arena.catalog ⟨0⟩).Nodup ∧
      ¬anyTwo.accepts showdown arena.catalog ⟨0⟩ (.creature ⟨4⟩ ⟨1⟩) = true := by
  have few : showdown.players.count < Seat.bound := by decide
  have apart : ∀ seat, (showdown.battlefield seat).Nodup :=
    Apart.nodup_battlefield (apart_of_accepted showdown_accepted (by decide +kernel))
  obtain ⟨listed, -, once⟩ := validTargets_exact anyTwo showdown arena.catalog ⟨0⟩ few
  refine ⟨⟨few, apart⟩, by decide +kernel, once apart, ?_⟩
  rw [← listed]
  decide +kernel

end Session

/-! ### Choices -/

namespace Selector

open Session

variable {K : Catalog} {s : Session} {source : Seat} {sel : Selector} {card : Option InstanceId}
  {chooser : Chooser} {asked : List TargetRequest}

def request (sel : Selector) (s : Session) (K : Catalog) (source : Seat)
    (card : Option InstanceId) : TargetRequest :=
  { selector := sel, source, card, candidates := sel.validTargets s K source }

/-- The first legal picks that differ from each other, as many as there are places. -/
def kept (sel : Selector) (s : Session) (K : Catalog) (source : Seat) (picks : List Target) :
    List Target :=
  ((picks.filter (sel.accepts s K source)).eraseDups).take sel.count

theorem takePicks_eq (picks taken : List Target) : sel.takePicks s K source picks taken = taken ++
    ((picks.filter fun pick => sel.accepts s K source pick && decide (pick ∉ taken)).eraseDups).take
      (sel.count - taken.length) := by
  induction picks generalizing taken with
  | nil => simp [takePicks]
  | cons pick picks ih =>
    rw [takePicks]
    split
    · rename_i full
      simp [Nat.sub_eq_zero_of_le full]
    · rename_i room
      split
      · rename_i old
        rw [ih]
        simp [old]
      · rename_i fresh
        split
        · rename_i legal
          obtain ⟨places, places_eq⟩ : ∃ places, sel.count - taken.length = places + 1 :=
            ⟨sel.count - taken.length - 1, by omega⟩
          have left : sel.count - (taken ++ [pick]).length = places := by
            simp only [List.length_append, List.length_singleton]
            omega
          rw [ih, left, places_eq]
          have new : ∀ other, (sel.accepts s K source other && decide (other ∉ taken ++ [pick]))
              = ((!other == pick) && (sel.accepts s K source other && decide (other ∉ taken))) := by
            intro other
            by_cases same : other = pick <;> simp [same]
          rw [List.filter_cons_of_pos (by simp [legal, fresh]), List.eraseDups_cons,
            List.take_succ_cons, List.filter_filter, List.append_assoc, List.singleton_append]
          simp only [new]
        · rename_i illegal
          rw [ih]
          simp [illegal]

/-- What is taken from the picks are those that are kept. -/
theorem takePicks_nil_eq_kept (picks : List Target) :
    sel.takePicks s K source picks [] = sel.kept s K source picks := by
  simp [takePicks_eq, kept]

/-- Nobody is asked if there is no target, or one target and one place for it. -/
theorem isForced_iff {targets : List Target} :
    sel.isForced targets = true ↔ targets = [] ∨ targets.length = 1 ∧ sel.count = 1 := by
  simp [isForced]

/-- A forced choice asks nobody and takes every target. -/
theorem resolve_of_forced (forced : sel.isForced (sel.validTargets s K source) = true) :
    sel.resolve s K source card chooser asked = (sel.validTargets s K source, asked) := by
  simp [resolve, autoTargets, forced]

/-- Any other choice asks once and keeps the legal picks. -/
theorem resolve_of_free (free : sel.isForced (sel.validTargets s K source) = false) :
    sel.resolve s K source card chooser asked =
      (sel.kept s K source (chooser.pick asked (sel.request s K source card)),
        sel.request s K source card :: asked) := by
  simp [resolve, autoTargets, free, takePicks_nil_eq_kept, request]

/-- A choice that follows the rules: no target twice, no more than there are places, and only legal
ones. -/
structure Fair (sel : Selector) (s : Session) (K : Catalog) (source : Seat)
    (chosen : List Target) : Prop where
  nodup : chosen.Nodup
  places : chosen.length ≤ sel.count
  legal : ∀ target ∈ chosen, sel.accepts s K source target = true

theorem accepts_of_mem_validTargets {target : Target}
    (mem : target ∈ sel.validTargets s K source) : sel.accepts s K source target = true :=
  (List.mem_filter.mp mem).2

theorem fair_of_forced (forced : sel.isForced (sel.validTargets s K source) = true) :
    sel.Fair s K source (sel.validTargets s K source) := by
  rcases isForced_iff.mp forced with empty | ⟨single, place⟩
  · rw [empty]
    exact ⟨List.nodup_nil, Nat.zero_le _, nofun⟩
  · obtain ⟨target, only⟩ := List.length_eq_one_iff.mp single
    constructor
    · rw [only]
      exact List.nodup_singleton target
    · omega
    · exact fun _ => accepts_of_mem_validTargets

/-- Whatever the picks are, what is kept of them follows the rules. -/
theorem fair_kept (picks : List Target) : sel.Fair s K source (sel.kept s K source picks) := by
  constructor
  · exact (nodup_eraseDups _).sublist (List.take_sublist _ _)
  · exact List.length_take_le _ _
  · intro target mem
    have picked := List.mem_eraseDups.mp (List.mem_of_mem_take mem)
    exact (List.mem_filter.mp picked).2

/-- Picks that follow the rules are all kept. -/
theorem kept_of_fair {picks : List Target} (fair : sel.Fair s K source picks) :
    sel.kept s K source picks = picks := by
  rw [kept, List.filter_eq_self.mpr fair.legal, eraseDups_of_nodup fair.nodup,
    List.take_of_length_le fair.places]

theorem fair_first (apart : ∀ seat, (s.battlefield seat).Nodup) :
    sel.Fair s K source ((sel.validTargets s K source).take sel.count) := by
  constructor
  · exact (nodup_validTargets apart).sublist (List.take_sublist _ _)
  · exact List.length_take_le _ _
  · intro target mem
    exact accepts_of_mem_validTargets (List.mem_of_mem_take mem)

/-- The chooser of first targets picks the first ones on the list. -/
theorem resolve_first (apart : ∀ seat, (s.battlefield seat).Nodup) :
    (sel.resolve s K source card .first asked).1 =
      (sel.validTargets s K source).take (min sel.count (sel.validTargets s K source).length) := by
  rw [← List.take_eq_take_min]
  cases forced : sel.isForced (sel.validTargets s K source) with
  | true =>
    rw [resolve_of_forced forced]
    exact (List.take_of_length_le (fair_of_forced forced).places).symm
  | false =>
    rw [resolve_of_free forced]
    exact kept_of_fair (fair_first apart)

/-- Whoever chooses, the outcome follows the rules. -/
theorem fair_resolve (card : Option InstanceId) (chooser : Chooser) (asked : List TargetRequest) :
    sel.Fair s K source (sel.resolve s K source card chooser asked).1 := by
  cases forced : sel.isForced (sel.validTargets s K source) with
  | true =>
    rw [resolve_of_forced forced]
    exact fair_of_forced forced
  | false =>
    rw [resolve_of_free forced]
    exact fair_kept _

/-- A forced choice asks nobody. Any other asks once, shows the legal targets, and keeps the first
picks that are legal and new. Whoever chooses, the outcome follows the rules. -/
theorem resolve_exact (sel : Selector) (s : Session) (K : Catalog) (source : Seat)
    (card : Option InstanceId) (chooser : Chooser) (asked : List TargetRequest) :
    (sel.validTargets s K source = [] ∨
        (sel.validTargets s K source).length = 1 ∧ sel.count = 1 →
      sel.resolve s K source card chooser asked = (sel.validTargets s K source, asked)) ∧
    (¬(sel.validTargets s K source = [] ∨
        (sel.validTargets s K source).length = 1 ∧ sel.count = 1) →
      sel.resolve s K source card chooser asked =
        (sel.kept s K source (chooser.pick asked (sel.request s K source card)),
          sel.request s K source card :: asked)) ∧
    sel.Fair s K source (sel.resolve s K source card chooser asked).1 ∧
    ((∀ seat, (s.battlefield seat).Nodup) →
      (sel.resolve s K source card .first asked).1 = (sel.validTargets s K source).take
        (min sel.count (sel.validTargets s K source).length)) := by
  rw [← isForced_iff]
  refine ⟨resolve_of_forced, ?_, fair_resolve card chooser asked, resolve_first⟩
  intro free
  exact resolve_of_free (Bool.not_eq_true _ ▸ free)

def hasty : Chooser :=
  .scripted [[.player ⟨7⟩, .creature ⟨2⟩ ⟨1⟩, .creature ⟨2⟩ ⟨1⟩, .player ⟨0⟩, .player ⟨1⟩]]

/-- Of Bob's creatures, Ann's choice is forced. Of two targets she is asked for once, and picks that
are illegal or repeated take no place. -/
theorem showdown_choices :
    enemyCreature.resolve showdown arena.catalog ⟨0⟩ none hasty []
      = ([.creature ⟨2⟩ ⟨1⟩], []) ∧
    anyTwo.resolve showdown arena.catalog ⟨0⟩ none hasty []
      = ([.creature ⟨2⟩ ⟨1⟩, .player ⟨0⟩], [anyTwo.request showdown arena.catalog ⟨0⟩ none]) ∧
    (anyTwo.resolve showdown arena.catalog ⟨0⟩ none .first []).1
      = [.player ⟨0⟩, .player ⟨1⟩] := by
  have apart : ∀ seat, (showdown.battlefield seat).Nodup :=
    Apart.nodup_battlefield (apart_of_accepted showdown_accepted (by decide +kernel))
  obtain ⟨forced, -⟩ := resolve_exact enemyCreature showdown arena.catalog ⟨0⟩ none hasty []
  obtain ⟨-, free, -, first⟩ := resolve_exact anyTwo showdown arena.catalog ⟨0⟩ none hasty []
  refine ⟨(forced (by decide +kernel)).trans ?_, (free (by decide +kernel)).trans ?_,
    (first apart).trans ?_⟩
  · decide +kernel
  · decide +kernel
  · decide +kernel

end Selector

end CardBattle
