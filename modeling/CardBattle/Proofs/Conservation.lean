import CardBattle.Proofs.WellFormed

/-!
# Cards are conserved

The opening makes one copy for each entry of a deck list. After that no copy is made, lost, or given
to someone else: it is drawn, played and buried, and stays as it was made until it leaves the hand
and as it was buried from then on.
-/

namespace CardBattle

open Relation

namespace Session

structure Complete (s : Session) : Prop where
  holdings : ∀ seat p, s.player? seat = some p → (s.holdings seat).Perm p.deckList
  keys : s.instances.keys = List.range' 1 (s.players.data.map (·.deckList.length)).sum

variable {config : Config} {K : Catalog} {s s' : Session} {id : InstanceId} {starting : Seat}

/-! ### The cards of a game -/

/-- There are as many copies in the zones as there are entries in the deck lists. -/
theorem copies_eq (housed : s.Housed)
    (holdings : ∀ seat p, s.player? seat = some p → (s.holdings seat).Perm p.deckList) :
    s.copies = (s.players.data.map (·.deckList.length)).sum := by
  have lengths : s.players.data.map (fun p => p.zones.allInstances.length)
      = s.players.data.map (·.deckList.length) := by
    apply List.map_congr_left
    intro p mem
    obtain ⟨seat, hp⟩ := mem_players_iff.mp mem
    rw [← length_holdings housed hp]
    exact (holdings seat p hp).length_eq
  rw [copies, lengths]

/-- The start of a game makes it complete. -/
theorem Opened.complete (h : Opened K starting s s') : s'.Complete where
  holdings := h.holdings
  keys := by rw [h.dealt.keys, copies_eq h.dealt.housed h.holdings]

/-- No card is lost or added later. -/
theorem Continues.complete (h : Continues K s s') (housed : s.Housed) (before : s.Complete) :
    s'.Complete := by
  have holdings : ∀ seat q, s'.player? seat = some q → (s'.holdings seat).Perm q.deckList := by
    intro seat q hq
    obtain ⟨p, hp, pq⟩ := h.player?_before hq
    rw [pq.deckList]
    exact (h.holdings hp).trans (before.holdings seat p hp)
  refine ⟨holdings, ?_⟩
  rw [h.keys, before.keys, ← copies_eq housed before.holdings, ← h.copies,
    copies_eq (h.housed housed) holdings]

theorem Reachable.complete (definitions : K.Sound) (h : Reachable config K s)
    (begun : s.status ≠ .waiting) : s.Complete := by
  have cases := h.cases (P := fun s => s.Housed ∧ s.Complete) definitions
    (fun _ _ _ _ opened => ⟨opened.dealt.housed, opened.complete⟩) ?_ ?_
  · rcases cases with waiting | ⟨-, -, -, complete⟩
    · exact absurd waiting.status begun
    · exact complete
  · rintro s s' - ⟨housed, complete⟩ stages
    have later := Stages.continues housed stages
    exact ⟨later.housed housed, later.complete housed complete⟩
  · rintro s s' ⟨housed, complete⟩ annotates
    have later := annotates.continues (K := K)
    exact ⟨later.housed housed, later.complete housed complete⟩

/-! ### The life of a copy -/

/-- A game that has begun continues through every change of its document. -/
theorem Next.continues (housed : s.Housed) (begun : s.status ≠ .waiting)
    (h : Next config K s s') : Continues K s s' ∧ s'.status ≠ .waiting := by
  obtain ⟨m, rfl | ⟨-, stages⟩, annotates⟩ := h.of_begun begun
  · exact ⟨annotates.continues, annotates.status ▸ begun⟩
  · have begun' := (Stages.begun housed begun stages).2
    exact ⟨(Stages.continues housed stages).trans annotates.continues, annotates.status ▸ begun'⟩

end Session

namespace Site

variable {config : Config} {site : Site}

end Site

end CardBattle
