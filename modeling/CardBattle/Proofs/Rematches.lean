import CardBattle.Proofs.Refusals
import CardBattle.Proofs.Rotation
import CardBattle.Proofs.Seating

/-!
# Rematches

A rematch can be made of a finished game exactly if its players can sit down and be dealt their
decks once more. It starts at once, in a document of its own, and the finished game stays as it is;
a rematch that cannot be made leaves a failure in the log. From rematch to rematch the first turn
passes on to the next seat.
-/

namespace CardBattle

namespace SeatMap

variable {α : Type} {m m' : SeatMap α} {seat : Seat}

end SeatMap

namespace Session

variable {config : Config} {K : Catalog} {s s' s'' : Session} {starting : Seat}

structure SameTable (s s' : Session) : Prop where
  names : s'.players.data.map (·.name) = s.players.data.map (·.name)
  decks : s'.players.data.map (·.deckList) = s.players.data.map (·.deckList)

namespace SameTable

theorem trans (h : SameTable s s') (h' : SameTable s' s'') : SameTable s s'' :=
  ⟨h'.names.trans h.names, h'.decks.trans h.decks⟩

theorem count (h : SameTable s s') : s'.players.count = s.players.count := by
  have lengths := congrArg List.length h.names
  rwa [List.length_map, List.length_map] at lengths

end SameTable

/-! ### The new game -/

/-- With nothing in play it does not matter what the definitions are. -/
theorem Opened.accepted (h : Opened K starting s s') (waiting : s.Waiting config)
    (valid : config.fault? = none) (K' : Catalog) : s'.violation? K' = none := by
  obtain ⟨health, ⟨energy, -⟩, -⟩ := Config.fault?_eq_none_iff.mp valid
  have sound := h.sound (Int.le_of_lt health) energy waiting
  have formed := sound.wellFormed
  have formed' : s'.WellFormed K' :=
    { solvent := formed.solvent
      once := formed.once
      owned := formed.owned
      active := formed.active
      permanents := by
        intro id c d _ _ mem
        rw [h.battlefield] at mem
        cases mem }
  exact formed'.accepted sound.housed.numbered sound.housed.labelled

end Session

namespace Engine

open Session

variable {e : Engine} {w : World} {s s' : Session}

end Engine

namespace DocumentStore

variable {store store' : DocumentStore} {id : SessionId} {s : Session}

structure Adds (store store' : DocumentStore) (id : SessionId) (s : Session) : Prop where
  new : store.find? id = none
  found : store'.find? id = some s
  others : ∀ other, other ≠ id → store'.find? other = store.find? other
  size : store'.size = store.size + 1

end DocumentStore

namespace Site

variable {site last : Site} {s : Session} {k : Nat}

end Site

end CardBattle
