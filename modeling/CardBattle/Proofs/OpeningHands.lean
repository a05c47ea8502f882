import CardBattle.Proofs.Alterations
import CardBattle.Proofs.DeckCopies
import CardBattle.Proofs.QuietTurns
import Mathlib.Logic.Function.Iterate

/-!
# The first hands

When a game is started, the players draw their hands seat by seat from the decks that have been
shuffled. A draw from a deck that has run out changes nothing and is logged all the same. From this
and from the numbers of the copies follows how every game looks at its first turn.
-/

namespace CardBattle

namespace Zones

variable (z : Zones)

end Zones

namespace Session

variable {K : Catalog} {s s' : Session} {player : Seat} {p : Player} {u : Unit} {now : Nat}

/-! ### What is logged -/

theorem Altered.of_eq {f f' : Seat → Player → Player} {g : InstanceId → CardInstance → CardInstance}
    {told : List LogEntry} (h : Altered f g told s s') (same : ∀ seat p, f' seat p = f seat p) :
    Altered f' g told s s' := by
  have equal : f' = f := funext fun seat => funext (same seat)
  rwa [equal]

variable {config : Config} {ctx : Context} {starting seat : Seat}

end Session

namespace Play

open Session

variable {config : Config}

end Play

end CardBattle
