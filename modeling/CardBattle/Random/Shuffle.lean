import CardBattle.Random.Generator
import CardBattle.Random.Stream

/-!
# Random numbers from the ChaCha8 stream

The source of random numbers that games are run with. Lists are shuffled from the last place to the
first, each place being swapped with one chosen evenly among itself and those before it.
-/

namespace CardBattle.Random

namespace Generator

/-- The same point of the stream, with its position below the period. -/
def normalize (g : Generator) : Generator :=
  { g with position := g.position % period }

def nextWord (g : Generator) : UInt32 × Generator :=
  (word g.seed g.position, { g with position := (g.position + 1) % period })

/-- Draws two words, the low one first. -/
def nextBits (g : Generator) : UInt64 × Generator :=
  let (low, g) := g.nextWord
  let (high, g) := g.nextWord
  (low.toUInt64 ||| (high.toUInt64 <<< 32), g)

/-- The largest low half of a product that keeps the choice among `range` values even. -/
def evenZone (range : Nat) : Nat :=
  (range <<< (31 - Nat.log2 range)) - 1

/-- Draws words until one falls into the even zone, at most `draws` of them. -/
def drawBelow (range : Nat) : Nat → Generator → Nat × Generator
  | 0, g => (0, g)
  | draws + 1, g =>
    let (w, g) := g.nextWord
    let product := w.toNat * range
    if product % UInt32.size ≤ evenZone range then (product / UInt32.size, g)
    else drawBelow range draws g

/-- Chooses evenly among the numbers below `range`. A whole period holds every word there is. -/
def below (range : Nat) (g : Generator) : Nat × Generator :=
  drawBelow range period g

end Generator

variable {α : Type}

def swap (i j : Nat) (xs : List α) : List α :=
  match xs[i]?, xs[j]? with
  | some x, some y => (xs.set i y).set j x
  | _, _ => xs

/-- Shuffles the places up to `i`, from the last to the first. -/
def shuffleUpTo : Nat → List α → Generator → List α × Generator
  | 0, xs, g => (xs, g)
  | i + 1, xs, g =>
    let (j, g) := g.below (i + 2)
    shuffleUpTo i (swap (i + 1) j xs) g

def shuffle (xs : List α) (g : Generator) : List α × Generator :=
  shuffleUpTo (xs.length - 1) xs g

theorem swap_perm (i j : Nat) (xs : List α) : (swap i j xs).Perm xs := by
  unfold swap
  split
  · rename_i x y hx hy
    obtain ⟨inside, rfl⟩ := List.getElem?_eq_some_iff.mp hx
    obtain ⟨inside', rfl⟩ := List.getElem?_eq_some_iff.mp hy
    have swapped := Array.perm_iff_toList_perm.mp (@Array.swap_perm α xs.toArray i j inside inside')
    rwa [Array.toList_swap] at swapped
  · exact .refl _

theorem shuffleUpTo_perm (i : Nat) (xs : List α) (g : Generator) :
    (shuffleUpTo i xs g).1.Perm xs := by
  induction i generalizing xs g with
  | zero => exact .refl _
  | succ i ih => exact (ih _ _).trans (swap_perm _ _ xs)

instance chaCha : Source where
  draw g :=
    let (bits, g) := g.normalize.nextBits
    (bits, g.position)
  shuffle cards g :=
    let (order, g) := shuffle cards g.normalize
    (order, g.position)
  shuffle_perm cards g := shuffleUpTo_perm (cards.length - 1) cards g.normalize

end CardBattle.Random
