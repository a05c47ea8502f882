import CardBattle.Identity

/-!
# The generator of a session

A session keeps the state of its generator: a seed, and a position in the stream of random words
that belongs to the seed. What is drawn in a state is up to a library of random numbers. A game
relies on what `Source` says of the library and on nothing else.
-/

namespace CardBattle.Random

/-- A seed and the number of words drawn from its stream. -/
structure Generator where
  seed : UInt64
  position : Nat
  deriving DecidableEq, Repr, Inhabited

/-- A library of random numbers. What it draws, and the position that it comes to, are functions of
the state. -/
class Source where
  /-- Random bits. -/
  draw : Generator → UInt64 × Nat
  /-- A list in random order. -/
  shuffle : List InstanceId → Generator → List InstanceId × Nat
  shuffle_perm (cards : List InstanceId) (g : Generator) : (shuffle cards g).1.Perm cards

namespace Generator

/-- The generator of a seed, with nothing drawn yet. -/
def ofSeed (seed : UInt64) : Generator :=
  ⟨seed, 0⟩

variable [Source]

/-- Draws a seed for another generator: random bits mixed with the own seed. -/
def deriveSeed (g : Generator) : UInt64 × Generator :=
  let (bits, position) := Source.draw g
  (g.seed * (0x9E3779B97F4A7C15 : UInt64) + bits, { g with position })

def shuffle (cards : List InstanceId) (g : Generator) : List InstanceId × Generator :=
  let (order, position) := Source.shuffle cards g
  (order, { g with position })

end Generator

end CardBattle.Random
