/-!
# Words

Health, energy and amounts are signed words of 64 bits; turns and steps are counted in 32 bits.
Scripts check every result of their arithmetic. The rules do not: of a sum that is too large the
last 64 bits are kept, and a counter starts again at 0.
-/

namespace CardBattle

/-- Whether an integer has 64 bits with sign. -/
def inWord (n : Int) : Bool :=
  decide (-Int.pow 2 63 ≤ n ∧ n < Int.pow 2 63)

/-- The signed word made of the last 64 bits of an integer. -/
def toWord (n : Int) : Int :=
  Int.bmod n UInt64.size

/-- The next value of a counter of 32 bits. -/
def nextCount (n : Nat) : Nat :=
  (n + 1) % UInt32.size

/-- What is left after an amount is taken off; a negative amount counts as nothing. -/
def lessened (held amount : Int) : Int :=
  held - max amount 0

/-- What there is after an amount is added; a negative amount counts as nothing. -/
def increased (held amount : Int) : Int :=
  held + max amount 0

theorem inWord_iff {n : Int} :
    inWord n = true ↔ -9223372036854775808 ≤ n ∧ n < 9223372036854775808 := by
  have power : Int.pow 2 63 = 9223372036854775808 := by decide
  rw [inWord, decide_eq_true_iff, power]

theorem toWord_of_inWord {n : Int} (word : inWord n = true) : toWord n = n := by
  have bounds := inWord_iff.mp word
  rw [toWord, Int.bmod_def, UInt64.size]
  omega

theorem lessened_of_nonneg {amount : Int} (nonneg : 0 ≤ amount) (held : Int) :
    lessened held amount = held - amount := by
  rw [lessened, Int.max_eq_left nonneg]

theorem increased_of_nonneg {amount : Int} (nonneg : 0 ≤ amount) (held : Int) :
    increased held amount = held + amount := by
  rw [increased, Int.max_eq_left nonneg]

theorem nextCount_le (n : Nat) : nextCount n ≤ n + 1 :=
  Nat.mod_le _ _

theorem nextCount_lt (n : Nat) : nextCount n < UInt32.size :=
  Nat.mod_lt _ (by decide)

theorem nextCount_of_lt {n : Nat} (more : n + 1 < UInt32.size) : nextCount n = n + 1 :=
  Nat.mod_eq_of_lt more

end CardBattle
