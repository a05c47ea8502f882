/-!
# The ChaCha8 word stream

A 64-bit seed is stretched to a 256-bit key, and the key and a block number give sixteen 32-bit
words. The stream of a seed is the concatenation of its blocks; block numbers are 64-bit, so it
repeats after `Stream.period` words.
-/

namespace CardBattle.Random

abbrev Key := Vector UInt32 8

/-- Sixteen words of cipher state or output. -/
abbrev Block := Vector UInt32 16

/-- The next seed of the generator that stretches keys. -/
def seedStep (s : UInt64) : UInt64 :=
  s * 6364136223846793005 + 11634580027462260723

def rotateRight (x n : UInt32) : UInt32 :=
  (x >>> n) ||| (x <<< (32 - n))

def rotateLeft (x n : UInt32) : UInt32 :=
  (x <<< n) ||| (x >>> (32 - n))

/-- The key word read off a stretched seed: its high bits folded, rotated by its top five bits. -/
def seedWord (s : UInt64) : UInt32 :=
  rotateRight (((s >>> 18) ^^^ s) >>> 27).toUInt32 (s >>> 59).toUInt32

def seedWords : Nat → UInt64 → List UInt32
  | 0, _ => []
  | n + 1, s => seedWord (seedStep s) :: seedWords n (seedStep s)

def keyOfSeed (seed : UInt64) : Key :=
  Vector.ofFn fun i => (seedWords 8 seed).getD i 0

/-- The state that block `n` starts from: constants, key, block number, zero nonce. -/
def initialBlock (key : Key) (n : UInt64) : Block :=
  #v[0x61707865, 0x3320646e, 0x79622d32, 0x6b206574,
    key[0], key[1], key[2], key[3], key[4], key[5], key[6], key[7],
    n.toUInt32, (n >>> 32).toUInt32, 0, 0]

/-- Mixes four words of the state. -/
def quarterRound (s : Block) (a b c d : Fin 16) : Block :=
  let xa := s[a] + s[b]
  let xd := rotateLeft (s[d] ^^^ xa) 16
  let xc := s[c] + xd
  let xb := rotateLeft (s[b] ^^^ xc) 12
  let ya := xa + xb
  let yd := rotateLeft (xd ^^^ ya) 8
  let yc := xc + yd
  let yb := rotateLeft (xb ^^^ yc) 7
  (((s.set a ya).set b yb).set c yc).set d yd

/-- Mixes the four columns, then the four diagonals. -/
def doubleRound (s : Block) : Block :=
  let s := quarterRound s 0 4 8 12
  let s := quarterRound s 1 5 9 13
  let s := quarterRound s 2 6 10 14
  let s := quarterRound s 3 7 11 15
  let s := quarterRound s 0 5 10 15
  let s := quarterRound s 1 6 11 12
  let s := quarterRound s 2 7 8 13
  quarterRound s 3 4 9 14

/-- Block `n` of the stream: four double rounds, then the starting state added. -/
def block (key : Key) (n : UInt64) : Block :=
  let start := initialBlock key n
  let mixed := doubleRound (doubleRound (doubleRound (doubleRound start)))
  mixed.zipWith (· + ·) start

/-- The number of words after which the stream repeats: sixteen for each block number. -/
def period : Nat := Nat.pow 2 68

/-- The word at a position of a seed's stream. -/
def word (seed : UInt64) (position : Nat) : UInt32 :=
  (block (keyOfSeed seed) (UInt64.ofNat (position / 16))).get
    ⟨position % 16, Nat.mod_lt _ (by decide)⟩

end CardBattle.Random
