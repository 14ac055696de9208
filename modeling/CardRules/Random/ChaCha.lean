/-!
# The ChaCha stream with twelve rounds

A key of eight words determines an endless sequence of 32-bit words, sixteen to a block.  A block is
a 4 × 4 matrix of words: four constants, the key, and the number of the block.  It is stirred by
twelve rounds, alternately on columns and on diagonals, and added to what it was before.
-/

namespace CardRules.ChaCha

/-- A block of sixteen words. -/
abbrev Block := Vector UInt32 16

/-- The bits of a word turned to the left. -/
def rotateLeft (w : UInt32) (n : UInt32) : UInt32 :=
  (w <<< n) ||| (w >>> (32 - n))

/-- The quarter round on the words at four places. -/
def quarterRound (b : Block) (i j k l : Fin 16) : Block :=
  let x := b[i] + b[j]
  let w := rotateLeft (b[l] ^^^ x) 16
  let z := b[k] + w
  let y := rotateLeft (b[j] ^^^ z) 12
  let x := x + y
  let w := rotateLeft (w ^^^ x) 8
  let z := z + w
  let y := rotateLeft (y ^^^ z) 7
  (((b.set i x).set j y).set k z).set l w

/-- A round on the four columns and one on the four diagonals. -/
def doubleRound (b : Block) : Block :=
  let b := quarterRound b 0 4 8 12
  let b := quarterRound b 1 5 9 13
  let b := quarterRound b 2 6 10 14
  let b := quarterRound b 3 7 11 15
  let b := quarterRound b 0 5 10 15
  let b := quarterRound b 1 6 11 12
  let b := quarterRound b 2 7 8 13
  quarterRound b 3 4 9 14

/-- A block before the rounds: the constants spell `expand 32-byte k`. -/
def start (key : Vector UInt32 8) (number : Nat) : Block :=
  #v[0x61707865, 0x3320646e, 0x79622d32, 0x6b206574, key[0], key[1], key[2], key[3], key[4],
    key[5], key[6], key[7], UInt32.ofNat number, UInt32.ofNat (number >>> 32), 0, 0]

/-- The block of a number. -/
def block (key : Vector UInt32 8) (number : Nat) : Block :=
  let b := start key number
  Vector.zipWith (· + ·) ((List.range 6).foldl (fun b _ => doubleRound b) b) b

/-- The word at a position of the stream. -/
def word (key : Vector UInt32 8) (position : Nat) : UInt32 :=
  (block key (position / 16)).get ⟨position % 16, Nat.mod_lt _ (by decide)⟩

end CardRules.ChaCha
