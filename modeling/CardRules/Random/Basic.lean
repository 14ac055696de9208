import CardRules.Random.ChaCha
import CardRules.Random.Picker

/-!
# Seeded random numbers

A seed of 64 bits is stretched to a key, and the key determines a stream of words.  The state of the
generator is its place in the stream, so the same seed always gives the same picks.

A position below `n` is the upper half of the product of `n` and a 64-bit number.  Numbers for which
the lower half is above a zone are passed over; without that some positions would be more likely
than others.
-/

namespace CardRules

/-- One step of the sequence that stretches a seed. -/
def stretchStep (state : UInt64) : UInt64 :=
  state * 6364136223846793005 + 11634580027462260723

/-- The word that a state of the stretching sequence yields. -/
def stretchWord (state : UInt64) : UInt32 :=
  let x := (((state >>> 18) ^^^ state) >>> 27).toUInt32
  let turn := (state >>> 59).toUInt32
  (x >>> turn) ||| (x <<< ((32 - turn) % 32))

/-- The key of a seed: the words of the first eight states after it. -/
def keyOfSeed (seed : UInt64) : Vector UInt32 8 :=
  Vector.ofFn fun i : Fin 8 => stretchWord (Nat.repeat stretchStep (i + 1) seed)

/-- A generator: its seed, the key of the seed, and the number of words taken so far. -/
structure Random where
  seed : UInt64
  key : Vector UInt32 8
  position : Nat
deriving DecidableEq

namespace Random

/-- The generator of a seed. -/
def ofSeed (seed : UInt64) : Random :=
  ⟨seed, keyOfSeed seed, 0⟩

/-- The next 64-bit number, its lower word first. -/
def next (g : Random) : UInt64 × Random :=
  let low := ChaCha.word g.key g.position
  let high := ChaCha.word g.key (g.position + 1)
  (low.toUInt64 ||| (high.toUInt64 <<< 32), { g with position := g.position + 2 })

/-- The largest lower half that is not passed over when one of `n` positions is picked. -/
def zone (n : Nat) : Nat :=
  n * Nat.pow 2 (63 - n.log2) - 1

/-- The first number of the stream whose lower half is in the zone.  At least half of all numbers
are, so `fuel` bounds a search that is over after a few steps. -/
def accepted (n : Nat) : (fuel : Nat) → Random → UInt64 × Random
  | 0, g => g.next
  | fuel + 1, g =>
    let (x, g) := g.next
    if x.toNat * n % 0x10000000000000000 ≤ zone n then (x, g) else accepted n fuel g

/-- The upper half of the product of a 64-bit number and `n`. -/
def scaled (x : UInt64) (n : Nat) (h : 0 < n) : Fin n :=
  ⟨x.toNat * n / 0x10000000000000000, Nat.div_lt_of_lt_mul (Nat.mul_lt_mul_of_pos_right x.toNat_lt h)⟩

/-- One of `n` positions. -/
def pick (g : Random) (n : Nat) (h : 0 < n) : Fin n × Random :=
  let (x, g) := accepted n 4096 g
  (scaled x n h, g)

instance : Picker Random := ⟨pick⟩

end Random

end CardRules
