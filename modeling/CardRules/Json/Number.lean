/-!
# Numbers of JSON texts

A number of a JSON text is an integer if it is written as one and fits into 64 bits, and otherwise a
binary fraction of double precision.  Fractions are computed exactly on natural numbers and rounded
once to each result, a half to the even neighbour.
-/

namespace CardRules.Json

/-- A finite binary fraction of double precision, `± mantissa · 2 ^ exponent`.  The mantissa is below
2⁵³ and the exponent is the smallest that is at least -1074 and leaves it so. -/
structure Binary64 where
  negative : Bool
  mantissa : Nat
  exponent : Int
deriving DecidableEq

/-- A number of a JSON text. -/
inductive Number where
  | int (n : Int)
  | fraction (x : Binary64)
deriving DecidableEq

/-! ### Rounding -/

/-- The integer nearest to a quotient, the even one of two. -/
def roundQuotient (num den : Nat) : Nat :=
  let q := num / den
  match compare (2 * (num % den)) den with
  | .lt => q
  | .gt => q + 1
  | .eq => q + q % 2

/-- A nonnegative quotient without a sign: mantissa and exponent. -/
structure Magnitude where
  mantissa : Nat
  exponent : Int
deriving DecidableEq

namespace Magnitude

/-- The numerator of a magnitude as a quotient of natural numbers. -/
def num (x : Magnitude) : Nat := x.mantissa * Nat.pow 2 x.exponent.toNat

/-- The denominator of a magnitude as a quotient of natural numbers. -/
def den (x : Magnitude) : Nat := Nat.pow 2 (-x.exponent).toNat

/-- A quotient in units of `2 ^ e`, rounded. -/
def roundTo (num den : Nat) (e : Int) : Nat :=
  roundQuotient (num * Nat.pow 2 (-e).toNat) (den * Nat.pow 2 e.toNat)

/-- The double precision magnitude nearest to `num / den`, or `none` beyond the largest one. -/
def ofQuotient? (num den : Nat) : Option Magnitude :=
  if num = 0 then some ⟨0, -1074⟩
  else
    let e : Int := max ((num.log2 : Int) - den.log2 - 53) (-1074)
    let scaled := num * Nat.pow 2 (-e).toNat / (den * Nat.pow 2 e.toNat)
    let e := if scaled < Nat.pow 2 53 then e else e + 1
    let m := roundTo num den e
    let (m, e) := if m = Nat.pow 2 53 then (Nat.pow 2 52, e + 1) else (m, e)
    if 971 < e then none else some ⟨m, e⟩

/-- The product of two magnitudes. -/
def mul? (x y : Magnitude) : Option Magnitude :=
  ofQuotient? (x.num * y.num) (x.den * y.den)

/-- The quotient of two magnitudes. -/
def div? (x y : Magnitude) : Option Magnitude :=
  ofQuotient? (x.num * y.den) (x.den * y.num)

/-- The magnitude nearest to a power of ten. -/
def pow10? (n : Nat) : Option Magnitude :=
  ofQuotient? (Nat.pow 10 n) 1

/-- Takes a magnitude times a power of ten, as reading does it: a power that is itself a
magnitude is applied in one operation, a smaller one in steps of 308.  Three steps reach zero from
any 64-bit number. -/
def scale? : (steps : Nat) → Magnitude → Int → Option Magnitude
  | 0, x, _ => some x
  | steps + 1, x, e =>
    if 0 ≤ e then
      if 308 < e then (if x.mantissa = 0 then some x else none)
      else (pow10? e.toNat).bind x.mul?
    else if -308 ≤ e then (pow10? (-e).toNat).bind x.div?
    else if x.mantissa = 0 then some x
    else ((pow10? 308).bind x.div?).bind fun y => scale? steps y (e + 308)

end Magnitude

/-! ### Number texts -/

/-- The parts of a number as it is written. -/
structure NumberText where
  negative : Bool
  /-- The digits before the point. -/
  whole : List Nat
  /-- The digits after the point. -/
  fraction : List Nat
  /-- Sign and digits of the power of ten. -/
  exponent : Option (Bool × List Nat)
  /-- Whether there is a point. -/
  hasPoint : Bool

namespace NumberText

/-- The largest 64-bit number. -/
def maxUnsigned : Nat := 0xFFFFFFFFFFFFFFFF

/-- Appends digits to a significand as long as it fits into 64 bits; gives the digits left. -/
def absorb : Nat → List Nat → Nat × List Nat
  | n, [] => (n, [])
  | n, d :: ds => if n * 10 + d ≤ maxUnsigned then absorb (n * 10 + d) ds else (n, d :: ds)

/-- The number that digits spell. -/
def natOfDigits (ds : List Nat) : Nat :=
  ds.foldl (fun n d => n * 10 + d) 0

/-- A value kept between the ends of the signed 32-bit range. -/
def clamp32 (n : Int) : Int :=
  max (-0x80000000) (min 0x7FFFFFFF n)

/-- A fraction `significand · 10 ^ exponent` with a sign. -/
def fractionOf? (negative : Bool) (significand : Nat) (exponent : Int) : Option Number :=
  ((Magnitude.ofQuotient? significand 1).bind (Magnitude.scale? 8 · exponent)).map
    fun x => .fraction ⟨negative, x.mantissa, x.exponent⟩

/-- The value of a fraction.  Digits that do not fit into the significand count as zeros before the
point and are dropped after it; a power of ten beyond 32 bits gives zero or no number. -/
def fractionValue? (t : NumberText) : Option Number :=
  let (significand, dropped) := absorb 0 t.whole
  let (significand, rest) := absorb significand t.fraction
  let shift : Int := dropped.length - (t.fraction.length - rest.length : Nat)
  match t.exponent with
  | none => fractionOf? t.negative significand shift
  | some (down, digits) =>
    let e : Int := natOfDigits digits
    if 0x7FFFFFFF < e then
      if significand ≠ 0 && !down then none else fractionOf? t.negative 0 0
    else fractionOf? t.negative significand (clamp32 (if down then shift - e else shift + e))

/-- The value of a number, or `none` if it is beyond the largest fraction.  An integer outside the
64-bit range is a fraction, and so is a zero with a minus sign. -/
def value? (t : NumberText) : Option Number :=
  if t.hasPoint || t.exponent.isSome then t.fractionValue?
  else
    let n := natOfDigits t.whole
    if t.negative then
      if 0 < n && n ≤ 0x8000000000000000 then some (.int (-n)) else t.fractionValue?
    else if n ≤ maxUnsigned then some (.int n) else t.fractionValue?

end NumberText

end CardRules.Json
