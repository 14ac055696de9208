import CardRules.Json.Number

/-!
# The shortest decimal of a binary fraction

A fraction is shown with the fewest digits that read back as the same fraction; of several such
decimals the nearest is taken.  `shortest` tries one digit, then two, and so on.  On the grid of
each number of digits only the two neighbours of the value need to be looked at.

`Binary64.text` lays the digits out: without a power of ten from 10⁻⁵ up to 10¹⁶, always with a
digit after the point, and otherwise with a signed power of ten.
-/

namespace CardRules.Json

/-- A decimal `digits · 10 ^ exponent`. -/
structure Decimal where
  digits : Nat
  exponent : Int
deriving DecidableEq

namespace Magnitude

/-- The ends of the interval of numbers that round to a magnitude, in units of a quarter of its last
binary place. -/
def ends (x : Magnitude) : Nat × Nat :=
  (if x.mantissa = Nat.pow 2 52 && -1074 < x.exponent then 4 * x.mantissa - 1 else 4 * x.mantissa - 2,
    4 * x.mantissa + 2)

/-- Whether a decimal rounds to a magnitude; the ends of the interval do if the mantissa is
even. -/
def roundsTo (x : Magnitude) (d : Decimal) : Bool :=
  let (low, high) := x.ends
  let left := d.digits * Nat.pow 10 d.exponent.toNat * 4 * Nat.pow 2 (-x.exponent).toNat
  let unit := Nat.pow 10 (-d.exponent).toNat * Nat.pow 2 x.exponent.toNat
  if x.mantissa % 2 = 0 then low * unit ≤ left && left ≤ high * unit
  else low * unit < left && left < high * unit

/-- The decimal of a grid that rounds to a magnitude: the nearer neighbour, or the one with an even
last digit if both are as near. -/
def onGrid? (x : Magnitude) (exponent : Int) : Option Decimal :=
  let num := x.num * Nat.pow 10 (-exponent).toNat
  let den := x.den * Nat.pow 10 exponent.toNat
  let below : Decimal := ⟨num / den, exponent⟩
  let above : Decimal := ⟨num / den + 1, exponent⟩
  match x.roundsTo below, x.roundsTo above with
  | true, true => some ⟨roundQuotient num den, exponent⟩
  | true, false => some below
  | false, true => some above
  | false, false => none

/-- The power of ten of the first digit of a positive magnitude, or the one below it. -/
def leadingPower (x : Magnitude) : Int :=
  if x.den ≤ x.num then ((x.num / x.den).log2 * 30103 / 100000 : Nat)
  else -(((x.den / x.num).log2 + 1) * 30103 / 100000 + 1 : Nat)

/-- The first decimal that rounds to a magnitude on grids of more and more digits. -/
def searchGrid (x : Magnitude) : (steps : Nat) → (exponent : Int) → Decimal
  | 0, e => ⟨x.num * Nat.pow 10 (-e).toNat / (x.den * Nat.pow 10 e.toNat), e⟩
  | steps + 1, e =>
    match x.onGrid? e with
    | some d => d
    | none => searchGrid x steps (e - 1)

end Magnitude

/-- A decimal without zeros at its end. -/
def Decimal.trim : (steps : Nat) → Decimal → Decimal
  | 0, d => d
  | steps + 1, d => if d.digits % 10 = 0 then trim steps ⟨d.digits / 10, d.exponent + 1⟩ else d

/-- The decimal with the fewest digits that rounds to a positive magnitude.  The search starts above
the first digit; a double has at most seventeen. -/
def Magnitude.shortest (x : Magnitude) : Decimal :=
  (x.searchGrid 24 (x.leadingPower + 2)).trim 24

/-- The digits of a decimal as text. -/
def Decimal.digitText (d : Decimal) : List Char :=
  Nat.toDigits 10 d.digits

/-- The text of a power of ten: a sign in any case, and the digits. -/
def exponentText (e : Int) : List Char :=
  (if e < 0 then '-' else '+') :: Nat.toDigits 10 e.natAbs

/-- A decimal laid out as text. -/
def Decimal.layOut (d : Decimal) : List Char :=
  let ds := d.digitText
  let e : Int := d.exponent + ds.length - 1
  if -5 ≤ e && e < 16 then
    if 0 ≤ d.exponent then ds ++ List.replicate d.exponent.toNat '0' ++ ['.', '0']
    else if 0 ≤ e then ds.take (e.toNat + 1) ++ '.' :: ds.drop (e.toNat + 1)
    else ['0', '.'] ++ List.replicate (-e - 1).toNat '0' ++ ds
  else
    let rest := ds.drop 1
    ds.take 1 ++ (if rest.isEmpty then [] else '.' :: rest) ++ 'e' :: exponentText e

/-- The text of a fraction. -/
def Binary64.text (x : Binary64) : String :=
  let body := if x.mantissa = 0 then ['0', '.', '0']
    else (Magnitude.shortest ⟨x.mantissa, x.exponent⟩).layOut
  String.ofList (if x.negative then '-' :: body else body)

end CardRules.Json
