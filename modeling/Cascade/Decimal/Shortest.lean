import Cascade.Decimal.Binary

/-!
# Decimal numerals

`Decimal` is `digits * 10 ^ exponent`.  Two ways of choosing one for a binary
magnitude `significand * 2 ^ exponent` are given:

* `Decimal.shortest`: the fewest digits that still read back as the same double,
  and among those the nearest to it;
* `Decimal.fixed`: a given number of decimal places, a half going to the even
  neighbour.

`Decimal.chars` lays a numeral out positionally, never with an exponent.
-/

namespace Cascade

/-- The decimal numeral `digits * 10 ^ exponent`. -/
structure Decimal where
  digits : Nat
  exponent : Int
deriving DecidableEq, Repr

namespace Decimal

/-- The decimal digits of a natural number, most significant first. -/
def natChars (n : Nat) : List Char :=
  Nat.toDigits 10 n

/-- Positional layout of a digit sequence that is to be scaled by `10 ^ exponent`:
zeros are appended, or a point is put in, with a `0` before it when no digit is left
there. -/
def layout (digits : List Char) : Int → List Char
  | .ofNat k => digits ++ List.replicate k '0'
  | .negSucc k =>
    let places := k + 1
    if places < digits.length then
      digits.take (digits.length - places) ++ '.' :: digits.drop (digits.length - places)
    else
      '0' :: '.' :: (List.replicate (places - digits.length) '0' ++ digits)

/-- The positional text of a numeral. -/
def chars (d : Decimal) : List Char :=
  layout (natChars d.digits) d.exponent

/-! ### A common scale

A binary magnitude and the two ends of the interval of reals that round to it are
numerators over one common denominator, in quarters of the last binary place. -/

/-- The reals that read back as one double: numerators over a common denominator.
The ends belong to the interval iff the significand is even. -/
structure Interval where
  low : Nat
  value : Nat
  high : Nat
  denominator : Nat
  closed : Bool
deriving DecidableEq, Repr

namespace Interval

/-- The interval around `significand * 2 ^ exponent`.  Below a power of two the
doubles lie twice as dense, so the lower end is only half as far away. -/
def around (significand : Nat) (exponent : Int) : Interval :=
  let below := if significand = Binary.hidden ∧ exponent ≠ Binary.minExponent then 1 else 2
  let quarter := exponent - 2
  let scale := Nat.pow 2 quarter.toNat
  { low := (4 * significand - below) * scale
    value := 4 * significand * scale
    high := (4 * significand + 2) * scale
    denominator := Nat.pow 2 (-quarter).toNat
    closed := significand % 2 == 0 }

/-- Whether `n / denominator` lies in the interval, for `n` scaled by `factor`. -/
def holds (i : Interval) (factor n : Nat) : Bool :=
  if i.closed then i.low * factor ≤ n && n ≤ i.high * factor
  else i.low * factor < n && n < i.high * factor

/-- The number of decimal places before the point of the value (negative for leading
zeros after it): the least `p` with `value < 10 ^ p`. -/
def places (i : Interval) : Int :=
  if i.denominator ≤ i.value then
    (natChars (i.value / i.denominator)).length
  else
    1 - ((natChars ((i.denominator - 1) / i.value)).length : Int)

/-- The point of the grid `10 ^ k` that represents the interval, if one of the two
grid points beside the value lies in it; the nearer one if both do, and the upper one
if they are equally near. -/
def onGrid? (i : Interval) (k : Int) : Option Decimal :=
  let factor := Nat.pow 10 (-k).toNat
  let step := Nat.pow 10 k.toNat * i.denominator
  let value := i.value * factor
  let below := value / step
  let lowHit := i.holds factor (below * step)
  let highHit := i.holds factor ((below + 1) * step)
  if lowHit && highHit then
    if 2 * (value - below * step) < step then some ⟨below, k⟩ else some ⟨below + 1, k⟩
  else if lowHit then some ⟨below, k⟩
  else if highHit then some ⟨below + 1, k⟩
  else none

/-- The first grid with a hit, starting at `10 ^ k` and getting finer for `fuel` steps. -/
def firstGrid (i : Interval) (k : Int) : Nat → Decimal
  | 0 => ⟨i.value * Nat.pow 10 (-k).toNat / (Nat.pow 10 k.toNat * i.denominator), k⟩
  | fuel + 1 => (i.onGrid? k).getD (firstGrid i (k - 1) fuel)

end Interval

/-- The fewest digits that read back as `significand * 2 ^ exponent`, and among those
the nearest.  The first grid tried has no point below the value but zero, so that a power of
ten just above it is met with its single digit; seventeen more tell any two doubles apart. -/
def shortest (significand : Nat) (exponent : Int) : Decimal :=
  if significand = 0 then ⟨0, 0⟩
  else
    let i := Interval.around significand exponent
    i.firstGrid i.places 18

/-- The quotient `num / den` rounded to a whole number, a half going to the even
neighbour. -/
def roundHalfEven (num den : Nat) : Nat :=
  let q := num / den
  let r := num % den
  if 2 * r < den then q
  else if den < 2 * r then q + 1
  else if q % 2 = 0 then q else q + 1

/-- The magnitude `significand * 2 ^ exponent` to `places` decimal places. -/
def fixed (places significand : Nat) (exponent : Int) : Decimal :=
  let scaled := significand * Nat.pow 2 exponent.toNat * Nat.pow 10 places
  ⟨roundHalfEven scaled (Nat.pow 2 (-exponent).toNat), -(places : Int)⟩

end Decimal

end Cascade
