import Cascade.Decimal.Shortest

/-!
# Numbers in a stylesheet

A number is written positionally, with the fewest digits that read back, after it
was rounded to the precision of the output.  Numbers below a millionth in magnitude
are written to twenty places and lose their trailing zeros.
-/

namespace Cascade

/-- A precision is a 32-bit count of decimal places, of which the upper half stands
for negative counts. -/
def Precision.toInt (precision : Nat) : Int :=
  let word := precision % Nat.pow 2 32
  if word < Nat.pow 2 31 then Int.ofNat word else Int.ofNat word - Int.ofNat (Nat.pow 2 32)

/-- Rounds to the given number of decimal places, a half away from zero.  A tiny amount
is added first, so that values such as `1.005` that fall just short of a half still go
up.  Without a precision the value stays as it is. -/
def roundTo (precision : Option Nat) (x : Float) : Float :=
  match precision with
  | none => x
  | some p =>
    let scale := powerInt 10.0 (Precision.toInt p)
    roundHalfAway ((x + 2e-16) * scale) / scale

/-- Drops trailing characters equal to `c`. -/
def dropTrailing (c : Char) (cs : List Char) : List Char :=
  (cs.reverse.dropWhile (· == c)).reverse

/-- The text of a double: the fewest digits that read back, positionally. -/
def floatChars (x : Float) : List Char :=
  match Binary.ofFloat x with
  | .nan => "NaN".toList
  | .infinite negative => if negative then "-inf".toList else "inf".toList
  | .finite negative significand exponent =>
    let magnitude := (Decimal.shortest significand exponent).chars
    if negative then '-' :: magnitude else magnitude

/-- The text of a double to twenty places, without trailing zeros and without a
trailing point. -/
def tinyChars (x : Float) : List Char :=
  match Binary.ofFloat x with
  | .finite negative significand exponent =>
    let magnitude := (Decimal.fixed 20 significand exponent).chars
    let trimmed := dropTrailing '.' (dropTrailing '0' magnitude)
    if negative then '-' :: trimmed else trimmed
  | _ => floatChars x

/-- The text of a number in a stylesheet with the given precision. -/
def numberChars (precision : Option Nat) (x : Float) : List Char :=
  let rounded := roundTo precision x
  if rounded == 0.0 then ['0']
  else if rounded.abs < 0.000001 then tinyChars rounded
  else floatChars rounded

/-- The text of a number in a stylesheet with the given precision. -/
def numberText (precision : Option Nat) (x : Float) : String :=
  String.ofList (numberChars precision x)

/-- Limits a value to an interval; a value that compares with neither end stays. -/
def clampFloat (low high x : Float) : Float :=
  if x < low then low else if high < x then high else x

end Cascade
