/-!
# Binary magnitudes

A double is read off its bits: a sign, a natural significand and a power of two,
or one of the two infinities, or no number at all.  Everything below that has to
be exact (the digits of a number, rounding to whole numbers) works on this
reading in integer arithmetic.
-/

namespace Cascade

/-- The value of a double, read off its bits. -/
inductive Binary where
  /-- The number `± significand * 2 ^ exponent`. -/
  | finite (negative : Bool) (significand : Nat) (exponent : Int)
  | infinite (negative : Bool)
  | nan
deriving DecidableEq, Repr

namespace Binary

/-- The exponent of the smallest doubles. -/
def minExponent : Int := -1074

/-- The significand of a power of two: its lower neighbour is nearer than its upper one. -/
def hidden : Nat := Nat.pow 2 52

/-- Reads the three fields of a double: sign, biased exponent and fraction. -/
def ofFloat (x : Float) : Binary :=
  let bits := x.toBits.toNat
  let negative := bits / Nat.pow 2 63 == 1
  let biased := bits / hidden % 2048
  let fraction := bits % hidden
  if biased = 2047 then
    if fraction = 0 then .infinite negative else .nan
  else if biased = 0 then
    .finite negative fraction minExponent
  else
    .finite negative (fraction + hidden) (Int.ofNat biased - 1075)

end Binary

/-- Whole-number rounding: a half goes away from zero, and a zero keeps its sign.
A significand with a non-negative exponent is whole already. -/
def roundHalfAway (x : Float) : Float :=
  match Binary.ofFloat x with
  | .finite negative significand (.negSucc k) =>
    let unit := Nat.pow 2 (k + 1)
    let whole := Float.ofNat ((significand + unit / 2) / unit)
    if negative then -whole else whole
  | _ => x

/-- The product of `base` along the binary digits of `n`, lowest digit first, as
`digits` squarings allow. -/
def powerBySquaring (base : Float) (n digits : Nat) (acc : Float) : Float :=
  match digits with
  | 0 => acc
  | digits + 1 =>
    let acc := if n % 2 = 1 then acc * base else acc
    if n / 2 = 0 then acc else powerBySquaring (base * base) (n / 2) digits acc

/-- The integer power `base ^ n` by repeated squaring; a negative power is the
reciprocal of the positive one.  Exponents have at most 32 binary digits. -/
def powerInt (base : Float) (n : Int) : Float :=
  let power := powerBySquaring base n.natAbs 32 1.0
  if n < 0 then 1.0 / power else power

end Cascade
