import Cascade.Decimal.Binary

/-!
# Reading numerals

The grammar of a decimal number: an optional sign, then one of the words `inf`,
`infinity`, `nan` in any case, or digits with an optional point and an optional
exponent.  At least one digit stands before the exponent, before or after the point.
Natural numbers in a given base, with an optional leading `+`, are read by
`readNat?`.
-/

namespace Cascade

/-- The value of a digit in bases up to sixteen. -/
def digitValue? (c : Char) : Option Nat :=
  if '0' ≤ c ∧ c ≤ '9' then some (c.toNat - '0'.toNat)
  else if 'a' ≤ c ∧ c ≤ 'f' then some (c.toNat - 'a'.toNat + 10)
  else if 'A' ≤ c ∧ c ≤ 'F' then some (c.toNat - 'A'.toNat + 10)
  else none

/-- A digit of the given base. -/
def digitIn? (base : Nat) (c : Char) : Option Nat :=
  (digitValue? c).filter (· < base)

/-- The number that a digit sequence denotes, continuing from `acc`. -/
def readDigits? (base : Nat) : List Char → Nat → Option Nat
  | [], acc => some acc
  | c :: cs, acc => (digitIn? base c).bind fun d => readDigits? base cs (acc * base + d)

/-- A natural number of the given base: one optional `+`, then at least one digit. -/
def readNat? (base : Nat) (cs : List Char) : Option Nat :=
  let digits := match cs with
    | '+' :: rest => rest
    | _ => cs
  if digits.isEmpty then none else readDigits? base digits 0

/-- A natural number that fits in a byte. -/
def readByte? (base : Nat) (cs : List Char) : Option Nat :=
  (readNat? base cs).filter (· < 256)

/-- Whether a character is one of the ten decimal digits. -/
def isDecimalDigit (c : Char) : Bool :=
  '0' ≤ c && c ≤ '9'

/-- The double nearest to `digits * 10 ^ exponent`.  Beyond 330 places on either side
the result is known without the digits. -/
def nearestFloat (digits : Nat) (exponent : Int) : Float :=
  if digits = 0 then 0.0
  else
    let top := exponent + (Nat.toDigits 10 digits).length
    if 330 < top then 1.0 / 0.0
    else if top < -330 then 0.0
    else Float.ofScientific digits (exponent < 0) exponent.natAbs

/-- The text after the leading sign, and whether that sign is a minus. -/
def splitSign : List Char → Bool × List Char
  | '-' :: rest => (true, rest)
  | '+' :: rest => (false, rest)
  | cs => (false, cs)

/-- The exponent part of a numeral: nothing, or a marker, an optional sign and digits. -/
def readExponent? : List Char → Option Int
  | [] => some 0
  | c :: rest =>
    if c = 'e' ∨ c = 'E' then
      let (negative, digits) := splitSign rest
      if digits.isEmpty then none
      else (readDigits? 10 digits 0).map fun n => if negative then -(n : Int) else n
    else none

/-- An unsigned numeral: digits, a point and digits, an exponent. -/
def readMagnitude? (cs : List Char) : Option Float :=
  let whole := cs.takeWhile isDecimalDigit
  let rest := cs.dropWhile isDecimalDigit
  let (fraction, tail) := match rest with
    | '.' :: more => (more.takeWhile isDecimalDigit, more.dropWhile isDecimalDigit)
    | _ => ([], rest)
  if whole.isEmpty && fraction.isEmpty then none
  else do
    let digits ← readDigits? 10 (whole ++ fraction) 0
    let exponent ← readExponent? tail
    pure (nearestFloat digits (exponent - fraction.length))

/-- Reads a decimal number; `none` when the text is not one. -/
def readFloat? (cs : List Char) : Option Float :=
  let (negative, body) := splitSign cs
  let word := body.map Char.toLower
  let magnitude :=
    if word = "inf".toList ∨ word = "infinity".toList then some (1.0 / 0.0)
    else if word = "nan".toList then some (0.0 / 0.0)
    else readMagnitude? body
  magnitude.map fun x => if negative then -x else x

end Cascade
