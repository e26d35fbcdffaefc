import Cascade.Color.Space
import Cascade.Decimal.Reader
import Cascade.Text.Blank

/-!
# Reading colours

A colour is written as `#` with three, six or eight hexadecimal digits, or as one of the
functions `rgb` and `rgba` with its arguments between the first opening and the last
closing parenthesis.
-/

namespace Cascade

namespace Text

/-- The parts of a text between the occurrences of a character. -/
def splitOnChar (sep : Char) : List Char → List (List Char)
  | [] => [[]]
  | c :: rest =>
    if c = sep then [] :: splitOnChar sep rest
    else
      match splitOnChar sep rest with
      | [] => [[c]]
      | part :: parts => (c :: part) :: parts

/-- Whether a text begins with another. -/
def startsWith (start s : String) : Bool :=
  start.toList.isPrefixOf s.toList

/-- The part of a text after the first occurrence of a character. -/
def afterFirst? (c : Char) (cs : List Char) : Option (List Char) :=
  match cs.dropWhile (· != c) with
  | [] => none
  | _ :: rest => some rest

/-- The part of a text before the last occurrence of a character. -/
def beforeLast? (c : Char) (cs : List Char) : Option (List Char) :=
  (afterFirst? c cs.reverse).map List.reverse

end Text

namespace Rgba

/-- A byte as a channel. -/
def ofByte (n : Nat) : Float :=
  Float.ofNat n / 255.0

/-- A colour from its hexadecimal digits: one or two for each channel, and two for the
opacity. -/
def readHex? : List Char → Option Rgba
  | [r, g, b] => do
    let r ← readByte? 16 [r]
    let g ← readByte? 16 [g]
    let b ← readByte? 16 [b]
    pure ⟨ofByte (r * 17), ofByte (g * 17), ofByte (b * 17), 1.0⟩
  | [r, r', g, g', b, b'] => do
    let r ← readByte? 16 [r, r']
    let g ← readByte? 16 [g, g']
    let b ← readByte? 16 [b, b']
    pure ⟨ofByte r, ofByte g, ofByte b, 1.0⟩
  | [r, r', g, g', b, b', a, a'] => do
    let r ← readByte? 16 [r, r']
    let g ← readByte? 16 [g, g']
    let b ← readByte? 16 [b, b']
    let a ← readByte? 16 [a, a']
    pure ⟨ofByte r, ofByte g, ofByte b, ofByte a⟩
  | _ => none

/-- An opacity: a number, or a percentage, limited to the range from zero to one. -/
def readAlpha? (cs : List Char) : Option Float :=
  if cs.getLast? = some '%' then
    (readFloat? cs.dropLast).map fun x => clampFloat 0.0 1.0 (x / 100.0)
  else
    (readFloat? cs).map (clampFloat 0.0 1.0)

/-- A colour from the arguments of a colour function: three bytes, and an opacity if the
function takes one. -/
def readArguments? (hasAlpha : Bool) : List (List Char) → Option Rgba
  | [r, g, b] => do
    if hasAlpha then none
    let r ← readByte? 10 r
    let g ← readByte? 10 g
    let b ← readByte? 10 b
    pure ⟨ofByte r, ofByte g, ofByte b, 1.0⟩
  | [r, g, b, a] => do
    if !hasAlpha then none
    let r ← readByte? 10 r
    let g ← readByte? 10 g
    let b ← readByte? 10 b
    let a ← readAlpha? a
    pure ⟨ofByte r, ofByte g, ofByte b, a⟩
  | _ => none

/-- A colour from a colour function: its arguments stand between the first opening and the
last closing parenthesis, with commas between them and blanks around them. -/
def readFunction? (hasAlpha : Bool) (cs : List Char) : Option Rgba := do
  let rest ← Text.afterFirst? '(' cs
  let body ← Text.beforeLast? ')' rest
  readArguments? hasAlpha ((Text.splitOnChar ',' body).map Text.trimChars)

/-- Reads a colour; `none` when the text is not one. -/
def read? (text : String) : Option Rgba :=
  match Text.trimChars text.toList with
  | '#' :: hex => readHex? hex
  | cs =>
    let lowered := cs.map Char.toLower
    if "rgba".toList.isPrefixOf lowered then readFunction? true lowered
    else if "rgb".toList.isPrefixOf lowered then readFunction? false lowered
    else none

end Rgba

end Cascade
