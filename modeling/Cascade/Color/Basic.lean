import Cascade.Color.Reader
import Cascade.Operator

/-!
# Colours

A colour of a stylesheet has channels from zero to 255 and an opacity, and remembers the
text it was written as.
-/

namespace Cascade

/-- A colour with channels from zero to 255, an opacity, and the text it was written as. -/
structure Color where
  red : Float
  green : Float
  blue : Float
  alpha : Float
  text : Option String
deriving DecidableEq

namespace Color

/-- A colour from channels from zero to one; it has no text of its own. -/
def ofRgba (c : Rgba) : Color :=
  ⟨c.r * 255.0, c.g * 255.0, c.b * 255.0, c.a, none⟩

/-- The colour with channels from zero to one. -/
def toRgba (c : Color) : Rgba :=
  ⟨c.red / 255.0, c.green / 255.0, c.blue / 255.0, c.alpha⟩

/-- The opaque grey whose channels are all the given number. -/
def grey (x : Float) : Color :=
  ⟨x, x, x, 1.0, none⟩

/-- Reads a colour and remembers its text without the blanks around it. -/
def parse (text : String) : Except Error Color :=
  match Rgba.read? text with
  | some rgba => .ok { ofRgba rgba with text := some (Text.trim text) }
  | none => .error (.badColor text)

/-- Arithmetic channel by channel.  The opacity of the result is that of the second colour
laid over the first. -/
def operate (operator : Operator) (a b : Color) : Except Error Color := do
  let red ← operator.apply a.red b.red
  let green ← operator.apply a.green b.green
  let blue ← operator.apply a.blue b.blue
  pure ⟨red, green, blue, a.alpha * (1.0 - b.alpha) + b.alpha, none⟩

/-- Colours are equal when all channels are, and do not compare otherwise. -/
def compare (a b : Color) : Option Ordering :=
  if a.red == b.red && a.green == b.green && a.blue == b.blue && a.alpha == b.alpha then some .eq
  else none

/-- The text of a colour as a function of its channels and its opacity. -/
def rgbaText (compress : Bool) (precision : Option Nat) (c : Color) (alpha : Float) : String :=
  let separator := if compress then "," else ", "
  let channels := [c.red, c.green, c.blue].map fun x =>
    String.ofList (floatChars (clampFloat 0.0 255.0 (roundHalfAway x)))
  "rgba(" ++ String.intercalate separator channels ++ separator ++
    numberText precision (clampFloat 0.0 1.0 alpha) ++ ")"

/-- The text of a colour: as it was written, unless that was a colour function; otherwise a
function if it is not opaque, and hexadecimal digits if it is. -/
def css (compress : Bool) (precision : Option Nat) (c : Color) : String :=
  let alpha := roundTo precision c.alpha
  let computed :=
    if alpha < 1.0 then c.rgbaText compress precision alpha else c.toRgba.hexText compress
  match c.text with
  | some written => if Text.startsWith "rgb" written then computed else written
  | none => computed

end Color

end Cascade
