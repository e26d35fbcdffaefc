import Cascade.Number

/-!
# Colour spaces

Colours with channels from zero to one, the hue, saturation and lightness that belong to
them, and the changes of lightness and opacity made there.
-/

namespace Cascade

/-- A colour with channels from zero to one. -/
structure Rgba where
  r : Float
  g : Float
  b : Float
  a : Float
deriving DecidableEq

/-- Hue, saturation and lightness, from zero to one. -/
structure Hsl where
  h : Float
  s : Float
  l : Float
deriving DecidableEq

/-- The larger of two numbers; one that is not a number is left out. -/
def maxFloat (x y : Float) : Float :=
  if x.isNaN then y else if y.isNaN then x else if x < y then y else x

/-- The smaller of two numbers; one that is not a number is left out. -/
def minFloat (x y : Float) : Float :=
  if x.isNaN then y else if y.isNaN then x else if y < x then y else x

namespace Rgba

/-- The distance below which two channels count as equal. -/
def tolerance : Float := 2.220446049250313e-16

/-- Limits every channel to the range from zero to one. -/
def clamp (c : Rgba) : Rgba :=
  ⟨clampFloat 0.0 1.0 c.r, clampFloat 0.0 1.0 c.g, clampFloat 0.0 1.0 c.b, clampFloat 0.0 1.0 c.a⟩

/-- Hue, saturation and lightness of a colour. -/
def toHsl (c : Rgba) : Hsl :=
  let high := maxFloat (maxFloat c.r c.g) c.b
  let low := minFloat (minFloat c.r c.g) c.b
  let l := (high + low) / 2.0
  if (high - low).abs < tolerance then ⟨0.0, 0.0, l⟩
  else
    let d := high - low
    let s := if 0.5 < l then d / (2.0 - high - low) else d / (high + low)
    let sector :=
      if (high - c.r).abs < tolerance then
        (c.g - c.b) / d + (if c.g < c.b then 6.0 else 0.0)
      else if (high - c.g).abs < tolerance then (c.b - c.r) / d + 2.0
      else (c.r - c.g) / d + 4.0
    ⟨sector / 6.0, s, l⟩

/-- One channel at hue `t`, between the darkest value `p` and the brightest value `q`. -/
def hueChannel (p q t : Float) : Float :=
  let t := if t < 0.0 then t + 1.0 else t
  let t := if 1.0 < t then t - 1.0 else t
  if t < 1.0 / 6.0 then p + (q - p) * 6.0 * t
  else if t < 1.0 / 2.0 then q
  else if t < 2.0 / 3.0 then p + (q - p) * (2.0 / 3.0 - t) * 6.0
  else p

/-- The colour with the given hue, saturation, lightness and opacity.  Without saturation
it is a grey. -/
def ofHsl (c : Hsl) (alpha : Float) : Rgba :=
  if c.s ≤ 0.0 then ⟨c.l, c.l, c.l, alpha⟩
  else
    let q := if c.l < 0.5 then c.l * (1.0 + c.s) else c.l + c.s - c.l * c.s
    let p := 2.0 * c.l - q
    clamp
      { r := hueChannel p q (c.h + 1.0 / 3.0)
        g := hueChannel p q c.h
        b := hueChannel p q (c.h - 1.0 / 3.0)
        a := alpha }

/-- Raises the lightness. -/
def lighten (c : Rgba) (amount : Float) : Rgba :=
  let hsl := c.toHsl
  ofHsl { hsl with l := clampFloat 0.0 1.0 (hsl.l + amount) } c.a

/-- Lowers the lightness. -/
def darken (c : Rgba) (amount : Float) : Rgba :=
  let hsl := c.toHsl
  ofHsl { hsl with l := clampFloat 0.0 1.0 (hsl.l - amount) } c.a

/-- Sets the opacity. -/
def fade (c : Rgba) (amount : Float) : Rgba :=
  clamp { c with a := clampFloat 0.0 1.0 amount }

/-- A channel as a byte: rounded and limited; what is not a number is zero. -/
def channelByte (x : Float) : Nat :=
  (clampFloat 0.0 255.0 (roundHalfAway (x * 255.0))).toUInt8.toNat

/-- The two hexadecimal digits of a byte. -/
def hexPair (n : Nat) : Char × Char :=
  (Nat.digitChar (n / 16), Nat.digitChar (n % 16))

/-- The hexadecimal text of a colour, without its opacity.  When asked for, a text of three
doubled digits is shortened. -/
def hexText (c : Rgba) (shorten : Bool) : String :=
  let c := c.clamp
  let pairs := [c.r, c.g, c.b].map fun x => hexPair (channelByte x)
  if shorten && pairs.all (fun p => p.1 == p.2) then
    String.ofList ('#' :: pairs.map (·.1))
  else
    String.ofList ('#' :: pairs.flatMap fun p => [p.1, p.2])

end Rgba

end Cascade
