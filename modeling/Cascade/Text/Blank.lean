/-!
# Blanks

The characters with the Unicode property `White_Space`, and stripping them from both
ends of a text.
-/

namespace Cascade.Text

/-- Whether a code point lies in one of the given closed ranges. -/
def inRanges (ranges : List (Nat × Nat)) (c : Char) : Bool :=
  ranges.any fun (first, last) => first ≤ c.toNat && c.toNat ≤ last

/-- The code points with the property `White_Space`. -/
def blankRanges : List (Nat × Nat) :=
  [
    (9, 13), (32, 32), (133, 133), (160, 160), (5760, 5760), (8192, 8202), (8232, 8233),
    (8239, 8239), (8287, 8287), (12288, 12288)
  ]

/-- Whether a character is a blank. -/
def isBlank (c : Char) : Bool :=
  inRanges blankRanges c

/-- Strips blanks from both ends of a character sequence. -/
def trimChars (cs : List Char) : List Char :=
  ((cs.dropWhile isBlank).reverse.dropWhile isBlank).reverse

/-- Strips blanks from both ends of a text. -/
def trim (s : String) : String :=
  String.ofList (trimChars s.toList)

end Cascade.Text
