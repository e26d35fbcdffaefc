import Cascade.Node.DebugInfo

/-!
# Style of the output

How a tree is printed, and where in the output the printer stands: whether the declaration
at hand is the last of its block, and how deep the block is nested.
-/

namespace Cascade

/-- How a tree is printed, and where the printer stands. -/
structure Style where
  compress : Bool := false
  /-- Whether a number may carry at most one unit. -/
  strictUnits : Bool := false
  /-- Whether inline scripts are allowed; they fail in either case. -/
  scripts : Bool := false
  /-- The number of decimal places, if numbers are rounded. -/
  precision : Option Nat := none
  dump : Option DumpMode := none
  lastRule : Bool := false
  level : Nat := 0
deriving DecidableEq, Repr

namespace Style

/-- The text between the items of a list. -/
def comma (style : Style) : String :=
  if style.compress then "," else ", "

/-- The blanks before a line. -/
def indent (style : Style) : String :=
  String.join (List.replicate style.level "  ")

/-- The line number of a rule, in the form asked for. -/
def debugText (style : Style) (debug : Option DebugInfo) : String :=
  match debug with
  | none => ""
  | some info => info.text style.compress style.dump ""

end Style

end Cascade
