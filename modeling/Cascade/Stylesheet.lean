import Cascade.Eval.Context

/-!
# Stylesheets

Evaluating and printing a whole tree under given options: the context starts with the built-in
functions, and the evaluated tree is printed in the same style.
-/

namespace Cascade

/-- How a stylesheet is evaluated and printed. -/
structure Options where
  compress : Bool := false
  strictUnits : Bool := false
  scripts : Bool := false
  math : MathMode := .parensDivision
  /-- The number of decimal places, if numbers are rounded. -/
  precision : Option Nat := some 8
  dump : Option DumpMode := none
deriving DecidableEq, Repr

namespace Options

/-- The style of the output. -/
def style (o : Options) : Style :=
  { compress := o.compress, strictUnits := o.strictUnits, scripts := o.scripts
    precision := o.precision, dump := o.dump }

/-- The context in which evaluation begins: one frame with the built-in functions. -/
def context (o : Options) (queries : Queries) : Context :=
  { frames := [.mk none (some .builtins)], math := o.math, style := o.style, queries }

end Options

namespace Stylesheet

/-- Evaluates a tree; also gives the context as the evaluation left it. -/
def evaluate (depth : Nat) (options : Options) (queries : Queries) (root : Node) :
    Except Halt Node × Context :=
  (options.context queries).evaluate depth root

/-- Evaluates a tree and prints the result; also gives the context as the evaluation left
it. -/
def render (depth : Nat) (options : Options) (queries : Queries) (root : Node) :
    Except Halt String × Context :=
  match evaluate depth options queries root with
  | (.error halt, c) => (.error halt, c)
  | (.ok node, c) => ((c.render node).text, c)

end Stylesheet

end Cascade
