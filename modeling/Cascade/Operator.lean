import Cascade.Error

/-!
# Operators

The binary operators of arithmetic.  Division has two spellings; only the plain slash is
held back where division needs parentheses.  Any other text is kept, and is refused when
it is applied.
-/

namespace Cascade

/-- A binary operator as written. -/
inductive Operator where
  | add
  | sub
  | mul
  | div
  /-- The division that is always carried out. -/
  | dotDiv
  | other (text : String)
deriving DecidableEq, Repr

namespace Operator

/-- The operator with the given text. -/
def ofText (text : String) : Operator :=
  if text = "+" then .add
  else if text = "-" then .sub
  else if text = "*" then .mul
  else if text = "/" then .div
  else if text = "./" then .dotDiv
  else .other text

/-- The text of an operator. -/
def text : Operator → String
  | .add => "+"
  | .sub => "-"
  | .mul => "*"
  | .div => "/"
  | .dotDiv => "./"
  | .other text => text

/-- The plain form of an operator: both divisions are the same operation. -/
def plain : Operator → Operator
  | .dotDiv => .div
  | operator => operator

/-- Applies an operator to two numbers. -/
def apply (operator : Operator) (a b : Float) : Except Error Float :=
  match operator with
  | .add => .ok (a + b)
  | .sub => .ok (a - b)
  | .mul => .ok (a * b)
  | .div | .dotDiv => .ok (a / b)
  | .other text => .error (.unknownOperator text)

end Operator

end Cascade
