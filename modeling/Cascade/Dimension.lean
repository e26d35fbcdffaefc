import Cascade.Decimal.Reader
import Cascade.Number
import Cascade.Operator
import Cascade.Units.Group

/-!
# Dimensions

A dimension is a number with a compound unit: construction, arithmetic, conversion,
comparison and its text.
-/

namespace Cascade

/-- A number with a unit. -/
structure Dimension where
  value : Float
  units : Units
deriving DecidableEq

/-- The order of two doubles; a value that is not a number compares with nothing. -/
def compareFloats (a b : Float) : Option Ordering :=
  if a < b then some .lt
  else if a == b then some .eq
  else if b < a then some .gt
  else none

namespace Dimension

/-- A dimension with the given value, which has to be a number. -/
def make (value : Float) (units : Units) : Except Error Dimension :=
  if value.isNaN then .error (.badNumber "NaN") else .ok ⟨value, units⟩

/-- A dimension whose value is given as text, with blanks around it. -/
def parse (text : String) (units : Units) : Except Error Dimension :=
  match readFloat? (Text.trimChars text.toList) with
  | some value => make value units
  | none => .error (.badNumber text)

/-- Converts the units of a dimension. -/
def convert (c : Conversion) (d : Dimension) : Dimension :=
  let (value, units) := Units.convertWith UnitGroup.factor c d.value d.units
  ⟨value, units⟩

/-- Converts a dimension to the units in which values are compared. -/
def unify (d : Dimension) : Dimension :=
  d.convert .canonical

/-- The sum or difference of two dimensions.  A side without a unit takes that of the
other; otherwise the second is converted to the units of the first, and strict units have
to agree then. -/
def addLike (strict : Bool) (operator : Operator) (a b : Dimension) : Except Error Dimension :=
  if a.units.isEmpty then do
    let value ← operator.apply a.value b.value
    let backup := if a.units.backup = "" then b.units.backup else a.units.backup
    pure ⟨value, { b.units with backup }⟩
  else if b.units.isEmpty then do
    let value ← operator.apply a.value b.value
    pure ⟨value, a.units⟩
  else
    let converted := b.convert a.units.used
    if strict ∧ converted.units.text ≠ a.units.text then
      .error (.incompatibleUnits a.units.text converted.units.text)
    else do
      let value ← operator.apply a.value converted.value
      pure ⟨value, a.units⟩

/-- Arithmetic on two dimensions. -/
def operate (strict : Bool) (operator : Operator) (a b : Dimension) : Except Error Dimension :=
  match operator with
  | .add | .sub => addLike strict operator a b
  | .mul => .ok ⟨a.value * b.value, a.units.multiply b.units⟩
  | .div | .dotDiv => .ok ⟨a.value / b.value, a.units.divide b.units⟩
  | .other text => .error (.unknownOperator text)

/-- The order of two dimensions: by value if one has no unit, else by value in common units
if those agree. -/
def compare (a b : Dimension) : Option Ordering :=
  if a.units.isEmpty || b.units.isEmpty then compareFloats a.value b.value
  else
    let x := a.unify
    let y := b.unify
    match x.units.compare y.units with
    | none => none
    | some _ => compareFloats x.value y.value

/-- The text of a dimension.  Strict units have to be at most one name.  Compressed output
leaves out the unit of a zero length and the zero before a point. -/
def text (strict compress : Bool) (precision : Option Nat) (d : Dimension) :
    Except Error String :=
  if strict && !d.units.isSingular then .error (.multipleUnits d.units.text)
  else
    let rounded := roundTo precision d.value
    let number := numberChars precision d.value
    if compress && rounded == 0.0 && d.units.isLength then .ok (String.ofList number)
    else
      let number := if compress && 0.0 < rounded && rounded < 1.0 then number.tail else number
      .ok (String.ofList number ++ d.units.cssText strict)

end Dimension

end Cascade
