import Cascade.Units.Basic

/-!
# Convertible units

Three groups of units convert into each other: lengths, durations and angles.  A
conversion names a target unit for some of the groups; every name of such a group is
replaced by the target while the value is scaled by the quotient of the two factors.

The conversion is stated over any type of values with a product and a quotient, so that
the same rule can be read in exact arithmetic.
-/

namespace Cascade

/-- A group of units that convert into each other. -/
inductive UnitGroup where
  | length
  | duration
  | angle
deriving DecidableEq, Repr

namespace UnitGroup

/-- All groups, in the order in which they are tried. -/
def all : List UnitGroup :=
  [.length, .duration, .angle]

/-- The name of a group. -/
def name : UnitGroup → String
  | .length => "length"
  | .duration => "duration"
  | .angle => "angle"

/-- The circumference of the circle of radius one half. -/
def pi : Float := 3.141592653589793

/-- The factors from the units of a group to its base unit: the metre, the second, the
full turn. -/
def table : UnitGroup → List (String × Float)
  | .length =>
    [("m", 1.0), ("cm", 0.01), ("mm", 0.001), ("in", 0.0254), ("px", 0.0254 / 96.0),
      ("pt", 0.0254 / 72.0), ("pc", 0.0254 / 72.0 * 12.0)]
  | .duration => [("s", 1.0), ("ms", 0.001)]
  | .angle =>
    [("rad", 1.0 / (2.0 * pi)), ("deg", 1.0 / 360.0), ("grad", 1.0 / 400.0), ("turn", 1.0)]

/-- The factor of a unit in a group, if it belongs to it. -/
def factor (group : UnitGroup) (atom : String) : Option Float :=
  group.table.lookup atom

/-- The group of a unit. -/
def of? (atom : String) : Option UnitGroup :=
  all.find? fun group => (group.factor atom).isSome

end UnitGroup

/-- A conversion: the target unit of each group that is to be converted, in order. -/
abbrev Conversion := List (UnitGroup × String)

namespace Conversion

/-- The conversion to one unit, which concerns the groups that have it. -/
def ofName (target : String) : Conversion :=
  (UnitGroup.all.filter fun group => (group.factor target).isSome).map fun group => (group, target)

/-- Sets the target of a group; a group that has one already keeps its place. -/
def set (c : Conversion) (group : UnitGroup) (target : String) : Conversion :=
  if c.any (·.1 == group) then
    c.map fun entry => if entry.1 == group then (group, target) else entry
  else c ++ [(group, target)]

/-- The conversion to the units in which values are compared. -/
def canonical : Conversion :=
  [(.length, "px"), (.duration, "s"), (.angle, "rad")]

end Conversion

namespace Units

/-- The first unit of each group that occurs, names above the line first. -/
def used (u : Units) : Conversion :=
  UnitGroup.all.filterMap fun group =>
    ((u.numerator.toList ++ u.denominator.toList).find? fun atom => (group.factor atom).isSome).map
      fun atom => (group, atom)

section Convert

variable {α : Type} [Mul α] [Div α]

/-- A value after the names of one side of the line were replaced by a unit of factor
`target`: each name with a factor scales it by the quotient, up or down. -/
def rescale (factor : String → Option α) (target : α) (below : Bool) (value : α) :
    List String → α
  | [] => value
  | atom :: rest =>
    let value := match factor atom with
      | some f => if below then value / (f / target) else value * (f / target)
      | Option.none => value
    rescale factor target below value rest

/-- Converts the names of one group to one target.  A target outside the group changes
nothing. -/
def convertGroup (factor : String → Option α) (target : String) (value : α) (u : Units) :
    α × Units :=
  match factor target with
  | Option.none => (value, u)
  | some t =>
    let above := rescale factor t false value u.numerator.toList
    let value := rescale factor t true above u.denominator.toList
    (value, u.mapAtoms fun _ atom => if (factor atom).isSome then target else atom)

/-- Converts the groups of a conversion one after the other. -/
def convertGroups (factor : UnitGroup → String → Option α) (value : α) (u : Units) :
    Conversion → α × Units
  | [] => (value, u)
  | (group, target) :: rest =>
    let (value, u) := convertGroup (factor group) target value u
    convertGroups factor value u rest

/-- Converts a value with a unit and reduces the unit. -/
def convertWith (factor : UnitGroup → String → Option α) (c : Conversion) (value : α)
    (u : Units) : α × Units :=
  let (value, u) := convertGroups factor value u c
  (value, u.cancel)

end Convert

end Units

end Cascade
