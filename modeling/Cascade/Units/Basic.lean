import Cascade.Text.Case

/-!
# Compound units

A compound unit is a quotient of two products of unit names.  Each product is kept in
alphabetical order (`Atoms`), so that equal products are equal lists, and a unit carries a
backup name that the printer falls back on.

The view of a unit is `Units.exponent`: how often a name stands above the line less how
often it stands below.
-/

namespace Cascade

/-! ### Ordered products of unit names -/

/-- A product of unit names, in alphabetical order. -/
structure Atoms where
  toList : List String
  ordered : toList.Pairwise (· ≤ ·)
deriving DecidableEq

namespace Atoms

/-- The empty product. -/
def empty : Atoms :=
  ⟨[], List.Pairwise.nil⟩

/-- The product with one more name, which stands before the greater ones. -/
def insert (a : String) (product : Atoms) : Atoms where
  toList := product.toList.filter (· ≤ a) ++ a :: product.toList.filter fun b => !decide (b ≤ a)
  ordered := by
    have hbefore : ∀ x ∈ product.toList.filter (· ≤ a), x ≤ a := fun x hx =>
      of_decide_eq_true (List.mem_filter.1 hx).2
    have hafter : ∀ x ∈ product.toList.filter (fun b => !decide (b ≤ a)), a ≤ x := fun x hx =>
      (String.le_total x a).resolve_left (by simpa using (List.mem_filter.1 hx).2)
    refine List.pairwise_append.2 ⟨product.ordered.filter _,
      List.pairwise_cons.2 ⟨hafter, product.ordered.filter _⟩, fun x hx y hy => ?_⟩
    rcases List.mem_cons.1 hy with rfl | hy
    · exact hbefore x hx
    · exact String.le_trans (hbefore x hx) (hafter y hy)

/-- The product of the names in a list, in any order. -/
def ofList (names : List String) : Atoms :=
  names.foldr insert empty

instance : Inhabited Atoms := ⟨empty⟩

/-- The product of two products. -/
def append (a b : Atoms) : Atoms :=
  ofList (a.toList ++ b.toList)

/-- What is left of the first product after each name of the second took away one
occurrence of itself. -/
def subtract (a b : Atoms) : Atoms :=
  ofList (b.toList.foldl List.erase a.toList)

/-- Replaces every name of a product. -/
def map (f : String → String) (a : Atoms) : Atoms :=
  ofList (a.toList.map f)

end Atoms

/-! ### Units -/

/-- A quotient of two products of unit names, and the name to fall back on. -/
structure Units where
  numerator : Atoms
  denominator : Atoms
  backup : String
deriving DecidableEq

namespace Units

/-- No unit at all. -/
def none : Units :=
  ⟨.empty, .empty, ""⟩

instance : Inhabited Units := ⟨none⟩

/-- The unit with the given names above and below the line.  Without a backup name the
first name above the line, as written, becomes the backup. -/
def ofParts (numerator denominator : List String) (backup : String) : Units :=
  { numerator := .ofList numerator
    denominator := .ofList denominator
    backup := if backup = "" then numerator.head?.getD "" else backup }

/-- The unit written as one name; the empty name is no unit. -/
def ofName (name : String) : Units :=
  if name = "" then none else ofParts [name] [] name

/-- The signed exponent of a name in a unit. -/
def exponent (u : Units) (name : String) : Int :=
  (u.numerator.toList.count name : Int) - u.denominator.toList.count name

/-- Whether no name stands on either side of the line. -/
def isEmpty (u : Units) : Bool :=
  u.numerator.toList.isEmpty && u.denominator.toList.isEmpty

/-- Whether the unit is at most one name above the line. -/
def isSingular (u : Units) : Bool :=
  u.numerator.toList.length ≤ 1 && u.denominator.toList.isEmpty

/-- The text of a unit: the names above the line with stars between them, then each name
below it after a slash. -/
def text (u : Units) : String :=
  String.intercalate "*" u.numerator.toList ++
    String.join (u.denominator.toList.map ("/" ++ ·))

/-- Whether a unit is written as the given name, up to letter case. -/
def isNamed (u : Units) (name : String) : Bool :=
  Text.upper u.text == Text.upper name

/-- The names of lengths. -/
def lengthNames : List String :=
  ["px", "em", "ex", "ch", "rem", "in", "cm", "mm", "pc", "pt", "vw", "vh", "vmin", "vmax"]

/-- Whether a length stands above the line. -/
def isLength (u : Units) : Bool :=
  u.numerator.toList.any fun atom => lengthNames.any (Text.eqIgnoringAsciiCase atom)

/-- Replaces every name; the function also sees whether the name stands below the line. -/
def mapAtoms (f : Bool → String → String) (u : Units) : Units :=
  { u with numerator := u.numerator.map (f false), denominator := u.denominator.map (f true) }

/-- Names on both sides of the line take each other away. -/
def cancel (u : Units) : Units :=
  { u with
    numerator := u.numerator.subtract u.denominator
    denominator := u.denominator.subtract u.numerator }

/-- The product of two units, reduced; the backup is that of the first. -/
def multiply (u v : Units) : Units :=
  cancel
    { u with
      numerator := u.numerator.append v.numerator
      denominator := u.denominator.append v.denominator }

/-- The quotient of two units, reduced; the backup is that of the first. -/
def divide (u v : Units) : Units :=
  cancel
    { u with
      numerator := u.numerator.append v.denominator
      denominator := u.denominator.append v.numerator }

/-- Units are equal when their texts are, up to letter case; otherwise they do not
compare. -/
def compare (u v : Units) : Option Ordering :=
  if u.isNamed v.text then some .eq else Option.none

/-- The unit as it is printed after a number: a single name above the line, else, unless
units are strict, the backup or the first name below the line. -/
def cssText (strict : Bool) (u : Units) : String :=
  match u.numerator.toList with
  | [name] => name
  | _ =>
    if strict then ""
    else if u.backup ≠ "" then u.backup
    else u.denominator.toList.head?.getD ""

end Units

end Cascade
