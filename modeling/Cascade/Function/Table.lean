import Cascade.Text.Case

/-!
# Function tables

A function table maps names, in lower case, to functions: one of the built-in ones, or one
of the caller's, known by its name.  What the caller's functions do is part of the scope in
which a tree is evaluated.
-/

namespace Cascade

/-- The built-in functions. -/
inductive Builtin where
  | unit
  | convert
  | percentage
  | lighten
  | darken
  | fade
  | boolean
  /-- The conditional, which evaluates only the branch it takes. -/
  | cond
deriving DecidableEq, Repr

/-- The name of a built-in function. -/
def Builtin.name : Builtin → String
  | .unit => "unit"
  | .convert => "convert"
  | .percentage => "percentage"
  | .lighten => "lighten"
  | .darken => "darken"
  | .fade => "fade"
  | .boolean => "boolean"
  | .cond => "if"

/-- Whether the arguments of a function are evaluated before the call. -/
def Builtin.evaluatesArguments : Builtin → Bool
  | .cond => false
  | _ => true

/-- A function in a table. -/
inductive FunctionRef where
  | builtin (function : Builtin)
  | custom (name : String)
deriving DecidableEq, Repr

/-- A table of functions by name; names are in lower case. -/
structure FunctionTable where
  entries : List (String × FunctionRef)
deriving DecidableEq, Repr

namespace FunctionTable

/-- The table without functions. -/
def empty : FunctionTable :=
  ⟨[]⟩

/-- The table of all built-in functions. -/
def builtins : FunctionTable :=
  ⟨[.unit, .convert, .percentage, .lighten, .darken, .fade, .boolean, .cond].map
    fun function => (function.name, .builtin function)⟩

/-- Adds a function; one of the same name is replaced in its place. -/
def add (table : FunctionTable) (name : String) (function : FunctionRef) : FunctionTable :=
  let key := Text.lower name
  if table.entries.any (·.1 == key) then
    ⟨table.entries.map fun entry => if entry.1 == key then (key, function) else entry⟩
  else ⟨table.entries ++ [(key, function)]⟩

/-- The function of the given name, in any case. -/
def find? (table : FunctionTable) (name : String) : Option FunctionRef :=
  table.entries.lookup (Text.lower name)

/-- The number of functions. -/
def size (table : FunctionTable) : Nat :=
  table.entries.length

end FunctionTable

end Cascade
