/-!
# Relations of guards

The relation symbols of a guard: the two connectives, the comparisons (of which the one for
"at most" has two spellings), and any other text, which never holds.
-/

namespace Cascade

/-- The symbol between the two sides of a guard. -/
inductive Relation where
  | and
  | or
  | less
  | equal
  | greater
  | atMost
  /-- The second spelling of "at most". -/
  | equalOrLess
  | atLeast
  | other (text : String)
deriving DecidableEq, Repr

namespace Relation

/-- The relation with the given symbol. -/
def ofText (text : String) : Relation :=
  if text = "and" then .and
  else if text = "or" then .or
  else if text = "<" then .less
  else if text = "=" then .equal
  else if text = ">" then .greater
  else if text = "<=" then .atMost
  else if text = "=<" then .equalOrLess
  else if text = ">=" then .atLeast
  else .other text

/-- The symbol of a relation. -/
def text : Relation → String
  | .and => "and"
  | .or => "or"
  | .less => "<"
  | .equal => "="
  | .greater => ">"
  | .atMost => "<="
  | .equalOrLess => "=<"
  | .atLeast => ">="
  | .other text => text

/-- Whether a comparison holds of two values in the given order. -/
def holds : Relation → Ordering → Bool
  | .less, o => o == .lt
  | .equal, o => o == .eq
  | .greater, o => o == .gt
  | .atMost, o | .equalOrLess, o => o != .gt
  | .atLeast, o => o != .lt
  | .and, _ | .or, _ | .other _, _ => false

end Relation

end Cascade
