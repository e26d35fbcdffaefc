import Cascade.Node.Basic

/-!
# Query conditions

A condition of a media or container query compares a left side with a middle, and the middle
with a right side if it is a range.  Evaluating the condition replaces its sides and collects
the middle values that the variables in scope give rise to; all copies of the condition share
this state, which `Queries` keeps under the number of the condition.
-/

namespace Cascade

/-- The state of a query condition. -/
structure Query where
  operator : String
  left : Node
  middle : Option Node
  /-- The second comparison of a range. -/
  range : Option (String × Node)
  /-- The middle values collected so far. -/
  candidates : List Node := []
  /-- The middle as it was when the condition was first evaluated. -/
  template : Option Node := none

namespace Query

/-- A condition before its first evaluation. -/
def make (operator : String) (left : Node) (middle : Option Node)
    (range : Option (String × Node)) : Query :=
  { operator := Text.trim operator, left, middle
    range := range.map fun r => (Text.trim r.1, r.2) }

/-- The middle that is printed: the first one collected, else the middle itself. -/
def shownMiddle? (q : Query) : Option Node :=
  q.candidates.head?.or q.middle

/-- Fixes the template at the first evaluation. -/
def withTemplate (q : Query) : Query :=
  { q with template := q.template.or q.middle }

/-- The state after an evaluation: the evaluated sides, more candidates, and the first
candidate of all as the middle, if there is one. -/
def record (q : Query) (left : Node) (middle right : Option Node) (found : List Node) : Query :=
  let candidates := q.candidates ++ found
  { q with
    left
    middle := candidates.head?.or middle
    range := q.range.bind fun r => right.map (Prod.mk r.1)
    candidates }

end Query

/-- The states of all query conditions, by number. -/
abbrev Queries := List Query

end Cascade
