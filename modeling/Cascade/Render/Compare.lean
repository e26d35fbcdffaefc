import Cascade.Render.Writer

/-!
# Comparing nodes

Numbers, colours and texts have comparisons of their own.  A value beside a string or
anonymous text is compared by its text, so that quotes do not matter; other values compare
only with values of their kind, by text or item by item.
-/

namespace Cascade

namespace Node

/-- The text by which a node is compared: the content of a string, the printed form of
anything else. -/
def comparisonText (queries : Queries) : Node → Option String
  | .quoted _ _ text _ => some text
  | node => (node.css queries {}).toOption

/-- The order of the texts of two nodes. -/
def compareTexts (queries : Queries) (a b : Node) : Option Ordering :=
  match a.comparisonText queries, b.comparisonText queries with
  | some s, some t => some (compare s t)
  | _, _ => none

/-- Nodes that print the same text are equal, and do not compare otherwise. -/
def comparePrinted (queries : Queries) (a b : Node) : Option Ordering :=
  match (a.css queries {}).toOption, (b.css queries {}).toOption with
  | some s, some t => if s = t then some .eq else none
  | _, _ => none

/-- The comparison that a node brings with it. -/
def compareOwn (queries : Queries) (a b : Node) : Option Ordering :=
  match a, b with
  | .dimension _ x, .dimension _ y => x.compare y
  | .color _ x, .color _ y => x.compare y
  | .quoted _ _ s false, .quoted _ _ t false => some (compare s t)
  | .quoted .., _ | .anonymous .., _ => comparePrinted queries a b
  | _, _ => none

/-- The comparison of two nodes that are not both lists of one kind. -/
def compareSimple (queries : Queries) (a b : Node) : Option Ordering :=
  if a.isComparable then
    if b.isTextual then compareTexts queries a b else compareOwn queries a b
  else if b.isComparable then (compareOwn queries b a).map Ordering.swap
  else
    match a, b with
    | .keyword _ s, .keyword _ t => some (compare s t)
    | .unicodeDescriptor _ s, .unicodeDescriptor _ t => some (compare s t)
    | .comment _ s _ _, .comment _ t _ _ => some (compare s t)
    | _, _ => none

mutual

/-- The comparison of two different nodes.  Lists of one kind are equal when their items are,
and do not compare otherwise. -/
def compareWith (queries : Queries) : Node → Node → Option Ordering
  | .value info xs, b =>
    match b with
    | .value _ ys => if itemsEqual queries xs ys then some .eq else none
    | b => compareSimple queries (.value info xs) b
  | .expression info xs form, b =>
    match b with
    | .expression _ ys _ => if itemsEqual queries xs ys then some .eq else none
    | b => compareSimple queries (.expression info xs form) b
  | a, b => compareSimple queries a b

/-- Whether two lists of nodes have equal items. -/
def itemsEqual (queries : Queries) : List Node → List Node → Bool
  | [], [] => true
  | x :: xs, y :: ys => compareWith queries x y == some .eq && itemsEqual queries xs ys
  | _, _ => false

end

/-- The comparison of a node with itself: a node without a comparison of its own equals
itself. -/
def compareSelf (queries : Queries) (node : Node) : Option Ordering :=
  if node.isComparable then compareSimple queries node node else some .eq

/-- Whether a guard holds of its two evaluated sides. -/
def relationHolds (queries : Queries) (relation : Relation) (a b : Node) : Bool :=
  match relation with
  | .and => a.asBool == some true && b.asBool == some true
  | .or => a.asBool == some true || b.asBool == some true
  | relation =>
    match compareWith queries a b with
    | some order => relation.holds order
    | none => false

end Node

end Cascade
