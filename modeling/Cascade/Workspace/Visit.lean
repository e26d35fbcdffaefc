import Cascade.Node.Query
import Cascade.Workspace.Holders

/-!
# Visiting and replacing nodes

A visitor is shown the children of a node one after the other.  It may double numbers, put
another node in the place of every node of one kind, and go on to the children of the nodes
that it leaves in place.  The change is made in place, so a ruleset with several holders is
copied before its rules are visited.
-/

namespace Cascade

/-- What a visitor does with the nodes it is shown. -/
structure Visitor where
  /-- Doubles numbers, which become pixels. -/
  double : Bool := false
  /-- Replaces nodes of one kind. -/
  replace : Option (Kind × Node) := none
  /-- Goes on to the children of the nodes that stay. -/
  deep : Bool := false

/-- The state of a visit: the kinds of the nodes seen, last one first, the holders of the
rulesets, and the query conditions. -/
structure VisitState where
  seen : List Kind := []
  holders : Holders := []
  queries : Queries := []

/-- A step of a visit. -/
abbrev Visit := StateM VisitState

namespace Visitor

/-- The node that the visitor puts in the place of a node, if any.  A number that is to be
doubled stays if its double is not a number. -/
def replacement? (visitor : Visitor) (node : Node) : Option Node :=
  match visitor.double, node with
  | true, .dimension _ d =>
    (Dimension.make (d.value * 2.0) (.ofName "px")).toOption.map (.dimension {})
  | _, _ =>
    match visitor.replace with
    | some (kind, other) => if node.kind = kind then some other.copy else none
    | none => none

/-- Shows a node to the visitor: it is replaced, or gone through, or left alone. -/
def meet (visitor : Visitor) (node : Node) (enter : Visit Node) : Visit Node := do
  modify fun s => { s with seen := node.kind :: s.seen }
  match visitor.replacement? node with
  | some other => do
    modify fun s => { s with holders := other.retain (node.release s.holders) }
    pure other
  | none => if visitor.deep then enter else pure node

end Visitor

mutual

/-- Shows the children of a node to a visitor.  Query conditions are visited where their
states are kept. -/
def Node.accept (visitor : Visitor) (cell : QueryId → Visit PUnit) : Node → Visit Node
  | .assignment info key v => do
    let v ← visitor.meet v (Node.accept visitor cell v)
    pure (.assignment info key v)
  | .attribute info key operator (some v) flag => do
    let v ← visitor.meet v (Node.accept visitor cell v)
    pure (.attribute info key operator (some v) flag)
  | .call info name args asCalc => do
    let args ← Node.acceptEach visitor cell args
    pure (.call info name args asCalc)
  | .condition info relation l r negate => do
    let l ← visitor.meet l (Node.accept visitor cell l)
    let r ← visitor.meet r (Node.accept visitor cell r)
    pure (.condition info relation l r negate)
  | .declaration info name v traits => do
    let name ← PropertyName.accept visitor cell name
    let v ← visitor.meet v (Node.accept visitor cell v)
    pure (.declaration info name v traits)
  | .detached info body frames => do
    let body ← match body with
      | none => pure none
      | some rs => do
        match ← visitor.meet (.ruleset rs) (Ruleset.accept visitor cell rs) with
        | .ruleset rs => pure (some rs)
        | _ => pure none
    pure (.detached info body frames)
  | .expression info items form => do
    let items ← Node.acceptEach visitor cell items
    pure (.expression info items form)
  | .negative info v => do
    let v ← visitor.meet v (Node.accept visitor cell v)
    pure (.negative info v)
  | .operation info operator l r spaced => do
    let l ← visitor.meet l (Node.accept visitor cell l)
    let r ← visitor.meet r (Node.accept visitor cell r)
    pure (.operation info operator l r spaced)
  | .paren info v => do
    let v ← visitor.meet v (Node.accept visitor cell v)
    pure (.paren info v)
  | .query info id => do
    cell id
    pure (.query info id)
  | .ruleset rs => Ruleset.accept visitor cell rs
  | .value info items => do
    let items ← Node.acceptEach visitor cell items
    pure (.value info items)
  | leaf => pure leaf

/-- Shows some nodes to a visitor. -/
def Node.acceptEach (visitor : Visitor) (cell : QueryId → Visit PUnit) :
    List Node → Visit (List Node)
  | [] => pure []
  | node :: rest => do
    let node ← visitor.meet node (Node.accept visitor cell node)
    let rest ← Node.acceptEach visitor cell rest
    pure (node :: rest)

/-- Shows the parts of a name to a visitor. -/
def PropertyName.accept (visitor : Visitor) (cell : QueryId → Visit PUnit) :
    PropertyName → Visit PropertyName
  | .literal text => pure (.literal text)
  | .interpolated parts => do
    let parts ← Node.acceptEach visitor cell parts
    pure (.interpolated parts)

/-- Shows the rules of a ruleset to a visitor.  If the ruleset has other holders, the rules
of a copy are changed: the copy holds the rulesets among its rules, too, and its other rules
carry copies of their data. -/
def Ruleset.accept (visitor : Visitor) (cell : QueryId → Visit PUnit) : Ruleset → Visit Node
  | .mk info selectors rules root => do
    let before := (← get).holders
    let holders := ((Ruleset.mk info selectors rules root).unshare before).2
    let shared := match info.origin with
      | none => false
      | some id => 1 < before.count id
    modify fun s => { s with holders }
    let rules ← Node.acceptEach visitor cell rules
    if shared then pure (.ruleset (.mk info.snapshot selectors (Node.copyEach rules) root))
    else pure (.ruleset (.mk info selectors rules root))

end

/-- Shows the sides of a query condition to a visitor. -/
def Query.accept (visitor : Visitor) (cell : QueryId → Visit PUnit) (q : Query) : Visit Query := do
  let left ← visitor.meet q.left (q.left.accept visitor cell)
  let middle ← match q.middle with
    | none => pure none
    | some m => do
      let m ← visitor.meet m (m.accept visitor cell)
      pure (some m)
  let range ← match q.range with
    | none => pure none
    | some (operator, right) => do
      let right ← visitor.meet right (right.accept visitor cell)
      pure (some (operator, right))
  pure { q with left, middle, range }

/-- Visits the state of a query condition, conditions standing at most `depth` deep in each
other. -/
def Queries.acceptCell (visitor : Visitor) : Nat → QueryId → Visit PUnit
  | 0, _ => pure ⟨⟩
  | depth + 1, id => do
    match (← get).queries[id]? with
    | none => pure ⟨⟩
    | some q => do
      let q ← q.accept visitor (Queries.acceptCell visitor depth)
      modify fun s => { s with queries := s.queries.set id q }

/-- Shows the children of a node to a visitor. -/
def Visitor.run (visitor : Visitor) (node : Node) (state : VisitState) : Node × VisitState :=
  (node.accept visitor (Queries.acceptCell visitor (state.queries.length + 1))).run state

end Cascade
