import Cascade.Node.Basic

/-!
# Walking through trees

Copies of nodes, changes to the data of all nodes of a tree, and collecting something from
all of them.  A copy shares the rulesets of the copied tree; the other two also go into
rulesets and scope frames.
-/

namespace Cascade

mutual

/-- A copy of a node: nodes outside rulesets get copies of their data. -/
def Node.copy : Node → Node
  | .anonymous info text mapLines rulesetLike => .anonymous info.snapshot text mapLines rulesetLike
  | .assignment info key v => .assignment info.snapshot key (Node.copy v)
  | .attribute info key operator v flag =>
    let v := match v with
      | some v => some (Node.copy v)
      | none => none
    .attribute info.snapshot key operator v flag
  | .call info name args asCalc => .call info.snapshot name (Node.copyEach args) asCalc
  | .color info c => .color info.snapshot c
  | .comment info text isLine debug => .comment info.snapshot text isLine debug
  | .condition info relation l r negate =>
    .condition info.snapshot relation (Node.copy l) (Node.copy r) negate
  | .declaration info name v traits =>
    .declaration info.snapshot (PropertyName.copy name) (Node.copy v) traits
  | .detached info body frames => .detached info.snapshot body frames
  | .dimension info d => .dimension info.snapshot d
  | .expression info items form => .expression info.snapshot (Node.copyEach items) form
  | .javaScript info source escaped => .javaScript info.snapshot source escaped
  | .keyword info text => .keyword info.snapshot text
  | .negative info v => .negative info.snapshot (Node.copy v)
  | .operation info operator l r spaced =>
    .operation info.snapshot operator (Node.copy l) (Node.copy r) spaced
  | .paren info v => .paren info.snapshot (Node.copy v)
  | .query info id => .query info.snapshot id
  | .quoted info quote text escaped => .quoted info.snapshot quote text escaped
  | .ruleset rs => .ruleset rs
  | .unicodeDescriptor info text => .unicodeDescriptor info.snapshot text
  | .value info items => .value info.snapshot (Node.copyEach items)
  | .variableRef info name => .variableRef info.snapshot name
  | .variableCall info name => .variableCall info.snapshot name

/-- Copies of some nodes. -/
def Node.copyEach : List Node → List Node
  | [] => []
  | node :: rest => Node.copy node :: Node.copyEach rest

/-- A copy of a name. -/
def PropertyName.copy : PropertyName → PropertyName
  | .literal text => .literal text
  | .interpolated parts => .interpolated (Node.copyEach parts)

end

/-- A ruleset of its own with copies of the rules. -/
def Ruleset.copy : Ruleset → Ruleset
  | .mk info selectors rules root => .mk info.snapshot selectors (Node.copyEach rules) root

/-- The node marked as important: declarations get the marker, other nodes are copied. -/
def Node.makeImportant (node : Node) : Node :=
  match node.copy with
  | .declaration info name v traits =>
    .declaration info name v { traits with important := Node.importantMarker "!important" }
  | other => other

mutual

/-- Changes the data of every node. -/
def Node.mapInfo (f : Info → Info) : Node → Node
  | .anonymous info text mapLines rulesetLike => .anonymous (f info) text mapLines rulesetLike
  | .assignment info key v => .assignment (f info) key (Node.mapInfo f v)
  | .attribute info key operator v flag =>
    let v := match v with
      | some v => some (Node.mapInfo f v)
      | none => none
    .attribute (f info) key operator v flag
  | .call info name args asCalc => .call (f info) name (Node.mapInfoEach f args) asCalc
  | .color info c => .color (f info) c
  | .comment info text isLine debug => .comment (f info) text isLine debug
  | .condition info relation l r negate =>
    .condition (f info) relation (Node.mapInfo f l) (Node.mapInfo f r) negate
  | .declaration info name v traits =>
    .declaration (f info) (PropertyName.mapInfo f name) (Node.mapInfo f v) traits
  | .detached info body frames =>
    let body := match body with
      | some rs => some (Ruleset.mapInfo f rs)
      | none => none
    let frames := match frames with
      | some frames => some (Frame.mapInfoEach f frames)
      | none => none
    .detached (f info) body frames
  | .dimension info d => .dimension (f info) d
  | .expression info items form => .expression (f info) (Node.mapInfoEach f items) form
  | .javaScript info source escaped => .javaScript (f info) source escaped
  | .keyword info text => .keyword (f info) text
  | .negative info v => .negative (f info) (Node.mapInfo f v)
  | .operation info operator l r spaced =>
    .operation (f info) operator (Node.mapInfo f l) (Node.mapInfo f r) spaced
  | .paren info v => .paren (f info) (Node.mapInfo f v)
  | .query info id => .query (f info) id
  | .quoted info quote text escaped => .quoted (f info) quote text escaped
  | .ruleset rs => .ruleset (Ruleset.mapInfo f rs)
  | .unicodeDescriptor info text => .unicodeDescriptor (f info) text
  | .value info items => .value (f info) (Node.mapInfoEach f items)
  | .variableRef info name => .variableRef (f info) name
  | .variableCall info name => .variableCall (f info) name

/-- Changes the data of every node of some trees. -/
def Node.mapInfoEach (f : Info → Info) : List Node → List Node
  | [] => []
  | node :: rest => Node.mapInfo f node :: Node.mapInfoEach f rest

/-- Changes the data of every node of a name. -/
def PropertyName.mapInfo (f : Info → Info) : PropertyName → PropertyName
  | .literal text => .literal text
  | .interpolated parts => .interpolated (Node.mapInfoEach f parts)

/-- Changes the data of every node of a ruleset. -/
def Ruleset.mapInfo (f : Info → Info) : Ruleset → Ruleset
  | .mk info selectors rules root => .mk (f info) selectors (Node.mapInfoEach f rules) root

/-- Changes the data of every node of a frame. -/
def Frame.mapInfo (f : Info → Info) : Frame → Frame
  | .mk (some rs) functions => .mk (some (Ruleset.mapInfo f rs)) functions
  | .mk none functions => .mk none functions

/-- Changes the data of every node of some frames. -/
def Frame.mapInfoEach (f : Info → Info) : List Frame → List Frame
  | [] => []
  | frame :: rest => Frame.mapInfo f frame :: Frame.mapInfoEach f rest

end

section Gather

variable {β : Type}

mutual

/-- What all nodes of a tree have of something. -/
def Node.gather (g : Node → List β) : Node → List β
  | .assignment info key v => g (.assignment info key v) ++ Node.gather g v
  | .attribute info key operator (some v) flag =>
    g (.attribute info key operator (some v) flag) ++ Node.gather g v
  | .call info name args asCalc => g (.call info name args asCalc) ++ Node.gatherEach g args
  | .condition info relation l r negate =>
    g (.condition info relation l r negate) ++ (Node.gather g l ++ Node.gather g r)
  | .declaration info name v traits =>
    g (.declaration info name v traits) ++ (PropertyName.gather g name ++ Node.gather g v)
  | .detached info body frames =>
    let inBody := match body with
      | some rs => Ruleset.gather g rs
      | none => []
    let inFrames := match frames with
      | some frames => Frame.gatherEach g frames
      | none => []
    g (.detached info body frames) ++ (inBody ++ inFrames)
  | .expression info items form => g (.expression info items form) ++ Node.gatherEach g items
  | .negative info v => g (.negative info v) ++ Node.gather g v
  | .operation info operator l r spaced =>
    g (.operation info operator l r spaced) ++ (Node.gather g l ++ Node.gather g r)
  | .paren info v => g (.paren info v) ++ Node.gather g v
  | .ruleset rs => Ruleset.gather g rs
  | .value info items => g (.value info items) ++ Node.gatherEach g items
  | leaf => g leaf

/-- What all nodes of some trees have of something. -/
def Node.gatherEach (g : Node → List β) : List Node → List β
  | [] => []
  | node :: rest => Node.gather g node ++ Node.gatherEach g rest

/-- What all nodes of a name have of something. -/
def PropertyName.gather (g : Node → List β) : PropertyName → List β
  | .literal _ => []
  | .interpolated parts => Node.gatherEach g parts

/-- What all nodes of a ruleset have of something. -/
def Ruleset.gather (g : Node → List β) : Ruleset → List β
  | .mk info selectors rules root =>
    g (.ruleset (.mk info selectors rules root)) ++ Node.gatherEach g rules

/-- What all nodes of a frame have of something. -/
def Frame.gather (g : Node → List β) : Frame → List β
  | .mk (some rs) _ => Ruleset.gather g rs
  | .mk none _ => []

/-- What all nodes of some frames have of something. -/
def Frame.gatherEach (g : Node → List β) : List Frame → List β
  | [] => []
  | frame :: rest => Frame.gather g frame ++ Frame.gatherEach g rest

end

end Gather

/-- The number of the place of a node. -/
def Node.originOf (node : Node) : List Nat :=
  node.info.origin.toList

/-- The number of a query condition. -/
def Node.queryOf : Node → List QueryId
  | .query _ id => [id]
  | _ => []

end Cascade
