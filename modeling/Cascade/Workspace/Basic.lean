import Cascade.Eval.Context
import Cascade.Origin.Basic
import Cascade.Workspace.Visit

/-!
# Workspaces

A workspace holds a context and named nodes while they are built, evaluated and changed.
Every node in it has a number for its place, so that links between nodes are seen from
everywhere; the data that nodes carry is brought up to date after each step, when nodes that
are no longer held have gone and links to them lead nowhere.
-/

namespace Cascade

/-- A context, named nodes, and the places of all nodes. -/
structure Workspace where
  context : Context := {}
  registers : List (String × Node) := []
  origins : Origins := .empty
  /-- Places that stay although no node has them. -/
  kept : List Nat := []

/-- Why a step in a workspace failed. -/
inductive StepError where
  | halted (halt : Halt)
  | noRegister (name : String)
deriving DecidableEq, Repr

/-- A step in a workspace; what it changed stays also when it fails. -/
abbrev Build := EStateM StepError Workspace

namespace Workspace

/-! ### Holding nodes -/

/-- The node of a name. -/
def find? (w : Workspace) (name : String) : Option Node :=
  w.registers.lookup name

/-- Names a node. -/
def store (w : Workspace) (name : String) (node : Node) : Workspace :=
  { w with registers := (name, node) :: w.registers.filter (·.1 != name) }

/-- The numbers of the query conditions that some numbers lead to in one step. -/
def nextQueries (queries : Queries) (ids : List QueryId) : List QueryId :=
  ids.flatMap fun id =>
    match queries[id]? with
    | none => []
    | some q =>
      Node.gatherEach Node.queryOf
        (q.left :: (q.middle.toList ++ (q.range.map Prod.snd).toList ++ q.candidates ++
          q.template.toList))

/-- All query conditions that some numbers lead to. -/
def reachQueries (queries : Queries) : Nat → List QueryId → List QueryId
  | 0, ids => ids
  | steps + 1, ids =>
    let found := (nextQueries queries ids).eraseDups.filter (!ids.contains ·)
    if found.isEmpty then ids else reachQueries queries steps (ids ++ found)

/-- The nodes held by a query condition. -/
def queryNodes (q : Query) : List Node :=
  q.left :: (q.middle.toList ++ (q.range.map Prod.snd).toList ++ q.candidates ++ q.template.toList)

/-- All nodes held by the workspace, and the given ones: named nodes, and the sides of the
query conditions in reach. -/
def heldNodes (w : Workspace) (others : List Node) : List Node :=
  let roots := others ++ w.registers.map Prod.snd
  let ids := (Node.gatherEach Node.queryOf roots ++
    Frame.gatherEach Node.queryOf w.context.frames).eraseDups
  let reached := reachQueries w.context.queries w.context.queries.length ids
  roots ++ reached.flatMap fun id => (w.context.queries[id]?.map queryNodes).getD []

/-- The holders of all rulesets. -/
def holders (w : Workspace) (others : List Node) : Holders :=
  Frame.retainEach w.context.frames (Node.retainEach (w.heldNodes others) [])

/-! ### Places -/

/-- The data of a node brought up to date with the places. -/
def refreshInfo (origins : Origins) (info : Info) : Info :=
  match info.origin with
  | none => info
  | some id =>
    { info with
      index := origins.index id
      file := origins.file id
      linked := origins.isLinked id }

/-- A node brought up to date. -/
def refresh (w : Workspace) (node : Node) : Node :=
  if w.origins.hasLinks then node.mapInfo (refreshInfo w.origins) else node

/-- A query condition brought up to date. -/
def refreshQuery (f : Node → Node) (q : Query) : Query :=
  { q with
    left := f q.left
    middle := q.middle.map f
    range := q.range.map fun r => (r.1, f r.2)
    candidates := q.candidates.map f
    template := q.template.map f }

/-- The workspace after a step: places of nodes that are no longer held are removed, and all
nodes are brought up to date. -/
def settle (w : Workspace) : Workspace :=
  if w.origins.hasLinks then
    let frames := w.context.frames
    let live := w.kept ++ Node.gatherEach Node.originOf (w.heldNodes []) ++
      Frame.gatherEach Node.originOf frames
    let origins := w.origins.keepOnly live
    let f := Node.mapInfo (refreshInfo origins)
    { w with
      origins
      registers := w.registers.map fun r => (r.1, f r.2)
      context := { w.context with
        frames := Frame.mapInfoEach (refreshInfo origins) frames
        queries := w.context.queries.map (refreshQuery f) } }
  else w

end Workspace

namespace Build

/-- Fails with an error. -/
def fail {α : Type} (error : Error) : Build α :=
  throw (.halted (.failed error))

/-- A result that is known. -/
def ofExcept {α : Type} : Except Error α → Build α
  | .ok a => pure a
  | .error error => fail error

/-- A new place. -/
def newOrigin (origin : Origin) : Build Nat := do
  let w ← get
  let (origins, id) := w.origins.add origin
  set { w with origins }
  pure id

/-- Links two places. -/
def link (child parent : Nat) : Build PUnit := do
  let w ← get
  let origins ← ofExcept (w.origins.setParent child parent)
  set { w with origins }

/-- The data of a node at a new place of its own, linked to a parent if one is given. -/
def newInfo (index : Nat) (file : Option FileInfo) (changes : List VisibilityChange)
    (parent : Option Nat) : Build Info := do
  let id ← newOrigin { index, file }
  match parent with
  | some parent => do
    link id parent
    modify fun w => { w with kept := parent :: w.kept }
  | none => pure ⟨⟩
  let info := { visibility := changes.foldl Visibility.apply {}, origin := some id }
  pure (Workspace.refreshInfo (← get).origins info)

/-- Gives data of nodes without a number new places of their own. -/
def adoptInfo (info : Info) : Build Info :=
  match info.origin with
  | some _ => pure info
  | none => do
    let id ← newOrigin { index := info.index, file := info.file }
    pure { info with origin := some id }

end Build

mutual

/-- Gives every node of a tree that has no number a place of its own. -/
def Node.adopt : Node → Build Node
  | .anonymous info text mapLines rulesetLike => do
    pure (.anonymous (← Build.adoptInfo info) text mapLines rulesetLike)
  | .assignment info key v => do
    pure (.assignment (← Build.adoptInfo info) key (← Node.adopt v))
  | .attribute info key operator v flag => do
    let v ← match v with
      | some v => some <$> Node.adopt v
      | none => pure none
    pure (.attribute (← Build.adoptInfo info) key operator v flag)
  | .call info name args asCalc => do
    pure (.call (← Build.adoptInfo info) name (← Node.adoptEach args) asCalc)
  | .color info c => do pure (.color (← Build.adoptInfo info) c)
  | .comment info text isLine debug => do
    pure (.comment (← Build.adoptInfo info) text isLine debug)
  | .condition info relation l r negate => do
    pure (.condition (← Build.adoptInfo info) relation (← Node.adopt l) (← Node.adopt r) negate)
  | .declaration info name v traits => do
    pure (.declaration (← Build.adoptInfo info) (← PropertyName.adopt name) (← Node.adopt v) traits)
  | .detached info body frames => do
    let body ← match body with
      | some rs => some <$> Ruleset.adopt rs
      | none => pure none
    pure (.detached (← Build.adoptInfo info) body frames)
  | .dimension info d => do pure (.dimension (← Build.adoptInfo info) d)
  | .expression info items form => do
    pure (.expression (← Build.adoptInfo info) (← Node.adoptEach items) form)
  | .javaScript info source escaped => do
    pure (.javaScript (← Build.adoptInfo info) source escaped)
  | .keyword info text => do pure (.keyword (← Build.adoptInfo info) text)
  | .negative info v => do pure (.negative (← Build.adoptInfo info) (← Node.adopt v))
  | .operation info operator l r spaced => do
    pure (.operation (← Build.adoptInfo info) operator (← Node.adopt l) (← Node.adopt r) spaced)
  | .paren info v => do pure (.paren (← Build.adoptInfo info) (← Node.adopt v))
  | .query info id => do pure (.query (← Build.adoptInfo info) id)
  | .quoted info quote text escaped => do
    pure (.quoted (← Build.adoptInfo info) quote text escaped)
  | .ruleset rs => do pure (.ruleset (← Ruleset.adopt rs))
  | .unicodeDescriptor info text => do
    pure (.unicodeDescriptor (← Build.adoptInfo info) text)
  | .value info items => do
    pure (.value (← Build.adoptInfo info) (← Node.adoptEach items))
  | .variableRef info name => do pure (.variableRef (← Build.adoptInfo info) name)
  | .variableCall info name => do pure (.variableCall (← Build.adoptInfo info) name)

/-- Gives the nodes of some trees places of their own. -/
def Node.adoptEach : List Node → Build (List Node)
  | [] => pure []
  | node :: rest => do
    let node ← Node.adopt node
    let rest ← Node.adoptEach rest
    pure (node :: rest)

/-- Gives the parts of a name places of their own. -/
def PropertyName.adopt : PropertyName → Build PropertyName
  | .literal text => pure (.literal text)
  | .interpolated parts => do pure (.interpolated (← Node.adoptEach parts))

/-- Gives the nodes of a ruleset places of their own. -/
def Ruleset.adopt : Ruleset → Build Ruleset
  | .mk info selectors rules root => do
    pure (.mk (← Build.adoptInfo info) selectors (← Node.adoptEach rules) root)

end

namespace Build

/-- Puts a node at a place: the given one, or a new one. -/
def place (node : Node) (info : Option Info) : Build Node := do
  let info ← match info with
    | some info => pure info
    | none => newInfo 0 none [] none
  pure (node.setInfo info)

/-- A copy of a named node. -/
def reference (name : String) : Build Node := do
  match (← get).find? name with
  | none => throw (.noRegister name)
  | some node => do
    let node ← node.copy.adopt
    pure ((← get).refresh node)

/-- A detached ruleset.  Its body is linked to it; a body that has a parent already is copied
first.  Data given for the node takes the place of that to which the body was linked. -/
def detached (body : Option Ruleset) (frames : Option (List Frame)) (info : Option Info) :
    Build Node := do
  let own ← newInfo 0 none [] none
  let body ← match body with
    | none => pure none
    | some rs => do
      let rs := match (← get).refresh (.ruleset rs) with
        | .ruleset rs => rs
        | _ => rs
      let rs ← Ruleset.adopt (if rs.info.linked then rs.copy else rs)
      match rs.info.origin, own.origin with
      | some child, some parent => link child parent
      | _, _ => pure ⟨⟩
      pure (some rs)
  let node ← match info with
    | none => pure (Node.detached own body frames)
    | some info => do
      match own.origin with
      | some id => modify fun w => { w with origins := w.origins.drop id }
      | none => pure ⟨⟩
      pure (Node.detached info body frames)
  pure ((← get).refresh node)

/-- A query condition with a state of its own. -/
def query (q : Query) (info : Option Info) : Build Node := do
  let w ← get
  let id := w.context.queries.length
  set { w with context := { w.context with queries := w.context.queries ++ [q] } }
  place (.query {} id) info

/-- Names a node if a name is given. -/
def storeAs (name : Option String) (node : Node) : Build PUnit := do
  match name with
  | none => pure ⟨⟩
  | some name => do
    let node ← node.adopt
    modify fun w => w.store name node

/-- Runs an evaluation in the context of the workspace. -/
def run {α : Type} (f : Context → Except Halt α × Context) : Build (Except Halt α) := do
  let w ← get
  let (result, context) := f w.context
  set { w with context }
  pure result

/-- The named node, which is changed in place, brought up to date. -/
def named (name : String) : Build Node := do
  let w ← get
  match w.find? name with
  | none => throw (.noRegister name)
  | some node => pure (w.refresh node)

/-- Shows the children of a named node to a visitor. -/
def accept (name : String) (visitor : Visitor) (others : List Node) : Build (List Kind × Node) := do
  let node ← named name
  let w ← get
  let state : VisitState := { holders := w.holders others, queries := w.context.queries }
  let (node, state) := visitor.run node state
  modify fun w => { w with context := { w.context with queries := state.queries } }
  let node ← node.adopt
  modify fun w => w.store name node
  pure (state.seen.reverse, (← get).refresh node)

/-- Changes a named ruleset in place; a ruleset with other holders is copied first. -/
def changeRuleset (name : String) (rs : Ruleset) (others : List Node) (f : Ruleset → Ruleset) :
    Build Node := do
  let w ← get
  let (rs, _) := rs.unshare (w.holders others)
  let node ← (Node.ruleset (f rs)).adopt
  modify fun w => w.store name node
  pure ((← get).refresh node)

/-- Adds a rule to a named ruleset; other nodes stay. -/
def pushRule (name : String) (rule : Node) : Build Node := do
  match ← named name with
  | .ruleset rs =>
    changeRuleset name rs [rule] fun
      | .mk info selectors rules root => .mk info selectors (rules ++ [rule]) root
  | node => pure node

/-- Changes the visibility of a named node. -/
def changeVisibility (name : String) (changes : List VisibilityChange) : Build Visibility := do
  let apply (info : Info) : Info :=
    { info with visibility := changes.foldl Visibility.apply info.visibility }
  match ← named name with
  | .ruleset rs => do
    let node ← changeRuleset name rs [] fun rs => rs.setInfo (apply rs.info)
    pure node.info.visibility
  | node => do
    let info := apply node.info
    modify fun w => w.store name (node.setInfo info)
    pure info.visibility

/-- Links the place of one node to that of another; gives the data of the first. -/
def setParent (child parent : Node) : Build Info := do
  match child.info.origin, parent.info.origin with
  | some c, some p => do
    link c p
    pure (Workspace.refreshInfo (← get).origins child.info)
  | _, _ => pure child.info

end Build

end Cascade
