import Cascade.Node.Query
import Cascade.Render.Block

/-!
# Printing nodes

Every node has a text; those that only matter before evaluation have an empty one.  The
writer follows the tree and prints to any medium.  Query conditions are shared, so they are
printed by a function of their number; `Queries.writeCell` provides it from the states, as
deep as conditions can stand inside each other without one containing itself.
-/

namespace Cascade

/-- The failure of a script. -/
def Error.ofScript (style : Style) (source : String) : Error :=
  if style.scripts then .scriptUnsupported source else .scriptDisabled

/-- The place of a node, for messages. -/
def Info.position (info : Info) : Position :=
  ⟨info.index, info.filename?⟩

namespace Node

/-- Whether a node is a lone comma, before which no blank is printed. -/
def isComma : Node → Bool
  | .anonymous _ text _ _ => text == ","
  | _ => false

end Node

section Write

variable {ρ : Type} [Printer ρ]

open Printer

namespace Node

/-- The printed items of an expression, with blanks between them. -/
def spaceItems (noSpacing : Bool) : List Node → List ρ → ρ
  | _ :: next :: nodes, r :: rest =>
    let blank := if noSpacing || next.isComma then empty else ofText " "
    r ++ (blank ++ spaceItems noSpacing (next :: nodes) rest)
  | _, rest => concat rest

/-- A line number before a rule, if one is printed. -/
def debugPart (info : Info) (debug : Option DebugInfo) : ρ :=
  styled fun style =>
    if style.debugText debug = "" then empty else located (style.debugText debug) info

/-- The end of a declaration: its marker, and a semicolon unless it can do without. -/
def declarationEnd (info : Info) (traits : DeclarationTraits) : ρ :=
  styled fun style =>
    let terminator := if traits.isInline || (style.compress && style.lastRule) then "" else ";"
    located (traits.important ++ terminator) info

/-- A declaration from its name and its printed value.  An error that names a place is
reported at the declaration. -/
def declarationPart (info : Info) (traits : DeclarationTraits) (value : ρ) (name : String) : ρ :=
  styled (fun style => located (name ++ if style.compress then ":" else ": ") info) ++
    (relocated info.position value ++ declarationEnd info traits)

/-- The comparison of an attribute selector. -/
def comparisonPart (operator : Option String) (value : Option ρ) : ρ :=
  match operator, value with
  | some operator, some value => ofText operator ++ value
  | _, _ => empty

/-- The case flag of an attribute selector. -/
def flagPart : Option String → ρ
  | some flag => ofText (" " ++ flag)
  | none => empty

/-- A number, which may have too many units to be printed. -/
def dimensionPart (dimension : Dimension) : ρ :=
  styled fun style =>
    match dimension.text style.strictUnits style.compress style.precision with
    | .ok text => ofText text
    | .error error => fail error

end Node

mutual

/-- Prints a node; query conditions are printed by `cell`. -/
def Node.write (cell : QueryId → ρ) : Node → ρ
  | .anonymous info text mapLines _ =>
    if text = "" then empty else chunk text info.file (if mapLines then some info.index else none)
  | .assignment _ key value => ofText (key ++ "=") ++ Node.write cell value
  | .attribute _ key operator value flag =>
    let written := match value with
      | some value => some (Node.write cell value)
      | none => none
    ofText "[" ++ (ofText key ++
      (Node.comparisonPart operator written ++ (Node.flagPart flag ++ ofText "]")))
  | .call info name args _ =>
    located (name ++ "(") info ++ (separated (Node.writeEach cell args) ++ ofText ")")
  | .color _ color => styled fun style => ofText (color.css style.compress style.precision)
  | .comment info text _ debug => Node.debugPart info debug ++ ofText text
  | .condition .. => empty
  | .declaration info name value traits =>
    Node.debugPart info traits.debug ++
      PropertyName.write cell name (Node.declarationPart info traits (Node.write cell value))
  | .detached .. => empty
  | .dimension _ dimension => Node.dimensionPart dimension
  | .expression _ items form => Node.spaceItems form.noSpacing items (Node.writeEach cell items)
  | .javaScript _ source _ => styled fun style => fail (.ofScript style source)
  | .keyword info text =>
    if text = "%" then fail (.bareProportion info.position) else located text info
  | .negative _ value => ofText "-" ++ Node.write cell value
  | .operation _ operator left right spaced =>
    let blank := if spaced then ofText " " else empty
    Node.write cell left ++ (blank ++ (ofText operator.text ++ (blank ++ Node.write cell right)))
  | .paren _ value => ofText "(" ++ (Node.write cell value ++ ofText ")")
  | .query _ id => cell id
  | .quoted info quote text escaped =>
    let mark := String.ofList [quote]
    if escaped then ofText text else located mark info ++ (ofText text ++ ofText mark)
  | .ruleset rs => styled fun style => Block.writeAll (Ruleset.itemBlocks cell rs style)
  | .unicodeDescriptor _ text => ofText text
  | .value _ items => separated (Node.writeEach cell items)
  | .variableRef .. => empty
  | .variableCall .. => empty

/-- Prints the name of a declaration aside and goes on with its text. -/
def PropertyName.write (cell : QueryId → ρ) : PropertyName → (String → ρ) → ρ
  | .literal text, k => k text
  | .interpolated parts, k => aside (Node.writeEach cell parts) k

/-- The printed forms of some nodes. -/
def Node.writeEach (cell : QueryId → ρ) : List Node → List ρ
  | [] => []
  | node :: rest => Node.write cell node :: Node.writeEach cell rest

/-- The blocks of a ruleset with the items printed. -/
def Ruleset.itemBlocks (cell : QueryId → ρ) : Ruleset → Style → List (Block ρ)
  | .mk _ selectors rules _, style => Block.arrange selectors (Node.itemParts cell rules style)

/-- The contributions of some rules with the items printed. -/
def Node.itemParts (cell : QueryId → ρ) : List Node → Style → List (Part ρ)
  | [], _ => []
  | rule :: rest, style =>
    let nested := match rule with
      | .ruleset rs => some (Ruleset.itemBlocks cell rs style)
      | _ => none
    Part.ofRule style rule (Node.write cell rule) nested :: Node.itemParts cell rest style

end

/-- Prints a query condition. -/
def Query.write (cell : QueryId → ρ) (q : Query) : ρ :=
  match q.shownMiddle? with
  | none => fail .missingMiddle
  | some middle =>
    let tail := match q.range with
      | some (operator, right) => ofText (" " ++ operator ++ " ") ++ right.write cell
      | none => empty
    q.left.write cell ++ (ofText (" " ++ q.operator ++ " ") ++ (middle.write cell ++ tail))

/-- Prints query conditions that stand at most `depth` deep in each other. -/
def Queries.writeCell (queries : Queries) : Nat → QueryId → ρ
  | 0, _ => stop .exhausted
  | depth + 1, id =>
    match queries[id]? with
    | some q => q.write (Queries.writeCell queries depth)
    | none => empty

/-- Prints a node.  More conditions inside each other than there are means that one contains
itself. -/
def Node.print (queries : Queries) (node : Node) : ρ :=
  node.write (Queries.writeCell queries (queries.length + 1))

end Write

/-- The rendering of a node. -/
def Node.render (queries : Queries) (style : Style) (node : Node) : Rendering :=
  (Node.print queries node : Style → Rendering) style

/-- The text of a node. -/
def Node.css (queries : Queries) (style : Style) (node : Node) : Except Halt String :=
  (node.render queries style).text

end Cascade
