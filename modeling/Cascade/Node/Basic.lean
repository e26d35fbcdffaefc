import Cascade.Color.Basic
import Cascade.Dimension
import Cascade.Function.Table
import Cascade.Node.DebugInfo
import Cascade.Node.Info
import Cascade.Node.Relation

/-!
# Expression trees

The nodes of a stylesheet after reading: values, arithmetic, declarations, rulesets and the
rest, as one inductive type together with the rulesets, scope frames and declaration names
that occur in it.

A ruleset occurs in a tree by value.  A query condition changes when it is evaluated, and all
its copies change with it, so the tree holds only the number of its state.
-/

namespace Cascade

/-- The number of a query condition. -/
abbrev QueryId := Nat

/-- What a declaration carries besides its name and its value: the marker (empty, or with a
blank before it), how it merges with others, whether it is printed without a semicolon,
whether it declares a variable, and its line. -/
structure DeclarationTraits where
  important : String := ""
  merge : Option String := none
  isInline : Bool := false
  isVariable : Bool := false
  debug : Option DebugInfo := none
deriving DecidableEq, Repr

/-- How an expression was written: without blanks between its items, in parentheses, and
with these parentheses inside an operation. -/
structure ExpressionForm where
  noSpacing : Bool := false
  parens : Bool := false
  parensInOp : Bool := false
deriving DecidableEq, Repr

mutual

/-- A node of an expression tree. -/
inductive Node where
  /-- Text that is printed as it is. -/
  | anonymous (info : Info) (text : String) (mapLines rulesetLike : Bool)
  /-- A filter argument `key=value`. -/
  | assignment (info : Info) (key : String) (value : Node)
  /-- An attribute selector: key, operator, value, case flag. -/
  | attribute (info : Info) (key : String) (operator : Option String) (value : Option Node)
      (flag : Option String)
  /-- A function call; inside one of `calc` nothing is computed. -/
  | call (info : Info) (name : String) (args : List Node) (asCalc : Bool)
  | color (info : Info) (color : Color)
  | comment (info : Info) (text : String) (isLine : Bool) (debug : Option DebugInfo)
  /-- A guard. -/
  | condition (info : Info) (relation : Relation) (left right : Node) (negate : Bool)
  | declaration (info : Info) (name : PropertyName) (value : Node) (traits : DeclarationTraits)
  /-- A ruleset kept together with the scope it was written in. -/
  | detached (info : Info) (body : Option Ruleset) (frames : Option (List Frame))
  | dimension (info : Info) (dimension : Dimension)
  /-- Items with blanks between them. -/
  | expression (info : Info) (items : List Node) (form : ExpressionForm)
  /-- An inline script, which is never run. -/
  | javaScript (info : Info) (source : String) (escaped : Bool)
  | keyword (info : Info) (text : String)
  /-- A value with a minus sign before it. -/
  | negative (info : Info) (value : Node)
  | operation (info : Info) (operator : Operator) (left right : Node) (spaced : Bool)
  /-- A value in parentheses. -/
  | paren (info : Info) (value : Node)
  /-- A condition of a media or container query. -/
  | query (info : Info) (id : QueryId)
  /-- A string; an escaped one is printed without its quotes. -/
  | quoted (info : Info) (quote : Char) (text : String) (escaped : Bool)
  | ruleset (body : Ruleset)
  /-- A range of characters, which is never evaluated. -/
  | unicodeDescriptor (info : Info) (text : String)
  /-- Items with commas between them. -/
  | value (info : Info) (items : List Node)
  /-- A reference to a variable. -/
  | variableRef (info : Info) (name : String)
  /-- A call of a detached ruleset. -/
  | variableCall (info : Info) (name : String)

/-- Selectors and rules. -/
inductive Ruleset where
  | mk (info : Info) (selectors : List String) (rules : List Node) (root : Bool)

/-- One level of scope: the ruleset whose variables are visible, and the functions. -/
inductive Frame where
  | mk (ruleset : Option Ruleset) (functions : Option FunctionTable)

/-- The name of a declaration: a text, or parts that are evaluated and put together. -/
inductive PropertyName where
  | literal (text : String)
  | interpolated (parts : List Node)

end

namespace Ruleset

/-- What the ruleset carries as a node. -/
def info : Ruleset → Info
  | .mk info _ _ _ => info

def selectors : Ruleset → List String
  | .mk _ selectors _ _ => selectors

def rules : Ruleset → List Node
  | .mk _ _ rules _ => rules

/-- Whether the ruleset is the top of a stylesheet. -/
def root : Ruleset → Bool
  | .mk _ _ _ root => root

/-- A ruleset with selectors and rules. -/
def ofRules (selectors : List String) (rules : List Node) : Ruleset :=
  .mk {} selectors rules false

/-- The top of a stylesheet. -/
def ofRoot (rules : List Node) : Ruleset :=
  .mk {} [] rules true

/-- The ruleset with other common data. -/
def setInfo (info : Info) : Ruleset → Ruleset
  | .mk _ selectors rules root => .mk info selectors rules root

end Ruleset

namespace Frame

def ruleset : Frame → Option Ruleset
  | .mk ruleset _ => ruleset

def functions : Frame → Option FunctionTable
  | .mk _ functions => functions

/-- The rules of a frame; none if it has no ruleset. -/
def rules (frame : Frame) : List Node :=
  (frame.ruleset.map Ruleset.rules).getD []

end Frame

namespace Node

instance : Inhabited Node := ⟨.keyword {} ""⟩

/-- The kind of a node. -/
def kind : Node → Kind
  | .anonymous .. => .anonymous
  | .assignment .. => .assignment
  | .attribute .. => .attribute
  | .call .. => .call
  | .color .. => .color
  | .comment .. => .comment
  | .condition .. => .condition
  | .declaration .. => .declaration
  | .detached .. => .detachedRuleset
  | .dimension .. => .dimension
  | .expression .. => .expression
  | .javaScript .. => .javaScript
  | .keyword .. => .keyword
  | .negative .. => .negative
  | .operation .. => .operation
  | .paren .. => .paren
  | .query .. => .queryInParens
  | .quoted .. => .quoted
  | .ruleset .. => .ruleset
  | .unicodeDescriptor .. => .unicodeDescriptor
  | .value .. => .value
  | .variableRef .. => .variable
  | .variableCall .. => .variableCall

/-- What a node carries. -/
def info : Node → Info
  | .anonymous info _ _ _ | .assignment info _ _ | .attribute info _ _ _ _ | .call info _ _ _
  | .color info _ | .comment info _ _ _ | .condition info _ _ _ _ | .declaration info _ _ _
  | .detached info _ _ | .dimension info _ | .expression info _ _ | .javaScript info _ _
  | .keyword info _ | .negative info _ | .operation info _ _ _ _ | .paren info _ | .query info _
  | .quoted info _ _ _ | .unicodeDescriptor info _ | .value info _ | .variableRef info _
  | .variableCall info _ => info
  | .ruleset rs => rs.info

/-- The node with other common data. -/
def setInfo (info : Info) : Node → Node
  | .anonymous _ text mapLines rulesetLike => .anonymous info text mapLines rulesetLike
  | .assignment _ key v => .assignment info key v
  | .attribute _ key operator v flag => .attribute info key operator v flag
  | .call _ name args asCalc => .call info name args asCalc
  | .color _ c => .color info c
  | .comment _ text isLine debug => .comment info text isLine debug
  | .condition _ relation left right negate => .condition info relation left right negate
  | .declaration _ name v traits => .declaration info name v traits
  | .detached _ body frames => .detached info body frames
  | .dimension _ d => .dimension info d
  | .expression _ items form => .expression info items form
  | .javaScript _ source escaped => .javaScript info source escaped
  | .keyword _ text => .keyword info text
  | .negative _ v => .negative info v
  | .operation _ operator left right spaced => .operation info operator left right spaced
  | .paren _ v => .paren info v
  | .query _ id => .query info id
  | .quoted _ quote text escaped => .quoted info quote text escaped
  | .ruleset rs => .ruleset (rs.setInfo info)
  | .unicodeDescriptor _ text => .unicodeDescriptor info text
  | .value _ items => .value info items
  | .variableRef _ name => .variableRef info name
  | .variableCall _ name => .variableCall info name

/-- The keyword of a truth value. -/
def ofBool (b : Bool) : Node :=
  .keyword {} (if b then "true" else "false")

/-- The truth value of a keyword. -/
def asBool : Node → Option Bool
  | .keyword _ text =>
    if text = "true" then some true else if text = "false" then some false else none
  | _ => none

/-- Whether the node is a string or anonymous text. -/
def isTextual : Node → Bool
  | .quoted .. | .anonymous .. => true
  | _ => false

/-- Whether the node has a comparison of its own. -/
def isComparable : Node → Bool
  | .anonymous .. | .color .. | .dimension .. | .quoted .. => true
  | _ => false

/-- Whether the node can be evaluated. -/
def isEvaluable : Node → Bool
  | .unicodeDescriptor .. => false
  | _ => true

/-- Whether the node stands for a set of declarations. -/
def isRulesetLike : Node → Bool
  | .ruleset .. | .detached .. => true
  | .anonymous _ _ _ rulesetLike => rulesetLike
  | _ => false

/-- Whether the node is a comment. -/
def isComment : Node → Bool
  | .comment .. => true
  | _ => false

/-- The name of a declaration, if it is a text. -/
def declaredName? : Node → Option String
  | .declaration _ (.literal text) _ _ => some text
  | _ => none

/-- Puts a value that is not yet a list into a list of its own. -/
def asValue : Node → Node
  | .value info items => .value info items
  | other => .value {} [other]

/-- The stored form of an important marker: empty, or with one blank before it. -/
def importantMarker (marker : String) : String :=
  let trimmed := Text.trim marker
  if trimmed = "" then "" else " " ++ trimmed

/-- A declaration.  Its name must not be empty; a text that begins with an at sign declares a
variable. -/
def makeDeclaration (name : PropertyName) (value : Node) : Except Error Node :=
  match name with
  | .literal text =>
    if text = "" then .error .emptyName
    else .ok (.declaration {} name value.asValue { isVariable := text.toList.head? == some '@' })
  | .interpolated parts =>
    if parts.isEmpty then .error .emptyName else .ok (.declaration {} name value.asValue {})

/-- Whether a name is that of `calc`. -/
def isCalc (name : String) : Bool :=
  Text.eqIgnoringAsciiCase name "calc"

/-- A function call.  Its name tells whether it is one of `calc`. -/
def makeCall (info : Info) (name : String) (args : List Node) : Node :=
  .call info name args (isCalc name)

/-- Whether a comment is left out of the output: line comments always are, and compressed
output keeps only comments that begin with an exclamation mark. -/
def isSilentComment (compress : Bool) (text : String) (isLine : Bool) : Bool :=
  isLine || (compress && !Text.startsWith "/*!" text)

end Node

end Cascade
