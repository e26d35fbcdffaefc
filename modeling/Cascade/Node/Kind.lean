/-!
# Kinds of nodes

The twenty-three kinds of nodes of an expression tree, with the names under which
messages speak of them.
-/

namespace Cascade

/-- The kind of a node. -/
inductive Kind where
  | anonymous
  | assignment
  | attribute
  | call
  | color
  | comment
  | condition
  | declaration
  | detachedRuleset
  | dimension
  | expression
  | javaScript
  | keyword
  | negative
  | operation
  | paren
  | queryInParens
  | quoted
  | ruleset
  | unicodeDescriptor
  | value
  | variable
  | variableCall
deriving DecidableEq, Repr

/-- The name of a kind. -/
def Kind.name : Kind → String
  | .anonymous => "Anonymous"
  | .assignment => "Assignment"
  | .attribute => "Attribute"
  | .call => "Call"
  | .color => "Color"
  | .comment => "Comment"
  | .condition => "Condition"
  | .declaration => "Declaration"
  | .detachedRuleset => "DetachedRuleset"
  | .dimension => "Dimension"
  | .expression => "Expression"
  | .javaScript => "JavaScript"
  | .keyword => "Keyword"
  | .negative => "Negative"
  | .operation => "Operation"
  | .paren => "Paren"
  | .queryInParens => "QueryInParens"
  | .quoted => "Quoted"
  | .ruleset => "Ruleset"
  | .unicodeDescriptor => "UnicodeDescriptor"
  | .value => "Value"
  | .variable => "Variable"
  | .variableCall => "VariableCall"

/-- All kinds, in the order of their names. -/
def Kind.all : List Kind :=
  [.anonymous, .assignment, .attribute, .call, .color, .comment, .condition, .declaration,
    .detachedRuleset, .dimension, .expression, .javaScript, .keyword, .negative, .operation,
    .paren, .queryInParens, .quoted, .ruleset, .unicodeDescriptor, .value, .variable,
    .variableCall]

/-- The kind of a name. -/
def Kind.ofName? (name : String) : Option Kind :=
  all.find? fun kind => kind.name == name

end Cascade
