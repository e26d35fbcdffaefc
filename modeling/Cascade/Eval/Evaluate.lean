import Cascade.Eval.Operations
import Cascade.Function.Builtin
import Cascade.Render.Compare
import Cascade.Text.Placeholder

/-!
# Evaluation

Evaluating a node in a scope gives a node in which variables are replaced by their values,
arithmetic is carried out as far as the scope asks for it, functions are called and
selectors are combined.

The evaluation follows the tree (`Node.evalWith`), except where it goes on with a node that
is not part of it: the value of a variable, the body of a detached ruleset, the sides of a
query condition, a string after its placeholders were filled in.  These go through a
resolver; `Node.eval` is the evaluation that may go on in this way as deep as it is allowed
to.
-/

namespace Cascade

/-- How the evaluation goes on with nodes that are not part of the tree at hand: with the
value of a variable, and with anything else. -/
structure Resolver (m : Type → Type) where
  value : Node → m Node
  body : Node → m Node

/-! ### Arithmetic -/

namespace Node

/-- A number beside a colour counts as a grey. -/
def promote : Node → Node → Node × Node
  | .dimension _ d, .color info c => (.color {} (.grey d.value), .color info c)
  | .color info c, .dimension _ d => (.color info c, .color {} (.grey d.value))
  | a, b => (a, b)

/-- Carries out an operation on evaluated operands.  Where division needs parentheses, an
operation on a division that was held back is held back, too. -/
def compute (scope : Scope) (info : Info) (operator : Operator) (spaced : Bool) (a b : Node) :
    Except Error Node :=
  match promote a b with
  | (.dimension left x, .dimension _ y) => do
    let result ← x.operate scope.style.strictUnits operator.plain y
    pure (.dimension left.snapshot result)
  | (.color left x, .color _ y) => do
    let result ← x.operate operator.plain y
    pure (.color left.snapshot result)
  | (.operation inner .div l r s, b) =>
    if scope.math = .parensDivision then
      .ok (.operation info.snapshot operator (.operation inner .div l r s) b spaced)
    else .error .badOperands
  | _ => .error .badOperands

/-- An operation on evaluated operands: carried out, or kept. -/
def operate (scope : Scope) (info : Info) (operator : Operator) (spaced : Bool) (a b : Node) :
    Except Error Node :=
  if scope.computes operator then compute scope info operator spaced a b
  else .ok (.operation info.snapshot operator a b spaced)

/-- The factor that a minus sign stands for. -/
def minusOne : Node :=
  .dimension {} ⟨-1.0, .none⟩

/-- Whether a node is a number. -/
def isDimension : Node → Bool
  | .dimension .. => true
  | _ => false

/-- Whether the only item of an expression is one in parentheses of its own, outside
`calc`. -/
def isDoubleParen (scope : Scope) : List Node → Bool
  | [.expression _ _ form] => form.parens && !form.parensInOp && !scope.inCalc
  | _ => false

/-- Parentheses inside an operation that is held back are kept around anything but a
number. -/
def keepParens (scope : Scope) (form : ExpressionForm) (items : List Node) (result : Node) :
    Node :=
  if form.parens && form.parensInOp && !scope.isMathOn && !isDoubleParen scope items &&
      !result.isDimension then
    .paren {} result
  else result

end Node

section Evaluate

variable {m : Type → Type} [Evaluation m]

open Evaluation

/-! ### Variables and strings -/

namespace Resolver

/-- The value of the variable of the given name in a scope. -/
def lookup (resolve : Resolver m) (scope : Scope) (name : String) : m Node :=
  match Frame.lookup? name scope.frames with
  | none => fail (.undefinedVariable name)
  | some found => do
    announce found.important
    inFrames (scope.bindingFrames found) (resolve.value found.value)

/-- The value of the variable of the given name, unless it is being resolved already. -/
def binding (resolve : Resolver m) (name : String) : m Node := do
  let scope ← scope
  if scope.resolving.contains name then fail (.recursiveVariable name)
  else inVariable name (resolve.lookup scope name)

/-- The text that an indirect reference takes as a name. -/
def nameText : Node → m String
  | .quoted _ _ text _ | .keyword _ text | .anonymous _ text _ _ => pure text
  | other => textOf other

/-- The value of a variable whose name is found through `depth` further references. -/
def indirect (resolve : Resolver m) (base : String) : Nat → m Node
  | 0 => resolve.binding base
  | depth + 1 => do
    let inner ← indirect resolve base depth
    let text ← nameText inner
    resolve.binding ("@" ++ text)

/-- The number of at signs before a name. -/
def atSigns (name : String) : Nat :=
  (name.toList.takeWhile (· == '@')).length

/-- The value of a reference: every at sign beyond the first is one further reference. -/
def reference (resolve : Resolver m) (name : String) : m Node :=
  let signs := atSigns name
  if signs ≤ 1 then resolve.binding name
  else resolve.indirect (String.ofList (name.toList.drop (signs - 1))) (signs - 1)

/-- The text that fills a placeholder: the content of a string, the printed form of anything
else. -/
def fillText : Node → m String
  | .quoted _ _ text _ => pure text
  | other => textOf other

/-- The text that a placeholder stands for. -/
def placeholder (resolve : Resolver m) (name : String) : m String := do
  let value ← resolve.reference ("@" ++ name)
  fillText value

/-- A string with its placeholders filled in, again and again until the text stays the
same. -/
def string (resolve : Resolver m) (info : Info) (quote : Char) (text : String)
    (escaped : Bool) : m Node := do
  let pieces := Text.pieces text
  let texts ← runAll ((Text.Piece.names pieces).map resolve.placeholder)
  let filled := String.ofList (Text.Piece.fill pieces texts)
  if filled = text then pure (.quoted info.snapshot quote text escaped)
  else resolve.body (.quoted info quote filled escaped)

/-! ### Detached rulesets and query conditions -/

/-- Evaluates where a detached ruleset was written: the frames it was written in come
first. -/
def inCaptured {α : Type} (captured : Option (List Frame)) (x : m α) : m α :=
  match captured with
  | none => x
  | some frames => do
    let scope ← scope
    inFrames (frames ++ scope.frames) x

/-- Evaluates the body of a detached ruleset where it is called. -/
def callDetached (resolve : Resolver m) (body : Option Ruleset) (frames : Option (List Frame)) :
    m (Option Node) :=
  match body with
  | none => pure none
  | some ruleset => do
    let result ← inCaptured frames (resolve.body (.ruleset ruleset))
    pure (some result)

/-- Calls what a variable holds, if it is a detached ruleset or a ruleset. -/
def callHeld (resolve : Resolver m) : Node → m (Option Node)
  | .detached _ body frames => resolve.callDetached body frames
  | .ruleset ruleset => resolve.callDetached (some ruleset) none
  | _ => pure none

/-- Calls the detached ruleset, or the ruleset, that a variable holds. -/
def variableCall (resolve : Resolver m) (name : String) : m Node := do
  let held ← resolve.reference name
  let result ← resolve.callHeld held
  match result with
  | some node => pure node
  | none => fail (.uncallable name)

/-- All variable declarations in scope, innermost frame first. -/
def variablesInScope (scope : Scope) : List Node :=
  scope.frames.flatMap fun frame =>
    frame.rules.filter fun
      | .declaration _ _ _ traits => traits.isVariable
      | _ => false

/-- The frame that holds one declaration. -/
def narrowFrame (scope : Scope) (declaration : Node) : Frame :=
  scope.frameOf (.ofRules [] [declaration])

/-- The template of a query condition under each variable declaration in scope. -/
def candidates (resolve : Resolver m) (template : Option Node) : m (List Node) :=
  match template with
  | none => pure []
  | some node => do
    let scope ← scope
    runEach ((variablesInScope scope).map fun declaration =>
      inFrame (narrowFrame scope declaration) (resolve.body node))

/-- Evaluates an optional node. -/
def optional (resolve : Resolver m) : Option Node → m (Option Node)
  | none => pure none
  | some node => do
    let result ← resolve.body node
    pure (some result)

/-- Evaluates the sides of a query condition and collects its candidates. -/
def sides (resolve : Resolver m) (id : QueryId) (q : Query) : m PUnit := do
  let left ← resolve.body q.left
  let middle ← resolve.optional q.middle
  let right ← resolve.optional (q.range.map Prod.snd)
  let found ← resolve.candidates q.template
  update fun queries => queries.modify id fun q => q.record left middle right found

/-- Evaluates a query condition: its sides are replaced and its candidates collected.  A
failure leaves the sides as they were. -/
def query (resolve : Resolver m) (id : QueryId) : m PUnit := do
  update fun queries => queries.modify id Query.withTemplate
  let states ← queries
  match states[id]? with
  | none => pure ⟨⟩
  | some q => resolve.sides id q

end Resolver

/-! ### Functions -/

/-- Carries out what a function does, given the evaluations of its arguments. -/
def Procedure.run (name : String) (evaluations : List (m Node)) : Procedure → m Node
  | .finish x => foreign x
  | .evaluate position change next =>
    match evaluations[position]? with
    | none => fail (.missingArgument name (position + 1))
    | some evaluation => do
      let result ← attempt (inSurroundings change evaluation)
      Procedure.run name evaluations (next result)

/-- Calls one of the caller's functions. -/
def Scope.callCustom (scope : Scope) (name key : String) (args : List (Node × m Node)) : m Node :=
  match scope.custom key with
  | none => fail (.unknownFunction name)
  | some f =>
    if f.evaluatesArguments then do
      let values ← Node.evaluateArguments name args
      foreign (f.call values)
    else (f.callRaw scope.toSurroundings (args.map Prod.fst)).run name (args.map Prod.snd)

/-- Calls a function with arguments, each of which comes with its evaluation. -/
def Scope.callFunction (scope : Scope) (name : String) (function : FunctionRef)
    (args : List (Node × m Node)) : m Node :=
  match function with
  | .builtin b =>
    if b.evaluatesArguments then do
      let values ← Node.evaluateArguments name args
      ofExcept (b.call values)
    else b.callRaw args
  | .custom key => scope.callCustom name key args

/-- A call: of a function in the table, or one that is kept with its arguments evaluated. -/
def Node.callNamed (info : Info) (name : String) (args : List Node) (asCalc : Bool)
    (evaluations : List (m Node)) : m Node := do
  let scope ← scope
  let table ← ofExcept scope.functionTable
  match table.find? name with
  | some function => scope.callFunction (Text.lower name) function (args.zip evaluations)
  | none => do
    let values ← runEach evaluations
    pure (.call info.snapshot name values asCalc)

/-! ### Rulesets and declarations -/

namespace Ruleset

/-- A nested selector in the place of an ampersand, or after the outer one. -/
def combineSelector (parent child : String) : String :=
  if child.toList.contains '&' then
    Text.trim (String.ofList (child.toList.flatMap fun c => if c = '&' then parent.toList else [c]))
  else Text.trim parent ++ " " ++ Text.trim child

/-- The selectors of a ruleset inside another: every outer selector with every own one. -/
def combineSelectors (parents own : List String) : List String :=
  if parents.isEmpty then own.map Text.trim
  else if own.isEmpty then parents
  else parents.flatMap fun parent => own.map (combineSelector parent)

end Ruleset

namespace Node

/-- What an evaluated rule contributes: the rules of a ruleset that was called, else the
rule itself. -/
def splice : Node → Node → List Node
  | .variableCall .., .ruleset called => called.rules
  | _, result => [result]

/-- Evaluates rules one after the other. -/
def evaluateRules : List Node → List (m Node) → m (List Node)
  | rule :: rules, evaluation :: evaluations => do
    let result ← evaluation
    let rest ← evaluateRules rules evaluations
    pure (rule.splice result ++ rest)
  | _, _ => pure []

/-- The text of one part of a name: keywords and anonymous text as they are, anything else
evaluated and printed. -/
def namePart (part : Node) (evaluation : m Node) : m String :=
  match part with
  | .keyword _ text | .anonymous _ text _ _ => pure text
  | _ => do
    let value ← evaluation
    textOf value

/-- The parts of a name put together. -/
def nameParts : List Node → List (m Node) → m String
  | part :: parts, evaluation :: evaluations => do
    let text ← namePart part evaluation
    let rest ← nameParts parts evaluations
    pure (text ++ rest)
  | _, _ => pure ""

/-- An expression from the evaluations of its items; a single item stands for itself. -/
def expressionOf (info : Info) (form : ExpressionForm) : List (m Node) → m Node
  | [] => pure (.expression info.snapshot [] form)
  | [single] => single
  | several => do
    let values ← runEach several
    pure (.expression info.snapshot values { noSpacing := form.noSpacing })

/-- A list from the evaluations of its items; a single item stands for itself. -/
def valueOf (info : Info) : List (m Node) → m Node
  | [single] => single
  | evaluations => do
    let values ← runEach evaluations
    pure (.value info.snapshot values)

/-- Whether a node is a detached ruleset. -/
def isDetached : Node → Bool
  | .detached .. => true
  | _ => false

/-- A declaration with its name and its value evaluated.  A property cannot hold a ruleset.
A marker met on the way takes the place of its own. -/
def finishDeclaration (info : Info) (name : String) (traits : DeclarationTraits) (value : Node)
    (marker : Option String) : Except Error Node :=
  if !traits.isVariable && value.isDetached then .error (.rulesetAsValue info.position)
  else
    let important := (marker.map importantMarker).getD traits.important
    .ok (.declaration info.snapshot (.literal name) value.asValue { traits with important })

end Node

/-- What a declaration carries once its name is known: only a name that was a text declares a
variable. -/
def PropertyName.traits (traits : DeclarationTraits) : PropertyName → DeclarationTraits
  | .literal _ => traits
  | .interpolated _ => { traits with isVariable := false }

mutual

/-- Evaluates a node, going on with other nodes by the resolver. -/
def Node.evalWith (resolve : Resolver m) : Node → m Node
  | .anonymous info text mapLines rulesetLike =>
    pure (.anonymous info.snapshot text mapLines rulesetLike)
  | .assignment info key value => do
    let value ← Node.evalWith resolve value
    pure (.assignment info.snapshot key value)
  | .attribute info key operator value flag =>
    match value with
    | none => pure (.attribute info.snapshot key operator none flag)
    | some value => do
      let value ← Node.evalWith resolve value
      pure (.attribute info.snapshot key operator (some value) flag)
  | .call info name args asCalc =>
    inCall asCalc (Node.callNamed info name args asCalc (Node.evalEach resolve args))
  | .color info color => pure (.color info.snapshot color)
  | .comment info text isLine debug => pure (.comment info.snapshot text isLine debug)
  | .condition _ relation left right negate => do
    let a ← Node.evalWith resolve left
    let b ← Node.evalWith resolve right
    let queries ← queries
    pure (.ofBool (Node.relationHolds queries relation a b != negate))
  | .declaration info name value traits => do
    let text ← PropertyName.evalWith resolve name
    let scope ← scope
    let (value, marker) ← inMath (scope.mathOf text) (capture (Node.evalWith resolve value))
    ofExcept (Node.finishDeclaration info text (name.traits traits) value marker)
  | .detached info body frames => do
    let scope ← scope
    pure (.detached info.snapshot body (some (frames.getD scope.frames)))
  | .dimension info dimension => pure (.dimension info.snapshot dimension)
  | .expression info items form => do
    let scope ← scope
    let result ← parenthesized form.parens
      (Node.expressionOf info form (Node.evalEach resolve items))
    pure (Node.keepParens scope form items result)
  | .javaScript _ source _ => do
    let scope ← scope
    fail (.ofScript scope.style source)
  | .keyword info text => pure (.keyword info.snapshot text)
  | .negative info value => do
    let outer ← scope
    let value ← Node.evalWith resolve value
    if outer.isMathOn then do
      let scope ← scope
      ofExcept (Node.operate scope {} .mul false Node.minusOne value)
    else pure (.negative info.snapshot value)
  | .operation info operator left right spaced => do
    let a ← Node.evalWith resolve left
    let b ← Node.evalWith resolve right
    let scope ← scope
    ofExcept (Node.operate scope info operator spaced a b)
  | .paren info value => do
    let value ← Node.evalWith resolve value
    pure (.paren info.snapshot value)
  | .query info id => do
    resolve.query id
    pure (.query info.snapshot id)
  | .quoted info quote text escaped => resolve.string info quote text escaped
  | .ruleset rs => Ruleset.evalWith resolve rs
  | .unicodeDescriptor info text => pure (.unicodeDescriptor info.snapshot text)
  | .value info items => Node.valueOf info (Node.evalEach resolve items)
  | .variableRef _ name => resolve.reference name
  | .variableCall _ name => resolve.variableCall name

/-- The name of a declaration. -/
def PropertyName.evalWith (resolve : Resolver m) : PropertyName → m String
  | .literal text => pure text
  | .interpolated parts => Node.nameParts parts (Node.evalEach resolve parts)

/-- Evaluates a ruleset: its selectors are combined with those around, and its rules are
evaluated with the ruleset itself as the innermost frame. -/
def Ruleset.evalWith (resolve : Resolver m) : Ruleset → m Node
  | .mk info selectors rules root => do
    let scope ← scope
    let combined := Ruleset.combineSelectors scope.selectors selectors
    let evaluated ← inFrame (scope.frameOf (.mk info selectors rules root))
      (inSelectors combined (Node.evaluateRules rules (Node.evalEach resolve rules)))
    pure (.ruleset (.mk info.snapshot combined evaluated root))

/-- The evaluations of some nodes, none of which has been run. -/
def Node.evalEach (resolve : Resolver m) : List Node → List (m Node)
  | [] => []
  | node :: rest => Node.evalWith resolve node :: Node.evalEach resolve rest

end

/-- The evaluations of some nodes, one by one. -/
theorem Node.evalEach_eq_map (resolve : Resolver m) (nodes : List Node) :
    Node.evalEach resolve nodes = nodes.map (Node.evalWith resolve) := by
  induction nodes with
  | nil => simp [Node.evalEach]
  | cons node rest ih => simp [Node.evalEach, ih]

/-- Evaluates a node; nodes that are not part of the tree are followed less than `depth`
deep. -/
def Node.eval : Nat → Node → m Node
  | 0, _ => stop .exhausted
  | depth + 1, node => Node.evalWith ⟨Node.eval depth, Node.eval depth⟩ node

end Evaluate

end Cascade
