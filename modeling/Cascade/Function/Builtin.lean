import Cascade.Eval.Operations

/-!
# Built-in functions

What the built-in functions do with their arguments, and how arguments are prepared: comments
are dropped, also from inside expressions.
-/

namespace Cascade

namespace Builtin

/-- The argument at a position, counted from zero; messages count from one. -/
def argument (function : Builtin) {α : Type} (args : List α) (position : Nat) : Except Error α :=
  match args[position]? with
  | some arg => .ok arg
  | none => .error (.missingArgument function.name (position + 1))

/-- A number among the arguments. -/
def dimensionArgument (function : Builtin) (args : List Node) (position : Nat) :
    Except Error Dimension := do
  match ← function.argument args position with
  | .dimension _ dimension => pure dimension
  | other => .error (.expectedDimension function.name (position + 1) other.kind)

/-- A colour among the arguments. -/
def colorArgument (function : Builtin) (args : List Node) (position : Nat) :
    Except Error Color := do
  match ← function.argument args position with
  | .color _ color => pure color
  | other => .error (.expectedColor function.name (position + 1) other.kind)

/-- The unit that an argument names. -/
def unitName : Node → Except Error String
  | .keyword _ text | .quoted _ _ text _ | .anonymous _ text _ _ => .ok text
  | .dimension _ dimension => .ok dimension.units.text
  | other => .error (.notAUnit other.kind)

/-- The unit that an argument names, or no unit if there is no such argument. -/
def optionalUnit (args : List Node) (position : Nat) : Except Error String :=
  match args[position]? with
  | some arg => unitName arg
  | none => .ok ""

/-- A change of a colour by a percentage. -/
def adjustColor (function : Builtin) (change : Rgba → Float → Rgba) (args : List Node) :
    Except Error Node := do
  let color ← function.colorArgument args 0
  let amount ← function.dimensionArgument args 1
  pure (.color {} (.ofRgba (change color.toRgba (amount.value / 100.0))))

/-- The result of a function on evaluated arguments.  The conditional needs its arguments
unevaluated. -/
def call (function : Builtin) (args : List Node) : Except Error Node :=
  match function with
  | .unit => do
    let dimension ← function.dimensionArgument args 0
    let name ← optionalUnit args 1
    let result ← Dimension.make dimension.value (.ofName name)
    pure (.dimension {} result)
  | .convert => do
    let dimension ← function.dimensionArgument args 0
    let target ← unitName (← function.argument args 1)
    pure (.dimension {} (dimension.convert (.ofName target)))
  | .percentage => do
    let dimension ← function.dimensionArgument args 0
    let result ← Dimension.make (dimension.value * 100.0) (.ofName "%")
    pure (.dimension {} result)
  | .lighten => function.adjustColor Rgba.lighten args
  | .darken => function.adjustColor Rgba.darken args
  | .fade => function.adjustColor Rgba.fade args
  | .boolean => do
    let condition ← function.argument args 0
    pure (.ofBool (condition.asBool == some true))
  | .cond => .error .needsScope

section Raw

variable {m : Type → Type} [Evaluation m]

/-- The evaluation of an argument of the conditional. -/
def branch (args : List (m Node)) (position : Nat) : m Node :=
  match Builtin.cond.argument args position with
  | .ok evaluation => evaluation
  | .error error => Evaluation.fail error

/-- The conditional: only the branch that is taken is evaluated. -/
def choose (args : List (m Node)) : m Node := do
  let condition ← branch args 0
  if condition.asBool = some true then branch args 1
  else
    match args[2]? with
    | some evaluation => evaluation
    | none => pure (.anonymous {} "" false false)

/-- The result of a function on arguments that are given as they are, each with its
evaluation. -/
def callRaw (function : Builtin) (args : List (Node × m Node)) : m Node :=
  match function with
  | .cond => choose (args.map Prod.snd)
  | function => Evaluation.ofExcept (function.call (args.map Prod.fst))

end Raw

end Builtin

namespace Node

/-- Drops the comments of an expression.  A single item that is left stands for the
expression, except a division in parentheses. -/
def stripComments : Node → Node
  | .expression info items form =>
    match items.filter fun item => !item.isComment with
    | [single] =>
      match single with
      | .operation _ .div _ _ _ => if form.parens then .expression info items form else single
      | _ => single
    | kept => .expression info kept { noSpacing := form.noSpacing }
  | other => other

/-- Evaluates the arguments of a function one by one and drops comments. -/
def evaluateArguments {m : Type → Type} [Evaluation m] (function : String) :
    List (Node × m Node) → m (List Node)
  | [] => pure []
  | (arg, evaluation) :: rest =>
    if arg.isEvaluable then do
      let result ← evaluation
      let others ← evaluateArguments function rest
      pure (if result.isComment then others else result.stripComments :: others)
    else Evaluation.fail (.unevaluable arg.kind function)

end Node

end Cascade
