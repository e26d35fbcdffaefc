import Cascade.Eval.Effect
import Cascade.Node.Basic
import Cascade.Render.Style

/-!
# Scopes

The scope of an evaluation: the frames in which variables and functions are looked up, the
rules for arithmetic, the selectors around, and the variables being resolved.  Evaluating a
part of a tree in another scope never changes the scope of the rest.
-/

namespace Cascade

/-- When arithmetic is carried out. -/
inductive MathMode where
  | always
  /-- Division only in parentheses. -/
  | parensDivision
  /-- Any operation only in parentheses. -/
  | parens
deriving DecidableEq, Repr

/-- The part of a scope that the caller's functions have at hand. -/
structure Surroundings where
  /-- The frames, innermost first. -/
  frames : List Frame := []
  math : MathMode := .parensDivision
  /-- Whether arithmetic is carried out at all. -/
  mathOn : Bool := true
  /-- Whether the evaluation is inside a `calc` call. -/
  inCalc : Bool := false
  /-- The number of parentheses around. -/
  parens : Nat := 0
  style : Style := {}

/-- What a function does that is given its arguments as they are.  It may have any of them
evaluated, in surroundings that it has changed, and goes on with what comes out, also with an
error.  It leaves the surroundings as it found them. -/
inductive Procedure where
  | finish (x : Eval Node)
  /-- The argument at a position, counted from zero, is evaluated. -/
  | evaluate (position : Nat) (change : Surroundings → Surroundings)
      (next : Except Error Node → Procedure)

/-- What one of the caller's functions does: whether its arguments are evaluated before the
call, and what it does with evaluated arguments, or in some surroundings with the arguments as
they are. -/
structure CustomFunction where
  evaluatesArguments : Bool
  call : List Node → Eval Node
  callRaw : Surroundings → List Node → Procedure

/-- The scope of an evaluation. -/
structure Scope extends Surroundings where
  /-- The selectors of the ruleset around. -/
  selectors : List String := []
  /-- The names of the variables being resolved. -/
  resolving : List String := []
  /-- What the caller's functions do. -/
  custom : String → Option CustomFunction := fun _ => none

namespace Scope

/-- Whether parentheses are around. -/
def inParens (scope : Scope) : Bool :=
  scope.parens != 0

/-- Whether arithmetic is carried out, whatever the operator. -/
def isMathOn (scope : Scope) : Bool :=
  scope.mathOn && (scope.math != .parens || scope.inParens)

/-- Whether an operator is carried out: the plain division may need parentheses. -/
def computes (scope : Scope) (operator : Operator) : Bool :=
  scope.isMathOn && (operator != .div || scope.math == .always || scope.inParens)

/-- The function table of the innermost frame. -/
def functions? (scope : Scope) : Option FunctionTable :=
  scope.frames.head?.bind Frame.functions

/-- The function table for a call. -/
def functionTable (scope : Scope) : Except Error FunctionTable :=
  match scope.frames with
  | [] => .error .emptyScope
  | frame :: _ =>
    match frame.functions with
    | none => .error .noFunctions
    | some table => .ok table

/-- The scope inside parentheses. -/
def enterParens (scope : Scope) : Scope :=
  { scope with parens := scope.parens + 1 }

/-- The scope of the arguments of a call: `calc` computes nothing, any other call does. -/
def enterCall (scope : Scope) (asCalc : Bool) : Scope :=
  { scope with mathOn := !asCalc, inCalc := scope.inCalc || asCalc }

/-- The scope under other rules for arithmetic. -/
def setMath (scope : Scope) (math : MathMode) : Scope :=
  { scope with math }

/-- The scope inside other selectors. -/
def setSelectors (scope : Scope) (selectors : List String) : Scope :=
  { scope with selectors }

/-- The scope with one more frame. -/
def pushFrame (scope : Scope) (frame : Frame) : Scope :=
  { scope with frames := frame :: scope.frames }

/-- The scope with other frames. -/
def setFrames (scope : Scope) (frames : List Frame) : Scope :=
  { scope with frames }

/-- The scope in which a variable is being resolved. -/
def enterVariable (scope : Scope) (name : String) : Scope :=
  { scope with resolving := name :: scope.resolving }

/-- The scope with its surroundings changed. -/
def changeSurroundings (scope : Scope) (change : Surroundings → Surroundings) : Scope :=
  { scope with toSurroundings := change scope.toSurroundings }

/-- The rules for arithmetic in the value of a property: the font shorthand keeps its
slash. -/
def mathOf (scope : Scope) (property : String) : MathMode :=
  if property = "font" ∧ scope.math = .always then .parensDivision else scope.math

/-- The frame of a ruleset: it has the functions of the frame around. -/
def frameOf (scope : Scope) (ruleset : Ruleset) : Frame :=
  .mk (some ruleset) scope.functions?

end Scope

/-! ### Variables -/

/-- A declaration of a variable: its value, its marker, and the frames from its own one
outwards. -/
structure Binding where
  value : Node
  important : String
  frames : List Frame

/-- The value and the marker that a rule gives to a variable. -/
def Node.bindingOf? (name : String) : Node → Option (Node × String)
  | .declaration _ (.literal text) v traits =>
    if traits.isVariable && text == name then some (v, traits.important) else none
  | _ => none

/-- The nearest frame that declares a variable, and its last declaration there. -/
def Frame.lookup? (name : String) : List Frame → Option Binding
  | [] => none
  | frame :: outer =>
    match frame.rules.reverse.findSome? (Node.bindingOf? name) with
    | some (value, important) => some ⟨value, important, frame :: outer⟩
    | none => Frame.lookup? name outer

/-- Gives the innermost frame a function table if it has none. -/
def Frame.fillFunctions (functions : Option FunctionTable) : List Frame → List Frame
  | [] => []
  | .mk ruleset own :: outer => .mk ruleset (own.or functions) :: outer

/-- The frames of the value of a variable: they start at the frame of the declaration. -/
def Scope.bindingFrames (scope : Scope) (binding : Binding) : List Frame :=
  Frame.fillFunctions scope.functions? binding.frames

end Cascade
