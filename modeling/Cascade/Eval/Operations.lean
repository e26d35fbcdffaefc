import Cascade.Eval.Scope
import Cascade.Render.Writer

/-!
# The operations of evaluation

Evaluation is written once, over the operations collected in `Evaluation`: looking at the
scope and at the query conditions, stopping, handing on markers, printing, and evaluating a
part in parentheses, in other frames, while a variable is being resolved, and so on.

`Scoped` is the plain interpretation of these operations.  A part is evaluated in a scope of
its own, and nothing it does to its scope is seen outside.
-/

namespace Cascade

/-- The operations that evaluation rests on. -/
class Evaluation (m : Type → Type) extends Monad m where
  /-- The scope at hand. -/
  scope : m Scope
  /-- The states of the query conditions. -/
  queries : m Queries
  /-- Changes the states of the query conditions. -/
  update : (Queries → Queries) → m PUnit
  /-- Stops. -/
  stop {α : Type} : Halt → m α
  /-- Gives the error of an evaluation as a value. -/
  attempt {α : Type} : m α → m (Except Error α)
  /-- Hands a marker to the declaration around. -/
  deposit : String → m PUnit
  /-- Keeps markers from the declaration around and gives the last one. -/
  capture {α : Type} : m α → m (α × Option String)
  /-- The text of a node in the style at hand. -/
  textOf : Node → m String
  /-- What one of the caller's functions does. -/
  foreign : Eval Node → m Node
  /-- Evaluates in parentheses. -/
  inParens {α : Type} : m α → m α
  /-- Evaluates in the arguments of a call. -/
  inCall {α : Type} : Bool → m α → m α
  /-- Evaluates under rules for arithmetic. -/
  inMath {α : Type} : MathMode → m α → m α
  /-- Evaluates inside selectors. -/
  inSelectors {α : Type} : List String → m α → m α
  /-- Evaluates with one more frame. -/
  inFrame {α : Type} : Frame → m α → m α
  /-- Evaluates in other frames. -/
  inFrames {α : Type} : List Frame → m α → m α
  /-- Evaluates while a variable is being resolved. -/
  inVariable {α : Type} : String → m α → m α
  /-- Evaluates in changed surroundings. -/
  inSurroundings {α : Type} : (Surroundings → Surroundings) → m α → m α

namespace Evaluation

variable {m : Type → Type} [Evaluation m] {α : Type}

/-- Stops with an error. -/
def fail (error : Error) : m α :=
  stop (.failed error)

/-- An evaluation whose result is known. -/
def ofExcept : Except Error α → m α
  | .ok a => pure a
  | .error error => fail error

/-- Hands a marker on, unless it is empty. -/
def announce (marker : String) : m PUnit :=
  if marker = "" then pure ⟨⟩ else deposit marker

/-- Evaluates in parentheses if there are any. -/
def parenthesized (parens : Bool) (x : m α) : m α :=
  if parens then inParens x else x

/-- Evaluations one after the other. -/
def runEach : List (m α) → m (List α)
  | [] => pure []
  | x :: rest => do
    let a ← x
    let as ← runEach rest
    pure (a :: as)

/-- Runs all evaluations, also after an error, and then fails with the first error, if there
was one. -/
def runAll (xs : List (m α)) : m (List α) := do
  let results ← runEach (xs.map attempt)
  ofExcept (results.mapM id)

end Evaluation

/-- An evaluation in a scope. -/
def Scoped (α : Type) : Type :=
  Scope → Eval α

instance : Evaluation Scoped where
  pure a := fun _ => Eval.pure a
  bind x f := fun scope => Eval.bind (x scope) fun a => f a scope
  scope := fun scope => Eval.pure scope
  queries := fun _ => Eval.read fun queries => .ok queries
  update f := fun _ => Eval.update f
  stop halt := fun _ => Eval.stop halt
  attempt x := fun scope => Eval.attempt (x scope)
  deposit marker := fun _ => Eval.deposit marker
  capture x := fun scope => Eval.capture (x scope)
  textOf node := fun scope => Eval.read fun queries => node.css queries scope.style
  foreign x := fun _ => x
  inParens x := fun scope => x scope.enterParens
  inCall asCalc x := fun scope => x (scope.enterCall asCalc)
  inMath math x := fun scope => x (scope.setMath math)
  inSelectors selectors x := fun scope => x (scope.setSelectors selectors)
  inFrame frame x := fun scope => x (scope.pushFrame frame)
  inFrames frames x := fun scope => x (scope.setFrames frames)
  inVariable name x := fun scope => x (scope.enterVariable name)
  inSurroundings change x := fun scope => x (scope.changeSurroundings change)

end Cascade
