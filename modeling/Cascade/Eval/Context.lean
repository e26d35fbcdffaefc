import Cascade.Eval.Evaluate
import Cascade.Render.Page

/-!
# Contexts

A context holds everything that evaluation and printing look at and change: the frames, the
markers of the declarations around, the rules for arithmetic, the parentheses, selectors and
variables that the evaluation is in, the style, and the query conditions.

Evaluation changes a context in place (`InPlace`).  What holds only for a part of a tree is
set before the part is evaluated and taken back after it, also when the part failed: it is
pushed on a stack and popped, or it is replaced and put back.
-/

namespace Cascade

/-- How deep an evaluation may go on with nodes outside the tree unless told otherwise. -/
def defaultDepth : Nat := 10000

/-- Everything that evaluation and printing look at and change. -/
structure Context where
  /-- The frames, innermost first. -/
  frames : List Frame := []
  /-- The markers handed to the declarations around, innermost first. -/
  important : List (Option String) := []
  math : MathMode := .parensDivision
  /-- Whether arithmetic is carried out at all. -/
  mathOn : Bool := true
  /-- Whether the evaluation is inside a `calc` call. -/
  inCalc : Bool := false
  /-- The number of parentheses around. -/
  parens : Nat := 0
  /-- The selectors of the rulesets around, innermost first. -/
  selectors : List (List String) := []
  /-- The names of the variables being resolved, innermost first. -/
  resolving : List String := []
  style : Style := {}
  /-- What the caller's functions do. -/
  custom : String → Option CustomFunction := fun _ => none
  queries : Queries := []

namespace Context

/-- The scope at hand. -/
def scope (c : Context) : Scope :=
  { frames := c.frames, math := c.math, mathOn := c.mathOn, inCalc := c.inCalc
    parens := c.parens, selectors := c.selectors.head?.getD [], resolving := c.resolving
    style := c.style, custom := c.custom }

/-- The context with other surroundings. -/
def setSurroundings (c : Context) (s : Surroundings) : Context :=
  { c with
    frames := s.frames, math := s.math, mathOn := s.mathOn, inCalc := s.inCalc
    parens := s.parens, style := s.style }

/-- Hands a marker to the innermost declaration, if there is one. -/
def depositMarker (marker : Option String) : List (Option String) → List (Option String)
  | [] => []
  | innermost :: outer => marker.or innermost :: outer

end Context

/-- An evaluation that changes a context in place. -/
def InPlace (α : Type) : Type :=
  Context → Except Halt α × Context

namespace InPlace

variable {α β : Type}

/-- The evaluation without effects. -/
protected def pure (a : α) : InPlace α :=
  fun c => (.ok a, c)

/-- One evaluation after the other. -/
protected def bind (x : InPlace α) (f : α → InPlace β) : InPlace β :=
  fun c =>
    match x c with
    | (.ok a, c) => f a c
    | (.error halt, c) => (.error halt, c)

/-- Makes a change, evaluates, and takes the change back, whatever the outcome is. -/
def between (enter leave : Context → Context) (x : InPlace α) : InPlace α :=
  fun c =>
    let (result, c) := x (enter c)
    (result, leave c)

/-- Gives the error of an evaluation as a value.  An evaluation that was stopped for its
depth stays stopped. -/
def attempt (x : InPlace α) : InPlace (Except Error α) :=
  fun c =>
    match x c with
    | (.ok a, c) => (.ok (.ok a), c)
    | (.error (.failed error), c) => (.ok (.error error), c)
    | (.error .exhausted, c) => (.error .exhausted, c)

/-- Opens a place for the marker of a declaration, evaluates, and takes the marker from
there. -/
def capture (x : InPlace α) : InPlace (α × Option String) :=
  fun c =>
    let (result, c) := x { c with important := none :: c.important }
    let marker := c.important.head?.getD none
    (result.map fun a => (a, marker), { c with important := c.important.tail })

/-- The text of a node.  The printer works on a sheet of its own with the style of the
context. -/
def textOf (node : Node) : InPlace String :=
  fun c =>
    let (result, style) := Printing.textOf (Node.print c.queries node) c.style
    (result, { c with style })

/-- What one of the caller's functions does. -/
def foreign (x : Eval Node) : InPlace Node :=
  fun c =>
    let outcome := x c.queries
    (outcome.result,
      { c with
        queries := outcome.queries
        important := Context.depositMarker outcome.marker c.important })

/-- Evaluates in parentheses. -/
def inParens (x : InPlace α) : InPlace α :=
  between (fun c => { c with parens := c.parens + 1 })
    (fun c => { c with parens := c.parens - 1 }) x

/-- Evaluates in the arguments of a call, where `calc` computes nothing. -/
def inCall (asCalc : Bool) (x : InPlace α) : InPlace α :=
  fun c =>
    between (fun c => { c with mathOn := !asCalc, inCalc := c.inCalc || asCalc })
      (fun after => { after with mathOn := c.mathOn, inCalc := c.inCalc }) x c

/-- Evaluates under rules for arithmetic. -/
def inMath (math : MathMode) (x : InPlace α) : InPlace α :=
  fun c => between (fun c => { c with math }) (fun after => { after with math := c.math }) x c

/-- Evaluates inside selectors. -/
def inSelectors (selectors : List String) (x : InPlace α) : InPlace α :=
  between (fun c => { c with selectors := selectors :: c.selectors })
    (fun c => { c with selectors := c.selectors.tail }) x

/-- Evaluates with one more frame. -/
def inFrame (frame : Frame) (x : InPlace α) : InPlace α :=
  between (fun c => { c with frames := frame :: c.frames })
    (fun c => { c with frames := c.frames.tail }) x

/-- Evaluates in other frames. -/
def inFrames (frames : List Frame) (x : InPlace α) : InPlace α :=
  fun c => between (fun c => { c with frames }) (fun after => { after with frames := c.frames }) x c

/-- Evaluates while a variable is being resolved. -/
def inVariable (name : String) (x : InPlace α) : InPlace α :=
  between (fun c => { c with resolving := name :: c.resolving })
    (fun c => { c with resolving := c.resolving.tail }) x

/-- Evaluates in changed surroundings. -/
def inSurroundings (change : Surroundings → Surroundings) (x : InPlace α) : InPlace α :=
  fun c =>
    between (fun c => c.setSurroundings (change c.scope.toSurroundings))
      (fun after => after.setSurroundings c.scope.toSurroundings) x c

end InPlace

instance : Evaluation InPlace where
  pure := InPlace.pure
  bind := InPlace.bind
  scope := fun c => (.ok c.scope, c)
  queries := fun c => (.ok c.queries, c)
  update f := fun c => (.ok ⟨⟩, { c with queries := f c.queries })
  stop halt := fun c => (.error halt, c)
  attempt := InPlace.attempt
  deposit marker := fun c =>
    (.ok ⟨⟩, { c with important := Context.depositMarker (some marker) c.important })
  capture := InPlace.capture
  textOf := InPlace.textOf
  foreign := InPlace.foreign
  inParens := InPlace.inParens
  inCall := InPlace.inCall
  inMath := InPlace.inMath
  inSelectors := InPlace.inSelectors
  inFrame := InPlace.inFrame
  inFrames := InPlace.inFrames
  inVariable := InPlace.inVariable
  inSurroundings := InPlace.inSurroundings

namespace Context

/-- Evaluates a node. -/
def evaluate (c : Context) (depth : Nat) (node : Node) : Except Halt Node × Context :=
  (Node.eval depth node : InPlace Node) c

/-- Evaluates the body of a detached ruleset. -/
def callDetached (c : Context) (depth : Nat) (body : Option Ruleset)
    (frames : Option (List Frame)) : Except Halt (Option Node) × Context :=
  (Resolver.callDetached ⟨Node.eval depth, Node.eval depth⟩ body frames : InPlace (Option Node)) c

/-- The function of a name in the table of the innermost frame. -/
def function? (c : Context) (name : String) : Except Error (Option FunctionRef) := do
  let table ← c.scope.functionTable
  pure (table.find? name)

/-- Arguments, each with its evaluation. -/
def suspend (depth : Nat) (args : List Node) : List (Node × InPlace Node) :=
  args.map fun arg => (arg, Node.eval depth arg)

/-- Calls a function of the table of the innermost frame. -/
def callFunction (c : Context) (depth : Nat) (name : String) (args : List Node) :
    Except Halt Node × Context :=
  let call : InPlace Node := do
    let table ← Evaluation.ofExcept c.scope.functionTable
    match table.find? name with
    | none => Evaluation.fail (.unknownFunction (Text.lower name))
    | some function => c.scope.callFunction (Text.lower name) function (suspend depth args)
  call c

/-- Whether a function has its arguments evaluated before the call. -/
def evaluatesArguments (c : Context) : FunctionRef → Bool
  | .builtin b => b.evaluatesArguments
  | .custom key => ((c.custom key).map CustomFunction.evaluatesArguments).getD true

/-- Calls a function on arguments as they are. -/
def callDirect (c : Context) (depth : Nat) (function : FunctionRef) (raw : Bool)
    (args : List Node) : Except Halt Node × Context :=
  let call : InPlace Node :=
    match function, raw with
    | .builtin b, false => Evaluation.ofExcept (b.call args)
    | .builtin b, true => b.callRaw (suspend depth args)
    | .custom key, _ =>
      match c.custom key with
      | none => Evaluation.fail (.unknownFunction key)
      | some f =>
        if raw then
          (f.callRaw c.scope.toSurroundings args).run key ((suspend depth args).map Prod.snd)
        else Evaluation.foreign (f.call args)
  call c

/-- Prints a node on a sheet of its own: why the printer stopped, if it did, and the chunks
written. -/
def render (c : Context) (node : Node) : Rendering :=
  let (halt, page) := Page.print { style := c.style } c.queries node
  ⟨page.chunks, halt⟩

end Context

end Cascade
