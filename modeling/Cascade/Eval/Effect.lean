import Cascade.Node.Query

/-!
# Effects of evaluation

Evaluating a node gives a result or a reason to stop.  In either case it may have advanced
query conditions, and may have met variables declared as important, whose marker goes to the
declaration around the evaluation.  `Eval` keeps these effects also when the result is an
error.
-/

namespace Cascade

/-- What an evaluation gives: its result, the query conditions after it, and the last marker
it met. -/
structure Outcome (α : Type) where
  result : Except Halt α
  queries : Queries
  marker : Option String

/-- An evaluation, which starts from the states of the query conditions. -/
def Eval (α : Type) : Type :=
  Queries → Outcome α

namespace Eval

variable {α β : Type}

/-- The evaluation without effects. -/
protected def pure (a : α) : Eval α :=
  fun queries => ⟨.ok a, queries, none⟩

/-- One evaluation after the other.  Of two markers the later one counts. -/
protected def bind (x : Eval α) (f : α → Eval β) : Eval β :=
  fun queries =>
    let first := x queries
    match first.result with
    | .error halt => ⟨.error halt, first.queries, first.marker⟩
    | .ok a =>
      let second := f a first.queries
      ⟨second.result, second.queries, second.marker.or first.marker⟩

instance : Monad Eval where
  pure := Eval.pure
  bind := Eval.bind

/-- Stops. -/
def stop (halt : Halt) : Eval α :=
  fun queries => ⟨.error halt, queries, none⟩

/-- Stops with an error. -/
def fail (error : Error) : Eval α :=
  stop (.failed error)

/-- An evaluation whose result is known. -/
def ofExcept : Except Error α → Eval α
  | .ok a => Eval.pure a
  | .error error => fail error

/-- Hands a marker to the declaration around. -/
def deposit (marker : String) : Eval PUnit :=
  fun queries => ⟨.ok ⟨⟩, queries, some marker⟩

/-- Keeps the markers of an evaluation from the declaration around and gives the last one. -/
def capture (x : Eval α) : Eval (α × Option String) :=
  fun queries =>
    let inner := x queries
    match inner.result with
    | .ok a => ⟨.ok (a, inner.marker), inner.queries, none⟩
    | .error halt => ⟨.error halt, inner.queries, none⟩

/-- Gives the error of an evaluation as a value.  An evaluation that was stopped for its
depth stays stopped. -/
def attempt (x : Eval α) : Eval (Except Error α) :=
  fun queries =>
    let inner := x queries
    match inner.result with
    | .ok a => ⟨.ok (.ok a), inner.queries, inner.marker⟩
    | .error (.failed error) => ⟨.ok (.error error), inner.queries, inner.marker⟩
    | .error .exhausted => ⟨.error .exhausted, inner.queries, inner.marker⟩

/-- A value computed from the states of the query conditions. -/
def read (f : Queries → Except Halt α) : Eval α :=
  fun queries => ⟨f queries, queries, none⟩

/-- Changes the states of the query conditions. -/
def update (f : Queries → Queries) : Eval PUnit :=
  fun queries => ⟨.ok ⟨⟩, f queries, none⟩

end Eval

end Cascade
