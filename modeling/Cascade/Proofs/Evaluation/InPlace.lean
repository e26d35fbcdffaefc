import Cascade.Eval.Context
import Cascade.Proofs.Evaluation.Morphism
import Cascade.Proofs.Printing.InPlace

/-!
# Evaluation in place

An evaluation that changes a context in place does the same as one that runs every part in a
scope of its own: what was pushed is popped and what was replaced is put back, on every way out
(`Context.evaluate_eq`).  All that is left of it in the context are the states of the query
conditions and the marker handed to the innermost declaration, so the context is otherwise as it
was (`Context.restored_of_evaluation`).
-/

namespace Cascade

namespace Context

/-- No marker changes nothing. -/
@[simp]
lemma depositMarker_none (markers : List (Option String)) :
    depositMarker none markers = markers := by
  cases markers <;> rfl

/-- A marker takes the place of the one before it. -/
@[simp]
lemma depositMarker_cons (marker innermost : Option String) (outer : List (Option String)) :
    depositMarker marker (innermost :: outer) = marker.or innermost :: outer :=
  rfl

/-- Of two markers the later one counts. -/
@[simp]
lemma depositMarker_depositMarker (later earlier : Option String)
    (markers : List (Option String)) :
    depositMarker later (depositMarker earlier markers) =
      depositMarker (later.or earlier) markers := by
  cases markers with
  | nil => rfl
  | cons innermost outer => simp [Option.or_assoc]

/-- A marker is handed to one declaration at most. -/
@[simp]
lemma length_depositMarker (marker : Option String) (markers : List (Option String)) :
    (depositMarker marker markers).length = markers.length := by
  cases markers <;> rfl

/-- A marker reaches the innermost declaration only. -/
@[simp]
lemma tail_depositMarker (marker : Option String) (markers : List (Option String)) :
    (depositMarker marker markers).tail = markers.tail := by
  cases markers <;> rfl

/-- The context with the effects of an evaluation: the states of the query conditions, and the
marker for the innermost declaration. -/
def afterwards {α : Type} (c : Context) (outcome : Outcome α) : Context :=
  { c with
    queries := outcome.queries
    important := depositMarker outcome.marker c.important }

end Context

/-- The evaluation in place that a scoped evaluation describes. -/
def Scoped.inPlace {α : Type} (x : Scoped α) : InPlace α :=
  fun c => ((x c.scope c.queries).result, c.afterwards (x c.scope c.queries))

namespace Scoped

variable {α β : Type}

/-- An evaluation without effects leaves the context alone. -/
lemma inPlace_pure (a : α) : inPlace (pure a) = pure a := by
  funext c
  show (Except.ok a, { c with important := Context.depositMarker none c.important }) = (.ok a, c)
  rw [Context.depositMarker_none]

/-- A stop leaves the context alone. -/
lemma inPlace_stop (halt : Halt) :
    inPlace (Evaluation.stop halt : Scoped α) = Evaluation.stop halt := by
  funext c
  show (Except.error halt, { c with important := Context.depositMarker none c.important }) =
    (.error halt, c)
  rw [Context.depositMarker_none]

/-- One evaluation after the other: the second one starts in the same scope, from the states
that the first one left. -/
lemma inPlace_bind (x : Scoped α) (f : α → Scoped β) :
    inPlace (x >>= f) = inPlace x >>= fun a => inPlace (f a) := by
  funext c
  show ((Eval.bind (x c.scope) (fun a => f a c.scope) c.queries).result,
      c.afterwards (Eval.bind (x c.scope) (fun a => f a c.scope) c.queries)) =
    InPlace.bind (inPlace x) (fun a => inPlace (f a)) c
  unfold Eval.bind InPlace.bind inPlace
  obtain ⟨_ | a, queries, marker⟩ := x c.scope c.queries
  · rfl
  · simp [Context.afterwards, Context.scope]

/-- An error as a value. -/
lemma inPlace_attempt (x : Scoped α) :
    inPlace (Evaluation.attempt x) = Evaluation.attempt (inPlace x) := by
  funext c
  show ((Eval.attempt (x c.scope) c.queries).result,
      c.afterwards (Eval.attempt (x c.scope) c.queries)) = InPlace.attempt (inPlace x) c
  unfold Eval.attempt InPlace.attempt inPlace
  obtain ⟨(error | _) | a, queries, marker⟩ := x c.scope c.queries <;> rfl

/-- The marker that is captured is the one handed to the place opened for it. -/
lemma inPlace_capture (x : Scoped α) :
    inPlace (Evaluation.capture x) = Evaluation.capture (inPlace x) := by
  funext c
  have hscope : ({ c with important := none :: c.important } : Context).scope = c.scope := rfl
  show ((Eval.capture (x c.scope) c.queries).result,
      c.afterwards (Eval.capture (x c.scope) c.queries)) = InPlace.capture (inPlace x) c
  unfold Eval.capture InPlace.capture inPlace
  rw [hscope]
  obtain ⟨halt | a, queries, marker⟩ := x c.scope c.queries <;>
    simp [Context.afterwards, Except.map]

/-- A node printed in place gives its text, and the style is put back. -/
lemma inPlace_textOf (node : Node) :
    inPlace (Evaluation.textOf node) = Evaluation.textOf node := by
  funext c
  show (node.css c.queries c.style,
      { c with important := Context.depositMarker none c.important }) = InPlace.textOf node c
  rw [Context.depositMarker_none, InPlace.textOf, Printing.textOf_print]

/-- Evaluations in place and in scopes of their own agree on every operation.  What is pushed on
a stack or replaced for a part is a scope for that part: popping it or putting it back gives the
context before, with the effects of the part. -/
def morphism : Evaluation.Morphism Scoped InPlace where
  map := inPlace
  map_pure := inPlace_pure
  map_bind := inPlace_bind
  map_scope := funext fun c => congrFun (inPlace_pure c.scope) c
  map_queries := funext fun c => congrFun (inPlace_pure c.queries) c
  map_update f :=
    funext fun c => congrFun (inPlace_pure PUnit.unit) { c with queries := f c.queries }
  map_stop := inPlace_stop
  map_attempt := inPlace_attempt
  map_deposit _ := rfl
  map_capture := inPlace_capture
  map_textOf := inPlace_textOf
  map_foreign _ := rfl
  map_inParens _ := rfl
  map_inCall _ _ := rfl
  map_inMath _ _ := rfl
  map_inSelectors _ _ := rfl
  map_inFrame _ _ := rfl
  map_inFrames _ _ := rfl
  map_inVariable _ _ := rfl
  map_inSurroundings _ _ := rfl

end Scoped

namespace Context

/-- Evaluating a node in place gives what evaluating it in the scope of the context gives. -/
theorem evaluate_eq (c : Context) (depth : Nat) (node : Node) :
    c.evaluate depth node =
      let outcome := (Node.eval depth node : Scoped Node) c.scope c.queries
      (outcome.result, c.afterwards outcome) :=
  (congrFun (Scoped.morphism.map_eval depth node) c).symm

/-- Printing a node on a sheet of its own gives its rendering in the style of the context. -/
theorem render_eq (c : Context) (node : Node) : c.render node = node.render c.queries c.style := by
  unfold Context.render
  rw [Page.print_eq]
  rfl

/-- Calling a detached ruleset in place gives what calling it in the scope of the context
gives. -/
theorem callDetached_eq (c : Context) (depth : Nat) (body : Option Ruleset)
    (frames : Option (List Frame)) :
    c.callDetached depth body frames =
      let outcome := (Resolver.callDetached ⟨Node.eval depth, Node.eval depth⟩ body frames :
        Scoped (Option Node)) c.scope c.queries
      (outcome.result, c.afterwards outcome) := by
  have hresolver : Scoped.morphism.resolver ⟨Node.eval depth, Node.eval depth⟩ =
      ⟨Node.eval depth, Node.eval depth⟩ := by
    simp [Evaluation.Morphism.resolver, Evaluation.Morphism.map_eval]
  have hcall := Scoped.morphism.map_callDetached ⟨Node.eval depth, Node.eval depth⟩ body frames
  rw [hresolver] at hcall
  exact (congrFun hcall c).symm

/-- The context is as it was, apart from the states of the query conditions and the marker of
the innermost declaration around. -/
structure Restored (before after : Context) : Prop where
  frames : after.frames = before.frames
  math : after.math = before.math
  mathOn : after.mathOn = before.mathOn
  inCalc : after.inCalc = before.inCalc
  parens : after.parens = before.parens
  selectors : after.selectors = before.selectors
  resolving : after.resolving = before.resolving
  style : after.style = before.style
  custom : after.custom = before.custom
  important_length : after.important.length = before.important.length
  important_outer : after.important.tail = before.important.tail

/-- The effects of an evaluation leave the rest of the context as it was. -/
lemma restored_afterwards {α : Type} (c : Context) (outcome : Outcome α) :
    c.Restored (c.afterwards outcome) where
  frames := rfl
  math := rfl
  mathOn := rfl
  inCalc := rfl
  parens := rfl
  selectors := rfl
  resolving := rfl
  style := rfl
  custom := rfl
  important_length := length_depositMarker outcome.marker c.important
  important_outer := tail_depositMarker outcome.marker c.important

/-- Evaluating a node and calling a detached ruleset leave the context as they found it, whether
they succeed or not. -/
theorem restored_of_evaluation (c : Context) (depth : Nat) :
    (∀ node : Node, c.Restored (c.evaluate depth node).2) ∧
      ∀ (body : Option Ruleset) (frames : Option (List Frame)),
        c.Restored (c.callDetached depth body frames).2 := by
  constructor
  · intro node
    rw [evaluate_eq]
    exact c.restored_afterwards _
  · intro body frames
    rw [callDetached_eq]
    exact c.restored_afterwards _

end Context

end Cascade
