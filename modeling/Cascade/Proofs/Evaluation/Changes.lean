import Cascade.Proofs.Evaluation.Morphism

/-!
# Changes of the query conditions

`Recorded` is the interpretation of evaluation that also keeps a record of the changes it makes to
the states of the query conditions.  The states that an evaluation leaves are those it started from
with the recorded changes made one after the other, which is part of the type (`Recording.made`).
Without the record it is the plain interpretation (`Recorded.morphism`).

A change may spare a condition (`Queries.Spares`).  A condition that all recorded changes spare is
as it was before (`Recording.getElem?_queries`), also when the evaluation failed.
-/

namespace Cascade

namespace Queries

/-- The states after some changes, made one after the other. -/
def make (changes : List (Queries → Queries)) (q : Queries) : Queries :=
  changes.foldl (fun q change => change q) q

/-- The changes of one evaluation after those of another. -/
lemma make_append (earlier later : List (Queries → Queries)) (q : Queries) :
    make (earlier ++ later) q = make later (make earlier q) :=
  List.foldl_append

/-- A change that leaves a condition as it is, whatever the states are. -/
def Spares (id : QueryId) (change : Queries → Queries) : Prop :=
  ∀ q, (change q)[id]? = q[id]?

/-- Changes that spare a condition leave it as it is. -/
lemma getElem?_make {id : QueryId} {changes : List (Queries → Queries)} (q : Queries)
    (h : ∀ change ∈ changes, Spares id change) : (make changes q)[id]? = q[id]? := by
  induction changes generalizing q with
  | nil => rfl
  | cons change rest ih =>
    obtain ⟨hchange, hrest⟩ := List.forall_mem_cons.1 h
    exact (ih (change q) hrest).trans (hchange q)

end Queries

/-- The outcome of an evaluation that started from the given states, with the changes it made to
them. -/
structure Recording (start : Queries) (α : Type) where
  outcome : Outcome α
  changes : List (Queries → Queries)
  made : outcome.queries = Queries.make changes start

/-- A condition that all changes spare is as it was. -/
lemma Recording.getElem?_queries {start : Queries} {α : Type} {id : QueryId}
    (recording : Recording start α)
    (h : ∀ change ∈ recording.changes, Queries.Spares id change) :
    recording.outcome.queries[id]? = start[id]? := by
  rw [recording.made]
  exact Queries.getElem?_make start h

/-- An evaluation that records the changes it makes. -/
def Recorded (α : Type) : Type :=
  Scope → (start : Queries) → Recording start α

namespace Recorded

variable {α β : Type}

/-- A result without changes. -/
def quiet (result : Except Halt α) (marker : Option String) (q : Queries) : Recording q α :=
  ⟨⟨result, q, marker⟩, [], rfl⟩

/-- One evaluation after the other. -/
protected def bind (x : Recorded α) (f : α → Recorded β) : Recorded β :=
  fun scope q =>
    let first := x scope q
    match first.outcome.result with
    | .error halt =>
      ⟨⟨.error halt, first.outcome.queries, first.outcome.marker⟩, first.changes, first.made⟩
    | .ok a =>
      let second := f a scope first.outcome.queries
      { outcome := ⟨second.outcome.result, second.outcome.queries,
          second.outcome.marker.or first.outcome.marker⟩
        changes := first.changes ++ second.changes
        made := by
          rw [Queries.make_append, ← first.made]
          exact second.made }

/-- An evaluation with the same changes as another one, and an outcome that is made from its
outcome. -/
def mapOutcome (f : Eval α → Eval β) (hf : ∀ x q, (f x q).queries = (x q).queries)
    (x : Recorded α) : Recorded β :=
  fun scope q =>
    let inner := x scope q
    ⟨f (fun _ => inner.outcome) q, inner.changes, (hf _ q).trans inner.made⟩

/-- An error as a value makes no further change. -/
lemma queries_attempt (x : Eval α) (q : Queries) : (Eval.attempt x q).queries = (x q).queries := by
  unfold Eval.attempt
  dsimp only
  split <;> rfl

/-- A marker that is captured makes no further change. -/
lemma queries_capture (x : Eval α) (q : Queries) : (Eval.capture x q).queries = (x q).queries := by
  unfold Eval.capture
  dsimp only
  split <;> rfl

/-- An effect on the states, recorded as one change. -/
def single (x : Eval α) : Recorded α :=
  fun _ q => ⟨x q, [fun q => (x q).queries], rfl⟩

/-- Evaluates a part in another scope. -/
def within (enter : Scope → Scope) (x : Recorded α) : Recorded α :=
  fun scope => x (enter scope)

end Recorded

instance : Evaluation Recorded where
  pure a := fun _ => Recorded.quiet (.ok a) none
  bind := Recorded.bind
  scope := fun scope => Recorded.quiet (.ok scope) none
  queries := fun _ q => Recorded.quiet (.ok q) none q
  update f := Recorded.single (Eval.update f)
  stop halt := fun _ => Recorded.quiet (.error halt) none
  attempt := Recorded.mapOutcome Eval.attempt Recorded.queries_attempt
  deposit marker := fun _ => Recorded.quiet (.ok ⟨⟩) (some marker)
  capture := Recorded.mapOutcome Eval.capture Recorded.queries_capture
  textOf node := fun scope q => Recorded.quiet (node.css q scope.style) none q
  foreign := Recorded.single
  inParens := Recorded.within Scope.enterParens
  inCall asCalc := Recorded.within fun scope => scope.enterCall asCalc
  inMath math := Recorded.within fun scope => scope.setMath math
  inSelectors selectors := Recorded.within fun scope => scope.setSelectors selectors
  inFrame frame := Recorded.within fun scope => scope.pushFrame frame
  inFrames frames := Recorded.within fun scope => scope.setFrames frames
  inVariable name := Recorded.within fun scope => scope.enterVariable name
  inSurroundings change := Recorded.within fun scope => scope.changeSurroundings change

namespace Recorded

variable {α β : Type}

/-- The evaluation without the record of its changes. -/
def plain (x : Recorded α) : Scoped α :=
  fun scope q => (x scope q).outcome

/-- One evaluation after the other, without the record. -/
lemma plain_bind (x : Recorded α) (f : α → Recorded β) :
    plain (x >>= f) = plain x >>= fun a => plain (f a) := by
  funext scope q
  show (Recorded.bind x f scope q).outcome =
    Eval.bind (plain x scope) (fun a => plain (f a) scope) q
  unfold Recorded.bind Eval.bind plain
  dsimp only
  cases (x scope q).outcome.result <;> rfl

/-- Recorded and plain evaluations agree on every operation. -/
def morphism : Evaluation.Morphism Recorded Scoped where
  map := plain
  map_pure _ := rfl
  map_bind := plain_bind
  map_scope := rfl
  map_queries := rfl
  map_update _ := rfl
  map_stop _ := rfl
  map_attempt _ := rfl
  map_deposit _ := rfl
  map_capture _ := rfl
  map_textOf _ := rfl
  map_foreign _ := rfl
  map_inParens _ := rfl
  map_inCall _ _ := rfl
  map_inMath _ _ := rfl
  map_inSelectors _ _ := rfl
  map_inFrame _ _ := rfl
  map_inFrames _ _ := rfl
  map_inVariable _ _ := rfl
  map_inSurroundings _ _ := rfl

end Recorded

end Cascade
