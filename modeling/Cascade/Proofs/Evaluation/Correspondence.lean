import Mathlib.Data.List.Forall2
import Cascade.Proofs.Evaluation.Yield

/-!
# Two evaluations side by side

Many facts about evaluation compare two runs on the same node: with resolvers that may go to
different depths, in scopes that differ in what the node does not look at, or simply one run with
itself, to say what its result is like.  A `Correspondence` collects what such a comparison is
about.  `Correspondence.Meets` relates two evaluations: unless the first one stopped in a way that
the comparison does not cover, the two have the same outcome, and the outcome is as expected.
-/

namespace Cascade

/-- What the comparison of two evaluations of a node is about. -/
structure Correspondence where
  /-- How the first evaluation may stop without anything being said about the second one. -/
  Lax : Halt → Prop
  /-- How both evaluations may stop otherwise. -/
  Halts : Halt → Prop
  /-- The scopes of the two evaluations. -/
  Scopes : Scope → Scope → Prop
  /-- The scopes in which the values of variables are evaluated. -/
  Inner : Scope → Scope → Prop
  /-- The nodes evaluated as parts of a tree or as values of variables. -/
  Source : Node → Prop
  /-- The nodes handed to a resolver for any other reason. -/
  Body : Node → Prop
  /-- The results, given the states of the query conditions. -/
  Result : Queries → Node → Prop
  /-- The states of the query conditions between two steps. -/
  States : Queries → Prop
  /-- How the states of the query conditions develop. -/
  Grows : Queries → Queries → Prop
  lax_of_failed : ∀ {error halt}, Lax (.failed error) → Lax halt
  halts_failed : ∀ error, Halts (.failed error)
  grows_refl : ∀ q, Grows q q
  grows_trans : ∀ {q₁ q₂ q₃}, Grows q₁ q₂ → Grows q₂ q₃ → Grows q₁ q₃
  result_mono : ∀ {q q' n}, Grows q q' → Result q n → Result q' n

/-- All results are there if each of them is. -/
lemma except_mapM_id_eq_ok_iff {ε α : Type} {results : List (Except ε α)} {as : List α} :
    results.mapM id = .ok as ↔ results = as.map .ok := by
  induction results generalizing as with
  | nil => cases as <;> simp [pure, Except.pure]
  | cons r results ih =>
    rw [List.mapM_cons, except_bind_eq_ok_iff]
    constructor
    · rintro ⟨a, ha, h⟩
      obtain ⟨others, hothers, h⟩ := except_bind_eq_ok_iff.1 h
      rw [← Except.ok.inj h, List.map_cons, ← ih.1 hothers]
      exact congrArg (· :: results) ha
    · intro h
      cases as with
      | nil => simp at h
      | cons a others =>
        obtain ⟨hr, hresults⟩ := List.cons.inj h
        exact ⟨a, hr, except_bind_eq_ok_iff.2 ⟨others, ih.2 hresults, rfl⟩⟩

namespace Correspondence

variable (K : Correspondence) {α β : Type} {s s' : Scope} {q : Queries}

/-- Two outcomes are the same, and as expected. -/
structure Agree (Post : Queries → α → Prop) (q : Queries) (first second : Outcome α) : Prop where
  same : second = first
  grows : K.Grows q first.queries
  states : K.States first.queries
  post : ∀ a, first.result = .ok a → Post first.queries a
  halts : ∀ halt, first.result = .error halt → K.Halts halt

/-- Two evaluations that start in the given scopes from the same states have the same outcome,
and it is as expected, unless the first one stopped in a way that is not covered. -/
def Meets (s s' : Scope) (Post : Queries → α → Prop) (x y : Scoped α) (q : Queries) : Prop :=
  K.States q → (∃ halt, (x s q).result = .error halt ∧ K.Lax halt) ∨
    K.Agree Post q (x s q) (y s' q)

variable {K} {P : Queries → α → Prop}

/-- The first evaluation stops in a way that is not covered. -/
lemma Meets.of_lax {x y : Scoped α} {halt : Halt} (hx : (x s q).result = .error halt)
    (h : K.Lax halt) : K.Meets s s' P x y q :=
  fun _ => .inl ⟨halt, hx, h⟩

/-! ### The outcomes of steps -/

/-- The outcome of one step after the other. -/
lemma bind_apply (x : Scoped α) (f : α → Scoped β) :
    (x >>= f) s q =
      match (x s q).result with
      | .error halt => ⟨.error halt, (x s q).queries, (x s q).marker⟩
      | .ok a =>
        ⟨(f a s (x s q).queries).result, (f a s (x s q).queries).queries,
          (f a s (x s q).queries).marker.or (x s q).marker⟩ :=
  rfl

/-- The outcome of a step that looks at the scope. -/
lemma scope_bind_apply (f : Scope → Scoped β) : (Evaluation.scope >>= f) s q = f s s q := by
  rw [bind_apply]
  simp [Evaluation.scope, Eval.pure]

/-- The outcome of evaluations one after the other. -/
lemma runEach_cons_apply (x : Scoped α) (rest : List (Scoped α)) :
    Evaluation.runEach (x :: rest) s q =
      match (x s q).result with
      | .error halt => ⟨.error halt, (x s q).queries, (x s q).marker⟩
      | .ok a =>
        let others := Evaluation.runEach rest s (x s q).queries
        ⟨others.result.map (a :: ·), others.queries, others.marker.or (x s q).marker⟩ := by
  rw [Evaluation.runEach, bind_apply]
  cases (x s q).result with
  | error halt => rfl
  | ok a =>
    simp only [bind_apply]
    cases (Evaluation.runEach rest s (x s q).queries).result <;> rfl

end Correspondence

/-- A variable that is not being resolved is looked up. -/
lemma Resolver.binding_apply {s : Scope} {name : String} (h : name ∉ s.resolving)
    (resolve : Resolver Scoped) (q : Queries) :
    resolve.binding name s q = resolve.lookup s name (s.enterVariable name) q := by
  rw [binding, Correspondence.scope_bind_apply, if_neg (by simpa using h)]
  rfl

end Cascade
