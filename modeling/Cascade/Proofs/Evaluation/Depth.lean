import Cascade.Proofs.Evaluation.InPlace
import Cascade.Proofs.Evaluation.Invariant

/-!
# Evaluation and depth

How deep evaluation may go on with other nodes only decides whether it comes to an end.  An
evaluation that did not run out of depth has the same outcome with resolvers that go deeper, so
the depth at which a tree is evaluated is no part of the meaning of the tree
(`Context.evaluate_of_le`).
-/

namespace Cascade

/-- Evaluations of which the second one goes deeper: they have the same outcome unless the first
one runs out of depth. -/
def Scoped.Below {α : Type} (x y : Scoped α) : Prop :=
  ∀ s q, (x s q).result ≠ .error .exhausted → y s q = x s q

namespace Correspondence

/-- The comparison of an evaluation with one that goes deeper. -/
def deeper : Correspondence where
  Lax halt := halt = .exhausted
  Halts _ := True
  Scopes s s' := s' = s
  Inner s s' := s' = s
  Source _ := True
  Body _ := True
  Result _ _ := True
  States _ := True
  Grows _ _ := True
  lax_of_failed h := by cases h
  halts_failed _ := trivial
  grows_refl _ := trivial
  grows_trans _ _ := trivial
  result_mono _ _ := trivial

/-- All that the comparison says is that the outcomes are the same. -/
lemma deeper_meets_iff {x y : Scoped Node} :
    (∀ s q, deeper.Meets s s deeper.Result x y q) ↔ x.Below y := by
  constructor
  · intro h s q hne
    rcases h s q trivial with ⟨halt, hhalt, rfl⟩ | hagree
    · exact absurd hhalt hne
    · exact hagree.same
  · intro h s q _
    by_cases hne : (x s q).result = .error .exhausted
    · exact .inl ⟨_, hne, rfl⟩
    · exact .inr ⟨h s q hne, trivial, trivial, fun _ _ => trivial, fun _ _ => trivial⟩

/-- A procedure is followed by itself. -/
lemma deeper_follows (s : Scope) (q : Queries) (procedure : Procedure) :
    deeper.simulation.Follows s s q procedure procedure := by
  induction procedure generalizing q with
  | finish x => exact simulation_finish (deeper_meets_iff.2 (fun _ _ _ => rfl) s q)
  | evaluate position change next ih =>
    exact simulation_evaluate (fun _ => rfl) (fun q' result _ => ih result q') nofun

/-- Nothing is asked of scopes, nodes and query conditions. -/
lemma deeper_invariant : deeper.Invariant (fun _ => True) (fun _ => True) where
  scopes_iff := (and_iff_left trivial).symm
  inner_iff := (and_iff_left trivial).symm
  source_child _ _ := trivial
  yields _ _ _ _ := trivial
  result_rule _ _ := trivial
  text _ _ _ _ _ _ := trivial
  enterParens _ := trivial
  enterCall _ _ := trivial
  setMath _ _ := trivial
  ruleset _ _ := trivial
  lookup _ _ _ := ⟨trivial, trivial⟩
  custom {s _ _ _ _ _ _ _} _ _ _ _ _ q :=
    ⟨fun _ _ => deeper_meets_iff.2 (fun _ _ _ => rfl) s q, deeper_follows s q _⟩
  body_string _ _ _ := trivial
  body_ruleset _ _ := trivial
  body_detached _ _ := trivial
  captured _ _ _ := trivial
  body_operand _ _ _ _ := trivial
  narrow _ _ _ := trivial
  template _ _ := ⟨trivial, trivial⟩
  record _ _ _ _ _ _ := ⟨trivial, trivial, trivial⟩
  dangling _ _ _ := trivial

end Correspondence

/-- Resolvers that go deeper give evaluations that go deeper. -/
theorem Node.evalWith_below {resolve resolve' : Resolver Scoped}
    (hvalue : ∀ n, (resolve.value n).Below (resolve'.value n))
    (hbody : ∀ n, (resolve.body n).Below (resolve'.body n)) (node : Node) :
    (Node.evalWith resolve node).Below (Node.evalWith resolve' node) := by
  have hresolves : Correspondence.deeper.Resolves resolve resolve' :=
    { value := fun {n s s'} q _ hs => by
        rw [show s' = s from hs]
        exact Correspondence.deeper_meets_iff.2 (hvalue n) s q
      body := fun {n s s'} q _ hs => by
        rw [show s' = s from hs]
        exact Correspondence.deeper_meets_iff.2 (hbody n) s q }
  refine Correspondence.deeper_meets_iff.1 fun s q => ?_
  exact Correspondence.deeper_invariant.lawful.evalWith hresolves node q trivial rfl

/-- Evaluation at a greater depth. -/
theorem Node.eval_below {depth depth' : Nat} (h : depth ≤ depth') (node : Node) :
    (Node.eval depth node : Scoped Node).Below (Node.eval depth' node) := by
  induction depth generalizing depth' node with
  | zero =>
    intro s q hne
    exact absurd rfl hne
  | succ depth ih =>
    cases depth' with
    | zero => exact absurd h (Nat.not_succ_le_zero depth)
    | succ depth' =>
      have hle : depth ≤ depth' := Nat.le_of_succ_le_succ h
      exact Node.evalWith_below (ih hle) (ih hle) node

/-- An evaluation that did not run out of depth has the same outcome at every greater depth. -/
theorem Context.evaluate_of_le (c : Context) {depth depth' : Nat} {node : Node}
    (h : depth ≤ depth') (hne : (c.evaluate depth node).1 ≠ .error .exhausted) :
    c.evaluate depth' node = c.evaluate depth node := by
  rw [Context.evaluate_eq] at hne
  rw [Context.evaluate_eq, Context.evaluate_eq, Node.eval_below h node c.scope c.queries hne]

end Cascade
