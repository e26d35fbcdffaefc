import Mathlib.Tactic.Lemma
import Cascade.Node.Traverse

/-!
# The parts of a node

Every walk over a tree that follows the structure of the nodes reaches the parts of a node
before the node itself.  `Node.children` lists these parts, without the bodies and the scopes
that a detached ruleset keeps for later, and `Node.inductionOnChildren` is the induction that
such a walk gives: a property of nodes that passes from the parts of a node to the node holds
everywhere.  `Ruleset.inductionOnRules` is the same for a walk over nested rulesets only.
-/

namespace Cascade

/-- The nodes in the name of a declaration. -/
def PropertyName.parts : PropertyName → List Node
  | .literal _ => []
  | .interpolated parts => parts

/-- The nodes that a node is put together from. -/
def Node.children : Node → List Node
  | .assignment _ _ v | .negative _ v | .paren _ v => [v]
  | .attribute _ _ _ v _ => v.toList
  | .call _ _ items _ | .expression _ items _ | .value _ items => items
  | .condition _ _ l r _ | .operation _ _ l r _ => [l, r]
  | .declaration _ name v _ => name.parts ++ [v]
  | .ruleset rs => rs.rules
  | _ => []

/-- The parts of a name are smaller than the name. -/
lemma PropertyName.sizeOf_lt_of_mem {name : PropertyName} {c : Node} (h : c ∈ name.parts) :
    sizeOf c < sizeOf name := by
  cases name with
  | literal text => simp [PropertyName.parts] at h
  | interpolated parts =>
    have hlt := List.sizeOf_lt_of_mem h
    simp only [PropertyName.parts, PropertyName.interpolated.sizeOf_spec] at hlt ⊢
    omega

/-- The rules of a ruleset are smaller than the ruleset. -/
lemma Ruleset.sizeOf_lt_of_mem {rs : Ruleset} {c : Node} (h : c ∈ rs.rules) :
    sizeOf c < sizeOf rs := by
  obtain ⟨info, selectors, rules, root⟩ := rs
  have hlt := List.sizeOf_lt_of_mem h
  simp only [Ruleset.rules, Ruleset.mk.sizeOf_spec] at hlt ⊢
  omega

/-- The parts of a node are smaller than the node. -/
lemma Node.sizeOf_lt_of_mem_children {n c : Node} (h : c ∈ n.children) : sizeOf c < sizeOf n := by
  match n with
  | .assignment .. | .negative .. | .paren .. =>
    simp only [Node.children, List.mem_singleton] at h
    subst h
    simp only [Node.assignment.sizeOf_spec, Node.negative.sizeOf_spec, Node.paren.sizeOf_spec]
    omega
  | .condition .. | .operation .. =>
    simp only [Node.children, List.mem_cons, List.not_mem_nil, or_false] at h
    simp only [Node.condition.sizeOf_spec, Node.operation.sizeOf_spec]
    rcases h with rfl | rfl <;> omega
  | .attribute _ _ _ v _ =>
    simp only [Node.children, Option.mem_toList] at h
    subst h
    simp only [Node.attribute.sizeOf_spec, Option.some.sizeOf_spec]
    omega
  | .call _ _ items _ | .expression _ items _ | .value _ items =>
    have hlt := List.sizeOf_lt_of_mem h
    simp only [Node.children] at hlt
    simp only [Node.call.sizeOf_spec, Node.expression.sizeOf_spec, Node.value.sizeOf_spec]
    omega
  | .declaration _ name v _ =>
    simp only [Node.children, List.mem_append, List.mem_singleton] at h
    simp only [Node.declaration.sizeOf_spec]
    rcases h with h | rfl
    · have hlt := PropertyName.sizeOf_lt_of_mem h
      omega
    · omega
  | .ruleset rs =>
    have hlt := Ruleset.sizeOf_lt_of_mem h
    simp only [Node.ruleset.sizeOf_spec]
    omega
  | .anonymous .. | .color .. | .comment .. | .detached .. | .dimension .. | .javaScript ..
  | .keyword .. | .query .. | .quoted .. | .unicodeDescriptor .. | .variableRef ..
  | .variableCall .. =>
    simp [Node.children] at h

/-- A property that passes from the parts of a node to the node holds of every node. -/
@[elab_as_elim]
theorem Node.inductionOnChildren {motive : Node → Prop} (n : Node)
    (step : ∀ n : Node, (∀ c ∈ n.children, motive c) → motive n) : motive n :=
  step n fun c hc =>
    have := Node.sizeOf_lt_of_mem_children hc
    Node.inductionOnChildren c step
termination_by sizeOf n

/-- A property that passes from the rulesets among the rules of a ruleset to the ruleset holds of
every ruleset. -/
@[elab_as_elim]
theorem Ruleset.inductionOnRules {motive : Ruleset → Prop} (rs : Ruleset)
    (step : ∀ rs : Ruleset, (∀ child, .ruleset child ∈ rs.rules → motive child) → motive rs) :
    motive rs :=
  step rs fun child hchild =>
    have := Ruleset.sizeOf_lt_of_mem hchild
    have : sizeOf child < sizeOf (Node.ruleset child) := by
      rw [Node.ruleset.sizeOf_spec]
      omega
    Ruleset.inductionOnRules child step
termination_by sizeOf rs

end Cascade
