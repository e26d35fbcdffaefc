import Mathlib.Data.List.Basic
import Cascade.Proofs.Tree.Children

/-!
# What a tree contains

A tree contains its own nodes and those of the rulesets that its detached rulesets keep: their
bodies, and the rulesets of the frames they were written in.  `Node.nodes` lists them all, and
`Node.Throughout` says that each of them has a property.  The properties of trees that
evaluation preserves are of this form, and `Node.throughout_iff` passes such a property between
a node and its parts.
-/

namespace Cascade

/-- The rulesets that a detached ruleset keeps for later, as nodes. -/
def Node.held : Node → List Node
  | .detached _ body frames =>
    (body.toList ++ (frames.getD []).filterMap Frame.ruleset).map .ruleset
  | _ => []

/-- All nodes of a tree. -/
def Node.nodes (n : Node) : List Node :=
  n.gather fun x => [x]

/-- All nodes of a frame. -/
def Frame.nodes (frame : Frame) : List Node :=
  frame.gather fun x => [x]

section Gather

variable {β : Type} (g : Node → List β)

/-- Collecting from some trees. -/
lemma Node.gatherEach_eq (nodes : List Node) :
    Node.gatherEach g nodes = nodes.flatMap (Node.gather g) := by
  induction nodes with
  | nil => rfl
  | cons node rest ih => exact congrArg (Node.gather g node ++ ·) ih

/-- Collecting from a frame. -/
lemma Frame.gather_eq (frame : Frame) :
    Frame.gather g frame = frame.ruleset.toList.flatMap fun rs => Node.gather g (.ruleset rs) := by
  obtain ⟨_ | rs, functions⟩ := frame
  · simp [Frame.gather, Frame.ruleset]
  · simp [Frame.gather, Frame.ruleset, Node.gather]

/-- Collecting from some frames. -/
lemma Frame.gatherEach_eq (frames : List Frame) :
    Frame.gatherEach g frames =
      (frames.filterMap Frame.ruleset).flatMap fun rs => Node.gather g (.ruleset rs) := by
  induction frames with
  | nil => simp [Frame.gatherEach]
  | cons frame rest ih =>
    obtain ⟨_ | rs, functions⟩ := frame
    · simp [Frame.gatherEach, Frame.gather, Frame.ruleset, List.filterMap_cons, ih]
    · simp [Frame.gatherEach, Frame.gather, Frame.ruleset, Node.gather, ih]

/-- What is collected from a tree comes from its top, from a part, or from a ruleset kept for
later. -/
lemma Node.mem_gather {n : Node} {b : β} :
    b ∈ n.gather g ↔
      b ∈ g n ∨ (∃ c ∈ n.children, b ∈ c.gather g) ∨ ∃ c ∈ n.held, b ∈ c.gather g := by
  match n with
  | .assignment .. | .negative .. | .paren .. | .condition .. | .operation .. | .call ..
  | .expression .. | .value .. =>
    simp [Node.gather, Node.children, Node.held, Node.gatherEach_eq]
  | .attribute _ _ _ none _ | .attribute _ _ _ (some _) _ =>
    simp [Node.gather, Node.children, Node.held]
  | .declaration _ (.literal _) _ _ | .declaration _ (.interpolated _) _ _ =>
    simp [Node.gather, PropertyName.gather, Node.children, PropertyName.parts, Node.held,
      Node.gatherEach_eq, or_and_right, exists_or]
  | .ruleset (.mk ..) =>
    simp [Node.gather, Ruleset.gather, Node.children, Ruleset.rules, Node.held,
      Node.gatherEach_eq]
  | .detached _ body frames =>
    cases body <;> cases frames <;>
      simp [Node.gather, Node.children, Node.held, Frame.gatherEach_eq, or_and_right, exists_or]
  | .anonymous .. | .color .. | .comment .. | .dimension .. | .javaScript ..
  | .keyword .. | .query .. | .quoted .. | .unicodeDescriptor .. | .variableRef ..
  | .variableCall .. =>
    simp [Node.gather, Node.children, Node.held]

end Gather

/-- A property that all nodes of a tree have. -/
def Node.Throughout (P : Node → Prop) (n : Node) : Prop :=
  ∀ x ∈ n.nodes, P x

/-- A property that all nodes of a frame have. -/
def Frame.Throughout (P : Node → Prop) (frame : Frame) : Prop :=
  ∀ x ∈ frame.nodes, P x

section Throughout

variable {P Q : Node → Prop}

instance [DecidablePred P] (n : Node) : Decidable (n.Throughout P) :=
  inferInstanceAs (Decidable (∀ x ∈ n.nodes, P x))

instance [DecidablePred P] (frame : Frame) : Decidable (frame.Throughout P) :=
  inferInstanceAs (Decidable (∀ x ∈ frame.nodes, P x))

/-- A property of all nodes of a tree passes between a node and what it is put together
from. -/
theorem Node.throughout_iff {n : Node} :
    n.Throughout P ↔
      P n ∧ (∀ c ∈ n.children, c.Throughout P) ∧ ∀ c ∈ n.held, c.Throughout P := by
  unfold Node.Throughout Node.nodes
  constructor
  · intro h
    refine ⟨h n ?_, fun c hc x hx => h x ?_, fun c hc x hx => h x ?_⟩
    · exact (Node.mem_gather _).2 (.inl (List.mem_singleton_self n))
    · exact (Node.mem_gather _).2 (.inr (.inl ⟨c, hc, hx⟩))
    · exact (Node.mem_gather _).2 (.inr (.inr ⟨c, hc, hx⟩))
  · rintro ⟨hn, hchildren, hheld⟩ x hx
    rcases (Node.mem_gather _).1 hx with hx | ⟨c, hc, hx⟩ | ⟨c, hc, hx⟩
    · rwa [List.mem_singleton.1 hx]
    · exact hchildren c hc x hx
    · exact hheld c hc x hx

/-- A property of all nodes of a frame is one of its ruleset. -/
lemma Frame.throughout_iff {frame : Frame} :
    frame.Throughout P ↔ ∀ rs, frame.ruleset = some rs → (Node.ruleset rs).Throughout P := by
  unfold Frame.Throughout Frame.nodes Node.Throughout Node.nodes
  rw [Frame.gather_eq]
  cases frame.ruleset <;> simp

/-- The property of the top of a tree. -/
lemma Node.Throughout.self {n : Node} (h : n.Throughout P) : P n :=
  (Node.throughout_iff.1 h).1

/-- The property passes to the parts of a node. -/
lemma Node.Throughout.child {n c : Node} (h : n.Throughout P) (hc : c ∈ n.children) :
    c.Throughout P :=
  (Node.throughout_iff.1 h).2.1 c hc

/-- The property passes to the rulesets that a node keeps for later. -/
lemma Node.Throughout.ofHeld {n c : Node} (h : n.Throughout P) (hc : c ∈ n.held) :
    c.Throughout P :=
  (Node.throughout_iff.1 h).2.2 c hc

/-- The property passes to the body of a detached ruleset. -/
lemma Node.Throughout.body {info : Info} {rs : Ruleset} {frames : Option (List Frame)}
    (h : (Node.detached info (some rs) frames).Throughout P) : (Node.ruleset rs).Throughout P :=
  h.ofHeld (by simp [Node.held])

/-- A weaker property. -/
lemma Node.Throughout.imp {n : Node} (hPQ : ∀ x, P x → Q x) (h : n.Throughout P) :
    n.Throughout Q :=
  fun x hx => hPQ x (h x hx)

end Throughout

end Cascade
