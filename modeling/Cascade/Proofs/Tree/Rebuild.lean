import Mathlib.Data.List.Forall2
import Cascade.Eval.Evaluate
import Cascade.Proofs.Tree.Children

/-!
# Nodes with other parts

A node is determined by its own data and its parts.  `Node.withChildren` puts other parts into a
node, and two nodes are of the same shape (`Node.SameShape`) if one is the other one with other
parts.  What a detached ruleset keeps for later does not count for its shape.
-/

namespace Cascade

/-- The name of a declaration with other parts. -/
def PropertyName.withParts (parts : List Node) : PropertyName → PropertyName
  | .literal text => .literal text
  | .interpolated _ => .interpolated parts

/-- The node with other parts, in the order of `Node.children`. -/
def Node.withChildren (n : Node) (cs : List Node) : Node :=
  match n, cs with
  | .assignment info key _, [v] => .assignment info key v
  | .negative info _, [v] => .negative info v
  | .paren info _, [v] => .paren info v
  | .attribute info key operator (some _) flag, [v] => .attribute info key operator (some v) flag
  | .call info name _ asCalc, cs => .call info name cs asCalc
  | .expression info _ form, cs => .expression info cs form
  | .value info _, cs => .value info cs
  | .condition info relation _ _ negate, [l, r] => .condition info relation l r negate
  | .operation info operator _ _ spaced, [l, r] => .operation info operator l r spaced
  | .declaration info name v traits, cs =>
    .declaration info (name.withParts cs.dropLast) (cs.getLastD v) traits
  | .ruleset (.mk info selectors _ root), cs => .ruleset (.mk info selectors cs root)
  | n, _ => n

namespace Node

variable {n : Node} {cs ds : List Node}

/-- A node has its own parts. -/
lemma withChildren_children (n : Node) : n.withChildren n.children = n := by
  match n with
  | .attribute _ _ _ none _ | .attribute _ _ _ (some _) _ => rfl
  | .declaration _ (.literal _) _ _ => rfl
  | .declaration _ (.interpolated parts) _ _ =>
    simp [withChildren, children, PropertyName.parts, PropertyName.withParts]
  | .ruleset (.mk ..) => rfl
  | .assignment .. | .negative .. | .paren .. | .call .. | .expression .. | .value ..
  | .condition .. | .operation .. | .anonymous .. | .color .. | .comment .. | .detached ..
  | .dimension .. | .javaScript .. | .keyword .. | .query .. | .quoted .. | .unicodeDescriptor ..
  | .variableRef .. | .variableCall .. => rfl

/-- The parts that were put in. -/
lemma children_withChildren (h : cs.length = n.children.length) :
    (n.withChildren cs).children = cs := by
  match n with
  | .assignment .. | .negative .. | .paren .. | .attribute _ _ _ (some _) _ =>
    obtain ⟨v, rfl⟩ := List.length_eq_one_iff.1 h
    rfl
  | .condition .. | .operation .. =>
    obtain ⟨l, r, rfl⟩ := List.length_eq_two.1 h
    rfl
  | .declaration _ (.literal _) _ _ =>
    obtain ⟨v, rfl⟩ := List.length_eq_one_iff.1 h
    rfl
  | .declaration _ (.interpolated parts) v _ =>
    have hne : cs ≠ [] := by
      rintro rfl
      simp [children, PropertyName.parts] at h
    simp [withChildren, children, PropertyName.parts, PropertyName.withParts,
      List.getLastD_eq_getLast?, List.getLast?_eq_some_getLast hne,
      List.dropLast_append_getLast hne]
  | .call .. | .expression .. | .value .. => rfl
  | .ruleset (.mk ..) => rfl
  | .attribute _ _ _ none _ | .anonymous .. | .color .. | .comment .. | .detached ..
  | .dimension .. | .javaScript .. | .keyword .. | .query .. | .quoted .. | .unicodeDescriptor ..
  | .variableRef .. | .variableCall .. =>
    rw [List.length_eq_zero_iff.1 h]
    rfl

/-- Only the parts that were put in last count. -/
lemma withChildren_withChildren (hcs : cs.length = n.children.length)
    (hds : ds.length = n.children.length) :
    (n.withChildren cs).withChildren ds = n.withChildren ds := by
  match n with
  | .assignment .. | .negative .. | .paren .. | .attribute _ _ _ (some _) _ =>
    obtain ⟨v, rfl⟩ := List.length_eq_one_iff.1 hcs
    obtain ⟨w, rfl⟩ := List.length_eq_one_iff.1 hds
    rfl
  | .condition .. | .operation .. =>
    obtain ⟨l, r, rfl⟩ := List.length_eq_two.1 hcs
    obtain ⟨k, t, rfl⟩ := List.length_eq_two.1 hds
    rfl
  | .declaration _ name v _ =>
    have hne : ds ≠ [] := by
      rintro rfl
      simp [children] at hds
    cases name <;> simp [withChildren, PropertyName.withParts, List.getLastD_eq_getLast?,
      List.getLast?_eq_some_getLast hne]
  | .call .. | .expression .. | .value .. => rfl
  | .ruleset (.mk ..) => rfl
  | .attribute _ _ _ none _ | .anonymous .. | .color .. | .comment .. | .detached ..
  | .dimension .. | .javaScript .. | .keyword .. | .query .. | .quoted .. | .unicodeDescriptor ..
  | .variableRef .. | .variableCall .. =>
    rw [List.length_eq_zero_iff.1 hcs, List.length_eq_zero_iff.1 hds]
    rfl

end Node

/-! ### Nodes of the same shape -/

/-- The text of a keyword or of anonymous text. -/
def Node.word? : Node → Option String
  | .keyword _ text | .anonymous _ text _ _ => some text
  | _ => none

/-- The text of a string. -/
def Node.string? : Node → Option String
  | .quoted _ _ text _ => some text
  | _ => none

/-- How an expression was written. -/
def Node.form? : Node → Option ExpressionForm
  | .expression _ _ form => some form
  | _ => none

/-- A function that looks neither at the parts of a node nor at what a detached ruleset keeps for
later. -/
structure Node.Overlooks {α : Type} (f : Node → α) : Prop where
  assignment : ∀ info key v v', f (.assignment info key v) = f (.assignment info key v')
  negative : ∀ info v v', f (.negative info v) = f (.negative info v')
  paren : ∀ info v v', f (.paren info v) = f (.paren info v')
  selector : ∀ info key operator v v' flag, f (.attribute info key operator (some v) flag) =
    f (.attribute info key operator (some v') flag)
  call : ∀ info name args args' asCalc,
    f (.call info name args asCalc) = f (.call info name args' asCalc)
  expression : ∀ info items items' form,
    f (.expression info items form) = f (.expression info items' form)
  value : ∀ info items items', f (.value info items) = f (.value info items')
  condition : ∀ info relation l r l' r' negate,
    f (.condition info relation l r negate) = f (.condition info relation l' r' negate)
  operation : ∀ info operator l r l' r' spaced,
    f (.operation info operator l r spaced) = f (.operation info operator l' r' spaced)
  named : ∀ info text v v' traits, f (.declaration info (.literal text) v traits) =
    f (.declaration info (.literal text) v' traits)
  interpolated : ∀ info parts parts' v v' traits,
    f (.declaration info (.interpolated parts) v traits) =
      f (.declaration info (.interpolated parts') v' traits)
  ruleset : ∀ info selectors rules rules' root, f (.ruleset (.mk info selectors rules root)) =
    f (.ruleset (.mk info selectors rules' root))
  detached : ∀ info body body' frames frames',
    f (.detached info body frames) = f (.detached info body' frames')

/-- What overlooks the parts of nodes gives the same if there are other parts. -/
lemma Node.Overlooks.withChildren {α : Type} {f : Node → α} (hf : Node.Overlooks f) (n : Node)
    (cs : List Node) : f (n.withChildren cs) = f n := by
  unfold Node.withChildren
  split
  · exact hf.assignment _ _ _ _
  · exact hf.negative _ _ _
  · exact hf.paren _ _ _
  · exact hf.selector _ _ _ _ _ _
  · exact hf.call _ _ _ _ _
  · exact hf.expression _ _ _ _
  · exact hf.value _ _ _
  · exact hf.condition _ _ _ _ _ _ _
  · exact hf.operation _ _ _ _ _ _ _
  · next name _ _ =>
    cases name with
    | literal text => exact hf.named _ _ _ _ _
    | interpolated parts => exact hf.interpolated _ _ _ _ _ _
  · exact hf.ruleset _ _ _ _ _
  · rfl

namespace Node

lemma overlooks_kind : Overlooks kind := by
  constructor <;> intros <;> rfl

lemma overlooks_isDetached : Overlooks isDetached := by
  constructor <;> intros <;> rfl

lemma overlooks_isComment : Overlooks isComment := by
  constructor <;> intros <;> rfl

lemma overlooks_isDimension : Overlooks isDimension := by
  constructor <;> intros <;> rfl

lemma overlooks_isEvaluable : Overlooks isEvaluable := by
  constructor <;> intros <;> rfl

lemma overlooks_asBool : Overlooks asBool := by
  constructor <;> intros <;> rfl

lemma overlooks_word? : Overlooks word? := by
  constructor <;> intros <;> rfl

lemma overlooks_string? : Overlooks string? := by
  constructor <;> intros <;> rfl

lemma overlooks_form? : Overlooks form? := by
  constructor <;> intros <;> rfl

end Node

/-- Nodes of the same kind with the same data of their own. -/
inductive Node.SameShape : Node → Node → Prop where
  | rebuilt (n : Node) {cs : List Node} (h : cs.length = n.children.length) :
    Node.SameShape n (n.withChildren cs)
  | detached (info : Info) (body body' : Option Ruleset) (frames frames' : Option (List Frame)) :
    Node.SameShape (.detached info body frames) (.detached info body' frames')

namespace Node.SameShape

variable {n n' : Node}

/-- A node has its own shape. -/
lemma refl (n : Node) : n.SameShape n := by
  have h : n.SameShape (n.withChildren n.children) := .rebuilt n rfl
  rwa [withChildren_children] at h

/-- What overlooks the parts of nodes gives the same for nodes of the same shape. -/
lemma apply_eq {α : Type} {f : Node → α} (h : n.SameShape n') (hf : Node.Overlooks f) :
    f n' = f n := by
  cases h with
  | rebuilt n _ => exact hf.withChildren n _
  | detached info body body' frames frames' => exact hf.detached info body' body frames' frames

/-- A node without parts that is no detached ruleset is determined by its shape. -/
lemma eq_of_children_eq_nil (h : n.SameShape n') (hn : n.isDetached = false)
    (hchildren : n.children = []) : n' = n := by
  cases h with
  | rebuilt n hlength =>
    rw [hchildren, List.length_nil, List.length_eq_zero_iff] at hlength
    rw [hlength, ← hchildren, withChildren_children]
  | detached => simp [isDetached] at hn

/-- Detached rulesets. -/
lemma exists_detached {info : Info} {body : Option Ruleset} {frames : Option (List Frame)}
    (h : (Node.detached info body frames).SameShape n') :
    ∃ body' frames', n' = .detached info body' frames' := by
  cases h with
  | rebuilt _ _ => exact ⟨body, frames, rfl⟩
  | detached => exact ⟨_, _, rfl⟩

/-- Rulesets. -/
lemma exists_ruleset {info : Info} {selectors : List String} {rules : List Node} {root : Bool}
    (h : (Node.ruleset (.mk info selectors rules root)).SameShape n') :
    ∃ rules', n' = .ruleset (.mk info selectors rules' root) := by
  cases h with
  | rebuilt _ _ => exact ⟨_, rfl⟩

end Node.SameShape

/-- Lists related one by one, of which the first one has a last item. -/
lemma forall₂_concat_left {α β : Type} {R : α → β → Prop} {xs : List α} {x : α} {ys : List β}
    (h : List.Forall₂ R (xs ++ [x]) ys) :
    ∃ ys' y, ys = ys' ++ [y] ∧ List.Forall₂ R xs ys' ∧ R x y := by
  induction xs generalizing ys with
  | nil =>
    cases h with
    | cons hxy hrest =>
      cases hrest
      exact ⟨[], _, rfl, .nil, hxy⟩
  | cons a xs ih =>
    cases h with
    | cons hab hrest =>
      obtain ⟨ys', y, rfl, hys, hxy⟩ := ih hrest
      exact ⟨_ :: ys', y, rfl, .cons hab hys, hxy⟩

/-- The items of a list related to another one are related to items. -/
lemma exists_of_forall₂ {α β : Type} {R : α → β → Prop} {as : List α} {bs : List β}
    (h : List.Forall₂ R as bs) : ∀ a ∈ as, ∃ b, R a b := by
  intro a ha
  obtain ⟨i, hi⟩ := List.mem_iff_get.1 ha
  exact ⟨_, hi ▸ h.get i.2 (h.length_eq ▸ i.2)⟩

/-- Lists related one by one in which related items are equal. -/
lemma eq_and_forall_of_forall₂ {α : Type} {P : α → Prop} {as bs : List α}
    (h : List.Forall₂ (fun a b => b = a ∧ P a) as bs) : bs = as ∧ ∀ a ∈ as, P a := by
  induction h with
  | nil => exact ⟨rfl, by simp⟩
  | cons hab _ ih =>
    obtain ⟨rfl, hp⟩ := hab
    exact ⟨by rw [ih.1], List.forall_mem_cons.2 ⟨hp, ih.2⟩⟩

end Cascade
