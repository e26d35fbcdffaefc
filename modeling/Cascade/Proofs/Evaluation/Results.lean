import Cascade.Proofs.Arithmetic.Trees
import Cascade.Proofs.Evaluation.Hoisting
import Cascade.Proofs.Evaluation.Normal

/-!
# Results of nodes from the results of their parts

If a node is evaluated, its parts are, and the result is put together from theirs.  For operations,
expressions, lists, calls that are kept and references, this module says how.  The states of the
query conditions along the way do not matter (`Node.EvaluatesTo`).
-/

namespace Cascade

open Evaluation

variable {s : Scope} {q : Queries} {resolve : Resolver Scoped}

/-- A node is evaluated to another one in a scope, for some states of the query conditions. -/
def Node.EvaluatesTo (resolve : Resolver Scoped) (s : Scope) (n r : Node) : Prop :=
  ∃ q, ((Node.evalWith resolve n : Scoped Node) s q).result = .ok r

/-- Where arithmetic is off, it is off in parentheses, too. -/
lemma Scope.isMathOn_eq_false (h : s.mathOn = false) : s.isMathOn = false := by
  rw [Scope.isMathOn, h, Bool.false_and]

/-- Where arithmetic is off, nothing is computed. -/
lemma Scope.computes_eq_false (h : s.mathOn = false) (operator : Operator) :
    s.computes operator = false := by
  rw [Scope.computes, Scope.isMathOn_eq_false h, Bool.false_and]

/-- A list from the results of its items. -/
def Node.valueFrom (info : Info) : List Node → Node
  | [single] => single
  | values => .value info.snapshot values

namespace Node

/-- Nodes that are evaluated one after the other. -/
lemma forall₂_of_runEach {items values : List Node}
    (h : ((runEach (evalEach resolve items) : Scoped (List Node)) s q).result = .ok values) :
    List.Forall₂ (EvaluatesTo resolve s) items values := by
  rw [evalEach_eq_map] at h
  have hvalues := Scoped.forall₂_of_runEach_eq_ok h
  rwa [List.forall₂_map_left_iff] at hvalues

/-- What holds of every item that is evaluated and its result. -/
lemma forall₂_of_evaluatesTo {R : Node → Node → Prop} {items values : List Node}
    (h : List.Forall₂ (EvaluatesTo resolve s) items values)
    (hitems : ∀ item ∈ items, ∀ value, EvaluatesTo resolve s item value → R item value) :
    List.Forall₂ R items values := by
  induction h with
  | nil => exact .nil
  | cons hvalue _ ih =>
    obtain ⟨hitem, hrest⟩ := List.forall_mem_cons.1 hitems
    exact .cons (hitem _ hvalue) (ih hrest)

namespace EvaluatesTo

variable {info : Info} {r : Node}

/-- An operation. -/
lemma operation {operator : Operator} {left right : Node} {spaced : Bool}
    (h : EvaluatesTo resolve s (.operation info operator left right spaced) r) :
    ∃ a b, EvaluatesTo resolve s left a ∧ EvaluatesTo resolve s right b ∧
      operate s info operator spaced a b = .ok r := by
  obtain ⟨q, h⟩ := h
  rw [evalWith] at h
  obtain ⟨a, ha, h⟩ := Scoped.exists_of_bind_eq_ok h
  obtain ⟨b, hb, h⟩ := Scoped.exists_of_bind_eq_ok h
  rw [Correspondence.scope_bind_apply] at h
  exact ⟨a, b, ⟨q, ha⟩, ⟨_, hb⟩, Scoped.of_ofExcept h⟩

/-- Two items or more, evaluated one after the other and put together. -/
lemma of_several {first second : Node} {rest : List Node} {make : List Node → Node}
    (h : (((do
      let values ← runEach (evalEach resolve (first :: second :: rest))
      pure (make values)) : Scoped Node) s q).result = .ok r) :
    ∃ a b others, List.Forall₂ (EvaluatesTo resolve s) (first :: second :: rest)
      (a :: b :: others) ∧ r = make (a :: b :: others) := by
  obtain ⟨values, hvalues, h⟩ := Scoped.exists_of_bind_eq_ok h
  cases h
  obtain _ | ⟨hfirst, _ | ⟨hsecond, hrest⟩⟩ := forall₂_of_runEach hvalues
  exact ⟨_, _, _, .cons hfirst (.cons hsecond hrest), rfl⟩

/-- The items of an expression, as they are put together. -/
lemma of_expressionOf {items : List Node} {form : ExpressionForm}
    (h : ((expressionOf info form (evalEach resolve items) : Scoped Node) s q).result = .ok r) :
    ∃ values, List.Forall₂ (EvaluatesTo resolve s) items values ∧
      r = expressionFrom info form values := by
  match items with
  | [] =>
    cases h
    exact ⟨[], .nil, rfl⟩
  | [single] => exact ⟨[r], .cons ⟨q, h⟩ .nil, rfl⟩
  | first :: second :: rest =>
    obtain ⟨_, _, _, hvalues, rfl⟩ := of_several h
    exact ⟨_, hvalues, rfl⟩

/-- An expression. -/
lemma expression {items : List Node} {form : ExpressionForm}
    (h : EvaluatesTo resolve s (.expression info items form) r) :
    ∃ values, List.Forall₂ (EvaluatesTo resolve (form.inside s)) items values ∧
      r = keepParens s form items (expressionFrom info form values) := by
  obtain ⟨q, h⟩ := h
  rw [evalWith, Correspondence.scope_bind_apply] at h
  obtain ⟨inner, hinner, h⟩ := Scoped.exists_of_bind_eq_ok h
  have hinside : ((expressionOf info form (evalEach resolve items) : Scoped Node)
      (form.inside s) q).result = .ok inner := by
    unfold ExpressionForm.inside
    unfold parenthesized at hinner
    cases hparens : form.parens with
    | true =>
      rw [hparens] at hinner
      exact hinner
    | false =>
      rw [hparens] at hinner
      exact hinner
  obtain ⟨values, hvalues, rfl⟩ := of_expressionOf hinside
  cases h
  exact ⟨values, hvalues, rfl⟩

/-- The items of a list, as they are put together. -/
lemma of_valueOf {items : List Node}
    (h : ((valueOf info (evalEach resolve items) : Scoped Node) s q).result = .ok r) :
    ∃ values, List.Forall₂ (EvaluatesTo resolve s) items values ∧ r = valueFrom info values := by
  match items with
  | [] =>
    cases h
    exact ⟨[], .nil, rfl⟩
  | [single] => exact ⟨[r], .cons ⟨q, h⟩ .nil, rfl⟩
  | first :: second :: rest =>
    obtain ⟨_, _, _, hvalues, rfl⟩ := of_several h
    exact ⟨_, hvalues, rfl⟩

/-- A list. -/
lemma value {items : List Node} (h : EvaluatesTo resolve s (.value info items) r) :
    ∃ values, List.Forall₂ (EvaluatesTo resolve s) items values ∧ r = valueFrom info values := by
  obtain ⟨q, h⟩ := h
  rw [evalWith] at h
  exact of_valueOf h

/-- Parentheses. -/
lemma paren {v : Node} (h : EvaluatesTo resolve s (.paren info v) r) :
    ∃ a, EvaluatesTo resolve s v a ∧ r = .paren info.snapshot a := by
  obtain ⟨q, h⟩ := h
  rw [evalWith] at h
  obtain ⟨a, ha, h⟩ := Scoped.exists_of_bind_eq_ok h
  cases h
  exact ⟨a, ⟨q, ha⟩, rfl⟩

/-- A minus sign, where arithmetic is off. -/
lemma negative {v : Node} (hmath : s.isMathOn = false)
    (h : EvaluatesTo resolve s (.negative info v) r) :
    ∃ a, EvaluatesTo resolve s v a ∧ r = .negative info.snapshot a := by
  obtain ⟨q, h⟩ := h
  rw [evalWith, Correspondence.scope_bind_apply] at h
  obtain ⟨a, ha, h⟩ := Scoped.exists_of_bind_eq_ok h
  rw [hmath] at h
  cases h
  exact ⟨a, ⟨q, ha⟩, rfl⟩

/-- A call of a function that is not in the table. -/
lemma call {name : String} {args : List Node} {asCalc : Bool} {table : FunctionTable}
    (htable : s.functionTable = .ok table) (hname : table.find? name = none)
    (h : EvaluatesTo resolve s (.call info name args asCalc) r) :
    ∃ values, List.Forall₂ (EvaluatesTo resolve (s.enterCall asCalc)) args values ∧
      r = .call info.snapshot name values asCalc := by
  obtain ⟨q, h⟩ := h
  rw [evalWith] at h
  change ((callNamed info name args asCalc (evalEach resolve args) : Scoped Node)
    (s.enterCall asCalc) q).result = .ok r at h
  rw [callNamed, Correspondence.scope_bind_apply,
    Scope.functionTable_congr (s.frames_enterCall asCalc), htable, Scoped.bind_ofExcept, hname] at h
  obtain ⟨values, hvalues, h⟩ := Scoped.exists_of_bind_eq_ok (x := runEach _) h
  cases h
  exact ⟨values, forall₂_of_runEach hvalues, rfl⟩

/-- A reference by name. -/
lemma variableRef {name : String} (hname : Resolver.atSigns name ≤ 1)
    (h : EvaluatesTo resolve s (.variableRef info name) r) :
    ∃ found q, Frame.lookup? name s.frames = some found ∧
      ((resolve.value found.value : Scoped Node)
        ((s.enterVariable name).setFrames (s.bindingFrames found)) q).result = .ok r := by
  obtain ⟨q, h⟩ := h
  rw [evalWith] at h
  obtain ⟨hfresh, found, hfound⟩ := Resolver.exists_of_reference_eq_ok hname h
  rw [(Resolver.reference_apply resolve hname hfresh hfound).1] at h
  exact ⟨found, q, hfound, h⟩

end EvaluatesTo

end Node

end Cascade
