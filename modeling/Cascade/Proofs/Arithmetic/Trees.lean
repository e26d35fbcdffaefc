import Mathlib.Data.List.Forall2
import Cascade.Proofs.Arithmetic.Indeterminate
import Cascade.Proofs.Evaluation.Correspondence
import Cascade.Proofs.Evaluation.InPlace
import Cascade.Proofs.Tree.Contents

/-!
# Arithmetic trees

Trees of dimensions, operations, minus signs, parentheses and expressions need nothing but the scope
to be evaluated: no variable is looked up and no query condition changes.  `Node.calculate` is their
evaluation as a function of the scope alone (`Node.evalWith_eq_calculate`).

Such a tree comes out with a value that is no number exactly if it holds one, or if an operation
that is carried out on the way is an indeterminate form (`Context.hasNaN_of_evaluate_iff`).
-/

namespace Cascade

open Evaluation

/-- Trees of arithmetic on dimensions. -/
inductive Node.IsArithmetic : Node → Prop where
  | dimension {info : Info} {d : Dimension} : Node.IsArithmetic (.dimension info d)
  | operation {info : Info} {operator : Operator} {left right : Node} {spaced : Bool}
    (hleft : left.IsArithmetic) (hright : right.IsArithmetic) :
    Node.IsArithmetic (.operation info operator left right spaced)
  | negative {info : Info} {v : Node} (hv : v.IsArithmetic) : Node.IsArithmetic (.negative info v)
  | paren {info : Info} {v : Node} (hv : v.IsArithmetic) : Node.IsArithmetic (.paren info v)
  | expression {info : Info} {items : List Node} {form : ExpressionForm}
    (hitems : ∀ item ∈ items, item.IsArithmetic) :
    Node.IsArithmetic (.expression info items form)

/-- Whether a node is a colour. -/
def Node.isColor : Node → Bool
  | .color .. => true
  | _ => false

/-- There are no colours among arithmetic trees. -/
lemma Node.IsArithmetic.isColor_eq_false {n : Node} (h : n.IsArithmetic) : n.isColor = false := by
  cases h <;> rfl

/-! ### Evaluation as a function of the scope -/

/-- The scope of the items of an expression. -/
def ExpressionForm.inside (form : ExpressionForm) (s : Scope) : Scope :=
  if form.parens then s.enterParens else s

/-- An expression from the results of its items. -/
def Node.expressionFrom (info : Info) (form : ExpressionForm) : List Node → Node
  | [] => .expression info.snapshot [] form
  | [single] => single
  | several => .expression info.snapshot several { noSpacing := form.noSpacing }

mutual

/-- The evaluation of an arithmetic tree; other nodes are left as they are. -/
def Node.calculate (s : Scope) : Node → Except Error Node
  | .dimension info d => pure (.dimension info.snapshot d)
  | .operation info operator left right spaced => do
    let a ← Node.calculate s left
    let b ← Node.calculate s right
    Node.operate s info operator spaced a b
  | .negative info v => do
    let v ← Node.calculate s v
    if s.isMathOn then Node.operate s {} .mul false Node.minusOne v
    else pure (.negative info.snapshot v)
  | .paren info v => do
    let v ← Node.calculate s v
    pure (.paren info.snapshot v)
  | .expression info items form => do
    let values ← Node.calculateEach (form.inside s) items
    pure (Node.keepParens s form items (Node.expressionFrom info form values))
  | other => pure other

/-- The evaluation of arithmetic trees, one by one. -/
def Node.calculateEach (s : Scope) : List Node → Except Error (List Node)
  | [] => pure []
  | node :: rest => do
    let value ← Node.calculate s node
    let values ← Node.calculateEach s rest
    pure (value :: values)

end

/-- The results of some trees are those of the single ones. -/
lemma Node.forall₂_of_calculateEach {s : Scope} {items values : List Node}
    (h : Node.calculateEach s items = .ok values) :
    List.Forall₂ (fun item value => item.calculate s = .ok value) items values := by
  induction items generalizing values with
  | nil =>
    rw [← Except.ok.inj h]
    exact .nil
  | cons item rest ih =>
    rw [Node.calculateEach] at h
    obtain ⟨value, hvalue, h⟩ := except_bind_eq_ok_iff.1 h
    obtain ⟨others, hothers, h⟩ := except_bind_eq_ok_iff.1 h
    rw [← Except.ok.inj h]
    exact .cons hvalue (ih hothers)

section Calculate

variable {α β : Type} {s : Scope} {resolve : Resolver Scoped}

/-- Steps that only need the scope, one after the other. -/
lemma Scoped.bind_of_ofExcept {x : Scoped α} {f : α → Scoped β} {y : Except Error α}
    {g : α → Except Error β} (hx : x s = Eval.ofExcept y) (hf : ∀ a, f a s = Eval.ofExcept (g a)) :
    (x >>= f) s = Eval.ofExcept (y >>= g) := by
  funext q
  rw [Correspondence.bind_apply, hx]
  cases y with
  | error e => rfl
  | ok a =>
    change Outcome.mk (f a s q).result (f a s q).queries ((f a s q).marker.or none) =
      Eval.ofExcept (g a) q
    rw [hf, Option.or_none]

/-- A result that is known, in a scope. -/
lemma Scoped.ofExcept_apply (x : Except Error α) : (ofExcept x : Scoped α) s = Eval.ofExcept x := by
  cases x <;> rfl

/-- Items that only need the scope, one after the other. -/
lemma Node.runEach_eq_calculateEach {items : List Node}
    (h : ∀ item ∈ items, (Node.evalWith resolve item) s = Eval.ofExcept (item.calculate s)) :
    (runEach (Node.evalEach resolve items) : Scoped (List Node)) s =
      Eval.ofExcept (Node.calculateEach s items) := by
  induction items with
  | nil => rfl
  | cons item rest ih =>
    rw [Node.evalEach, runEach, Node.calculateEach]
    refine Scoped.bind_of_ofExcept (h item List.mem_cons_self) fun value => ?_
    refine Scoped.bind_of_ofExcept (ih fun x hx => h x (List.mem_cons_of_mem _ hx)) fun values => ?_
    rfl

/-- An expression whose items only need the scope. -/
lemma Node.expressionOf_eq_calculateEach (info : Info) (form : ExpressionForm) {items : List Node}
    (h : ∀ item ∈ items, (Node.evalWith resolve item) s = Eval.ofExcept (item.calculate s)) :
    (Node.expressionOf info form (Node.evalEach resolve items) : Scoped Node) s =
      Eval.ofExcept (Node.calculateEach s items >>= fun values =>
        pure (Node.expressionFrom info form values)) := by
  match items with
  | [] => rfl
  | [single] =>
    rw [Node.evalEach, Node.evalEach, Node.expressionOf, h single (List.mem_singleton_self single),
      Node.calculateEach, Node.calculateEach]
    cases single.calculate s <;> rfl
  | first :: second :: rest =>
    have hvalues := Node.runEach_eq_calculateEach h
    have hseveral : (Node.expressionOf info form (Node.evalEach resolve (first :: second :: rest)) :
        Scoped Node) = runEach (Node.evalEach resolve (first :: second :: rest)) >>= fun values =>
          pure (.expression info.snapshot values { noSpacing := form.noSpacing }) :=
      rfl
    funext q
    rw [hseveral, Correspondence.bind_apply, hvalues]
    cases hresults : Node.calculateEach s (first :: second :: rest) with
    | error e => rfl
    | ok values =>
      -- there are as many results as items
      cases Node.forall₂_of_calculateEach hresults with
      | cons _ hrest =>
        cases hrest with
        | cons _ _ => rfl

/-- An arithmetic tree is evaluated as a function of the scope. -/
theorem Node.evalWith_eq_calculate {n : Node} (hn : n.IsArithmetic) (s : Scope) :
    (Node.evalWith resolve n : Scoped Node) s = Eval.ofExcept (n.calculate s) := by
  induction hn generalizing s with
  | dimension => rfl
  | operation _ _ hleft hright =>
    rw [Node.evalWith, Node.calculate]
    refine Scoped.bind_of_ofExcept (hleft s) fun a => ?_
    refine Scoped.bind_of_ofExcept (hright s) fun b => ?_
    funext q
    rw [Correspondence.scope_bind_apply, Scoped.ofExcept_apply]
  | negative _ hv =>
    rw [Node.evalWith, Node.calculate]
    funext q
    rw [Correspondence.scope_bind_apply]
    refine congrFun (Scoped.bind_of_ofExcept (hv s) fun v => ?_) q
    split
    · funext q
      rw [Correspondence.scope_bind_apply, Scoped.ofExcept_apply]
    · rfl
  | paren _ hv =>
    rw [Node.evalWith, Node.calculate]
    exact Scoped.bind_of_ofExcept (hv s) fun v => rfl
  | @expression info items form _ hitems =>
    rw [Node.evalWith, Node.calculate]
    funext q
    rw [Correspondence.scope_bind_apply]
    have hinside : (parenthesized form.parens
        (Node.expressionOf info form (Node.evalEach resolve items)) : Scoped Node) s =
        Eval.ofExcept (Node.calculateEach (form.inside s) items >>= fun values =>
          pure (Node.expressionFrom info form values)) := by
      rw [← Node.expressionOf_eq_calculateEach info form
        fun item hitem => hitems item hitem (form.inside s)]
      unfold parenthesized ExpressionForm.inside
      cases form.parens <;> rfl
    refine (congrFun (Scoped.bind_of_ofExcept hinside
      (g := fun value => pure (Node.keepParens s form items value)) fun _ => rfl) q).trans ?_
    rw [bind_assoc]
    rfl

/-- Evaluating an arithmetic tree in a context calculates it in the scope of the context. -/
lemma Context.evaluate_eq_calculate (c : Context) (depth : Nat) {n : Node} (hn : n.IsArithmetic) :
    (c.evaluate (depth + 1) n).1 = (n.calculate c.scope).mapError .failed := by
  rw [Context.evaluate_eq, Node.eval, Node.evalWith_eq_calculate hn]
  cases n.calculate c.scope <;> rfl

end Calculate

/-! ### Values that are no number -/

/-- The dimensions of a tree. -/
def Node.dimensions (n : Node) : List Dimension :=
  n.gather fun
    | .dimension _ d => [d]
    | _ => []

/-- A tree that holds a value that is no number. -/
def Node.HasNaN (n : Node) : Prop :=
  ∃ d ∈ n.dimensions, d.value.isNaN

/-- A tree all of whose values are numbers. -/
lemma Node.not_hasNaN_iff {n : Node} :
    ¬ n.HasNaN ↔ ∀ d ∈ n.dimensions, d.value.isNaN = false := by
  simp only [Node.HasNaN, not_exists, not_and, Bool.not_eq_true]

section HasNaN

variable {info : Info} {v l r : Node}

@[simp]
lemma Node.hasNaN_dimension {d : Dimension} :
    (Node.dimension info d).HasNaN ↔ d.value.isNaN := by
  simp [Node.HasNaN, Node.dimensions, Node.gather]

@[simp]
lemma Node.hasNaN_operation {operator : Operator} {spaced : Bool} :
    (Node.operation info operator l r spaced).HasNaN ↔ l.HasNaN ∨ r.HasNaN := by
  simp [Node.HasNaN, Node.dimensions, Node.gather, or_and_right, exists_or]

@[simp]
lemma Node.hasNaN_negative : (Node.negative info v).HasNaN ↔ v.HasNaN := by
  simp [Node.HasNaN, Node.dimensions, Node.gather]

@[simp]
lemma Node.hasNaN_paren : (Node.paren info v).HasNaN ↔ v.HasNaN := by
  simp [Node.HasNaN, Node.dimensions, Node.gather]

@[simp]
lemma Node.hasNaN_expression {items : List Node} {form : ExpressionForm} :
    (Node.expression info items form).HasNaN ↔ ∃ item ∈ items, item.HasNaN := by
  simp only [Node.HasNaN, Node.dimensions, Node.gather, Node.gatherEach_eq, List.nil_append,
    List.mem_flatMap]
  grind

end HasNaN

/-! ### Operations on the way -/

/-- A node that is evaluated to a dimension in a scope. -/
def Node.AmountsTo (s : Scope) (n : Node) (d : Dimension) : Prop :=
  ∃ info, ((Node.eval 1 n : Scoped Node) s []).result = .ok (.dimension info d)

/-- An operation that is carried out while a tree is evaluated in a scope is an indeterminate
form. -/
inductive Node.Stumbles : Scope → Node → Prop where
  | operation {s : Scope} {info : Info} {operator : Operator} {left right : Node} {spaced : Bool}
    {a b : Dimension} (hcomputes : s.computes operator) (ha : left.AmountsTo s a)
    (hb : right.AmountsTo s b) (h : Dimension.isIndeterminate operator.plain a b) :
    Node.Stumbles s (.operation info operator left right spaced)
  | left {s : Scope} {info : Info} {operator : Operator} {left right : Node} {spaced : Bool}
    (h : left.Stumbles s) : Node.Stumbles s (.operation info operator left right spaced)
  | right {s : Scope} {info : Info} {operator : Operator} {left right : Node} {spaced : Bool}
    (h : right.Stumbles s) : Node.Stumbles s (.operation info operator left right spaced)
  | negative {s : Scope} {info : Info} {v : Node} (h : v.Stumbles s) :
    Node.Stumbles s (.negative info v)
  | paren {s : Scope} {info : Info} {v : Node} (h : v.Stumbles s) :
    Node.Stumbles s (.paren info v)
  | item {s : Scope} {info : Info} {items : List Node} {item : Node} {form : ExpressionForm}
    (hitem : item ∈ items) (h : item.Stumbles (form.inside s)) :
    Node.Stumbles s (.expression info items form)

section Stumbles

variable {s : Scope} {info : Info} {operator : Operator} {spaced : Bool} {v l r : Node}

@[simp]
lemma Node.not_stumbles_dimension {d : Dimension} : ¬ (Node.dimension info d).Stumbles s :=
  nofun

@[simp]
lemma Node.stumbles_operation :
    (Node.operation info operator l r spaced).Stumbles s ↔
      (l.Stumbles s ∨ r.Stumbles s) ∨ s.computes operator ∧ ∃ a b, l.AmountsTo s a ∧
        r.AmountsTo s b ∧ Dimension.isIndeterminate operator.plain a b := by
  constructor
  · intro h
    cases h with
    | operation hcomputes ha hb h => exact .inr ⟨hcomputes, _, _, ha, hb, h⟩
    | left h => exact .inl (.inl h)
    | right h => exact .inl (.inr h)
  · rintro ((h | h) | ⟨hcomputes, a, b, ha, hb, h⟩)
    · exact .left h
    · exact .right h
    · exact .operation hcomputes ha hb h

@[simp]
lemma Node.stumbles_negative : (Node.negative info v).Stumbles s ↔ v.Stumbles s :=
  ⟨fun | .negative h => h, .negative⟩

@[simp]
lemma Node.stumbles_paren : (Node.paren info v).Stumbles s ↔ v.Stumbles s :=
  ⟨fun | .paren h => h, .paren⟩

@[simp]
lemma Node.stumbles_expression {items : List Node} {form : ExpressionForm} :
    (Node.expression info items form).Stumbles s ↔
      ∃ item ∈ items, item.Stumbles (form.inside s) :=
  ⟨fun | .item hitem h => ⟨_, hitem, h⟩, fun ⟨_, hitem, h⟩ => .item hitem h⟩

end Stumbles

section Operate

variable {s : Scope} {info : Info} {operator : Operator} {spaced : Bool} {a b r : Node}

/-- Without colours an operation that is carried out is one on dimensions, or is held back after
all. -/
lemma Node.compute_cases_of_isColor_eq_false (ha : a.isColor = false) (hb : b.isColor = false)
    (h : Node.compute s info operator spaced a b = .ok r) :
    (∃ i j x y d, a = .dimension i x ∧ b = .dimension j y ∧
      Dimension.operate s.style.strictUnits operator.plain x y = .ok d ∧
      r = .dimension i.snapshot d) ∨
    a.isDimension = false ∧ r = .operation info.snapshot operator a b spaced := by
  -- both sides stay what they are
  have hpromote : Node.promote a b = (a, b) := by
    unfold Node.promote
    split
    · cases hb
    · cases ha
    · rfl
  unfold Node.compute at h
  rw [hpromote] at h
  split at h
  next heq =>
    obtain ⟨rfl, rfl⟩ := Prod.mk.inj heq
    obtain ⟨d, hd, hr⟩ := except_bind_eq_ok_iff.1 h
    exact .inl ⟨_, _, _, _, d, rfl, rfl, hd, (Except.ok.inj hr).symm⟩
  next heq =>
    obtain ⟨rfl, -⟩ := Prod.mk.inj heq
    cases ha
  next heq =>
    obtain ⟨rfl, rfl⟩ := Prod.mk.inj heq
    split at h
    · exact .inr ⟨rfl, (Except.ok.inj h).symm⟩
    · cases h
  · cases h

/-- What an operation makes of arithmetic trees holds a value that is no number if one of them does,
or if it is carried out on an indeterminate form. -/
lemma Node.hasNaN_of_operate_iff (ha : a.IsArithmetic) (hb : b.IsArithmetic)
    (h : Node.operate s info operator spaced a b = .ok r) :
    r.HasNaN ↔ (a.HasNaN ∨ b.HasNaN) ∨ s.computes operator ∧ ∃ i j x y, a = .dimension i x ∧
      b = .dimension j y ∧ Dimension.isIndeterminate operator.plain x y := by
  unfold Node.operate at h
  split at h
  next hcomputes =>
    rcases Node.compute_cases_of_isColor_eq_false ha.isColor_eq_false hb.isColor_eq_false h with
      ⟨i, j, x, y, d, rfl, rfl, hd, rfl⟩ | ⟨hother, rfl⟩
    · simp only [Node.hasNaN_dimension, Dimension.isNaN_operate hd, Bool.or_eq_true, hcomputes,
        true_and, Node.dimension.injEq, and_assoc, exists_and_left, exists_eq_left']
    · have hno : ¬ ∃ i j x y, a = .dimension i x ∧ b = .dimension j y ∧
          Dimension.isIndeterminate operator.plain x y := by
        rintro ⟨i, j, x, y, rfl, -⟩
        cases hother
      rw [Node.hasNaN_operation]
      exact (or_iff_left fun h => hno h.2).symm
  next hcomputes =>
    rw [← Except.ok.inj h, Node.hasNaN_operation]
    exact (or_iff_left fun h => hcomputes h.1).symm

/-- What an operation makes of arithmetic trees is one. -/
lemma Node.isArithmetic_of_operate (ha : a.IsArithmetic) (hb : b.IsArithmetic)
    (h : Node.operate s info operator spaced a b = .ok r) : r.IsArithmetic := by
  unfold Node.operate at h
  split at h
  · rcases Node.compute_cases_of_isColor_eq_false ha.isColor_eq_false hb.isColor_eq_false h with
      ⟨_, _, _, _, _, _, _, _, rfl⟩ | ⟨_, rfl⟩
    · exact .dimension
    · exact .operation ha hb
  · rw [← Except.ok.inj h]
    exact .operation ha hb

/-- A minus sign makes no indeterminate form. -/
lemma Node.hasNaN_of_operate_minusOne_iff (ha : a.IsArithmetic)
    (h : Node.operate s info .mul spaced Node.minusOne a = .ok r) : r.HasNaN ↔ a.HasNaN := by
  have hone : ¬ Node.minusOne.HasNaN := by
    rw [Node.minusOne, Node.hasNaN_dimension]
    decide
  have hminus : Node.minusOne.IsArithmetic := .dimension
  rw [Node.hasNaN_of_operate_iff hminus ha h, or_iff_right hone, or_iff_left]
  rintro ⟨-, i, j, x, y, hx, -, hindeterminate⟩
  obtain ⟨-, rfl⟩ := Node.dimension.inj hx
  have hdeterminate : ∀ y, Operator.mul.isIndeterminate (-1.0) y = false := by
    intro y
    rw [Operator.isIndeterminate, show ((-1.0 : Float) == 0.0) = false by decide,
      show (-1.0 : Float).isInf = false by decide]
    rfl
  exact absurd hindeterminate (by simp [Dimension.isIndeterminate, Operator.plain, hdeterminate])

end Operate

/-! ### Whole trees -/

section Calculate

variable {s : Scope} {n r : Node}

/-- The dimension that an arithmetic tree is evaluated to is the one calculated. -/
lemma Node.IsArithmetic.amountsTo_iff (hn : n.IsArithmetic) {d : Dimension} :
    n.AmountsTo s d ↔ ∃ info, n.calculate s = .ok (.dimension info d) := by
  unfold Node.AmountsTo
  rw [Node.eval, Node.evalWith_eq_calculate hn]
  cases n.calculate s <;> simp [Eval.ofExcept, Eval.fail, Eval.stop, Eval.pure]

/-- Parentheses that are kept hold the same values. -/
lemma Node.hasNaN_keepParens {form : ExpressionForm} {items : List Node} :
    (Node.keepParens s form items r).HasNaN ↔ r.HasNaN := by
  unfold Node.keepParens
  split
  · exact Node.hasNaN_paren
  · exact Iff.rfl

/-- An expression holds the values of its items. -/
lemma Node.hasNaN_expressionFrom {info : Info} {form : ExpressionForm} (values : List Node) :
    (Node.expressionFrom info form values).HasNaN ↔ ∃ value ∈ values, value.HasNaN := by
  match values with
  | [] | _ :: _ :: _ => exact Node.hasNaN_expression
  | [single] => simp [Node.expressionFrom]

/-- An expression from arithmetic trees is one. -/
lemma Node.isArithmetic_expressionFrom {info : Info} {form : ExpressionForm} {values : List Node}
    (h : ∀ value ∈ values, value.IsArithmetic) :
    (Node.expressionFrom info form values).IsArithmetic := by
  match values with
  | [] | _ :: _ :: _ => exact .expression h
  | [single] => exact h single (List.mem_singleton_self single)

/-- The results of items have a property if the items have the one it comes from. -/
lemma Node.exists_of_calculateEach_iff {P Q : Node → Prop} {items values : List Node}
    (hitems : ∀ item ∈ items, ∀ value, item.calculate s = .ok value → (P value ↔ Q item))
    (h : Node.calculateEach s items = .ok values) :
    (∃ value ∈ values, P value) ↔ ∃ item ∈ items, Q item := by
  have hall := Node.forall₂_of_calculateEach h
  clear h
  induction hall with
  | nil => simp
  | cons hvalue _ ih =>
    rw [List.exists_mem_cons_iff, List.exists_mem_cons_iff]
    exact or_congr (hitems _ List.mem_cons_self _ hvalue)
      (ih fun item hitem => hitems item (List.mem_cons_of_mem _ hitem))

/-- A result is that of an item. -/
lemma Node.exists_of_mem_calculateEach {items values : List Node} {value : Node}
    (h : Node.calculateEach s items = .ok values) (hvalue : value ∈ values) :
    ∃ item ∈ items, item.calculate s = .ok value := by
  refine (Node.exists_of_calculateEach_iff (P := (· = value)) (fun item _ v hv => ?_) h).1
    ⟨value, hvalue, rfl⟩
  rw [hv, Except.ok.injEq]

/-- What an arithmetic tree is evaluated to is one. -/
lemma Node.IsArithmetic.of_calculate (hn : n.IsArithmetic) (h : n.calculate s = .ok r) :
    r.IsArithmetic := by
  induction hn generalizing s r with
  | dimension =>
    rw [← Except.ok.inj h]
    exact .dimension
  | operation _ _ hleft hright =>
    rw [Node.calculate] at h
    obtain ⟨a, ha, h⟩ := except_bind_eq_ok_iff.1 h
    obtain ⟨b, hb, h⟩ := except_bind_eq_ok_iff.1 h
    exact Node.isArithmetic_of_operate (hleft ha) (hright hb) h
  | negative _ hv =>
    rw [Node.calculate] at h
    obtain ⟨v, hvalue, h⟩ := except_bind_eq_ok_iff.1 h
    split at h
    · exact Node.isArithmetic_of_operate .dimension (hv hvalue) h
    · rw [← Except.ok.inj h]
      exact .negative (hv hvalue)
  | paren _ hv =>
    rw [Node.calculate] at h
    obtain ⟨v, hvalue, h⟩ := except_bind_eq_ok_iff.1 h
    rw [← Except.ok.inj h]
    exact .paren (hv hvalue)
  | @expression info items form _ hitems =>
    rw [Node.calculate] at h
    obtain ⟨values, hvalues, h⟩ := except_bind_eq_ok_iff.1 h
    have hexpression : (Node.expressionFrom info form values).IsArithmetic := by
      refine Node.isArithmetic_expressionFrom fun value hvalue => ?_
      obtain ⟨item, hitem, hcalculate⟩ := Node.exists_of_mem_calculateEach hvalues hvalue
      exact hitems item hitem hcalculate
    rw [← Except.ok.inj h, Node.keepParens]
    split
    · exact .paren hexpression
    · exact hexpression

/-- An arithmetic tree comes out with a value that is no number exactly if it holds one, or stumbles
on the way. -/
theorem Node.hasNaN_of_calculate_iff (hn : n.IsArithmetic) (h : n.calculate s = .ok r) :
    r.HasNaN ↔ n.HasNaN ∨ n.Stumbles s := by
  induction hn generalizing s r with
  | dimension =>
    rw [← Except.ok.inj h]
    simp
  | operation hl hr hleft hright =>
    rw [Node.calculate] at h
    obtain ⟨a, ha, h⟩ := except_bind_eq_ok_iff.1 h
    obtain ⟨b, hb, h⟩ := except_bind_eq_ok_iff.1 h
    rw [Node.hasNaN_of_operate_iff (hl.of_calculate ha) (hr.of_calculate hb) h, hleft ha, hright hb,
      Node.hasNaN_operation, Node.stumbles_operation]
    simp only [hl.amountsTo_iff, hr.amountsTo_iff, ha, hb, Except.ok.injEq]
    grind
  | negative hv ih =>
    rw [Node.calculate] at h
    obtain ⟨v, hvalue, h⟩ := except_bind_eq_ok_iff.1 h
    rw [Node.hasNaN_negative, Node.stumbles_negative, ← ih hvalue]
    split at h
    · exact Node.hasNaN_of_operate_minusOne_iff (hv.of_calculate hvalue) h
    · rw [← Except.ok.inj h, Node.hasNaN_negative]
  | paren _ ih =>
    rw [Node.calculate] at h
    obtain ⟨v, hvalue, h⟩ := except_bind_eq_ok_iff.1 h
    rw [← Except.ok.inj h, Node.hasNaN_paren, Node.hasNaN_paren, Node.stumbles_paren, ih hvalue]
  | expression _ ih =>
    rw [Node.calculate] at h
    obtain ⟨values, hvalues, h⟩ := except_bind_eq_ok_iff.1 h
    rw [← Except.ok.inj h, Node.hasNaN_keepParens, Node.hasNaN_expressionFrom,
      Node.exists_of_calculateEach_iff (fun item hitem _ => ih item hitem) hvalues,
      Node.hasNaN_expression, Node.stumbles_expression]
    simp only [and_or_left, exists_or]

/-- What an arithmetic tree is evaluated to in a context holds a value that is no number exactly if
the tree does, or if an operation on the way is an indeterminate form. -/
theorem Context.hasNaN_of_evaluate_iff {c : Context} {depth : Nat} (hn : n.IsArithmetic)
    (h : (c.evaluate depth n).1 = .ok r) : r.HasNaN ↔ n.HasNaN ∨ n.Stumbles c.scope := by
  cases depth with
  | zero => cases h
  | succ depth =>
    rw [Context.evaluate_eq_calculate c depth hn] at h
    cases hcalculate : n.calculate c.scope with
    | error e =>
      rw [hcalculate] at h
      cases h
    | ok value =>
      rw [hcalculate] at h
      cases h
      exact Node.hasNaN_of_calculate_iff hn hcalculate

end Calculate

end Cascade
