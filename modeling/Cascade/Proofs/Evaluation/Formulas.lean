import Cascade.Proofs.Evaluation.Results

/-!
# Formulas inside calls

A formula is put together from numbers, keywords, operations, expressions and calls of functions
that are not in the table, such as `min` or `var`.  While a formula is evaluated, some of its
operations are carried out and all others are kept (`Node.IsFormula.settles`): which ones, is read
off the formula and the scope (`Node.carriedOut`).

Whether arithmetic is on depends on the innermost call alone.  So an operation directly inside
`calc` is kept, but one inside another call is not, even if that call stands inside `calc`.
-/

namespace Cascade

/-- Formulas, for a table of functions: all calls are of functions that are not in the table. -/
inductive Node.IsFormula (table : FunctionTable) : Node → Prop where
  | dimension {info : Info} {d : Dimension} : Node.IsFormula table (.dimension info d)
  | keyword {info : Info} {text : String} : Node.IsFormula table (.keyword info text)
  | operation {info : Info} {operator : Operator} {left right : Node} {spaced : Bool}
    (hleft : left.IsFormula table) (hright : right.IsFormula table) :
    Node.IsFormula table (.operation info operator left right spaced)
  | expression {info : Info} {items : List Node} {form : ExpressionForm}
    (hitems : ∀ item ∈ items, item.IsFormula table) :
    Node.IsFormula table (.expression info items form)
  | call {info : Info} {name : String} {args : List Node} {asCalc : Bool}
    (hname : table.find? name = none) (hargs : ∀ arg ∈ args, arg.IsFormula table) :
    Node.IsFormula table (.call info name args asCalc)

/-! ### The operations of a tree -/

namespace Node

/-- Whether a node is an operation. -/
def isOperation : Node → Bool
  | .operation .. => true
  | _ => false

/-- The number of operations in a tree. -/
def operations (n : Node) : Nat :=
  n.nodes.countP isOperation

/-- The number of operations in some trees. -/
def operationsAmong (items : List Node) : Nat :=
  (items.flatMap nodes).countP isOperation

section Operations

variable {info : Info}

@[simp] lemma operations_dimension (d : Dimension) : (Node.dimension info d).operations = 0 :=
  rfl

@[simp] lemma operations_operation (operator : Operator) (l r : Node) (spaced : Bool) :
    (Node.operation info operator l r spaced).operations = l.operations + r.operations + 1 := by
  simp [operations, nodes, gather, isOperation, List.countP_cons]

@[simp] lemma operations_paren (v : Node) : (Node.paren info v).operations = v.operations := by
  simp [operations, nodes, gather, isOperation]

@[simp] lemma operationsAmong_cons (item : Node) (rest : List Node) :
    operationsAmong (item :: rest) = item.operations + operationsAmong rest := by
  simp only [operationsAmong, operations, List.flatMap_cons, List.countP_append]

@[simp] lemma operations_expression (items : List Node) (form : ExpressionForm) :
    (Node.expression info items form).operations = operationsAmong items := by
  simp only [operations, operationsAmong, nodes, gather, gatherEach_eq, List.countP_append]
  exact Nat.zero_add _

@[simp] lemma operations_call (name : String) (args : List Node) (asCalc : Bool) :
    (Node.call info name args asCalc).operations = operationsAmong args := by
  simp only [operations, operationsAmong, nodes, gather, gatherEach_eq, List.countP_append]
  exact Nat.zero_add _

/-- An expression from the results of its items has their operations. -/
@[simp] lemma operations_expressionFrom (form : ExpressionForm) (values : List Node) :
    (expressionFrom info form values).operations = operationsAmong values := by
  match values with
  | [] | _ :: _ :: _ => exact operations_expression _ _
  | [single] => exact (operationsAmong_cons single []).symm

/-- Parentheses that are kept hold the same operations. -/
@[simp] lemma operations_keepParens (s : Scope) (form : ExpressionForm) (items : List Node)
    (r : Node) : (keepParens s form items r).operations = r.operations := by
  unfold keepParens
  split
  · exact operations_paren r
  · rfl

end Operations

/-! ### Operations that are carried out -/

mutual

/-- Whether a formula comes down to a number in a scope. -/
def isAmount (s : Scope) : Node → Bool
  | .dimension .. => true
  | .operation _ operator left right _ =>
    s.computes operator && left.isAmount s && right.isAmount s
  | .expression _ items form => isSingleAmount (form.inside s) items
  | _ => false

/-- Whether there is a single item, which comes down to a number. -/
def isSingleAmount (s : Scope) : List Node → Bool
  | [item] => item.isAmount s
  | _ => false

end

mutual

/-- The number of operations that are carried out while a formula is evaluated in a scope: those
that the scope computes and whose operands come down to numbers. -/
def carriedOut (s : Scope) : Node → Nat
  | .operation _ operator left right _ =>
    left.carriedOut s + right.carriedOut s +
      (s.computes operator && left.isAmount s && right.isAmount s).toNat
  | .expression _ items form => carriedOutAmong (form.inside s) items
  | .call _ _ args asCalc => carriedOutAmong (s.enterCall asCalc) args
  | _ => 0

/-- The number of operations that are carried out in some formulas. -/
def carriedOutAmong (s : Scope) : List Node → Nat
  | [] => 0
  | item :: rest => item.carriedOut s + carriedOutAmong s rest

end

mutual

/-- Whether `calc` is the innermost call around every operation of a formula, given whether it is
the innermost one around the formula. -/
def isShielded (shielded : Bool) : Node → Bool
  | .operation _ _ left right _ =>
    shielded && left.isShielded shielded && right.isShielded shielded
  | .expression _ items _ => areShielded shielded items
  | .call _ _ args asCalc => areShielded asCalc args
  | _ => true

/-- Whether `calc` is the innermost call around every operation of some formulas. -/
def areShielded (shielded : Bool) : List Node → Bool
  | [] => true
  | item :: rest => item.isShielded shielded && areShielded shielded rest

end

/-- What a formula becomes in a scope: a number if it comes down to one, never a colour, and without
the operations that are carried out. -/
structure Settles (s : Scope) (n r : Node) : Prop where
  isColor : r.isColor = false
  isDimension : r.isDimension = n.isAmount s
  operations : r.operations + n.carriedOut s = n.operations

section Settles

variable {s : Scope}

/-- An operation on operands that have become what they become is carried out or kept. -/
lemma Settles.operation {info : Info} {operator : Operator} {spaced : Bool} {l r a b result : Node}
    (ha : l.Settles s a) (hb : r.Settles s b)
    (h : operate s info operator spaced a b = .ok result) :
    (Node.operation info operator l r spaced).Settles s result := by
  have hleft := ha.operations
  have hright := hb.operations
  have hamount : (Node.operation info operator l r spaced).isAmount s =
      (s.computes operator && a.isDimension && b.isDimension) := by
    rw [isAmount, ha.isDimension, hb.isDimension]
  have hcount : (Node.operation info operator l r spaced).carriedOut s =
      l.carriedOut s + r.carriedOut s +
        (s.computes operator && a.isDimension && b.isDimension).toNat := by
    rw [carriedOut, ha.isDimension, hb.isDimension]
  -- an operation that is kept has the operations of its operands and itself
  have hkept : (s.computes operator && a.isDimension && b.isDimension) = false →
      (Node.operation info operator l r spaced).Settles s
        (.operation info.snapshot operator a b spaced) := by
    intro hnot
    rw [hnot] at hamount hcount
    refine ⟨rfl, hamount.symm, ?_⟩
    rw [hcount, operations_operation, operations_operation, Bool.toNat_false]
    omega
  unfold operate at h
  split at h
  next hcomputes =>
    rcases compute_cases_of_isColor_eq_false ha.isColor hb.isColor h with
      ⟨i, j, x, y, d, rfl, rfl, -, rfl⟩ | ⟨hother, rfl⟩
    · rw [hcomputes] at hamount hcount
      refine ⟨rfl, hamount.symm, ?_⟩
      rw [operations_dimension] at hleft hright
      rw [hcount, operations_dimension, operations_operation]
      change 0 + (l.carriedOut s + r.carriedOut s + 1) = _
      omega
    · exact hkept (by rw [hother, Bool.and_false, Bool.false_and])
  next hcomputes =>
    rw [← Except.ok.inj h]
    exact hkept (by rw [Bool.eq_false_iff.2 hcomputes, Bool.false_and, Bool.false_and])

/-- The operations of results. -/
lemma operationsAmong_of_settles {items values : List Node}
    (h : List.Forall₂ (Settles s) items values) :
    operationsAmong values + carriedOutAmong s items = operationsAmong items := by
  induction h with
  | nil => rfl
  | cons hitem _ ih =>
    have hoperations := hitem.operations
    rw [operationsAmong_cons, operationsAmong_cons, carriedOutAmong]
    omega

/-- An expression of items that have become what they become. -/
lemma Settles.expression {info : Info} {items values : List Node} {form : ExpressionForm}
    (h : List.Forall₂ (Settles (form.inside s)) items values) :
    (Node.expression info items form).Settles s
      (keepParens s form items (expressionFrom info form values)) := by
  have hexpression : (expressionFrom info form values).isColor = false ∧
      (expressionFrom info form values).isDimension = isSingleAmount (form.inside s) items := by
    match h with
    | .nil => exact ⟨rfl, rfl⟩
    | .cons hitem .nil => exact ⟨hitem.isColor, hitem.isDimension⟩
    | .cons _ (.cons _ _) => exact ⟨rfl, rfl⟩
  obtain ⟨hcolor, hdimension⟩ := hexpression
  refine ⟨?_, ?_, ?_⟩
  · unfold keepParens
    split
    · rfl
    · exact hcolor
  · rw [isAmount, ← hdimension]
    unfold keepParens
    split
    next hkeep =>
      -- parentheses are not kept around a number
      rw [Bool.and_eq_true, Bool.not_eq_true'] at hkeep
      exact hkeep.2.symm
    · rfl
  · rw [operations_keepParens, operations_expressionFrom, operations_expression, carriedOut]
    exact operationsAmong_of_settles h

end Settles

/-- What a formula is evaluated to. -/
theorem IsFormula.settles {table : FunctionTable} {n : Node} (hn : n.IsFormula table) {s : Scope}
    (hs : s.functionTable = .ok table) {resolve : Resolver Scoped} {r : Node}
    (h : n.EvaluatesTo resolve s r) : n.Settles s r := by
  induction hn generalizing s r with
  | dimension | keyword =>
    obtain ⟨q, h⟩ := h
    cases h
    exact ⟨rfl, rfl, rfl⟩
  | operation _ _ hleft hright =>
    obtain ⟨a, b, ha, hb, h⟩ := h.operation
    exact .operation (hleft hs ha) (hright hs hb) h
  | @expression info items form _ hitems =>
    obtain ⟨values, hvalues, rfl⟩ := h.expression
    have hinside : (form.inside s).functionTable = .ok table := by
      unfold ExpressionForm.inside
      split <;> exact hs
    exact .expression (forall₂_of_evaluatesTo hvalues fun item hitem _ => hitems item hitem hinside)
  | @call info name args asCalc hname _ hargs =>
    obtain ⟨values, hvalues, rfl⟩ := h.call hs hname
    have hinside : (s.enterCall asCalc).functionTable = .ok table := by
      rw [Scope.functionTable_congr (s.frames_enterCall asCalc), hs]
    refine ⟨rfl, rfl, ?_⟩
    rw [operations_call, operations_call, carriedOut]
    exact operationsAmong_of_settles
      (forall₂_of_evaluatesTo hvalues fun arg harg _ => hargs arg harg hinside)

/-! ### Formulas inside `calc` -/

/-- Nothing is carried out if some formulas are left as they are. -/
lemma carriedOutAmong_eq_zero_iff {s : Scope} {items : List Node} :
    carriedOutAmong s items = 0 ↔ ∀ item ∈ items, item.carriedOut s = 0 := by
  induction items with
  | nil => simp [carriedOutAmong]
  | cons item rest ih => simp [carriedOutAmong, ih]

/-- Formulas are shielded if each of them is. -/
lemma areShielded_iff {shielded : Bool} {items : List Node} :
    areShielded shielded items ↔ ∀ item ∈ items, item.isShielded shielded := by
  induction items with
  | nil => simp [areShielded]
  | cons item rest ih => simp [areShielded, ih]

/-- No operation is carried out if arithmetic is off in the innermost call around it. -/
lemma IsFormula.carriedOut_eq_zero {table : FunctionTable} {n : Node} (hn : n.IsFormula table)
    {s : Scope} (h : n.isShielded (!s.mathOn)) : n.carriedOut s = 0 := by
  induction hn generalizing s with
  | dimension | keyword => rfl
  | operation _ _ hleft hright =>
    simp only [isShielded, Bool.and_eq_true] at h
    obtain ⟨⟨hoff, hl⟩, hr⟩ := h
    rw [Bool.not_eq_true'] at hoff
    rw [carriedOut, hleft hl, hright hr, Scope.computes_eq_false hoff]
    rfl
  | @expression info items form _ hitems =>
    rw [isShielded, areShielded_iff] at h
    rw [carriedOut, carriedOutAmong_eq_zero_iff]
    have hmath : (form.inside s).mathOn = s.mathOn := by
      unfold ExpressionForm.inside
      split <;> rfl
    exact fun item hitem => hitems item hitem (by rw [hmath]; exact h item hitem)
  | @call info name args asCalc _ _ hargs =>
    rw [isShielded, areShielded_iff] at h
    rw [carriedOut, carriedOutAmong_eq_zero_iff]
    have hmath : (!(s.enterCall asCalc).mathOn) = asCalc := by simp [Scope.enterCall]
    exact fun arg harg => hargs arg harg (by rw [hmath]; exact h arg harg)

end Node

/-- The operations of a formula inside `calc` are those of the result and those that were carried
out.  So all operations are still there exactly if none is carried out, which is the case if `calc`
is the innermost call around each of them. -/
theorem Context.operations_of_calc (c : Context) (depth : Nat) (table : FunctionTable)
    (htable : c.scope.functionTable = .ok table) (info : Info) (name : String) (args : List Node)
    (hcall : (Node.call info name args true).IsFormula table) (r : Node)
    (h : (c.evaluate depth (.call info name args true)).1 = .ok r) :
    r.operations + Node.carriedOutAmong (c.scope.enterCall true) args =
      Node.operationsAmong args ∧
    (r.operations = Node.operationsAmong args ↔
      ∀ arg ∈ args, arg.carriedOut (c.scope.enterCall true) = 0) ∧
    (Node.areShielded true args → r.operations = Node.operationsAmong args) := by
  have hevaluates : ∃ resolve, (Node.call info name args true).EvaluatesTo resolve c.scope r := by
    cases depth with
    | zero => cases h
    | succ depth =>
      rw [Context.evaluate_eq, Node.eval] at h
      exact ⟨_, _, h⟩
  obtain ⟨resolve, hevaluates⟩ := hevaluates
  have hcount := (hcall.settles htable hevaluates).operations
  rw [Node.operations_call, Node.carriedOut] at hcount
  have hiff : r.operations = Node.operationsAmong args ↔
      ∀ arg ∈ args, arg.carriedOut (c.scope.enterCall true) = 0 := by
    rw [← Node.carriedOutAmong_eq_zero_iff]
    omega
  refine ⟨hcount, hiff, fun hshielded => hiff.2 ?_⟩
  have hzero : (Node.call info name args true).carriedOut c.scope = 0 :=
    hcall.carriedOut_eq_zero hshielded
  rwa [Node.carriedOut, Node.carriedOutAmong_eq_zero_iff] at hzero

/-- A context with the built-in functions and no variables. -/
def builtinContext : Context :=
  { frames := [.mk none (some .builtins)] }

/-- A length in pixels. -/
def Node.pixels (x : Float) : Node :=
  .dimension {} ⟨x, .ofName "px"⟩

/-- A sum in parentheses that is multiplied, and a difference in an inner `calc`. -/
def nestedCalc : List Node :=
  let sum := .operation {} .add (.pixels 1.0) (.pixels 2.0) true
  let product := .operation {} .mul (.expression {} [sum] { parens := true }) (.pixels 3.0) true
  let difference := .operation {} .sub (.keyword {} "x") (.pixels 4.0) true
  [product, .makeCall {} "min" [.makeCall {} "Calc" [difference]]]

/-- The operations of the two formulas are all kept. -/
theorem operations_of_nestedCalc :
    ∃ r, (builtinContext.evaluate 1 (.makeCall {} "calc" nestedCalc)).1 = .ok r ∧
      r.operations = 3 := by
  have hcall : (Node.makeCall {} "calc" nestedCalc).IsFormula .builtins := by
    refine .call rfl (List.forall_mem_cons.2 ⟨?_, List.forall_mem_singleton.2 ?_⟩)
    · refine .operation (.expression (List.forall_mem_singleton.2 ?_)) .dimension
      exact .operation .dimension .dimension
    · refine .call rfl (List.forall_mem_singleton.2 (.call rfl (List.forall_mem_singleton.2 ?_)))
      exact .operation .keyword .dimension
  exact ⟨_, rfl, (builtinContext.operations_of_calc 1 .builtins rfl {} "calc" nestedCalc hcall _
    rfl).2.2 rfl⟩

/-- A sum inside `min`, inside `calc`. -/
def sumInMin : Node :=
  .makeCall {} "calc" [.makeCall {} "min" [.operation {} .add (.pixels 1.0) (.pixels 2.0) true]]

/-- The sum is carried out although it stands inside `calc`: the call around it turns arithmetic on
again. -/
theorem operations_lost_sumInMin :
    sumInMin.IsFormula .builtins ∧ sumInMin.operations = 1 ∧
      let computed : Node := .makeCall {} "calc" [.makeCall {} "min" [.pixels 3.0]]
      (builtinContext.evaluate 1 sumInMin).1 = .ok computed ∧ computed.operations = 0 := by
  refine ⟨?_, rfl, rfl, rfl⟩
  refine .call rfl (List.forall_mem_singleton.2 (.call rfl (List.forall_mem_singleton.2 ?_)))
  exact .operation .dimension .dimension

end Cascade
