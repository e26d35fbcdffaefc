import Cascade.Proofs.Evaluation.Results

/-!
# Grouping inside `calc`

Operations are printed without parentheses, so the text of a product groups as the tree does only if
no operand is a sum (`Node.IsGrouped`).  Inside `calc` all operations are kept, and their operands
are replaced by what they are evaluated to.  Parentheses that are marked as those of an operand are
kept, but nothing is put around the value of a variable: a sum that a variable holds becomes an
operand.

For calculations, which need nothing but variables (`Node.IsCalculation`), this is the whole story:
the result is grouped exactly if no product has an operand that stands for a sum
(`Node.IsCalculation.regroups`).
-/

namespace Cascade

/-! ### Grouped trees -/

namespace Operator

/-- Sums and differences. -/
def isSum : Operator → Bool
  | .add | .sub => true
  | _ => false

/-- Products and quotients. -/
def isProduct : Operator → Bool
  | .mul | .div => true
  | _ => false

end Operator

namespace Node

mutual

/-- Whether a node is a sum without parentheses around it.  Lists of one item, and expressions of
one item without parentheses, are printed as the item. -/
def isOpenSum : Node → Bool
  | .operation _ operator _ _ _ => operator.isSum
  | .expression _ items form => !form.parens && isSingleOpenSum items
  | .value _ items => isSingleOpenSum items
  | _ => false

/-- Whether there is a single item, which is a sum without parentheses around it. -/
def isSingleOpenSum : List Node → Bool
  | [item] => item.isOpenSum
  | _ => false

end

/-- A number is no sum. -/
lemma isOpenSum_of_isDimension {n : Node} (h : n.isDimension) : n.isOpenSum = false := by
  cases n with
  | dimension => rfl
  | _ => cases h

/-- Whether a node is a product with a sum as an operand. -/
def isRegrouped : Node → Bool
  | .operation _ operator l r _ => operator.isProduct && (l.isOpenSum || r.isOpenSum)
  | _ => false

/-- No product in the tree has a sum as an operand. -/
def IsGrouped (n : Node) : Prop :=
  n.Throughout fun m => m.isRegrouped = false

instance (n : Node) : Decidable n.IsGrouped :=
  inferInstanceAs (Decidable (n.Throughout _))

section IsGrouped

variable {info : Info}

@[simp] lemma isGrouped_operation {operator : Operator} {l r : Node} {spaced : Bool} :
    (Node.operation info operator l r spaced).IsGrouped ↔
      (operator.isProduct → ¬ (l.isOpenSum ∨ r.isOpenSum)) ∧ l.IsGrouped ∧ r.IsGrouped := by
  rw [IsGrouped, throughout_iff]
  simp [children, held, isRegrouped, IsGrouped]

@[simp] lemma isGrouped_expression {items : List Node} {form : ExpressionForm} :
    (Node.expression info items form).IsGrouped ↔ ∀ item ∈ items, item.IsGrouped := by
  rw [IsGrouped, throughout_iff]
  simp [children, held, isRegrouped, IsGrouped]

@[simp] lemma isGrouped_value {items : List Node} :
    (Node.value info items).IsGrouped ↔ ∀ item ∈ items, item.IsGrouped := by
  rw [IsGrouped, throughout_iff]
  simp [children, held, isRegrouped, IsGrouped]

@[simp] lemma isGrouped_call {name : String} {args : List Node} {asCalc : Bool} :
    (Node.call info name args asCalc).IsGrouped ↔ ∀ arg ∈ args, arg.IsGrouped := by
  rw [IsGrouped, throughout_iff]
  simp [children, held, isRegrouped, IsGrouped]

@[simp] lemma isGrouped_paren {v : Node} : (Node.paren info v).IsGrouped ↔ v.IsGrouped := by
  rw [IsGrouped, throughout_iff]
  simp [children, held, isRegrouped, IsGrouped]

@[simp] lemma isGrouped_negative {v : Node} : (Node.negative info v).IsGrouped ↔ v.IsGrouped := by
  rw [IsGrouped, throughout_iff]
  simp [children, held, isRegrouped, IsGrouped]

end IsGrouped

/-! ### Calculations -/

/-- Whether a node has no parts and is evaluated to itself, up to its place. -/
def isPlain : Node → Bool
  | .anonymous .. | .color .. | .dimension .. | .keyword .. | .unicodeDescriptor .. => true
  | _ => false

/-- Calculations in some frames: operations, expressions, lists, parentheses and minus signs on
plain nodes, and references by name to variables that hold calculations. -/
inductive IsCalculation : List Frame → Node → Prop where
  | plain {frames : List Frame} {n : Node} (h : n.isPlain) : IsCalculation frames n
  | operation {frames : List Frame} {info : Info} {operator : Operator} {left right : Node}
    {spaced : Bool} (hleft : IsCalculation frames left) (hright : IsCalculation frames right) :
    IsCalculation frames (.operation info operator left right spaced)
  | expression {frames : List Frame} {info : Info} {items : List Node} {form : ExpressionForm}
    (hitems : ∀ item ∈ items, IsCalculation frames item) :
    IsCalculation frames (.expression info items form)
  | value {frames : List Frame} {info : Info} {items : List Node}
    (hitems : ∀ item ∈ items, IsCalculation frames item) :
    IsCalculation frames (.value info items)
  | paren {frames : List Frame} {info : Info} {v : Node} (hv : IsCalculation frames v) :
    IsCalculation frames (.paren info v)
  | negative {frames : List Frame} {info : Info} {v : Node} (hv : IsCalculation frames v) :
    IsCalculation frames (.negative info v)
  | reference {frames : List Frame} {info : Info} {name : String} {found : Binding}
    (hname : Resolver.atSigns name ≤ 1) (hfound : Frame.lookup? name frames = some found)
    (hvalue : IsCalculation found.frames found.value) :
    IsCalculation frames (.variableRef info name)

/-- A calculation that stands for a sum: it is one, or is put around one without parentheses that
are kept, or refers to a variable that holds one. -/
inductive StandsForSum : List Frame → Node → Prop where
  | operation {frames : List Frame} {info : Info} {operator : Operator} {left right : Node}
    {spaced : Bool} (h : operator.isSum) :
    StandsForSum frames (.operation info operator left right spaced)
  | expression {frames : List Frame} {info : Info} {item : Node} {form : ExpressionForm}
    (hform : (form.parens && form.parensInOp) = false) (hitem : StandsForSum frames item) :
    StandsForSum frames (.expression info [item] form)
  | value {frames : List Frame} {info : Info} {item : Node} (hitem : StandsForSum frames item) :
    StandsForSum frames (.value info [item])
  | reference {frames : List Frame} {info : Info} {name : String} {found : Binding}
    (hfound : Frame.lookup? name frames = some found)
    (hvalue : StandsForSum found.frames found.value) :
    StandsForSum frames (.variableRef info name)

/-- A product with an operand that stands for a sum, in a calculation or in the value of a variable
that it refers to. -/
inductive Clashes : List Frame → Node → Prop where
  | here {frames : List Frame} {info : Info} {operator : Operator} {left right : Node}
    {spaced : Bool} (h : operator.isProduct)
    (hsum : StandsForSum frames left ∨ StandsForSum frames right) :
    Clashes frames (.operation info operator left right spaced)
  | inside {frames : List Frame} {n part : Node} (hpart : part ∈ n.children)
    (h : Clashes frames part) : Clashes frames n
  | reference {frames : List Frame} {info : Info} {name : String} {found : Binding}
    (hfound : Frame.lookup? name frames = some found)
    (hvalue : Clashes found.frames found.value) : Clashes frames (.variableRef info name)

/-- Whether a node is neither an operation nor a reference. -/
def isBystander : Node → Bool
  | .operation .. | .variableRef .. => false
  | _ => true

section Clashes

variable {frames : List Frame} {info : Info}

lemma clashes_operation {operator : Operator} {l r : Node} {spaced : Bool} :
    Clashes frames (.operation info operator l r spaced) ↔
      operator.isProduct ∧ (StandsForSum frames l ∨ StandsForSum frames r) ∨
        Clashes frames l ∨ Clashes frames r := by
  constructor
  · intro h
    cases h with
    | here h hsum => exact .inl ⟨h, hsum⟩
    | inside hpart h =>
      rcases List.mem_cons.1 hpart with rfl | hpart
      · exact .inr (.inl h)
      · exact .inr (.inr (List.mem_singleton.1 hpart ▸ h))
  · rintro (⟨h, hsum⟩ | h | h)
    · exact .here h hsum
    · exact .inside List.mem_cons_self h
    · exact .inside (List.mem_cons_of_mem _ (List.mem_singleton_self r)) h

/-- What is neither an operation nor a reference clashes if a part of it does. -/
lemma clashes_iff_of_isBystander {n : Node} (hn : n.isBystander) :
    Clashes frames n ↔ ∃ part ∈ n.children, Clashes frames part := by
  constructor
  · intro h
    cases h with
    | here => cases hn
    | inside hpart h => exact ⟨_, hpart, h⟩
    | reference => cases hn
  · rintro ⟨part, hpart, h⟩
    exact .inside hpart h

/-- A reference clashes if the value of the variable does. -/
lemma clashes_variableRef {name : String} {found : Binding}
    (hfound : Frame.lookup? name frames = some found) :
    Clashes frames (.variableRef info name) ↔ Clashes found.frames found.value := by
  constructor
  · intro h
    cases h with
    | inside hpart _ => exact absurd hpart List.not_mem_nil
    | reference hfound' hvalue =>
      rw [hfound] at hfound'
      rwa [Option.some.inj hfound']
  · exact .reference hfound

/-- A reference stands for a sum if the value of the variable does. -/
lemma standsForSum_variableRef {name : String} {found : Binding}
    (hfound : Frame.lookup? name frames = some found) :
    StandsForSum frames (.variableRef info name) ↔ StandsForSum found.frames found.value := by
  constructor
  · intro h
    cases h with
    | reference hfound' hvalue =>
      rw [hfound] at hfound'
      rwa [Option.some.inj hfound']
  · exact .reference hfound

end Clashes

/-! ### Calculations inside `calc` -/

/-- What a calculation becomes: a sum if it stands for one, and a grouped tree if it does not
clash. -/
structure Regroups (frames : List Frame) (n r : Node) : Prop where
  isOpenSum : r.isOpenSum ↔ StandsForSum frames n
  isGrouped : r.IsGrouped ↔ ¬ Clashes frames n

end Node

/-- A scope inside `calc`, with the variables of some frames. -/
structure Scope.InsideCalc (frames : List Frame) (s : Scope) : Prop where
  mathOn : s.mathOn = false
  inCalc : s.inCalc
  rulesets : s.frames.map Frame.ruleset = frames.map Frame.ruleset

namespace Scope.InsideCalc

variable {frames : List Frame} {s : Scope}

/-- The items of an expression. -/
lemma inside (h : s.InsideCalc frames) (form : ExpressionForm) :
    (form.inside s).InsideCalc frames := by
  unfold ExpressionForm.inside
  split
  · exact ⟨h.mathOn, h.inCalc, h.rulesets⟩
  · exact h

/-- The value of a variable. -/
lemma enterBinding (h : s.InsideCalc frames) {name : String} {found found' : Binding}
    (hfound : Frame.lookup? name frames = some found)
    (hfound' : Frame.lookup? name s.frames = some found') :
    found'.value = found.value ∧
      ((s.enterVariable name).setFrames (s.bindingFrames found')).InsideCalc found.frames := by
  have hsame : s.frames.map Frame.ruleset = frames.map Frame.ruleset ++ [] := by
    rw [h.rulesets, List.append_nil]
  obtain ⟨found'', hlookup, hvalue, -, hrulesets⟩ := Frame.lookup?_of_rulesets hfound hsame
  rw [hfound'] at hlookup
  obtain rfl := Option.some.inj hlookup
  refine ⟨hvalue, h.mathOn, h.inCalc, ?_⟩
  show (Frame.fillFunctions s.functions? found'.frames).map Frame.ruleset = _
  rw [Frame.map_ruleset_fillFunctions, hrulesets, List.append_nil]

/-- Inside `calc`, parentheses of an operand are kept around anything but a number. -/
lemma keepParens (h : s.InsideCalc frames) (form : ExpressionForm) (items : List Node) (r : Node) :
    Node.keepParens s form items r =
      if form.parens && form.parensInOp && !r.isDimension then .paren {} r else r := by
  have hdouble : Node.isDoubleParen s items = false := by
    unfold Node.isDoubleParen
    split
    · rw [h.inCalc, Bool.not_true, Bool.and_false]
    · rfl
  rw [Node.keepParens, Scope.isMathOn_eq_false h.mathOn, hdouble]
  simp

end Scope.InsideCalc

namespace Node

variable {frames : List Frame} {s : Scope} {info : Info}

/-- Parts of which one clashes, and their results of which one is not grouped. -/
lemma isGrouped_iff_of_regroups {items values : List Node}
    (h : List.Forall₂ (Regroups frames) items values) :
    (∀ value ∈ values, value.IsGrouped) ↔ ¬ ∃ item ∈ items, Clashes frames item := by
  induction h with
  | nil => simp
  | cons hitem _ ih =>
    rw [List.forall_mem_cons, List.exists_mem_cons_iff, not_or, hitem.isGrouped, ih]

/-- An operation that is kept. -/
lemma Regroups.operation {operator : Operator} {spaced : Bool} {l r a b result : Node}
    (hs : s.InsideCalc frames) (ha : Regroups frames l a) (hb : Regroups frames r b)
    (h : operate s info operator spaced a b = .ok result) :
    Regroups frames (.operation info operator l r spaced) result := by
  rw [operate, Scope.computes_eq_false hs.mathOn, if_neg Bool.false_ne_true] at h
  rw [← Except.ok.inj h]
  constructor
  · refine ⟨.operation, fun hsum => ?_⟩
    cases hsum with
    | operation h => exact h
  · simp only [isGrouped_operation, clashes_operation, ha.isOpenSum, hb.isOpenSum, ha.isGrouped,
      hb.isGrouped, not_or, not_and]

/-- A single result is a sum if the single item stands for one. -/
lemma isSingleOpenSum_iff_of_regroups {items values : List Node}
    (h : List.Forall₂ (Regroups frames) items values) :
    isSingleOpenSum values ↔ ∃ item, items = [item] ∧ StandsForSum frames item := by
  match h with
  | .nil => simp [isSingleOpenSum]
  | .cons hitem .nil => simp [isSingleOpenSum, hitem.isOpenSum]
  | .cons _ (.cons _ _) => simp [isSingleOpenSum]

/-- An expression. -/
lemma Regroups.expression {items values : List Node} {form : ExpressionForm}
    (hs : s.InsideCalc frames) (h : List.Forall₂ (Regroups frames) items values) :
    Regroups frames (.expression info items form)
      (keepParens s form items (expressionFrom info form values)) := by
  have hsum : (expressionFrom info form values).isOpenSum ↔
      ∃ item, items = [item] ∧ StandsForSum frames item := by
    rw [← isSingleOpenSum_iff_of_regroups h]
    match values with
    | [] => exact iff_of_eq (congrArg (· = true) (Bool.and_false _))
    | [_] | _ :: _ :: _ => exact Iff.rfl
  have hgrouped : (expressionFrom info form values).IsGrouped ↔
      ∀ value ∈ values, value.IsGrouped := by
    match values with
    | [] | _ :: _ :: _ => exact isGrouped_expression
    | [single] => simp [expressionFrom]
  have hstands : StandsForSum frames (.expression info items form) ↔
      (form.parens && form.parensInOp) = false ∧
        ∃ item, items = [item] ∧ StandsForSum frames item := by
    constructor
    · intro hstands
      cases hstands with
      | expression hform hitem => exact ⟨hform, _, rfl, hitem⟩
    · rintro ⟨hform, item, rfl, hitem⟩
      exact .expression hform hitem
  rw [hs.keepParens]
  constructor
  · rw [hstands]
    cases hform : form.parens && form.parensInOp with
    | true =>
      refine iff_of_false (fun hopen => ?_) fun hfalse => Bool.false_ne_true hfalse.1.symm
      split at hopen
      · cases hopen
      next hnumber =>
        -- a number is no sum
        rw [Bool.true_and, Bool.not_eq_true', Bool.not_eq_false] at hnumber
        rw [isOpenSum_of_isDimension hnumber] at hopen
        cases hopen
    | false => simpa using hsum
  · rw [clashes_iff_of_isBystander rfl]
    refine Iff.trans ?_ (hgrouped.trans (isGrouped_iff_of_regroups h))
    split
    · exact isGrouped_paren
    · exact Iff.rfl

/-- A list. -/
lemma Regroups.value {items values : List Node}
    (h : List.Forall₂ (Regroups frames) items values) :
    Regroups frames (.value info items) (valueFrom info values) := by
  have hsum : (valueFrom info values).isOpenSum = isSingleOpenSum values := by
    match values with
    | [] | [_] | _ :: _ :: _ => rfl
  have hgrouped : (valueFrom info values).IsGrouped ↔ ∀ value ∈ values, value.IsGrouped := by
    match values with
    | [] | _ :: _ :: _ => exact isGrouped_value
    | [single] => simp [valueFrom]
  constructor
  · rw [hsum, isSingleOpenSum_iff_of_regroups h]
    constructor
    · rintro ⟨item, rfl, hitem⟩
      exact .value hitem
    · intro hstands
      cases hstands with
      | value hitem => exact ⟨_, rfl, hitem⟩
  · rw [hgrouped, isGrouped_iff_of_regroups h, clashes_iff_of_isBystander rfl]
    rfl

/-- Whether a node is printed with signs of its own around its parts, or has none. -/
def isEnclosed : Node → Bool
  | .operation .. | .expression .. | .value .. | .variableRef .. => false
  | _ => true

/-- Such a node stands for no sum, and clashes if a part of it does. -/
lemma Regroups.of_isEnclosed {n r : Node} (hn : n.isEnclosed) (hsum : r.isOpenSum = false)
    (hgrouped : r.IsGrouped ↔ ∀ part ∈ n.children, ¬ Clashes frames part) :
    Regroups frames n r := by
  have hbystander : n.isBystander := by
    cases n with
    | operation | expression | value | variableRef => cases hn
    | _ => rfl
  constructor
  · refine iff_of_false (fun h => Bool.false_ne_true (hsum.symm.trans h)) fun hstands => ?_
    cases hstands <;> cases hn
  · rw [hgrouped, clashes_iff_of_isBystander hbystander]
    simp only [not_exists, not_and]

/-- What a calculation is evaluated to inside `calc`. -/
theorem IsCalculation.regroups {n : Node} (hn : IsCalculation frames n) {depth : Nat}
    (hs : s.InsideCalc frames) {r : Node}
    (h : n.EvaluatesTo ⟨Node.eval depth, Node.eval depth⟩ s r) : Regroups frames n r := by
  induction hn generalizing depth s r with
  | @plain frames n hplain =>
    obtain ⟨q, h⟩ := h
    cases n with
    | anonymous | color | dimension | keyword | unicodeDescriptor =>
      rw [evalWith] at h
      cases h
      refine .of_isEnclosed rfl rfl (iff_of_true ?_ fun _ hpart => absurd hpart List.not_mem_nil)
      exact List.forall_mem_singleton.2 rfl
    | _ => cases hplain
  | operation _ _ hleft hright =>
    obtain ⟨a, b, ha, hb, h⟩ := h.operation
    exact .operation hs (hleft hs ha) (hright hs hb) h
  | @expression frames info items form _ hitems =>
    obtain ⟨values, hvalues, rfl⟩ := h.expression
    exact .expression hs
      (forall₂_of_evaluatesTo hvalues fun item hitem _ => hitems item hitem (hs.inside form))
  | value _ hitems =>
    obtain ⟨values, hvalues, rfl⟩ := h.value
    exact .value (forall₂_of_evaluatesTo hvalues fun item hitem _ => hitems item hitem hs)
  | paren _ hv =>
    obtain ⟨a, ha, rfl⟩ := h.paren
    refine .of_isEnclosed rfl rfl ?_
    rw [isGrouped_paren, (hv hs ha).isGrouped, children, List.forall_mem_singleton]
  | negative _ hv =>
    obtain ⟨a, ha, rfl⟩ := h.negative (Scope.isMathOn_eq_false hs.mathOn)
    refine .of_isEnclosed rfl rfl ?_
    rw [isGrouped_negative, (hv hs ha).isGrouped, children, List.forall_mem_singleton]
  | reference hname hfound _ hvalue =>
    obtain ⟨found', q, hfound', h⟩ := h.variableRef hname
    obtain ⟨hsame, hinside⟩ := hs.enterBinding hfound hfound'
    cases depth with
    | zero => cases h
    | succ depth =>
      rw [hsame] at h
      have hregroups := hvalue hinside ⟨q, h⟩
      constructor
      · rw [hregroups.isOpenSum, standsForSum_variableRef hfound]
      · rw [hregroups.isGrouped, clashes_variableRef hfound]

end Node

/-- A calculation inside `calc` is evaluated to a grouped tree exactly if no product in it, or in
the value of a variable that it refers to, has an operand that stands for a sum. -/
theorem Context.isGrouped_of_calc_iff (c : Context) (depth : Nat) (table : FunctionTable)
    (htable : c.scope.functionTable = .ok table) (info : Info) (name : String) (args : List Node)
    (hname : table.find? name = none) (hargs : ∀ arg ∈ args, arg.IsCalculation c.frames) (r : Node)
    (h : (c.evaluate depth (.call info name args true)).1 = .ok r) :
    r.IsGrouped ↔ ∀ arg ∈ args, ¬ arg.Clashes c.frames := by
  cases depth with
  | zero => cases h
  | succ depth =>
    rw [Context.evaluate_eq, Node.eval] at h
    obtain ⟨values, hvalues, rfl⟩ := Node.EvaluatesTo.call htable hname ⟨_, h⟩
    have hinside : (c.scope.enterCall true).InsideCalc c.frames := by
      refine ⟨?_, ?_, ?_⟩
      · simp [Scope.enterCall]
      · simp [Scope.enterCall]
      · rw [Scope.frames_enterCall]
        rfl
    have hregroups := Node.forall₂_of_evaluatesTo hvalues fun arg harg _ =>
      (hargs arg harg).regroups hinside
    rw [Node.isGrouped_call, Node.isGrouped_iff_of_regroups hregroups]
    simp only [not_exists, not_and]

/-- The sum of two lengths. -/
def sumOfPixels : Node :=
  .operation {} .add (.dimension {} ⟨1.0, .ofName "px"⟩) (.dimension {} ⟨2.0, .ofName "px"⟩) true

/-- A context in which a variable holds a sum. -/
def sumContext : Context :=
  let declared := .declaration {} (.literal "@sum") sumOfPixels { isVariable := true }
  { frames := [.mk (some (.ofRules [] [declared])) (some .builtins)] }

/-- Twice the variable, with something around it. -/
def twice (around : Node → Node) : Node :=
  .operation {} .mul (around (.variableRef {} "@sum")) (.dimension {} ⟨2.0, .none⟩) true

/-- The variable is found in the only frame. -/
lemma lookup?_sum : Frame.lookup? "@sum" sumContext.frames =
    some ⟨sumOfPixels, "", sumContext.frames⟩ :=
  rfl

/-- In parentheses of an operand the variable does not clash, and the parentheses are kept. -/
theorem isGrouped_of_calc_twice :
    let operand : Node → Node := fun sum =>
      .expression {} [sum] { parens := true, parensInOp := true }
    ∃ r, (sumContext.evaluate 2 (.makeCall {} "calc" [twice operand])).1 = .ok r ∧
      r.css [] {} = .ok "calc((1px + 2px) * 2)" ∧ r.IsGrouped := by
  intro operand
  have hcalculation : (twice operand).IsCalculation sumContext.frames := by
    refine .operation (.expression (List.forall_mem_singleton.2 ?_)) (.plain rfl)
    exact .reference (by decide) lookup?_sum (.operation (.plain rfl) (.plain rfl))
  have hnumber : ∀ d, ¬ (Node.dimension {} d).Clashes sumContext.frames := by
    intro d h
    obtain ⟨part, hpart, -⟩ := (Node.clashes_iff_of_isBystander rfl).1 h
    cases hpart
  have hsum : ¬ sumOfPixels.Clashes sumContext.frames := by
    rintro h
    rcases Node.clashes_operation.1 h with ⟨hproduct, -⟩ | h | h
    · cases hproduct
    · exact hnumber _ h
    · exact hnumber _ h
  have hclash : ¬ (twice operand).Clashes sumContext.frames := by
    intro h
    rcases Node.clashes_operation.1 h with ⟨-, hstands | hstands⟩ | h | h
    · cases hstands with
      | expression hform _ => cases hform
    · cases hstands
    · obtain ⟨part, hpart, h⟩ := (Node.clashes_iff_of_isBystander rfl).1 h
      rw [List.mem_singleton.1 hpart, Node.clashes_variableRef lookup?_sum] at h
      exact hsum h
    · exact hnumber _ h
  exact ⟨_, rfl, by decide +kernel,
    (sumContext.isGrouped_of_calc_iff 2 .builtins rfl {} "calc" [twice operand] rfl
      (List.forall_mem_singleton.2 hcalculation) _ rfl).2 (List.forall_mem_singleton.2 hclash)⟩

/-- The sum that the variable holds becomes an operand of the product: the argument is grouped and
so is the value of the variable, but the result is not, and its text groups in another way. -/
theorem regrouped_of_calc_twice :
    (twice id).IsGrouped ∧ sumOfPixels.IsGrouped ∧
      let product : Node := .operation {} .mul sumOfPixels (.dimension {} ⟨2.0, .none⟩) true
      (sumContext.evaluate 2 (.makeCall {} "calc" [twice id])).1 =
          .ok (.makeCall {} "calc" [product]) ∧
        (Node.makeCall {} "calc" [product]).css [] {} = .ok "calc(1px + 2px * 2)" ∧
        ¬ (Node.makeCall {} "calc" [product]).IsGrouped := by
  exact ⟨by decide, by decide, rfl, by decide +kernel, by decide⟩

end Cascade
