import Cascade.Proofs.Arithmetic.Trees

/-!
# Dimensions that are numbers

A dimension is made from a number, and every further one comes from those that are there: by
arithmetic, by a conversion, by a built-in function, or by evaluating an arithmetic tree.  Such a
run (`Dimension.IsRun`) may leave the numbers, since only what is made from a value is checked: zero
divided by zero passes (`Dimension.produced_zeroRatio`).

It does so only there.  As long as what a step uses are numbers, the step gives numbers unless it is
an indeterminate form (`Dimension.Step.exists_isNaN_iff`).  A run hence stays within the numbers
exactly if no step of it is one (`Dimension.produces_numbers_iff`).
-/

namespace Cascade

/-! ### Built-in functions -/

/-- A number among the arguments is one of them. -/
lemma Builtin.mem_of_dimensionArgument {function : Builtin} {args : List Node} {position : Nat}
    {d : Dimension} (h : function.dimensionArgument args position = .ok d) :
    ∃ info, .dimension info d ∈ args := by
  obtain ⟨arg, harg, h⟩ := except_bind_eq_ok_iff.1 h
  unfold Builtin.argument at harg
  split at harg
  next hget =>
    cases harg
    split at h
    · cases h
      exact ⟨_, List.mem_of_getElem? hget⟩
    · cases h
  · cases harg

/-- What is made is a number. -/
lemma Dimension.isNaN_of_make {value : Float} {units : Units} {d : Dimension}
    (h : Dimension.make value units = .ok d) : d.value.isNaN = false := by
  unfold Dimension.make at h
  split at h
  · cases h
  · next hvalue =>
    rw [← Except.ok.inj h]
    exact Bool.eq_false_iff.2 hvalue

/-- What is read is a number. -/
lemma Dimension.isNaN_of_parse {text : String} {units : Units} {d : Dimension}
    (h : Dimension.parse text units = .ok d) : d.value.isNaN = false := by
  unfold Dimension.parse at h
  split at h
  · exact Dimension.isNaN_of_make h
  · cases h

/-- Built-in functions make numbers of numbers. -/
lemma Builtin.not_hasNaN_of_call {function : Builtin} {args : List Node} {r : Node}
    (hargs : ∀ arg ∈ args, ¬ arg.HasNaN) (h : function.call args = .ok r) : ¬ r.HasNaN := by
  unfold Builtin.call at h
  cases function with
  | unit =>
    obtain ⟨d, _, h⟩ := except_bind_eq_ok_iff.1 h
    obtain ⟨name, _, h⟩ := except_bind_eq_ok_iff.1 h
    obtain ⟨result, hresult, h⟩ := except_bind_eq_ok_iff.1 h
    rw [← Except.ok.inj h, Node.hasNaN_dimension, Dimension.isNaN_of_make hresult]
    exact Bool.false_ne_true
  | convert =>
    obtain ⟨d, hd, h⟩ := except_bind_eq_ok_iff.1 h
    obtain ⟨arg, _, h⟩ := except_bind_eq_ok_iff.1 h
    obtain ⟨target, _, h⟩ := except_bind_eq_ok_iff.1 h
    obtain ⟨info, hmem⟩ := Builtin.mem_of_dimensionArgument hd
    rw [← Except.ok.inj h, Node.hasNaN_dimension, Dimension.isNaN_convert]
    exact fun hnan => hargs _ hmem (Node.hasNaN_dimension.2 hnan)
  | percentage =>
    obtain ⟨d, _, h⟩ := except_bind_eq_ok_iff.1 h
    obtain ⟨result, hresult, h⟩ := except_bind_eq_ok_iff.1 h
    rw [← Except.ok.inj h, Node.hasNaN_dimension, Dimension.isNaN_of_make hresult]
    exact Bool.false_ne_true
  | lighten | darken | fade =>
    obtain ⟨i, c, rfl⟩ := Builtin.adjustColor_cases h
    simp [Node.HasNaN, Node.dimensions, Node.gather]
  | boolean =>
    obtain ⟨condition, _, h⟩ := except_bind_eq_ok_iff.1 h
    rw [← Except.ok.inj h]
    simp [Node.HasNaN, Node.dimensions, Node.gather, Node.ofBool]
  | cond => cases h

/-- The branch that a conditional takes in a context. -/
def Context.branch? (c : Context) (depth : Nat) (args : List Node) : Option Node :=
  match args[0]?.map fun condition => (c.evaluate depth condition).1 with
  | some (.ok value) => if value.asBool = some true then args[1]? else args[2]?
  | _ => none

/-- A built-in function other than the conditional is called on the arguments as they are. -/
lemma Context.callDirect_eq_call (c : Context) (depth : Nat) {function : Builtin} {raw : Bool}
    (args : List Node) (h : function ≠ .cond ∨ raw = false) :
    (c.callDirect depth (.builtin function) raw args).1 =
      (function.call args).mapError .failed := by
  have hargs : (Context.suspend depth args).map Prod.fst = args := by
    simp [Context.suspend, Function.comp_def]
  have hcall : (c.callDirect depth (.builtin function) raw args).1 =
      ((Evaluation.ofExcept (function.call args) : InPlace Node) c).1 := by
    cases raw with
    | false => rfl
    | true =>
      change ((function.callRaw (Context.suspend depth args) : InPlace Node) c).1 = _
      rw [Builtin.callRaw, hargs]
      simpa using h
  rw [hcall]
  cases function.call args <;> rfl

/-- Of two evaluations in place, the second starts from what the first leaves of the context. -/
lemma InPlace.exists_of_bind_eq_ok {α β : Type} {x : InPlace α} {f : α → InPlace β} {c : Context}
    {b : β} (h : ((x >>= f) c).1 = .ok b) : ∃ a, (x c).1 = .ok a ∧ (f a (x c).2).1 = .ok b := by
  change (InPlace.bind x f c).1 = .ok b at h
  unfold InPlace.bind at h
  split at h
  next hx => exact ⟨_, by rw [hx], by rw [hx]; exact h⟩
  · cases h

/-- A conditional gives what the branch it takes is evaluated to, or nothing if there is none. -/
lemma Context.callDirect_cond_cases {c : Context} {depth : Nat} {args : List Node} {r : Node}
    (h : (c.callDirect depth (.builtin .cond) true args).1 = .ok r) :
    (∃ c' : Context, ∃ tree ∈ args.tail, c.branch? depth args = some tree ∧ c'.scope = c.scope ∧
      (c'.evaluate depth tree).1 = .ok r) ∨
    c.branch? depth args = none ∧ r = .anonymous {} "" false false := by
  cases args with
  | nil => cases h
  | cons condition branches =>
    have hscope : (c.evaluate depth condition).2.scope = c.scope := by
      rw [Context.evaluate_eq]
      rfl
    change ((Builtin.choose _ : InPlace Node) c).1 = .ok r at h
    unfold Builtin.choose at h
    obtain ⟨value, hvalue, h⟩ := InPlace.exists_of_bind_eq_ok h
    have hcondition : (c.evaluate depth condition).1 = .ok value := hvalue
    have hbranch : c.branch? depth (condition :: branches) =
        if value.asBool = some true then branches[0]? else branches[1]? := by
      simp [Context.branch?, hcondition]
    rw [hbranch]
    split at h
    next htrue =>
      rw [if_pos htrue]
      cases branches with
      | nil => cases h
      | cons tree rest =>
        exact .inl ⟨_, tree, List.mem_cons_self, rfl, hscope, h⟩
    next htrue =>
      rw [if_neg htrue]
      match branches with
      | [] | [_] => exact .inr ⟨rfl, (Except.ok.inj h).symm⟩
      | first :: tree :: rest =>
        exact .inl ⟨_, tree, List.mem_cons_of_mem _ List.mem_cons_self, rfl, hscope, h⟩

namespace Dimension

/-- A step that gives dimensions. -/
inductive Step where
  | make (value : Float) (units : Units)
  | parse (text : String) (units : Units)
  | operate (strict : Bool) (operator : Operator) (a b : Dimension)
  | convert (c : Conversion) (d : Dimension)
  | unify (d : Dimension)
  /-- A built-in function, on arguments as they are or by its raw form. -/
  | call (c : Context) (depth : Nat) (function : Builtin) (raw : Bool) (args : List Node)
  | evaluate (c : Context) (depth : Nat) (tree : Node)

namespace Step

/-- The dimensions that a step works on. -/
def uses : Step → List Dimension
  | .make .. | .parse .. => []
  | .operate _ _ a b => [a, b]
  | .convert _ d | .unify d => [d]
  | .call _ _ _ _ args => args.flatMap Node.dimensions
  | .evaluate _ _ tree => tree.dimensions

/-- The dimensions that a step gives; none if it fails. -/
def results : Step → List Dimension
  | .make value units => (Dimension.make value units).toOption.toList
  | .parse text units => (Dimension.parse text units).toOption.toList
  | .operate strict operator a b => (Dimension.operate strict operator a b).toOption.toList
  | .convert c d => [d.convert c]
  | .unify d => [d.unify]
  | .call c depth function raw args =>
    (c.callDirect depth (.builtin function) raw args).1.toOption.toList.flatMap Node.dimensions
  | .evaluate c depth tree => (c.evaluate depth tree).1.toOption.toList.flatMap Node.dimensions

/-- What is evaluated by a step are arithmetic trees. -/
def IsArithmetic : Step → Prop
  | .call _ _ .cond true args => ∀ branch ∈ args.tail, branch.IsArithmetic
  | .evaluate _ _ tree => tree.IsArithmetic
  | _ => True

/-- A step that is carried out on an indeterminate form: an operation that is one, or a tree with
one, also as the branch that a conditional takes. -/
def IsIndeterminate : Step → Prop
  | .operate strict operator a b =>
    (Dimension.operate strict operator a b).isOk ∧ Dimension.isIndeterminate operator a b
  | .call c depth .cond true args =>
    (c.callDirect depth (.builtin .cond) true args).1.isOk ∧
      ∃ branch ∈ c.branch? depth args, branch.Stumbles c.scope
  | .evaluate c depth tree => (c.evaluate depth tree).1.isOk ∧ tree.Stumbles c.scope
  | _ => False

end Step

/-- The dimensions that some steps give. -/
def produced (steps : List Step) : List Dimension :=
  steps.flatMap Step.results

/-- A value that is no number among those that a computation gives. -/
lemma exists_isNaN_toList_iff {ε : Type} {x : Except ε Dimension} :
    (∃ d ∈ x.toOption.toList, d.value.isNaN) ↔ ∃ d, x = .ok d ∧ d.value.isNaN := by
  cases x <;> simp [Except.toOption]

/-- A value that is no number in the tree that a computation gives. -/
lemma exists_isNaN_flatMap_iff {ε : Type} {x : Except ε Node} :
    (∃ d ∈ x.toOption.toList.flatMap Node.dimensions, d.value.isNaN) ↔
      ∃ r, x = .ok r ∧ r.HasNaN := by
  cases x <;> simp [Except.toOption, Node.HasNaN]

namespace Step

/-- A conditional on numbers gives numbers exactly if the branch it takes is no indeterminate
form. -/
lemma exists_isNaN_cond_iff {c : Context} {depth : Nat} {args : List Node}
    (hbranches : ∀ branch ∈ args.tail, branch.IsArithmetic) (hargs : ∀ arg ∈ args, ¬ arg.HasNaN) :
    (∃ r, (c.callDirect depth (.builtin .cond) true args).1 = .ok r ∧ r.HasNaN) ↔
      (c.callDirect depth (.builtin .cond) true args).1.isOk ∧
        ∃ branch ∈ c.branch? depth args, branch.Stumbles c.scope := by
  cases hr : (c.callDirect depth (.builtin .cond) true args).1 with
  | error halt => simp [Except.isOk, Except.toBool]
  | ok r =>
    simp only [Except.isOk, Except.toBool, Except.ok.injEq, exists_eq_left', true_and]
    rcases Context.callDirect_cond_cases hr with
      ⟨c', tree, htree, hbranch, hscope, heval⟩ | ⟨hbranch, rfl⟩
    · rw [Context.hasNaN_of_evaluate_iff (hbranches tree htree) heval, hscope,
        or_iff_right (hargs tree (List.mem_of_mem_tail htree)), hbranch]
      simp
    · rw [hbranch]
      simp [Node.HasNaN, Node.dimensions, Node.gather]

/-- A call on numbers gives numbers, except for a conditional whose branch is an indeterminate
form. -/
lemma exists_isNaN_call_iff {c : Context} {depth : Nat} {function : Builtin} {raw : Bool}
    {args : List Node} (hstep : (call c depth function raw args).IsArithmetic)
    (hargs : ∀ arg ∈ args, ¬ arg.HasNaN) :
    (∃ r, (c.callDirect depth (.builtin function) raw args).1 = .ok r ∧ r.HasNaN) ↔
      (call c depth function raw args).IsIndeterminate := by
  by_cases hplain : function ≠ .cond ∨ raw = false
  · have hdeterminate : ¬ (call c depth function raw args).IsIndeterminate := by
      cases function <;> cases raw <;> simp_all [IsIndeterminate]
    rw [iff_false_right hdeterminate, Context.callDirect_eq_call c depth args hplain]
    rintro ⟨r, hr, hnan⟩
    cases hcall : function.call args with
    | error e =>
      rw [hcall] at hr
      cases hr
    | ok value =>
      rw [hcall] at hr
      cases hr
      exact Builtin.not_hasNaN_of_call hargs hcall hnan
  · obtain ⟨rfl, rfl⟩ : function = .cond ∧ raw = true := by simpa using hplain
    exact exists_isNaN_cond_iff hstep hargs

/-- As long as a step works on numbers, it gives numbers exactly if it is no indeterminate form. -/
theorem exists_isNaN_iff {step : Step} (hstep : step.IsArithmetic)
    (huses : ∀ d ∈ step.uses, d.value.isNaN = false) :
    (∃ d ∈ step.results, d.value.isNaN) ↔ step.IsIndeterminate := by
  cases step with
  | make value units =>
    simp only [results, exists_isNaN_toList_iff, IsIndeterminate, iff_false]
    rintro ⟨d, hd, hnan⟩
    rw [isNaN_of_make hd] at hnan
    cases hnan
  | parse text units =>
    simp only [results, exists_isNaN_toList_iff, IsIndeterminate, iff_false]
    rintro ⟨d, hd, hnan⟩
    rw [isNaN_of_parse hd] at hnan
    cases hnan
  | operate strict operator a b =>
    have ha : a.value.isNaN = false := huses a List.mem_cons_self
    have hb : b.value.isNaN = false := huses b (List.mem_cons_of_mem _ List.mem_cons_self)
    rw [results, exists_isNaN_toList_iff, IsIndeterminate]
    cases hd : Dimension.operate strict operator a b with
    | error e => simp [Except.isOk, Except.toBool]
    | ok d =>
      simp only [Except.ok.injEq, exists_eq_left', isNaN_operate hd, ha, hb, Bool.false_or,
        Except.isOk, Except.toBool, true_and]
  | convert c d =>
    have hd : d.value.isNaN = false := huses d List.mem_cons_self
    simp only [results, List.mem_singleton, exists_eq_left, isNaN_convert, hd, IsIndeterminate,
      Bool.false_eq_true]
  | unify d =>
    have hd : d.value.isNaN = false := huses d List.mem_cons_self
    simp only [results, List.mem_singleton, exists_eq_left, Dimension.unify, isNaN_convert, hd,
      IsIndeterminate, Bool.false_eq_true]
  | call c depth function raw args =>
    rw [results, exists_isNaN_flatMap_iff]
    refine exists_isNaN_call_iff hstep fun arg harg => Node.not_hasNaN_iff.2 fun d hd => ?_
    exact huses d (List.mem_flatMap.2 ⟨arg, harg, hd⟩)
  | evaluate c depth tree =>
    rw [results, exists_isNaN_flatMap_iff, IsIndeterminate]
    cases hr : (c.evaluate depth tree).1 with
    | error halt => simp [Except.isOk, Except.toBool]
    | ok r =>
      have hresult := Context.hasNaN_of_evaluate_iff hstep hr
      rw [or_iff_right (Node.not_hasNaN_iff.2 huses)] at hresult
      simp only [Except.ok.injEq, exists_eq_left', hresult, Except.isOk, Except.toBool, true_and]

end Step

/-- Steps one after the other, each on dimensions that were there or that the earlier ones gave. -/
def IsRun (before : List Dimension) : List Step → Prop
  | [] => True
  | step :: rest =>
    step.IsArithmetic ∧ (∀ d ∈ step.uses, d ∈ before) ∧ IsRun (before ++ step.results) rest

/-- A run that starts from numbers stays within the numbers exactly if none of its steps is an
indeterminate form: an operation on dimensions that is carried out on one, or the evaluation of a
tree that meets one.  Making, reading and converting dimensions, and the built-in functions, never
leave the numbers. -/
theorem produces_numbers_iff {before : List Dimension} {steps : List Step}
    (hbefore : ∀ d ∈ before, d.value.isNaN = false) (h : IsRun before steps) :
    (∀ d ∈ produced steps, d.value.isNaN = false) ↔ ∀ step ∈ steps, ¬ step.IsIndeterminate := by
  induction steps generalizing before with
  | nil => simp [produced]
  | cons step rest ih =>
    obtain ⟨hstep, huses, hrest⟩ := h
    have hresults : (∀ d ∈ step.results, d.value.isNaN = false) ↔ ¬ step.IsIndeterminate := by
      rw [← Step.exists_isNaN_iff hstep fun d hd => hbefore d (huses d hd)]
      simp only [not_exists, not_and, Bool.not_eq_true]
    rw [produced, List.flatMap_cons, List.forall_mem_append, List.forall_mem_cons, hresults]
    -- unless this step is one, the rest starts from numbers again
    refine and_congr_right fun hdeterminate => ih ?_ hrest
    exact List.forall_mem_append.2 ⟨hbefore, hresults.2 hdeterminate⟩

/-- Three inches, half of which is read, converted, computed and evaluated in several ways. -/
def inchSteps : List Step :=
  let inches : Dimension := ⟨3.0, .ofName "in"⟩
  let two : Dimension := ⟨2.0, .none⟩
  let half := .operation {} .dotDiv (.dimension {} inches) (.dimension {} two) true
  let sum := .operation {} .sub (.negative {} half) (.dimension {} inches.unify) true
  [.parse " 2 " .none, .unify inches, .convert (.ofName "mm") inches,
    .operate true .sub inches inches.unify, .call {} 1 .percentage false [.dimension {} two],
    .evaluate {} 1 (.paren {} sum), .call {} 1 .cond true [.keyword {} "true", half]]

/-- The steps are carried out and give numbers, so that none of them is an indeterminate form. -/
theorem produces_numbers_inchSteps :
    IsRun [⟨3.0, .ofName "in"⟩] inchSteps ∧ (produced inchSteps).length = 7 ∧
      ∀ step ∈ inchSteps, ¬ step.IsIndeterminate := by
  have hbefore : ∀ d ∈ [(⟨3.0, .ofName "in"⟩ : Dimension)], d.value.isNaN = false := by decide
  have hhalf : ∀ x y : Dimension,
      (Node.operation {} .dotDiv (.dimension {} x) (.dimension {} y) true).IsArithmetic :=
    fun _ _ => .operation .dimension .dimension
  have hrun : IsRun [⟨3.0, .ofName "in"⟩] inchSteps := by
    have hbranch : ∀ branch ∈ [Node.operation {} .dotDiv (.dimension {} ⟨3.0, .ofName "in"⟩)
        (.dimension {} ⟨2.0, .none⟩) true], branch.IsArithmetic :=
      List.forall_mem_singleton.2 (hhalf _ _)
    refine ⟨trivial, ?_, trivial, ?_, trivial, ?_, trivial, ?_, trivial, ?_,
      .paren (.operation (.negative (hhalf _ _)) .dimension), ?_, hbranch, ?_, trivial⟩
    all_goals decide +kernel
  have hnumbers : ∀ d ∈ produced inchSteps, d.value.isNaN = false := by decide +kernel
  exact ⟨hrun, by decide +kernel, (produces_numbers_iff hbefore hrun).1 hnumbers⟩

/-- No pixels. -/
def zeroPixels : Dimension :=
  ⟨0.0, .ofName "px"⟩

/-- No pixels, divided by themselves, by arithmetic and as a tree. -/
def zeroRatio : List Step :=
  let pixels := .dimension {} zeroPixels
  [.make 0.0 (.ofName "px"), .operate false .div zeroPixels zeroPixels,
    .evaluate {} 1 (.operation {} .dotDiv pixels pixels true)]

/-- Dividing zero by zero gives dimensions that are no numbers. -/
theorem produced_zeroRatio :
    IsRun [] zeroRatio ∧ (produced zeroRatio).map (·.value.isNaN) = [false, true, true] := by
  refine ⟨⟨trivial, nofun, trivial, ?_, .operation .dimension .dimension, ?_, trivial⟩, ?_⟩
  · decide +kernel
  · decide +kernel
  · decide +kernel

end Dimension

end Cascade
