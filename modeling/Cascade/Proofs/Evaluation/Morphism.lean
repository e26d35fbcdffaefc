import Cascade.Eval.Evaluate
import Cascade.Proofs.Tree.Children

/-!
# Evaluation under another interpretation

Evaluation is written over the operations of `Evaluation` and nothing else.  A map between two
interpretations that respects these operations therefore carries the evaluation of a node in
the one to its evaluation in the other (`Evaluation.Morphism.map_eval`).
-/

namespace Cascade

variable {m n : Type → Type} [Evaluation m] [Evaluation n]

/-- A map between two interpretations of evaluation that respects all operations. -/
structure Evaluation.Morphism (m n : Type → Type) [Evaluation m] [Evaluation n] where
  map {α : Type} : m α → n α
  map_pure {α : Type} (a : α) : map (pure a) = pure a
  map_bind {α β : Type} (x : m α) (f : α → m β) : map (x >>= f) = map x >>= fun a => map (f a)
  map_scope : map scope = scope
  map_queries : map queries = queries
  map_update (f : Queries → Queries) : map (update f) = update f
  map_stop {α : Type} (halt : Halt) : map (stop halt : m α) = stop halt
  map_attempt {α : Type} (x : m α) : map (attempt x) = attempt (map x)
  map_deposit (marker : String) : map (deposit marker) = deposit marker
  map_capture {α : Type} (x : m α) : map (capture x) = capture (map x)
  map_textOf (node : Node) : map (textOf node) = textOf node
  map_foreign (x : Eval Node) : map (foreign x) = foreign x
  map_inParens {α : Type} (x : m α) : map (inParens x) = inParens (map x)
  map_inCall {α : Type} (asCalc : Bool) (x : m α) :
    map (inCall asCalc x) = inCall asCalc (map x)
  map_inMath {α : Type} (math : MathMode) (x : m α) : map (inMath math x) = inMath math (map x)
  map_inSelectors {α : Type} (selectors : List String) (x : m α) :
    map (inSelectors selectors x) = inSelectors selectors (map x)
  map_inFrame {α : Type} (frame : Frame) (x : m α) : map (inFrame frame x) = inFrame frame (map x)
  map_inFrames {α : Type} (frames : List Frame) (x : m α) :
    map (inFrames frames x) = inFrames frames (map x)
  map_inVariable {α : Type} (name : String) (x : m α) :
    map (inVariable name x) = inVariable name (map x)
  map_inSurroundings {α : Type} (change : Surroundings → Surroundings) (x : m α) :
    map (inSurroundings change x) = inSurroundings change (map x)

attribute [simp] Evaluation.Morphism.map_pure Evaluation.Morphism.map_bind
  Evaluation.Morphism.map_scope Evaluation.Morphism.map_queries Evaluation.Morphism.map_update
  Evaluation.Morphism.map_stop Evaluation.Morphism.map_attempt Evaluation.Morphism.map_deposit
  Evaluation.Morphism.map_capture Evaluation.Morphism.map_textOf Evaluation.Morphism.map_foreign
  Evaluation.Morphism.map_inParens Evaluation.Morphism.map_inCall
  Evaluation.Morphism.map_inMath Evaluation.Morphism.map_inSelectors
  Evaluation.Morphism.map_inFrame Evaluation.Morphism.map_inFrames
  Evaluation.Morphism.map_inVariable Evaluation.Morphism.map_inSurroundings

namespace Evaluation.Morphism

variable (φ : Morphism m n) {α : Type}

/-- A resolver under the other interpretation. -/
def resolver (resolve : Resolver m) : Resolver n :=
  ⟨fun node => φ.map (resolve.value node), fun node => φ.map (resolve.body node)⟩

/-! ### Derived operations -/

@[simp]
lemma map_fail (error : Error) : φ.map (fail error : m α) = fail error := by
  simp [fail]

@[simp]
lemma map_ofExcept (x : Except Error α) : φ.map (ofExcept x : m α) = ofExcept x := by
  cases x <;> simp [ofExcept]

@[simp]
lemma map_announce (marker : String) : φ.map (announce marker) = announce marker := by
  unfold announce
  split <;> simp

@[simp]
lemma map_parenthesized (parens : Bool) (x : m α) :
    φ.map (parenthesized parens x) = parenthesized parens (φ.map x) := by
  unfold parenthesized
  split <;> simp

@[simp]
lemma map_runEach (xs : List (m α)) : φ.map (runEach xs) = runEach (xs.map φ.map) := by
  induction xs with
  | nil => simp [runEach]
  | cons x rest ih => simp [runEach, ih]

@[simp]
lemma map_runAll (xs : List (m α)) :
    φ.map (runAll xs) = runAll (xs.map φ.map) := by
  simp [runAll, Function.comp_def]

/-! ### Variables and strings -/

variable (resolve : Resolver m)

@[simp]
lemma map_lookup (scope : Scope) (name : String) :
    φ.map (resolve.lookup scope name) = (φ.resolver resolve).lookup scope name := by
  unfold Resolver.lookup
  split <;> simp [resolver]

@[simp]
lemma map_binding (name : String) :
    φ.map (resolve.binding name) = (φ.resolver resolve).binding name := by
  simp only [Resolver.binding, map_bind, map_scope]
  congr 1
  funext scope
  split <;> simp

@[simp]
lemma map_nameText (node : Node) : φ.map (Resolver.nameText node) = Resolver.nameText node := by
  unfold Resolver.nameText
  split <;> simp

@[simp]
lemma map_indirect (base : String) (depth : Nat) :
    φ.map (resolve.indirect base depth) = (φ.resolver resolve).indirect base depth := by
  induction depth with
  | zero => simp [Resolver.indirect]
  | succ depth ih => simp [Resolver.indirect, ih]

@[simp]
lemma map_reference (name : String) :
    φ.map (resolve.reference name) = (φ.resolver resolve).reference name := by
  unfold Resolver.reference
  dsimp only
  split <;> simp

@[simp]
lemma map_fillText (node : Node) : φ.map (Resolver.fillText node) = Resolver.fillText node := by
  unfold Resolver.fillText
  split <;> simp

@[simp]
lemma map_placeholder (name : String) :
    φ.map (resolve.placeholder name) = (φ.resolver resolve).placeholder name := by
  simp [Resolver.placeholder]

@[simp]
lemma map_string (info : Info) (quote : Char) (text : String) (escaped : Bool) :
    φ.map (resolve.string info quote text escaped) =
      (φ.resolver resolve).string info quote text escaped := by
  simp only [Resolver.string, map_bind, map_runAll, List.map_map]
  congr 1
  · simp [Function.comp_def]
  · funext texts
    split <;> simp [resolver]

/-! ### Detached rulesets and query conditions -/

@[simp]
lemma map_inCaptured (captured : Option (List Frame)) (x : m α) :
    φ.map (Resolver.inCaptured captured x) = Resolver.inCaptured captured (φ.map x) := by
  unfold Resolver.inCaptured
  split <;> simp

@[simp]
lemma map_callDetached (body : Option Ruleset) (frames : Option (List Frame)) :
    φ.map (resolve.callDetached body frames) = (φ.resolver resolve).callDetached body frames := by
  unfold Resolver.callDetached
  split <;> simp [resolver]

@[simp]
lemma map_callHeld (node : Node) :
    φ.map (resolve.callHeld node) = (φ.resolver resolve).callHeld node := by
  unfold Resolver.callHeld
  split <;> simp

@[simp]
lemma map_variableCall (name : String) :
    φ.map (resolve.variableCall name) = (φ.resolver resolve).variableCall name := by
  simp only [Resolver.variableCall, map_bind, map_reference, map_callHeld]
  congr 1
  funext held
  congr 1
  funext result
  split <;> simp

@[simp]
lemma map_candidates (template : Option Node) :
    φ.map (resolve.candidates template) = (φ.resolver resolve).candidates template := by
  unfold Resolver.candidates
  split <;> simp [resolver, Function.comp_def]

@[simp]
lemma map_optional (node : Option Node) :
    φ.map (resolve.optional node) = (φ.resolver resolve).optional node := by
  cases node <;> simp [Resolver.optional, resolver]

@[simp]
lemma map_sides (id : QueryId) (q : Query) :
    φ.map (resolve.sides id q) = (φ.resolver resolve).sides id q := by
  simp [Resolver.sides, resolver]

@[simp]
lemma map_query (id : QueryId) : φ.map (resolve.query id) = (φ.resolver resolve).query id := by
  simp only [Resolver.query, map_bind, map_update, map_queries]
  congr 1
  funext _
  congr 1
  funext states
  split <;> simp

/-! ### Functions -/

/-- Arguments with their evaluations under the other interpretation. -/
def arguments (args : List (Node × m Node)) : List (Node × n Node) :=
  args.map fun arg => (arg.1, φ.map arg.2)

@[simp]
lemma map_branch (args : List (m Node)) (position : Nat) :
    φ.map (Builtin.branch args position) = Builtin.branch (args.map φ.map) position := by
  unfold Builtin.branch Builtin.argument
  rw [List.getElem?_map]
  cases args[position]? <;> simp

@[simp]
lemma map_choose (args : List (m Node)) :
    φ.map (Builtin.choose args) = Builtin.choose (args.map φ.map) := by
  simp only [Builtin.choose, map_bind, map_branch, List.getElem?_map]
  congr 1
  funext condition
  split
  · simp
  · cases args[2]? <;> simp

@[simp]
lemma map_callRaw (function : Builtin) (args : List (Node × m Node)) :
    φ.map (function.callRaw args) = function.callRaw (φ.arguments args) := by
  cases function <;> simp [Builtin.callRaw, arguments, Function.comp_def]

@[simp]
lemma map_evaluateArguments (function : String) (args : List (Node × m Node)) :
    φ.map (Node.evaluateArguments function args) =
      Node.evaluateArguments function (φ.arguments args) := by
  induction args with
  | nil => simp [Node.evaluateArguments, arguments]
  | cons arg rest ih =>
    simp only [arguments, List.map_cons, Node.evaluateArguments] at ih ⊢
    split <;> simp [ih]

@[simp]
lemma map_run (name : String) (evaluations : List (m Node)) (procedure : Procedure) :
    φ.map (procedure.run name evaluations) = procedure.run name (evaluations.map φ.map) := by
  induction procedure with
  | finish x => simp [Procedure.run]
  | evaluate position change next ih =>
    simp only [Procedure.run, List.getElem?_map]
    cases evaluations[position]? with
    | none => simp
    | some evaluation => simp [ih]

@[simp]
lemma map_callFunction (scope : Scope) (name : String) (function : FunctionRef)
    (args : List (Node × m Node)) :
    φ.map (scope.callFunction name function args) =
      scope.callFunction name function (φ.arguments args) := by
  unfold Scope.callFunction
  cases function with
  | builtin b =>
    dsimp only
    split <;> simp
  | custom key =>
    dsimp only [Scope.callCustom]
    cases scope.custom key with
    | none => simp
    | some f =>
      dsimp only
      split <;> simp [arguments, Function.comp_def]

@[simp]
lemma map_callNamed (info : Info) (name : String) (args : List Node) (asCalc : Bool)
    (evaluations : List (m Node)) :
    φ.map (Node.callNamed info name args asCalc evaluations) =
      Node.callNamed info name args asCalc (evaluations.map φ.map) := by
  have hargs : φ.arguments (args.zip evaluations) = args.zip (evaluations.map φ.map) := by
    simp [arguments, List.zip_map_right]
  simp only [Node.callNamed, map_bind, map_scope, map_ofExcept]
  congr 1
  funext scope
  congr 1
  funext table
  split <;> simp [hargs]

/-! ### Nodes -/

@[simp]
lemma map_evaluateRules (rules : List Node) (evaluations : List (m Node)) :
    φ.map (Node.evaluateRules rules evaluations) =
      Node.evaluateRules rules (evaluations.map φ.map) := by
  induction rules generalizing evaluations with
  | nil => simp [Node.evaluateRules]
  | cons rule rules ih =>
    cases evaluations with
    | nil => simp [Node.evaluateRules]
    | cons evaluation evaluations => simp [Node.evaluateRules, ih]

@[simp]
lemma map_namePart (part : Node) (evaluation : m Node) :
    φ.map (Node.namePart part evaluation) = Node.namePart part (φ.map evaluation) := by
  unfold Node.namePart
  split <;> simp

@[simp]
lemma map_nameParts (parts : List Node) (evaluations : List (m Node)) :
    φ.map (Node.nameParts parts evaluations) = Node.nameParts parts (evaluations.map φ.map) := by
  induction parts generalizing evaluations with
  | nil => simp [Node.nameParts]
  | cons part parts ih =>
    cases evaluations with
    | nil => simp [Node.nameParts]
    | cons evaluation evaluations => simp [Node.nameParts, ih]

@[simp]
lemma map_expressionOf (info : Info) (form : ExpressionForm) (evaluations : List (m Node)) :
    φ.map (Node.expressionOf info form evaluations) =
      Node.expressionOf info form (evaluations.map φ.map) := by
  match evaluations with
  | [] | [_] | _ :: _ :: _ => simp [Node.expressionOf]

@[simp]
lemma map_valueOf (info : Info) (evaluations : List (m Node)) :
    φ.map (Node.valueOf info evaluations) = Node.valueOf info (evaluations.map φ.map) := by
  match evaluations with
  | [] | [_] | _ :: _ :: _ => simp [Node.valueOf]

/-- The evaluations of some nodes under the other interpretation. -/
lemma map_evalEach (nodes : List Node)
    (h : ∀ c ∈ nodes, φ.map (Node.evalWith resolve c) = Node.evalWith (φ.resolver resolve) c) :
    (Node.evalEach resolve nodes).map φ.map = Node.evalEach (φ.resolver resolve) nodes := by
  rw [Node.evalEach_eq_map, Node.evalEach_eq_map, List.map_map]
  exact List.map_congr_left h

/-- The name of a declaration under the other interpretation. -/
lemma map_propertyName (name : PropertyName)
    (h : ∀ c ∈ name.parts, φ.map (Node.evalWith resolve c) =
      Node.evalWith (φ.resolver resolve) c) :
    φ.map (PropertyName.evalWith resolve name) =
      PropertyName.evalWith (φ.resolver resolve) name := by
  cases name with
  | literal text => simp [PropertyName.evalWith]
  | interpolated parts =>
    rw [PropertyName.evalWith, PropertyName.evalWith, map_nameParts, map_evalEach φ resolve parts h]

/-- The evaluation of a node under the other interpretation. -/
theorem map_evalWith (node : Node) :
    φ.map (Node.evalWith resolve node) = Node.evalWith (φ.resolver resolve) node := by
  induction node using Node.inductionOnChildren with
  | step node ih =>
    match node with
    | .assignment _ _ v | .paren _ v =>
      simp [Node.evalWith, ih v (by simp [Node.children])]
    | .attribute _ _ _ none _ => simp [Node.evalWith]
    | .attribute _ _ _ (some v) _ =>
      simp [Node.evalWith, ih v (by simp [Node.children])]
    | .call _ name args _ =>
      simp [Node.evalWith, map_evalEach φ resolve args ih]
    | .condition _ _ l r _ | .operation _ _ l r _ =>
      simp [Node.evalWith, ih l (by simp [Node.children]), ih r (by simp [Node.children])]
    | .declaration _ name v _ =>
      have hname := map_propertyName φ resolve name fun c hc => ih c (by simp [Node.children, hc])
      simp [Node.evalWith, hname, ih v (by simp [Node.children])]
    | .expression _ items _ =>
      simp [Node.evalWith, map_evalEach φ resolve items ih]
    | .negative _ v =>
      simp only [Node.evalWith, map_bind, map_scope, ih v (by simp [Node.children])]
      congr 1
      funext outer
      congr 1
      funext value
      split <;> simp
    | .ruleset (.mk _ _ rules _) =>
      simp [Node.evalWith, Ruleset.evalWith, map_evalEach φ resolve rules ih]
    | .value _ items =>
      simp [Node.evalWith, map_evalEach φ resolve items ih]
    | .anonymous .. | .color .. | .comment .. | .detached .. | .dimension .. | .javaScript ..
    | .keyword .. | .query .. | .quoted .. | .unicodeDescriptor .. | .variableRef ..
    | .variableCall .. =>
      simp [Node.evalWith]

/-- Evaluating a node under one interpretation and carrying it over is evaluating it under the
other one. -/
theorem map_eval (depth : Nat) (node : Node) :
    φ.map (Node.eval depth node : m Node) = Node.eval depth node := by
  induction depth generalizing node with
  | zero => simp [Node.eval]
  | succ depth ih => simp [Node.eval, map_evalWith, resolver, ih]

end Evaluation.Morphism

end Cascade
