import Cascade.Proofs.Evaluation.Core
import Cascade.Proofs.Evaluation.InPlace

/-!
# The arguments of functions

A function that takes evaluated arguments gets them one by one, without those that are comments, and
each of the others without the comments among its items (`Context.arguments_handed`).  So it never
gets a comment.

Whether it gets an expression with comments among its items depends on what the argument is
evaluated to.  Comments are dropped from the items of an expression once, and an item that is left
alone takes the place of the expression as it is.  If that item is an expression with comments, the
function gets these (`comments_handed_nested`).  Besides, a division that is left alone in
parentheses keeps the expression around it, with its comments.  `Node.wrapsComment` says exactly
when one of the two happens (`Node.showsComment_stripComments`).
-/

namespace Cascade

namespace Node

/-- Whether a node is an expression with a comment among its items. -/
def showsComment : Node → Bool
  | .expression _ items _ => items.any isComment
  | _ => false

/-- Whether a node is an expression that has one item besides its comments, and hands over comments
with it: those of the item, or its own around a division in parentheses. -/
def wrapsComment : Node → Bool
  | .expression _ items form =>
    match items.filter fun item => !item.isComment with
    | [single] =>
      single.showsComment || (single.isDivision && form.parens && items.any isComment)
    | _ => false
  | _ => false

/-- A division is no expression. -/
lemma showsComment_of_isDivision {n : Node} (h : n.isDivision) : n.showsComment = false := by
  cases n with
  | operation => rfl
  | _ => cases h

/-- A comment is no expression. -/
lemma wrapsComment_of_isComment {n : Node} (h : n.isComment) : n.wrapsComment = false := by
  cases n with
  | comment => rfl
  | _ => cases h

/-- What is left of a node that is not a comment is no comment. -/
lemma isComment_stripComments {n : Node} (h : n.isComment = false) :
    n.stripComments.isComment = false := by
  cases n with
  | expression info items form =>
    rw [stripComments_expression]
    split
    next single hkept =>
      have hsingle : single ∈ items.filter fun item => !item.isComment := by
        rw [hkept]
        exact List.mem_singleton_self single
      split
      · rfl
      · simpa using (List.mem_filter.1 hsingle).2
    · rfl
  | _ => exact h

/-- What is left of a node has comments among its items exactly if the node wraps them. -/
theorem showsComment_stripComments (n : Node) : n.stripComments.showsComment = n.wrapsComment := by
  cases n with
  | expression info items form =>
    have hnone : (items.filter fun item => !item.isComment).any isComment = false := by simp
    rcases hkept : items.filter fun item => !item.isComment with _ | ⟨single, _ | ⟨second, rest⟩⟩
    · rw [stripComments_expression, wrapsComment, hkept]
      rfl
    · rw [stripComments_expression, wrapsComment, hkept]
      dsimp only
      cases hdivision : single.isDivision with
      | false => simp
      | true =>
        have hsingle := showsComment_of_isDivision hdivision
        cases form.parens with
        | false => simp [hsingle]
        | true =>
          rw [hsingle]
          simp [showsComment]
    · rw [hkept] at hnone
      rw [stripComments_expression, wrapsComment, hkept]
      exact hnone
  | _ => rfl

end Node

/-! ### Arguments that are evaluated -/

namespace Context

/-- Nodes are evaluated one after the other, each in the context that the one before has left. -/
inductive EvaluatesEach (depth : Nat) : Context → List Node → List Node → Context → Prop where
  | nil {c : Context} : EvaluatesEach depth c [] [] c
  | cons {c c₁ c₂ : Context} {node r : Node} {rest results : List Node} :
    c.evaluate depth node = (.ok r, c₁) → EvaluatesEach depth c₁ rest results c₂ →
    EvaluatesEach depth c (node :: rest) (r :: results) c₂

/-- A step after another one, in place. -/
lemma exists_of_bind_eq {α β : Type} {x : InPlace α} {f : α → InPlace β} {c c₂ : Context} {b : β}
    (h : (x >>= f) c = (.ok b, c₂)) : ∃ a c₁, x c = (.ok a, c₁) ∧ f a c₁ = (.ok b, c₂) := by
  change InPlace.bind x f c = (.ok b, c₂) at h
  unfold InPlace.bind at h
  split at h
  next a c₁ hx => exact ⟨a, c₁, hx, h⟩
  next halt c₁ hx => cases h

/-- Arguments that are handed to a function were evaluated one after the other. -/
lemma evaluatesEach_of_evaluateArguments {depth : Nat} {name : String} {args values : List Node}
    {c c' : Context}
    (h : (Node.evaluateArguments name (suspend depth args) : InPlace (List Node)) c =
      (.ok values, c')) :
    ∃ results, EvaluatesEach depth c args results c' ∧
      values = (results.filter fun r => !r.isComment).map Node.stripComments := by
  induction args generalizing c values with
  | nil =>
    cases h
    exact ⟨[], .nil, rfl⟩
  | cons arg rest ih =>
    change (Node.evaluateArguments name ((arg, Node.eval depth arg) :: suspend depth rest) :
      InPlace (List Node)) c = _ at h
    rw [Node.evaluateArguments] at h
    split at h
    · obtain ⟨r, c₁, hr, h⟩ := exists_of_bind_eq h
      obtain ⟨others, c₂, hothers, h⟩ := exists_of_bind_eq h
      cases h
      obtain ⟨results, heach, rfl⟩ := ih hothers
      refine ⟨r :: results, .cons hr heach, ?_⟩
      cases hcomment : r.isComment <;> simp [hcomment]
    · cases h

/-- Evaluating arguments leaves what the caller's functions do as it is. -/
lemma EvaluatesEach.custom_eq {depth : Nat} {args results : List Node} {c c' : Context}
    (h : EvaluatesEach depth c args results c') : c'.custom = c.custom := by
  induction h with
  | nil => rfl
  | @cons c c₁ c₂ node r rest results hr _ ih =>
    rw [evaluate_eq] at hr
    obtain ⟨-, rfl⟩ := Prod.mk.inj hr
    rw [ih, (c.restored_afterwards _).custom]

/-- A function that has its arguments evaluated before the call. -/
def TakesEvaluated (c : Context) : FunctionRef → Prop
  | .builtin b => b.evaluatesArguments
  | .custom key => ∃ f, c.custom key = some f ∧ f.evaluatesArguments

/-- A call goes on with the function once the arguments are evaluated. -/
lemma callFunction_eq_callDirect {c c' : Context} {depth : Nat} {name : String}
    {function : FunctionRef} {args values : List Node} (hfunction : c.TakesEvaluated function)
    (h : (Node.evaluateArguments name (suspend depth args) : InPlace (List Node)) c =
      (.ok values, c')) :
    (c.scope.callFunction name function (suspend depth args) : InPlace Node) c =
      c'.callDirect depth function false values := by
  have hbind (f : List Node → InPlace Node) :
      (Node.evaluateArguments name (suspend depth args) >>= f) c = f values c' := by
    change InPlace.bind _ f c = _
    rw [InPlace.bind, h]
  cases function with
  | builtin b =>
    have hevaluates : b.evaluatesArguments = true := hfunction
    unfold Scope.callFunction
    dsimp only
    rw [if_pos hevaluates, hbind]
    rfl
  | custom key =>
    obtain ⟨f, hf, hevaluates⟩ := hfunction
    obtain ⟨results, heach, -⟩ := evaluatesEach_of_evaluateArguments h
    have hf' : c'.custom key = some f := by rw [heach.custom_eq, hf]
    have hscope : c.scope.custom key = some f := hf
    unfold Scope.callFunction Scope.callCustom callDirect
    dsimp only
    rw [hscope, hf']
    dsimp only
    rw [if_pos hevaluates, hbind]
    rfl

/-- A function that takes evaluated arguments gets what they are evaluated to, in order, without
those that are comments, and without the comments of the others.  No argument is a comment, and
none is an expression with comments among its items exactly if no argument was evaluated to an
expression that wraps comments. -/
theorem arguments_handed (c : Context) (depth : Nat) (name : String) (args : List Node)
    {table : FunctionTable} {function : FunctionRef} (htable : c.scope.functionTable = .ok table)
    (hfind : table.find? name = some function) (hfunction : c.TakesEvaluated function)
    {values : List Node} {c' : Context}
    (hreached : (Node.evaluateArguments (Text.lower name) (suspend depth args) :
      InPlace (List Node)) c = (.ok values, c')) :
    c.callFunction depth name args = c'.callDirect depth function false values ∧
      ∃ results, EvaluatesEach depth c args results c' ∧
        values = (results.filter fun r => !r.isComment).map Node.stripComments ∧
        (∀ a ∈ values, ¬ a.isComment) ∧
        ((∀ a ∈ values, ¬ a.showsComment) ↔ ∀ r ∈ results, ¬ r.wrapsComment) := by
  obtain ⟨results, heach, hvalues⟩ := evaluatesEach_of_evaluateArguments hreached
  refine ⟨?_, results, heach, hvalues, ?_, ?_⟩
  · rw [← callFunction_eq_callDirect hfunction hreached]
    have hlookup : (Evaluation.ofExcept c.scope.functionTable : InPlace FunctionTable) c =
        (.ok table, c) := by
      rw [htable]
      rfl
    change InPlace.bind _ _ c = _
    rw [InPlace.bind, hlookup]
    dsimp only
    rw [hfind]
  · intro a ha
    rw [hvalues] at ha
    obtain ⟨r, hr, rfl⟩ := List.mem_map.1 ha
    have hcomment : r.isComment = false := by simpa using (List.mem_filter.1 hr).2
    simp [Node.isComment_stripComments hcomment]
  · rw [hvalues]
    simp only [List.forall_mem_map, Node.showsComment_stripComments, List.mem_filter]
    refine ⟨fun h r hr => ?_, fun h r hr => h r hr.1⟩
    cases hcomment : r.isComment with
    | true => simp [Node.wrapsComment_of_isComment hcomment]
    | false => exact h r ⟨hr, by simp [hcomment]⟩

end Context

/-- A context with the built-in functions and nothing else. -/
def callerContext : Context :=
  { frames := [.mk none (some .builtins)] }

/-- A comment, a word beside a comment, and two words around one. -/
def commentedArguments : List Node :=
  let comment := .comment {} "/* c */" false none
  [comment, .expression {} [.keyword {} "w", comment] {},
    .expression {} [.keyword {} "x", comment, .keyword {} "y"] {}]

/-- The comment is dropped, the single word is handed over as it is, and the two words stay an
expression, without the comment. -/
theorem arguments_handed_commentedArguments :
    callerContext.callFunction 2 "boolean" commentedArguments =
        callerContext.callDirect 2 (.builtin .boolean) false
          [.keyword {} "w", .expression {} [.keyword {} "x", .keyword {} "y"] {}] ∧
      ∀ a ∈ [Node.keyword {} "w", .expression {} [.keyword {} "x", .keyword {} "y"] {}],
        ¬ a.isComment := by
  obtain ⟨hcall, results, -, -, hcomments, -⟩ :=
    callerContext.arguments_handed 2 "boolean" commentedArguments rfl rfl rfl rfl
  exact ⟨hcall, hcomments⟩

/-- Two words around a comment, as the only item of an expression beside another comment. -/
def nestedComment : Node :=
  .expression {} [.expression {} [.keyword {} "x", .comment {} "/* c */" false none,
    .keyword {} "y"] {}, .comment {} "/* d */" false none] {}

/-- Functions do get expressions with comments: the inner expression is handed over with the
comment in it. -/
theorem comments_handed_nested :
    ¬ ∀ (c : Context) (depth : Nat) (name : String) (args : List Node) (table : FunctionTable)
      (function : FunctionRef) (values : List Node) (c' : Context),
      c.scope.functionTable = .ok table → table.find? name = some function →
      c.TakesEvaluated function →
      (Node.evaluateArguments (Text.lower name) (Context.suspend depth args) :
        InPlace (List Node)) c = (.ok values, c') →
      ∀ a ∈ values, ¬ a.isComment ∧ ¬ a.showsComment := by
  intro h
  obtain ⟨-, hshows⟩ := h callerContext 3 "boolean" [nestedComment] .builtins (.builtin .boolean)
    _ _ rfl rfl rfl rfl _ (List.mem_singleton_self _)
  exact hshows rfl

end Cascade
