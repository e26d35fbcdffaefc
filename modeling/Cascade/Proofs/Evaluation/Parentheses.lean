import Cascade.Proofs.Evaluation.InPlace
import Cascade.Proofs.Evaluation.Laws

/-!
# Redundant parentheses

Evaluation counts the parentheses around a part, and looks at the count only to ask whether there
are any.  So two evaluations of a node agree if both are in parentheses or neither is, however many
there are (`Node.eval_enclosed`), unless a function of the caller tells the counts apart
(`CustomFunction.OverlooksParens`).  Where arithmetic is carried out outside parentheses, an
expression in parentheses is what its only item is inside them, whether or not they stand inside an
operation; then a second pair around the first one changes nothing
(`Context.evaluate_redundant_parens`).
-/

namespace Cascade

/-! ### Functions of the caller -/

/-- Two surroundings that differ only in the number of parentheses, and both are in parentheses or
neither is. -/
structure Surroundings.SameEnclosure (t t' : Surroundings) : Prop where
  rest : t' = { t with parens := t'.parens }
  parens : t'.parens = 0 ↔ t.parens = 0

/-- Two procedures that do the same, but for the number of parentheses in which arguments are
evaluated. -/
inductive Procedure.Resembles : Procedure → Procedure → Prop where
  | finish (x : Eval Node) : Resembles (.finish x) (.finish x)
  | evaluate {position : Nat} {change change' : Surroundings → Surroundings}
    {next next' : Except Error Node → Procedure}
    (hchange : ∀ {t t'}, t.SameEnclosure t' → (change t).SameEnclosure (change' t'))
    (hnext : ∀ result, Resembles (next result) (next' result)) :
    Resembles (.evaluate position change next) (.evaluate position change' next')

/-- A function of the caller that does not tell numbers of parentheses apart, unless one of them is
zero. -/
def CustomFunction.OverlooksParens (f : CustomFunction) : Prop :=
  ∀ {t t' : Surroundings} (args : List Node), t.SameEnclosure t' →
    (f.callRaw t args).Resembles (f.callRaw t' args)

/-! ### Scopes -/

namespace Scope

/-- The scope with another number of parentheses around. -/
def withParens (s : Scope) (parens : Nat) : Scope :=
  { s with parens }

/-- Both scopes are in parentheses or neither is. -/
lemma inParens_eq_iff {s s' : Scope} :
    s'.inParens = s.inParens ↔ (s'.parens = 0 ↔ s.parens = 0) := by
  unfold inParens
  rw [Bool.eq_iff_iff, bne_iff_ne, bne_iff_ne]
  exact not_iff_not

/-- Two scopes that differ only in the number of parentheses around, and both are in parentheses or
neither is.  The caller's functions do not tell these numbers apart. -/
structure SameEnclosure (s s' : Scope) : Prop where
  rest : s' = s.withParens s'.parens
  inParens : s'.inParens = s.inParens
  custom : ∀ key f, s.custom key = some f → f.OverlooksParens

namespace SameEnclosure

variable {s s' : Scope}

/-- Arithmetic is carried out in the same places. -/
lemma isMathOn (h : s.SameEnclosure s') : s'.isMathOn = s.isMathOn := by
  unfold Scope.isMathOn
  rw [h.inParens, h.rest]
  rfl

/-- The same operators are carried out. -/
lemma computes (h : s.SameEnclosure s') (operator : Operator) :
    s'.computes operator = s.computes operator := by
  unfold Scope.computes
  rw [h.inParens, h.isMathOn, h.rest]
  rfl

/-- An operation on evaluated operands is carried out, or kept, in the same way. -/
lemma operate (h : s.SameEnclosure s') (info : Info) (operator : Operator) (spaced : Bool)
    (a b : Node) :
    Node.operate s' info operator spaced a b = Node.operate s info operator spaced a b := by
  have hcompute : Node.compute s' info operator spaced a b =
      Node.compute s info operator spaced a b := by
    rw [h.rest]
    rfl
  unfold Node.operate
  rw [h.computes operator, hcompute]

/-- One more pair of parentheses around both. -/
lemma enterParens (h : s.SameEnclosure s') : s.enterParens.SameEnclosure s'.enterParens where
  rest := by
    rw [h.rest]
    rfl
  inParens := by simp [Scope.inParens, Scope.enterParens]
  custom := h.custom

/-- The surroundings of both scopes. -/
lemma surroundings (h : s.SameEnclosure s') :
    s.toSurroundings.SameEnclosure s'.toSurroundings where
  rest := by
    rw [h.rest]
    rfl
  parens := inParens_eq_iff.1 h.inParens

/-- Surroundings that are changed alike. -/
lemma changeSurroundings (h : s.SameEnclosure s') {change change' : Surroundings → Surroundings}
    (hchange : ∀ {t t'}, t.SameEnclosure t' → (change t).SameEnclosure (change' t')) :
    (s.changeSurroundings change).SameEnclosure (s'.changeSurroundings change') where
  rest := by
    have hchanged := (hchange h.surroundings).rest
    rw [Scope.changeSurroundings, hchanged, h.rest]
    rfl
  inParens := inParens_eq_iff.2 (hchange h.surroundings).parens
  custom := h.custom

/-- A change of both scopes that has nothing to do with parentheses. -/
lemma congr (h : s.SameEnclosure s') (enter : Scope → Scope)
    (henter : ∀ parens, enter (s.withParens parens) = (enter s).withParens parens)
    (hparens : ∀ t : Scope, (enter t).parens = t.parens)
    (hcustom : (enter s).custom = s.custom) : (enter s).SameEnclosure (enter s') where
  custom := by
    rw [hcustom]
    exact h.custom
  rest := by
    rw [hparens, ← henter]
    exact congrArg enter h.rest
  inParens := by
    have hinside := h.inParens
    unfold Scope.inParens at hinside ⊢
    rwa [hparens, hparens]

end SameEnclosure

end Scope

/-! ### Evaluation asks only whether there are parentheses -/

namespace Correspondence

/-- The comparison of evaluations inside different numbers of parentheses. -/
def enclosed : Correspondence where
  Lax _ := False
  Halts _ := True
  Scopes := Scope.SameEnclosure
  Inner := Scope.SameEnclosure
  Source _ := True
  Body _ := True
  Result _ _ := True
  States _ := True
  Grows _ _ := True
  lax_of_failed h := h
  halts_failed _ := trivial
  grows_refl _ := trivial
  grows_trans _ _ := trivial
  result_mono _ _ := trivial

/-- A function of the caller does the same in both scopes. -/
lemma enclosed_foreign (s s' : Scope) (x : Eval Node) (q : Queries) :
    enclosed.Meets s s' enclosed.Result (Evaluation.foreign x) (Evaluation.foreign x) q :=
  fun _ => .inr ⟨rfl, trivial, trivial, fun _ _ => trivial, fun _ _ => trivial⟩

/-- Procedures that resemble each other. -/
lemma enclosed_follows {s s' : Scope} {procedure procedure' : Procedure}
    (h : procedure.Resembles procedure') (q : Queries) :
    enclosed.simulation.Follows s s' q procedure procedure' := by
  induction h generalizing q with
  | finish x => exact simulation_finish (enclosed_foreign s s' x q)
  | evaluate hchange _ ih =>
    exact simulation_evaluate (fun hs => hs.changeSurroundings hchange)
      (fun q' result _ => ih result q') nofun

/-- No node tells the numbers of parentheses apart. -/
lemma enclosed_lawful : enclosed.Lawful where
  source_child _ _ := trivial
  yields _ _ _ _ := trivial
  result_rule _ _ := trivial
  resolving hs := .inr (by rw [hs.rest]; rfl)
  selectors hs := by rw [hs.rest]; rfl
  isMathOn hs := hs.isMathOn
  inCalc hs := by rw [hs.rest]; rfl
  scripts hs := by rw [hs.rest]; rfl
  frames hs _ := by rw [hs.rest]; rfl
  functionTable hs := .inr (by rw [hs.rest]; rfl)
  negate hs _ _ := hs.operate _ _ _ _ _
  operate hs _ _ _ := hs.operate _ _ _ _ _
  text hs _ _ _ _ := .inr ⟨by rw [hs.rest]; rfl, fun _ _ => trivial⟩
  enterParens hs := hs.enterParens
  enterCall name hs := hs.congr (fun s => s.enterCall name) (fun _ => rfl) (fun _ => rfl) rfl
  setMath property hs :=
    hs.congr (fun s => s.setMath (s.mathOf property)) (fun _ => rfl) (fun _ => rfl) rfl
  ruleset {s s' rs} hs _ := hs.congr
    (fun t => (t.pushFrame (t.frameOf rs)).setSelectors
      (Ruleset.combineSelectors s.selectors rs.selectors)) (fun _ => rfl) (fun _ => rfl) rfl
  lookup_none hs hnone := .inr (by rw [hs.rest]; exact hnone)
  lookup_some {s s' name found} hs _ hfound := by
    refine ⟨found, by rw [hs.rest]; exact hfound, rfl, rfl, trivial, ?_⟩
    exact hs.congr (fun t => (t.enterVariable name).setFrames (t.bindingFrames found))
      (fun _ => rfl) (fun _ => rfl) rfl
  custom {s s' info name args asCalc table key} hs _ _ _ := by
    refine ⟨by rw [hs.rest]; rfl, fun f hf q => ⟨fun values _ => enclosed_foreign _ _ _ q, ?_⟩⟩
    exact enclosed_follows (hs.custom key f hf args hs.surroundings) q
  body_string _ _ _ := trivial
  body_ruleset _ _ := trivial
  body_detached _ _ := trivial
  captured {s s' q info name i body frames} hs _ _ :=
    hs.congr (fun t => t.setFrames (frames ++ t.frames)) (fun _ => rfl) (fun _ => rfl) rfl
  body_operand _ _ _ _ := trivial
  variablesInScope hs _ := by rw [hs.rest]; rfl
  narrow {s s' info id d} hs _ _ :=
    hs.congr (fun t => t.pushFrame (Resolver.narrowFrame t d)) (fun _ => rfl) (fun _ => rfl) rfl
  template _ _ := ⟨trivial, trivial⟩
  record _ _ _ _ _ _ := ⟨trivial, trivial, trivial⟩
  dangling _ _ _ := trivial

end Correspondence

/-- A node has the same outcome inside any number of parentheses. -/
theorem Node.eval_enclosed {s s' : Scope} (h : s.SameEnclosure s') (depth : Nat) (node : Node)
    (q : Queries) :
    (Node.eval depth node : Scoped Node) s' q = (Node.eval depth node : Scoped Node) s q := by
  have hmeets := Correspondence.enclosed_lawful.eval trivial (fun hs => hs) (fun hn => hn) depth
    node q trivial h
  rcases hmeets trivial with ⟨_, _, hlax⟩ | hagree
  · exact hlax.elim
  · exact hagree.same

/-! ### Expressions in parentheses -/

/-- A last step that changes nothing. -/
lemma Scoped.bind_pure_of_eq {α : Type} {s : Scope} (x : Scoped α) {f : α → α}
    (hf : ∀ a, f a = a) : (x >>= fun a => pure (f a)) s = x s := by
  funext q
  rw [Correspondence.bind_apply]
  simp only [hf]
  obtain ⟨_ | a, states, marker⟩ := x s q <;> rfl

/-- Where arithmetic is carried out, an expression in parentheses is evaluated to what its only item
is evaluated to inside them. -/
lemma Node.evalWith_enclosed_item {s : Scope} (hs : s.isMathOn) (resolve : Resolver Scoped)
    (info : Info) (item : Node) {form : ExpressionForm} (hform : form.parens) :
    Node.evalWith resolve (.expression info [item] form) s =
      Node.evalWith resolve item s.enterParens := by
  have hkept : ∀ r, Node.keepParens s form [item] r = r := by
    intro r
    simp [Node.keepParens, hs]
  have hinside : Evaluation.parenthesized form.parens
      (Node.expressionOf info form (Node.evalEach resolve [item])) =
        (Evaluation.inParens (Node.evalWith resolve item) : Scoped Node) := by
    rw [Evaluation.parenthesized, if_pos hform, Node.evalEach_eq_map]
    rfl
  rw [Node.evalWith, hinside]
  funext q
  rw [Correspondence.scope_bind_apply, Scoped.bind_pure_of_eq _ hkept]
  rfl

/-- Arithmetic that is carried out goes on in parentheses. -/
lemma Scope.isMathOn_enterParens {s : Scope} (hs : s.isMathOn) : s.enterParens.isMathOn := by
  unfold Scope.isMathOn at hs ⊢
  rw [Bool.and_eq_true] at hs ⊢
  exact ⟨hs.1, by simp [Scope.inParens, Scope.enterParens]⟩

/-- A second pair of parentheses has both scopes inside some. -/
lemma Scope.sameEnclosure_enterParens {s : Scope}
    (hcustom : ∀ key f, s.custom key = some f → f.OverlooksParens) :
    s.enterParens.SameEnclosure s.enterParens.enterParens where
  rest := rfl
  inParens := by simp [Scope.inParens, Scope.enterParens]
  custom := hcustom

/-- The context with another number of parentheses around. -/
def Context.withParens (c : Context) (parens : Nat) : Context :=
  { c with parens }

/-- Redundant parentheses are harmless, if the caller's functions overlook them.  Evaluation depends
on the parentheses around only by whether there are any; and where arithmetic is on, and not only in
parentheses, an expression in two pairs of parentheses is evaluated to what it is evaluated to in
one, with the same effects, wherever the parentheses stand. -/
theorem Context.evaluate_redundant_parens (c : Context) (depth : Nat)
    (hcustom : ∀ key f, c.custom key = some f → f.OverlooksParens) :
    (∀ (node : Node) (parens parens' : Nat), (parens = 0 ↔ parens' = 0) →
        (c.withParens parens').evaluate depth node =
          (((c.withParens parens).evaluate depth node).1,
            ((c.withParens parens).evaluate depth node).2.withParens parens')) ∧
      (c.mathOn → c.math ≠ .parens →
        ∀ (x : Node) (outer inner single : Info)
          (outerForm innerForm singleForm : ExpressionForm),
          outerForm.parens → innerForm.parens → singleForm.parens →
          c.evaluate depth (.expression outer [.expression inner [x] innerForm] outerForm) =
            c.evaluate depth (.expression single [x] singleForm)) := by
  constructor
  · intro node parens parens' hzero
    have hscope : (c.withParens parens).scope.SameEnclosure (c.withParens parens').scope :=
      ⟨rfl, Scope.inParens_eq_iff.2 hzero.symm, hcustom⟩
    rw [evaluate_eq, evaluate_eq, Node.eval_enclosed hscope depth node]
    rfl
  · intro hmathOn hmath x outer inner single outerForm innerForm singleForm houter hinner hsingle
    cases depth with
    | zero => rfl
    | succ depth =>
      have hon : c.scope.isMathOn := by
        unfold Scope.isMathOn
        rw [Bool.and_eq_true, Bool.or_eq_true, bne_iff_ne]
        exact ⟨hmathOn, .inl hmath⟩
      have hdouble : (Node.eval (depth + 1)
            (.expression outer [.expression inner [x] innerForm] outerForm) : Scoped Node)
              c.scope c.queries =
          (Node.eval (depth + 1) x : Scoped Node) c.scope.enterParens.enterParens c.queries := by
        rw [Node.eval, Node.evalWith_enclosed_item hon _ _ _ houter,
          Node.evalWith_enclosed_item (Scope.isMathOn_enterParens hon) _ _ _ hinner, Node.eval]
      have hsame : (Node.eval (depth + 1) (.expression single [x] singleForm) : Scoped Node)
            c.scope c.queries =
          (Node.eval (depth + 1) x : Scoped Node) c.scope.enterParens c.queries := by
        rw [Node.eval, Node.evalWith_enclosed_item hon _ _ _ hsingle, Node.eval]
      rw [evaluate_eq, evaluate_eq, hdouble, hsame,
        Node.eval_enclosed (Scope.sameEnclosure_enterParens hcustom)]

/-- Half of a width. -/
def halfColumn : Node :=
  .operation {} .div (.variableRef {} "@width") (.dimension {} ⟨2.0, .none⟩) false

/-- A width in a variable, where division needs parentheses, and a function of the caller that has
its argument evaluated in changed surroundings. -/
def columnContext (change : Surroundings → Surroundings) : Context :=
  let width := .declaration {} (.literal "@width") (.dimension {} ⟨6.0, .none⟩)
    { isVariable := true }
  { frames := [.mk (some (.ofRules [] [width])) (some (.single "column"))]
    custom := fun _ => some (.evaluating change .ofExcept) }

/-- The surroundings in one more pair of parentheses. -/
def Surroundings.inside (s : Surroundings) : Surroundings :=
  { s with parens := s.parens + 1 }

/-- The surroundings with one pair of parentheses less. -/
def Surroundings.outside (s : Surroundings) : Surroundings :=
  { s with parens := s.parens - 1 }

/-- A function that evaluates its argument in one more pair of parentheses overlooks them. -/
lemma overlooksParens_columnContext :
    ∀ key f, (columnContext .inside).custom key = some f → f.OverlooksParens := by
  intro key f hf
  obtain rfl := Option.some.inj hf
  intro t t' args _
  refine .evaluate (fun {t t'} h => ⟨?_, by simp [Surroundings.inside]⟩) fun _ => .finish _
  rw [h.rest]
  rfl

/-- The division is held back without parentheses and carried out in one pair of them, which may be
those that the function adds; a second pair inside an operation, or more pairs around, change
nothing. -/
theorem evaluate_redundant_parens_halfColumn :
    let c := columnContext .inside
    let column : Node := .expression {} [halfColumn, .makeCall {} "column" [halfColumn]] {}
    ((c.evaluate 2 halfColumn).1.toOption.map Node.kind) = some .operation ∧
      ((c.evaluate 2 (.makeCall {} "column" [halfColumn])).1.toOption.map Node.kind) =
        some .dimension ∧
      c.evaluate 2 (.expression {} [.expression {} [column]
          { parens := true, parensInOp := true }] { parens := true }) =
        c.evaluate 2 (.expression {} [column] { parens := true }) ∧
      (c.withParens 3).evaluate 2 column =
        (((c.withParens 1).evaluate 2 column).1,
          ((c.withParens 1).evaluate 2 column).2.withParens 3) := by
  intro c column
  obtain ⟨hcount, hdouble⟩ := c.evaluate_redundant_parens 2 overlooksParens_columnContext
  refine ⟨by decide +kernel, by decide +kernel, ?_, hcount column 1 3 (by decide)⟩
  exact hdouble rfl nofun column {} {} {} _ _ _ rfl rfl rfl

/-- A function that evaluates its argument outside a pair of parentheses tells one pair from two:
neither is it enough to know whether there are any, nor is a second pair harmless. -/
theorem parens_seen_by_function :
    (¬ ∀ (c : Context) (depth : Nat) (node : Node) (parens parens' : Nat),
      (parens = 0 ↔ parens' = 0) → ((c.withParens parens').evaluate depth node).1 =
        ((c.withParens parens).evaluate depth node).1) ∧
      ¬ ∀ (c : Context) (depth : Nat), c.mathOn → c.math ≠ .parens →
        ∀ (x : Node) (outer inner single : Info)
          (outerForm innerForm singleForm : ExpressionForm),
          outerForm.parens → innerForm.parens → singleForm.parens →
          (c.evaluate depth (.expression outer [.expression inner [x] innerForm] outerForm)).1 =
            (c.evaluate depth (.expression single [x] singleForm)).1 := by
  let c := columnContext .outside
  let column : Node := .makeCall {} "column" [halfColumn]
  constructor
  · intro h
    have hsame := congrArg (fun r => r.toOption.map Node.kind) (h c 2 column 1 2 (by decide))
    exact absurd hsame (by decide +kernel)
  · intro h
    have hsame := congrArg (fun r => r.toOption.map Node.kind)
      (h c 2 rfl nofun column {} {} {} { parens := true } { parens := true } { parens := true }
        rfl rfl rfl)
    exact absurd hsame (by decide +kernel)

end Cascade
