import Cascade.Proofs.Evaluation.Core
import Cascade.Proofs.Evaluation.InPlace

/-!
# Arithmetic with and without division

Two of the three rules for arithmetic hold for all operators alike, apart from the plain slash:
either division is always carried out, or only in parentheses.  The font shorthand changes the
first rule into the second one, and under the second rule an operation on a division that was held
back is held back, too.  So the rules differ only where there are divisions.  A tree without any is
evaluated to the same result or to the same error under both of them
(`Context.evaluate_without_division`).
-/

namespace Cascade

/-- A node that is no division by the plain slash, and that keeps built-in functions only. -/
def Node.IsUndivided (n : Node) : Prop :=
  n.IsNative ∧ n.isDivision = false

instance (n : Node) : Decidable n.IsUndivided :=
  inferInstanceAs (Decidable (n.IsNative ∧ n.isDivision = false))

/-- The context under other rules for arithmetic. -/
def Context.withMath (c : Context) (math : MathMode) : Context :=
  { c with math }

/-- Evaluation makes no divisions: an operation that is kept has its own operator, and a minus sign
stands for a product. -/
lemma Node.heritable_not_isDivision (T : FunctionTable → Prop) :
    Node.Heritable T fun n => n.isDivision = false where
  yields {Result s n r} hn _ hr := by
    cases hr with
    | calculated h =>
      cases h with
      | function _ _ hr =>
        rcases Builtin.call_cases hr with ⟨_, _, rfl⟩ | ⟨_, _, rfl⟩ | ⟨_, _, rfl⟩ <;> rfl
      | negated hmath _ hr =>
        rcases Node.operate_minusOne_cases hmath hr with ⟨_, _, rfl⟩ | ⟨_, _, rfl⟩ <;> rfl
      | operation _ _ hr =>
        rcases Node.operate_cases hr with ⟨_, _, rfl⟩ | ⟨_, _, rfl⟩ | rfl
        · rfl
        · rfl
        · exact hn
    | _ => rfl
  list _ := rfl
  string _ _ _ := rfl
  condition _ := rfl
  narrow _ := rfl

/-- What evaluation makes of a tree without divisions has none. -/
lemma Node.heritable_isUndivided : Node.Heritable FunctionTable.IsNative Node.IsUndivided :=
  (Node.heritable_carries _).and (Node.heritable_not_isDivision _)

/-! ### Rules under which only division differs -/

namespace Scope

/-- Arithmetic outside parentheses is carried out, perhaps without division. -/
def IsOpen (s : Scope) : Prop :=
  s.math ≠ .parens

variable {s : Scope} {math : MathMode}

/-- Under both rules arithmetic is carried out in the same places. -/
lemma isMathOn_setMath (hs : s.IsOpen) (hmath : math ≠ .parens) :
    (s.setMath math).isMathOn = s.isMathOn := by
  simp only [isMathOn, setMath, inParens, bne_iff_ne.2 hs, bne_iff_ne.2 hmath]

/-- Both rules agree on all operators but the plain slash. -/
lemma computes_setMath (hs : s.IsOpen) (hmath : math ≠ .parens) {operator : Operator}
    (hoperator : operator ≠ .div) :
    (s.setMath math).computes operator = s.computes operator := by
  simp only [computes, isMathOn_setMath hs hmath, bne_iff_ne.2 hoperator, Bool.true_or]

/-- The value of a property is evaluated under one of the two rules. -/
lemma mathOf_ne_parens (hs : s.IsOpen) (property : String) : s.mathOf property ≠ .parens := by
  unfold mathOf
  split
  · nofun
  · exact hs

end Scope

namespace Node

variable {s : Scope} {math : MathMode}

/-- An operation on anything but a division is carried out in the same way under all rules. -/
lemma compute_setMath {a : Node} (ha : a.isDivision = false) (info : Info) (operator : Operator)
    (spaced : Bool) (b : Node) :
    compute (s.setMath math) info operator spaced a b = compute s info operator spaced a b := by
  unfold compute
  split
  · rfl
  · rfl
  next hpromote =>
    obtain ⟨rfl, -⟩ := eq_of_promote_eq_operation hpromote
    cases ha
  · rfl

/-- An operation other than division, on anything but a division, is carried out or kept in the
same way under both rules. -/
lemma operate_setMath (hs : s.IsOpen) (hmath : math ≠ .parens) {a : Node}
    (ha : a.isDivision = false) {operator : Operator} (hoperator : operator ≠ .div) (info : Info)
    (spaced : Bool) (b : Node) :
    operate (s.setMath math) info operator spaced a b = operate s info operator spaced a b := by
  unfold operate
  rw [Scope.computes_setMath hs hmath hoperator, compute_setMath ha]

end Node

/-- Two scopes whose rules differ in division only, and whose frames have no divisions. -/
structure Scope.DifferInDivision (s s' : Scope) : Prop where
  same : s' = s.setMath s'.math
  first : s.IsOpen
  second : s'.IsOpen
  fits : s.Fits FunctionTable.IsNative Node.IsUndivided

namespace Correspondence

/-- The comparison of evaluations under the two rules. -/
def undivided : Correspondence where
  Lax _ := False
  Halts _ := True
  Scopes := Scope.DifferInDivision
  Inner := Scope.DifferInDivision
  Source n := n.Throughout Node.IsUndivided
  Body n := n.Throughout Node.IsUndivided
  Result _ n := n.Throughout Node.IsUndivided
  States q := ∀ state ∈ q, state.Throughout Node.IsUndivided
  Grows _ _ := True
  lax_of_failed h := h
  halts_failed _ := trivial
  grows_refl _ := trivial
  grows_trans _ _ := trivial
  result_mono _ hn := hn

/-- Nodes without divisions do not tell the two rules apart. -/
lemma undivided_lawful : undivided.Lawful where
  source_child hn hc := hn.child hc
  yields hs _ hn hr :=
    Node.heritable_isUndivided.throughout_of_yields hs.fits.frames hn (fun _ hv => hv) hr
  result_rule hrs hc := hrs.child hc
  resolving hs := .inr (by rw [hs.same]; rfl)
  selectors hs := by rw [hs.same]; rfl
  isMathOn hs := by rw [hs.same, Scope.isMathOn_setMath hs.first hs.second]
  inCalc hs := by rw [hs.same]; rfl
  scripts hs := by rw [hs.same]; rfl
  frames hs _ := by rw [hs.same]; rfl
  functionTable hs := .inr (by rw [hs.same]; rfl)
  negate {s s' q info v a} hs _ _ := by
    have hminus : Node.minusOne.isDivision = false := rfl
    have hmul : Operator.mul ≠ .div := nofun
    rw [hs.same, Node.operate_setMath hs.first hs.second hminus hmul]
  operate {s s' q info operator l r spaced a b} hs hn ha _ := by
    have hoperator : operator ≠ .div := by
      rintro rfl
      cases hn.self.2
    rw [hs.same, Node.operate_setMath hs.first hs.second ha.self.2 hoperator]
  text hs _ _ _ _ := .inr ⟨by rw [hs.same]; rfl, fun _ _ => trivial⟩
  enterParens hs := ⟨by rw [hs.same]; rfl, hs.first, hs.second, hs.fits.frames, hs.fits.custom⟩
  enterCall _ hs := ⟨by rw [hs.same]; rfl, hs.first, hs.second, hs.fits.frames, hs.fits.custom⟩
  setMath property hs :=
    ⟨by rw [hs.same]; rfl, Scope.mathOf_ne_parens hs.first property,
      Scope.mathOf_ne_parens hs.second property, hs.fits.frames, hs.fits.custom⟩
  ruleset hs hrs :=
    ⟨by rw [hs.same]; rfl, hs.first, hs.second, (hs.fits.pushRuleset hrs).frames, hs.fits.custom⟩
  lookup_none hs hnone := .inr (by rw [hs.same]; exact hnone)
  lookup_some {s s' name found} hs _ hfound := by
    refine ⟨found, by rw [hs.same]; exact hfound, rfl, rfl, hs.fits.source_of_lookup? hfound, ?_,
      hs.first, hs.second, hs.fits.enterBinding hfound⟩
    rw [hs.same]
    rfl
  custom {s s' info name args asCalc table key} hs _ htable hfind := by
    refine ⟨by rw [hs.same]; rfl, fun f hf => ?_⟩
    rw [hs.fits.custom_eq_none htable hfind] at hf
    cases hf
  body_string filled hn hspells := Node.heritable_isUndivided.throughout_string filled hn hspells
  body_ruleset _ hrs := hrs
  body_detached _ hheld := Node.Throughout.body hheld
  captured hs _ hheld :=
    ⟨by rw [hs.same]; rfl, hs.first, hs.second, hs.fits.pushCaptured (fun _ hn => hn.1) hheld⟩
  body_operand hq _ hstate hn := hq _ (List.mem_of_getElem? hstate) _ (List.mem_append_left _ hn)
  variablesInScope hs _ := by rw [hs.same]; rfl
  narrow hs _ hd :=
    ⟨by rw [hs.same]; rfl, hs.first, hs.second, hs.fits.pushNarrow Node.heritable_isUndivided hd⟩
  template hq _ := ⟨trivial, Queries.forall_modify hq fun _ hstate => hstate.withTemplate⟩
  record hq hn hleft hmiddle hright hfound :=
    ⟨trivial, Queries.forall_modify hq fun _ hstate => hstate.record hleft hmiddle hright hfound,
      Node.heritable_isUndivided.throughout_condition hn⟩
  dangling _ hn _ := Node.heritable_isUndivided.throughout_condition hn

end Correspondence

/-- The rules that always carry out division and that do so in parentheses only differ on division
only: where there is none and functions are built-in ones, a tree is evaluated to the same result or
to the same error under both, and the context is left the same. -/
theorem Context.evaluate_without_division (c : Context) (depth : Nat) (node : Node)
    (hframes : ∀ f ∈ c.frames, f.Fits FunctionTable.IsNative Node.IsUndivided)
    (hnode : node.Throughout Node.IsUndivided)
    (hqueries : ∀ state ∈ c.queries, state.Throughout Node.IsUndivided) :
    (c.withMath .parensDivision).evaluate depth node =
      (((c.withMath .always).evaluate depth node).1,
        ((c.withMath .always).evaluate depth node).2.withMath .parensDivision) := by
  have hscope : Correspondence.undivided.Scopes (c.withMath .always).scope
      (c.withMath .parensDivision).scope :=
    ⟨rfl, nofun, nofun, .ofNative hframes⟩
  have hmeets := Correspondence.undivided_lawful.eval trivial (fun hs => hs) (fun hn => hn) depth
    node c.queries hnode hscope
  rw [Context.evaluate_eq, Context.evaluate_eq]
  rcases hmeets hqueries with ⟨_, _, hlax⟩ | hagree
  · exact hlax.elim
  · have hsame : (Node.eval depth node : Scoped Node) (c.withMath .parensDivision).scope
          (c.withMath .parensDivision).queries =
        (Node.eval depth node : Scoped Node) (c.withMath .always).scope
          (c.withMath .always).queries :=
      hagree.same
    rw [hsame]
    rfl

/-- A number, a detached ruleset that divides it by the dotted slash, and a condition that compares
with it. -/
def scaledContext : Context :=
  let traits : DeclarationTraits := { isVariable := true }
  let width := .declaration {} (.literal "@w") (.dimension {} ⟨3.0, .none⟩) traits
  let half := .operation {} .dotDiv (.variableRef {} "@w") (.dimension {} ⟨2.0, .none⟩) true
  let body := .ofRules [] [.declaration {} (.literal "width") half {}]
  let block := .declaration {} (.literal "@b") (.detached {} (some body) none) traits
  { frames := [.mk (some (.ofRules [] [width, block])) (some .builtins)]
    queries := [.make ">=" (.keyword {} "width") (some (.variableRef {} "@w")) none] }

/-- A font shorthand with a product and a minus sign, a condition, and a call of a variable. -/
def scaledRules : Node :=
  let minus := .negative {} (.variableRef {} "@w")
  let product := .operation {} .mul minus (.dimension {} ⟨2.0, .none⟩) true
  .ruleset (.ofRules ["a"]
    [.declaration {} (.literal "font") product {}, .query {} 0, .variableCall {} "@b"])

/-- The rules are evaluated, and to the same result whether or not division needs parentheses. -/
theorem evaluate_without_division_scaledRules :
    (scaledContext.evaluate 3 scaledRules).1.isOk ∧
      (scaledContext.withMath .parensDivision).evaluate 3 scaledRules =
        (((scaledContext.withMath .always).evaluate 3 scaledRules).1,
          ((scaledContext.withMath .always).evaluate 3 scaledRules).2.withMath
            .parensDivision) := by
  have hframes : ∀ f ∈ scaledContext.frames, f.Fits FunctionTable.IsNative Node.IsUndivided := by
    intro f hf
    rw [List.mem_singleton.1 hf]
    constructor <;> decide
  have hqueries : ∀ state ∈ scaledContext.queries, state.Throughout Node.IsUndivided := by
    intro state hstate
    rw [List.mem_singleton.1 hstate]
    decide
  refine ⟨by decide +kernel, ?_⟩
  exact scaledContext.evaluate_without_division 3 scaledRules hframes (by decide) hqueries

end Cascade
