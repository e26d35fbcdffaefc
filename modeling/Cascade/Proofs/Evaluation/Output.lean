import Cascade.Proofs.Evaluation.InPlace
import Cascade.Proofs.Evaluation.Inheritance

/-!
# Evaluation and the options for the output

Of the style, evaluation itself looks at two options only: whether a number may carry more than one
unit, and whether scripts are allowed.  All others concern the output, and evaluation depends on
them only where it prints: where a node spells (`Node.Spells`).  The comparison of guards prints
too, but in the plain style.  Hence a tree without nodes that spell is evaluated to the same result
or to the same error, whatever the options for the output are (`Context.evaluate_withOutput`).
-/

namespace Cascade

/-- The style with the options for the output, and the place in the output, of another style. -/
def Style.withOutput (style output : Style) : Style :=
  { style with
    compress := output.compress
    precision := output.precision
    dump := output.dump
    lastRule := output.lastRule
    level := output.level }

/-- The scope with other options for the output. -/
def Scope.withOutput (s : Scope) (output : Style) : Scope :=
  { s with style := s.style.withOutput output }

/-- The context with other options for the output. -/
def Context.withOutput (c : Context) (output : Style) : Context :=
  { c with style := c.style.withOutput output }

instance (n : Node) : Decidable n.Spells :=
  match n with
  | .variableRef _ name | .variableCall _ name =>
    inferInstanceAs (Decidable (1 < Resolver.atSigns name))
  | .quoted _ _ text _ => inferInstanceAs (Decidable (Text.Piece.names (Text.pieces text) ≠ []))
  | .declaration _ (.interpolated _) _ _ => .isTrue trivial
  | .declaration _ (.literal _) _ _ => .isFalse id
  | .anonymous .. | .assignment .. | .attribute .. | .call .. | .color .. | .comment ..
  | .condition .. | .detached .. | .dimension .. | .expression .. | .javaScript ..
  | .keyword .. | .negative .. | .operation .. | .paren .. | .query .. | .ruleset ..
  | .unicodeDescriptor .. | .value .. => .isFalse id

/-- A node that evaluation does not print, and that keeps built-in functions only. -/
def Node.IsSilent (n : Node) : Prop :=
  n.IsNative ∧ ¬ n.Spells

instance (n : Node) : Decidable n.IsSilent :=
  inferInstanceAs (Decidable (n.IsNative ∧ ¬ n.Spells))

/-- Evaluation makes no node that spells out of nodes that do not. -/
lemma Node.heritable_not_spells (T : FunctionTable → Prop) :
    Node.Heritable T fun n => ¬ n.Spells where
  yields {Result s n r} hn _ hr := by
    cases hr with
    | quoted => exact hn
    | calculated h => cases h.calculated <;> exact id
    | _ => exact id
  list _ := id
  string _ hn hspells := absurd hspells hn
  condition _ := id
  narrow _ := id

/-- What evaluation makes of silent nodes is silent. -/
lemma Node.heritable_isSilent : Node.Heritable FunctionTable.IsNative Node.IsSilent :=
  (Node.heritable_carries _).and (Node.heritable_not_spells _)

/-- Arithmetic does not depend on the options for the output. -/
lemma Node.operate_withOutput (output : Style) (s : Scope) (info : Info) (operator : Operator)
    (spaced : Bool) (a b : Node) :
    Node.operate (s.withOutput output) info operator spaced a b =
      Node.operate s info operator spaced a b :=
  rfl

namespace Correspondence

/-- The comparison of an evaluation with one under other options for the output. -/
def restyled (output : Style) : Correspondence where
  Lax _ := False
  Halts _ := True
  Scopes s s' := s' = s.withOutput output ∧ s.Fits FunctionTable.IsNative Node.IsSilent
  Inner s s' := s' = s.withOutput output ∧ s.Fits FunctionTable.IsNative Node.IsSilent
  Source n := n.Throughout Node.IsSilent
  Body n := n.Throughout Node.IsSilent
  Result _ n := n.Throughout Node.IsSilent
  States q := ∀ state ∈ q, state.Throughout Node.IsSilent
  Grows _ _ := True
  lax_of_failed h := h
  halts_failed _ := trivial
  grows_refl _ := trivial
  grows_trans _ _ := trivial
  result_mono _ hn := hn

/-- Silent nodes look at no option for the output. -/
lemma restyled_lawful (output : Style) : (restyled output).Lawful where
  source_child hn hc := hn.child hc
  yields hs _ hn hr :=
    Node.heritable_isSilent.throughout_of_yields hs.2.frames hn (fun _ hv => hv) hr
  result_rule hrs hc := hrs.child hc
  resolving hs := .inr (by rw [hs.1]; rfl)
  selectors hs := by rw [hs.1]; rfl
  isMathOn hs := by rw [hs.1]; rfl
  inCalc hs := by rw [hs.1]; rfl
  scripts hs := by rw [hs.1]; rfl
  frames hs _ := by rw [hs.1]; rfl
  functionTable hs := .inr (by rw [hs.1]; rfl)
  negate hs _ _ := by rw [hs.1, Node.operate_withOutput]
  operate hs _ _ _ := by rw [hs.1, Node.operate_withOutput]
  text _ _ hn hspells _ := absurd hspells hn.self.2
  enterParens hs := ⟨by rw [hs.1]; rfl, hs.2.frames, hs.2.custom⟩
  enterCall _ hs := ⟨by rw [hs.1]; rfl, hs.2.frames, hs.2.custom⟩
  setMath _ hs := ⟨by rw [hs.1]; rfl, hs.2.frames, hs.2.custom⟩
  ruleset hs hrs := ⟨by rw [hs.1]; rfl, (hs.2.pushRuleset hrs).frames, hs.2.custom⟩
  lookup_none hs hnone := .inr (by rw [hs.1]; exact hnone)
  lookup_some {s s' name found} hs _ hfound := by
    refine ⟨found, by rw [hs.1]; exact hfound, rfl, rfl, hs.2.source_of_lookup? hfound, ?_,
      hs.2.enterBinding hfound⟩
    rw [hs.1]
    rfl
  custom {s s' info name args asCalc table key} hs _ htable hfind := by
    have hnone := hs.2.custom_eq_none htable hfind
    refine ⟨by rw [hs.1]; rfl, fun f hf => ?_⟩
    rw [hnone] at hf
    cases hf
  body_string filled hn hspells := absurd hspells hn.self.2
  body_ruleset _ hrs := hrs
  body_detached _ hheld := Node.Throughout.body hheld
  captured hs _ hheld :=
    ⟨by rw [hs.1]; rfl, hs.2.pushCaptured (fun _ hn => hn.1) hheld⟩
  body_operand hq _ hstate hn := hq _ (List.mem_of_getElem? hstate) _ (List.mem_append_left _ hn)
  variablesInScope hs _ := by rw [hs.1]; rfl
  narrow hs _ hd := ⟨by rw [hs.1]; rfl, hs.2.pushNarrow Node.heritable_isSilent hd⟩
  template hq _ := ⟨trivial, Queries.forall_modify hq fun _ hstate => hstate.withTemplate⟩
  record hq hn hleft hmiddle hright hfound :=
    ⟨trivial, Queries.forall_modify hq fun _ hstate => hstate.record hleft hmiddle hright hfound,
      Node.heritable_isSilent.throughout_condition hn⟩
  dangling _ hn _ := Node.heritable_isSilent.throughout_condition hn

end Correspondence

/-- The options for the output do not influence evaluation: where nothing spells and functions are
built-in ones, a tree is evaluated to the same result or to the same error under any of them, and
the context is left the same apart from them. -/
theorem Context.evaluate_withOutput (c : Context) (output : Style) (depth : Nat) (node : Node)
    (hframes : ∀ f ∈ c.frames, f.Fits FunctionTable.IsNative Node.IsSilent)
    (hnode : node.Throughout Node.IsSilent)
    (hqueries : ∀ state ∈ c.queries, state.Throughout Node.IsSilent) :
    (c.withOutput output).evaluate depth node =
      ((c.evaluate depth node).1, (c.evaluate depth node).2.withOutput output) := by
  have hscope : (Correspondence.restyled output).Scopes c.scope (c.withOutput output).scope :=
    ⟨rfl, .ofNative hframes⟩
  have hmeets := (Correspondence.restyled_lawful output).eval trivial (fun hs => hs)
    (fun hn => hn) depth node c.queries hnode hscope
  rw [Context.evaluate_eq, Context.evaluate_eq]
  rcases hmeets hqueries with ⟨_, _, hlax⟩ | hagree
  · exact hlax.elim
  · have hsame : (Node.eval depth node : Scoped Node) (c.withOutput output).scope
        (c.withOutput output).queries = (Node.eval depth node : Scoped Node) c.scope c.queries :=
      hagree.same
    rw [hsame]
    rfl

/-- A variable and a detached ruleset that refers to it, and a condition that compares with it. -/
def breakpointContext : Context :=
  let traits : DeclarationTraits := { isVariable := true }
  let wide := .declaration {} (.literal "@w") (.keyword {} "wide") traits
  let body := .ofRules [] [.declaration {} (.literal "width") (.variableRef {} "@w") {}]
  let block := .declaration {} (.literal "@b") (.detached {} (some body) none) traits
  { frames := [.mk (some (.ofRules [] [wide, block])) (some .builtins)]
    queries := [.make ">=" (.keyword {} "width") (some (.variableRef {} "@w")) none] }

/-- A condition, a call of a variable, a string, and a guard that compares a variable. -/
def breakpointRules : Node :=
  let guard := .condition {} .equal (.variableRef {} "@w") (.quoted {} '"' "wide" true) false
  .ruleset (.ofRules ["a"]
    [.query {} 0, .variableCall {} "@b", .declaration {} (.literal "content") guard {}])

/-- The rules are evaluated, and compressed output with few decimal places does not change what
they are evaluated to. -/
theorem evaluate_withOutput_breakpointRules :
    (breakpointContext.evaluate 3 breakpointRules).1.isOk ∧
      (breakpointContext.withOutput
          { compress := true, precision := some 2, level := 1 }).evaluate 3 breakpointRules =
        ((breakpointContext.evaluate 3 breakpointRules).1,
          (breakpointContext.evaluate 3 breakpointRules).2.withOutput
            { compress := true, precision := some 2, level := 1 }) := by
  have hframes : ∀ f ∈ breakpointContext.frames,
      f.Fits FunctionTable.IsNative Node.IsSilent := by
    intro f hf
    rw [List.mem_singleton.1 hf]
    constructor <;> decide
  have hqueries : ∀ state ∈ breakpointContext.queries, state.Throughout Node.IsSilent := by
    intro state hstate
    rw [List.mem_singleton.1 hstate]
    decide
  refine ⟨by decide +kernel, ?_⟩
  exact breakpointContext.evaluate_withOutput _ 3 breakpointRules hframes (by decide) hqueries

end Cascade
