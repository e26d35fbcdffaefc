import Cascade.Proofs.Evaluation.Core
import Cascade.Proofs.Evaluation.InPlace

/-!
# Variables are hoisted

Where in a ruleset a variable is declared does not matter, only the order of the declarations among
themselves does.  Two rulesets whose rules are the same, and in the same order apart from where the
variables are declared, are evaluated alike and print the same (`Context.evaluate_reordered`).

The two rulesets are different frames for their rules, but frames with the same core, so each rule
is evaluated alike in both of them.  Without conditions of queries the rules do not depend on each
other, and the evaluated declarations of variables print nothing.  A condition of a query is
evaluated over and over in one state, so that the order of its evaluations matters
(`not_reordered_with_conditions`).
-/

namespace Cascade

/-- The same rules in another order, in which the declarations of variables are in the same order
among themselves, and so are all other rules. -/
structure Node.Reordered (rules rules' : List Node) : Prop where
  bindings : rules'.filter Node.isBinding = rules.filter Node.isBinding
  others : (rules'.filter fun rule => !rule.isBinding) = rules.filter fun rule => !rule.isBinding

/-- Two orders have the same rules. -/
lemma Node.Reordered.mem_iff {rules rules' : List Node} (h : Node.Reordered rules rules')
    {rule : Node} : rule ∈ rules' ↔ rule ∈ rules := by
  have hsplit : ∀ l : List Node, rule ∈ l ↔
      rule ∈ l.filter Node.isBinding ∨ rule ∈ l.filter fun rule => !rule.isBinding := by
    intro l
    simp only [List.mem_filter, ← and_or_left]
    cases rule.isBinding <;> simp
  rw [hsplit, hsplit rules, h.bindings, h.others]

/-! ### Rules that do not depend on each other -/

section Rules

variable {s : Scope} {q : Queries}

/-- A sequence of steps succeeds if each of them does. -/
lemma Scoped.exists_of_bind_eq_ok {α β : Type} {x : Scoped α} {f : α → Scoped β} {b : β}
    (h : ((x >>= f) s q).result = .ok b) :
    ∃ a, (x s q).result = .ok a ∧ (f a s (x s q).queries).result = .ok b := by
  rw [Correspondence.bind_apply] at h
  cases hx : (x s q).result with
  | error halt =>
    rw [hx] at h
    cases h
  | ok a =>
    rw [hx] at h
    exact ⟨a, rfl, h⟩

/-- A known result that is given is a success. -/
lemma Scoped.of_ofExcept {α : Type} {x : Except Error α} {a : α}
    (h : ((Evaluation.ofExcept x : Scoped α) s q).result = .ok a) : x = .ok a := by
  cases x with
  | error e => cases h
  | ok b => exact congrArg Except.ok (Except.ok.inj h)

/-- A reference by name goes on with the value of the variable. -/
lemma Resolver.reference_apply (resolve : Resolver Scoped) {name : String} {found : Binding}
    (hname : Resolver.atSigns name ≤ 1) (hfresh : name ∉ s.resolving)
    (hfound : Frame.lookup? name s.frames = some found) :
    (resolve.reference name s q).result = (resolve.value found.value
        ((s.enterVariable name).setFrames (s.bindingFrames found)) q).result ∧
      (resolve.reference name s q).queries = (resolve.value found.value
        ((s.enterVariable name).setFrames (s.bindingFrames found)) q).queries := by
  rw [Resolver.reference, if_pos hname, Resolver.binding_apply hfresh, Resolver.lookup, hfound]
  dsimp only
  rw [Correspondence.bind_apply]
  unfold Evaluation.announce
  by_cases hmarker : found.important = ""
  · rw [if_pos hmarker]
    exact ⟨rfl, rfl⟩
  · rw [if_neg hmarker]
    exact ⟨rfl, rfl⟩

/-- A reference by name succeeds only if the variable is found and is not being resolved. -/
lemma Resolver.exists_of_reference_eq_ok {resolve : Resolver Scoped} {name : String} {r : Node}
    (hname : Resolver.atSigns name ≤ 1) (h : (resolve.reference name s q).result = .ok r) :
    name ∉ s.resolving ∧ ∃ found, Frame.lookup? name s.frames = some found := by
  have hfresh : name ∉ s.resolving := by
    intro hmem
    rw [Resolver.reference, if_pos hname, Resolver.binding, Correspondence.scope_bind_apply,
      if_pos (List.contains_iff_mem.2 hmem)] at h
    cases h
  refine ⟨hfresh, ?_⟩
  rw [Resolver.reference, if_pos hname, Resolver.binding_apply hfresh, Resolver.lookup] at h
  cases hfound : Frame.lookup? name s.frames with
  | none =>
    rw [hfound] at h
    cases h
  | some found => exact ⟨found, rfl⟩

/-- Evaluations one after the other give their results in order. -/
lemma Scoped.forall₂_of_runEach_eq_ok {α : Type} {xs : List (Scoped α)} {as : List α}
    (h : ((Evaluation.runEach xs) s q).result = .ok as) :
    List.Forall₂ (fun x a => ∃ q, (x s q).result = .ok a) xs as := by
  induction xs generalizing q as with
  | nil =>
    cases h
    exact .nil
  | cons x rest ih =>
    rw [Evaluation.runEach] at h
    obtain ⟨a, ha, h⟩ := Scoped.exists_of_bind_eq_ok h
    obtain ⟨others, hothers, h⟩ := Scoped.exists_of_bind_eq_ok h
    cases h
    exact .cons ⟨q, ha⟩ (ih hothers)

variable {evaluation : Node → Scoped Node} {rules : List Node}

/-- Rules are evaluated if each of them is. -/
lemma Node.evaluateRules_of_forall {value : Node → Node}
    (hqueries : ∀ rule ∈ rules, (evaluation rule s q).queries = q)
    (hvalue : ∀ rule ∈ rules, (evaluation rule s q).result = .ok (value rule)) :
    (Node.evaluateRules rules (rules.map evaluation) s q).result =
        .ok (rules.flatMap fun rule => rule.splice (value rule)) ∧
      (Node.evaluateRules rules (rules.map evaluation) s q).queries = q := by
  induction rules with
  | nil => exact ⟨rfl, rfl⟩
  | cons rule rest ih =>
    rw [List.forall_mem_cons] at hqueries hvalue
    obtain ⟨hresult, hstates⟩ := ih hqueries.2 hvalue.2
    rw [List.map_cons, Node.evaluateRules, Correspondence.bind_apply, hvalue.1, hqueries.1]
    dsimp only
    rw [Correspondence.bind_apply, hresult, hstates, List.flatMap_cons]
    exact ⟨rfl, rfl⟩

/-- Each rule is evaluated if the rules are. -/
lemma Node.forall_of_evaluateRules {evaluated : List Node}
    (hqueries : ∀ rule ∈ rules, ∀ r, (evaluation rule s q).result = .ok r →
      (evaluation rule s q).queries = q)
    (h : (Node.evaluateRules rules (rules.map evaluation) s q).result = .ok evaluated) :
    ∀ rule ∈ rules, ∃ r, (evaluation rule s q).result = .ok r := by
  induction rules generalizing evaluated with
  | nil => simp
  | cons rule rest ih =>
    rw [List.forall_mem_cons] at hqueries
    rw [List.map_cons, Node.evaluateRules] at h
    obtain ⟨r, hr, h⟩ := Scoped.exists_of_bind_eq_ok h
    obtain ⟨others, hothers, _⟩ := Scoped.exists_of_bind_eq_ok h
    rw [hqueries.1 r hr] at hothers
    exact List.forall_mem_cons.2 ⟨⟨r, hr⟩, ih hqueries.2 hothers⟩

/-- An evaluated declaration of a variable declares a variable. -/
lemma Node.isBinding_of_eval {depth : Nat} {rule r : Node} (hrule : rule.isBinding)
    (h : ((Node.eval (depth + 1) rule : Scoped Node) s q).result = .ok r) : r.isBinding := by
  obtain ⟨info, text, v, traits, rfl, hvariable⟩ := Node.eq_declaration_of_isBinding hrule
  rw [Node.eval, Node.evalWith] at h
  obtain ⟨name, _, h⟩ := Scoped.exists_of_bind_eq_ok h
  obtain ⟨_, _, h⟩ := Scoped.exists_of_bind_eq_ok h
  obtain ⟨⟨value, marker⟩, _, h⟩ := Scoped.exists_of_bind_eq_ok h
  have hfinish := Scoped.of_ofExcept h
  unfold Node.finishDeclaration at hfinish
  split at hfinish
  · cases hfinish
  · cases hfinish
    exact hvariable

/-- A ruleset whose rules do not depend on each other is evaluated to the contributions of its
rules. -/
lemma Node.eval_ruleset_of_forall {depth : Nat} {info : Info} {selectors : List String}
    {root : Bool} {value : Node → Node}
    (hqueries : ∀ rule ∈ rules, ((Node.eval (depth + 1) rule : Scoped Node)
      (s.inside (.ruleset (.mk info selectors rules root))) q).queries = q)
    (hvalue : ∀ rule ∈ rules, ((Node.eval (depth + 1) rule : Scoped Node)
      (s.inside (.ruleset (.mk info selectors rules root))) q).result = .ok (value rule)) :
    ((Node.eval (depth + 1) (.ruleset (.mk info selectors rules root)) : Scoped Node) s q).result =
        .ok (.ruleset (.mk info.snapshot (Ruleset.combineSelectors s.selectors selectors)
          (rules.flatMap fun rule => rule.splice (value rule)) root)) ∧
      ((Node.eval (depth + 1) (.ruleset (.mk info selectors rules root)) : Scoped Node)
        s q).queries = q := by
  obtain ⟨hresult, hstates⟩ := Node.evaluateRules_of_forall hqueries hvalue
  have hinside : ∀ x : Scoped (List Node),
      (Evaluation.inFrame (s.frameOf (.mk info selectors rules root))
        (Evaluation.inSelectors (Ruleset.combineSelectors s.selectors selectors) x)) s q =
      x (s.inside (.ruleset (.mk info selectors rules root))) q := fun _ => rfl
  rw [Node.eval, Node.evalWith, Ruleset.evalWith, Correspondence.scope_bind_apply,
    Node.evalEach_eq_map, Correspondence.bind_apply, hinside]
  simp only [Node.eval] at hresult hstates
  rw [hresult, hstates]
  exact ⟨rfl, rfl⟩

/-- A ruleset whose rules do not depend on each other is evaluated if each rule is. -/
lemma Node.exists_eval_ruleset_iff {depth : Nat} {info : Info} {selectors : List String}
    {root : Bool}
    (hqueries : ∀ rule ∈ rules, ∀ r, ((Node.eval (depth + 1) rule : Scoped Node)
      (s.inside (.ruleset (.mk info selectors rules root))) q).result = .ok r →
      ((Node.eval (depth + 1) rule : Scoped Node)
        (s.inside (.ruleset (.mk info selectors rules root))) q).queries = q) :
    (∃ r, ((Node.eval (depth + 1) (.ruleset (.mk info selectors rules root)) : Scoped Node)
        s q).result = .ok r) ↔
      ∀ rule ∈ rules, ∃ r, ((Node.eval (depth + 1) rule : Scoped Node)
        (s.inside (.ruleset (.mk info selectors rules root))) q).result = .ok r := by
  constructor
  · rintro ⟨r, hr⟩
    rw [Node.eval, Node.evalWith, Ruleset.evalWith, Correspondence.scope_bind_apply,
      Node.evalEach_eq_map] at hr
    obtain ⟨evaluated, hevaluated, _⟩ := Scoped.exists_of_bind_eq_ok hr
    exact Node.forall_of_evaluateRules hqueries hevaluated
  · intro heach
    choose! value hvalue using heach
    exact ⟨_, (Node.eval_ruleset_of_forall
      (fun rule hrule => hqueries rule hrule _ (hvalue rule hrule)) hvalue).1⟩

end Rules

/-! ### What is left of reordered rules -/

/-- The declarations of variables among the evaluated rules come from declarations of variables, or
from a ruleset that was called. -/
lemma Node.filter_flatMap_splice {rules : List Node} {value : Node → Node}
    (h : ∀ rule ∈ rules, rule.isBinding → (value rule).isBinding) :
    ((rules.flatMap fun rule => rule.splice (value rule)).filter fun rule => !rule.isBinding) =
      (rules.filter fun rule => !rule.isBinding).flatMap fun rule =>
        (rule.splice (value rule)).filter fun rule => !rule.isBinding := by
  induction rules with
  | nil => rfl
  | cons rule rest ih =>
    rw [List.forall_mem_cons] at h
    rw [List.flatMap_cons, List.filter_append, ih h.2, List.filter_cons]
    cases hrule : rule.isBinding with
    | true =>
      obtain ⟨_, _, _, _, rfl, _⟩ := Node.eq_declaration_of_isBinding hrule
      have hvalue := h.1 hrule
      simp [Node.splice, hvalue]
    | false => rw [Bool.not_false, if_pos rfl, List.flatMap_cons]

/-- What a rule contributes has the same cores if its results have. -/
lemma Node.map_core_splice (rule : Node) {r r' : Node} (h : r'.core = r.core) :
    (rule.splice r').map Node.core = (rule.splice r).map Node.core := by
  have hchildren : r'.children.map Node.core = r.children.map Node.core := by
    rw [← Node.children_core, ← Node.children_core, h]
  rw [Node.splice_eq, Node.splice_eq, (Node.sameShape_of_core_eq h).apply_eq Node.overlooks_kind]
  split
  · rw [hchildren]
  · rw [List.map_singleton, List.map_singleton, h]

/-- What a rule contributes apart from variables has the same cores if its results have. -/
lemma Node.map_core_filter_splice (rule : Node) {r r' : Node} (h : r'.core = r.core) :
    ((rule.splice r').filter fun rule => !rule.isBinding).map Node.core =
      ((rule.splice r).filter fun rule => !rule.isBinding).map Node.core := by
  have hmap : ∀ nodes : List Node,
      (nodes.filter fun rule => !rule.isBinding).map Node.core =
        (nodes.map Node.core).filter fun rule => !rule.isBinding := by
    intro nodes
    rw [List.filter_map]
    simp only [Function.comp_def, Node.isBinding_core]
  rw [hmap, hmap, Node.map_core_splice rule h]

/-- The scopes inside two rulesets that declare the same variables have the same cores. -/
lemma Scope.SameCore.inside_of_bindings {s s' : Scope} (h : s.SameCore s') {info info' : Info}
    {selectors : List String} {rules rules' : List Node} {root root' : Bool}
    (hrules : (Node.ruleset (.mk info selectors rules root)).Throughout Node.IsStateless)
    (hbindings : rules'.filter Node.isBinding = rules.filter Node.isBinding) :
    (s.inside (.ruleset (.mk info selectors rules root))).SameCore
      (s'.inside (.ruleset (.mk info' selectors rules' root'))) := by
  refine ⟨by rw [h.rest]; rfl, ?_, (h.fits.pushRuleset hrules).frames, h.fits.custom⟩
  have hcores : (rules'.map Node.core).filter Node.isBinding =
      (rules.map Node.core).filter Node.isBinding := by
    rw [List.filter_map, List.filter_map]
    simp only [Function.comp_def, Node.isBinding_core]
    rw [hbindings]
  show List.map Frame.core (_ :: s'.frames) = List.map Frame.core (_ :: s.frames)
  rw [List.map_cons, List.map_cons, Frame.core_eq, Frame.core_eq, h.frames]
  show Frame.mk (some (.ofRules [] ((rules'.map Node.core).filter _))) s'.functions? :: _ = _
  rw [hcores, h.functions?]
  rfl

/-- The scopes inside two reordered rulesets have the same cores. -/
lemma Node.Reordered.sameCore {s : Scope} {info : Info} {selectors : List String}
    {rules rules' : List Node} {root : Bool} (h : Node.Reordered rules rules') (info' : Info)
    (root' : Bool) (hs : s.Fits FunctionTable.IsNative Node.IsStateless)
    (hrules : (Node.ruleset (.mk info selectors rules root)).Throughout Node.IsStateless) :
    (s.inside (.ruleset (.mk info selectors rules root))).SameCore
      (s.inside (.ruleset (.mk info' selectors rules' root'))) :=
  Scope.SameCore.inside_of_bindings ⟨rfl, rfl, hs⟩ hrules h.bindings

/-- Computations that end alike end with values at the same time. -/
lemma Alike.exists_ok_iff {ε α β : Type} {Halts : ε → Prop} {P : α → β → Prop} {x : Except ε α}
    {y : Except ε β} (h : Alike Halts P x y) : (∃ a, x = .ok a) ↔ ∃ b, y = .ok b := by
  cases h with
  | ok _ => simp
  | error _ => simp

section Reordered

variable {s : Scope} {q : Queries} {info info' : Info} {selectors : List String}
  {rules rules' : List Node} {root root' : Bool}

/-- What prints of reordered rules that were evaluated has the same cores. -/
lemma Node.Reordered.map_core_filter_eq {t t' : Scope} {depth : Nat} {value value' : Node → Node}
    (h : Node.Reordered rules rules') (ht : t.SameCore t')
    (hrules : ∀ rule ∈ rules, rule.Throughout Node.IsStateless)
    (hvalue : ∀ rule ∈ rules, ((Node.eval (depth + 1) rule : Scoped Node) t q).result =
      .ok (value rule))
    (hvalue' : ∀ rule ∈ rules', ((Node.eval (depth + 1) rule : Scoped Node) t' q).result =
      .ok (value' rule)) :
    ((rules'.flatMap fun rule => rule.splice (value' rule)).filter
        fun rule => !rule.isBinding).map Node.core =
      ((rules.flatMap fun rule => rule.splice (value rule)).filter
        fun rule => !rule.isBinding).map Node.core := by
  have hbinding : ∀ rule ∈ rules, rule.isBinding → (value rule).isBinding :=
    fun rule hrule hisBinding => Node.isBinding_of_eval hisBinding (hvalue rule hrule)
  have hbinding' : ∀ rule ∈ rules', rule.isBinding → (value' rule).isBinding :=
    fun rule hrule hisBinding => Node.isBinding_of_eval hisBinding (hvalue' rule hrule)
  have hcore : ∀ rule ∈ rules, (value' rule).core = (value rule).core := by
    intro rule hrule
    have halike := (Node.eval_of_core_eq ht rfl (hrules rule hrule) (depth + 1) q).2.2
    rw [hvalue rule hrule, hvalue' rule (h.mem_iff.2 hrule)] at halike
    cases halike with
    | ok hsame => exact hsame
  rw [Node.filter_flatMap_splice hbinding, Node.filter_flatMap_splice hbinding', h.others,
    List.map_flatMap, List.map_flatMap]
  refine List.flatMap_congr fun rule hrule => ?_
  exact Node.map_core_filter_splice rule (hcore rule (List.mem_filter.1 hrule).1)

/-- Two reordered rulesets are evaluated at the same time, leave the states of the query conditions
as they are, and print the same. -/
theorem Node.eval_reordered (h : Node.Reordered rules rules')
    (hs : s.Fits FunctionTable.IsNative Node.IsStateless)
    (hrules : (Node.ruleset (.mk info selectors rules root)).Throughout Node.IsStateless)
    (depth : Nat) {first second : Outcome Node}
    (hfirst : (Node.eval depth (.ruleset (.mk info selectors rules root)) : Scoped Node) s q =
      first)
    (hsecond : (Node.eval depth (.ruleset (.mk info' selectors rules' root')) : Scoped Node) s q =
      second) :
    ((∃ r, first.result = .ok r) ↔ ∃ r', second.result = .ok r') ∧
      ∀ r r', first.result = .ok r → second.result = .ok r' →
        first.queries = q ∧ second.queries = q ∧
          ∀ {ρ : Type} [Printer ρ] (cell : QueryId → ρ),
            Node.write cell r' = Node.write cell r := by
  subst hfirst hsecond
  cases depth with
  | zero => exact ⟨⟨nofun, nofun⟩, nofun⟩
  | succ depth =>
    have hinside := h.sameCore info' root' hs hrules
    have hchild : ∀ rule ∈ rules, rule.Throughout Node.IsStateless :=
      fun rule hrule => hrules.child hrule
    have heach := fun rule hrule =>
      Node.eval_of_core_eq hinside rfl (hchild rule hrule) (depth + 1) q
    have hqueries := fun rule hrule => (heach rule hrule).1
    have hqueries' := fun rule hrule => (heach rule (h.mem_iff.1 hrule)).2.1
    constructor
    · rw [Node.exists_eval_ruleset_iff fun rule hrule _ _ => hqueries rule hrule,
        Node.exists_eval_ruleset_iff fun rule hrule _ _ => hqueries' rule hrule]
      constructor
      · intro hall rule hrule
        have hmem := h.mem_iff.1 hrule
        exact (heach rule hmem).2.2.exists_ok_iff.1 (hall rule hmem)
      · intro hall rule hrule
        exact (heach rule hrule).2.2.exists_ok_iff.2 (hall rule (h.mem_iff.2 hrule))
    · intro r r' hr hr'
      choose! value hvalue using
        (Node.exists_eval_ruleset_iff fun rule hrule _ _ => hqueries rule hrule).1 ⟨r, hr⟩
      choose! value' hvalue' using
        (Node.exists_eval_ruleset_iff fun rule hrule _ _ => hqueries' rule hrule).1 ⟨r', hr'⟩
      obtain ⟨hresult, hstates⟩ := Node.eval_ruleset_of_forall hqueries hvalue
      obtain ⟨hresult', hstates'⟩ := Node.eval_ruleset_of_forall hqueries' hvalue'
      refine ⟨hstates, hstates', fun cell => ?_⟩
      rw [hr] at hresult
      rw [hr'] at hresult'
      rw [Except.ok.inj hresult, Except.ok.inj hresult']
      exact Node.write_ruleset_of_core_eq (h.map_core_filter_eq hinside hchild hvalue hvalue')

end Reordered

/-- Variables are hoisted: two rulesets with the same selectors whose rules are the same, and in the
same order apart from where the variables are declared, are both evaluated or both fail, and if they
are evaluated, they print the same. -/
theorem Context.evaluate_reordered (c : Context) (depth : Nat) (info info' : Info)
    (selectors : List String) (rules rules' : List Node) (root root' : Bool)
    (hframes : ∀ f ∈ c.frames, f.Fits FunctionTable.IsNative Node.IsStateless)
    (hrules : (Node.ruleset (.mk info selectors rules root)).Throughout Node.IsStateless)
    (h : Node.Reordered rules rules') :
    ((∃ r, (c.evaluate depth (.ruleset (.mk info selectors rules root))).1 = .ok r) ↔
      ∃ r', (c.evaluate depth (.ruleset (.mk info' selectors rules' root'))).1 = .ok r') ∧
      ∀ r r', (c.evaluate depth (.ruleset (.mk info selectors rules root))).1 = .ok r →
        (c.evaluate depth (.ruleset (.mk info' selectors rules' root'))).1 = .ok r' →
        (c.evaluate depth (.ruleset (.mk info' selectors rules' root'))).2.render r' =
          (c.evaluate depth (.ruleset (.mk info selectors rules root))).2.render r := by
  have hscope : c.scope.Fits FunctionTable.IsNative Node.IsStateless := .ofNative hframes
  have hsecond : (Node.eval depth (.ruleset (.mk info' selectors rules' root')) : Scoped Node)
      c.scope c.queries = _ := rfl
  obtain ⟨hiff, hprint⟩ := Node.eval_reordered h hscope hrules depth rfl hsecond
  rw [Context.evaluate_eq, Context.evaluate_eq]
  refine ⟨hiff, fun r r' hr hr' => ?_⟩
  obtain ⟨hstates, hstates', hwrite⟩ := hprint r r' hr hr'
  have hrender : ∀ queries style, r'.render queries style = r.render queries style := by
    intro queries style
    unfold Node.render Node.print
    rw [hwrite]
  rw [Context.render_eq, Context.render_eq, hrender]
  show r.render (Outcome.queries _) c.style = r.render (Outcome.queries _) c.style
  rw [hstates, hstates']

/-- Rules that refer to variables declared before them. -/
def earlyRules : List Node :=
  let traits : DeclarationTraits := { isVariable := true }
  let body := .ofRules [] [.declaration {} (.literal "color") (.variableRef {} "@a") {}]
  [.declaration {} (.literal "@a") (.variableRef {} "@b") traits,
    .declaration {} (.literal "@b") (.keyword {} "red") traits,
    .declaration {} (.literal "@d") (.detached {} (some body) none) traits,
    .variableCall {} "@d",
    .ruleset (.ofRules ["q"] [.declaration {} (.literal "border") (.variableRef {} "@b") {}])]

/-- The same rules, with most of the variables declared at the end. -/
def lateRules : List Node :=
  [3, 0, 4, 1, 2].filterMap (earlyRules[·]?)

/-- A context with nothing but the built-in functions. -/
def bareContext : Context :=
  { frames := [.mk none (some .builtins)] }

/-- The rules are evaluated in both orders and print the same. -/
theorem evaluate_reordered_lateRules :
    ∃ r r', (bareContext.evaluate 4 (.ruleset (.ofRules ["p"] earlyRules))).1 = .ok r ∧
      (bareContext.evaluate 4 (.ruleset (.ofRules ["p"] lateRules))).1 = .ok r' ∧
      (bareContext.evaluate 4 (.ruleset (.ofRules ["p"] lateRules))).2.render r' =
        (bareContext.evaluate 4 (.ruleset (.ofRules ["p"] earlyRules))).2.render r := by
  have hframes : ∀ f ∈ bareContext.frames, f.Fits FunctionTable.IsNative Node.IsStateless := by
    intro f hf
    rw [List.mem_singleton.1 hf]
    constructor <;> decide
  have hok : (bareContext.evaluate 4 (.ruleset (.ofRules ["p"] earlyRules))).1.isOk = true := by
    decide +kernel
  obtain ⟨hiff, hrender⟩ := bareContext.evaluate_reordered 4 {} {} ["p"] earlyRules lateRules false
    false hframes (by decide) ⟨rfl, rfl⟩
  cases hr : (bareContext.evaluate 4 (.ruleset (.ofRules ["p"] earlyRules))).1 with
  | error halt => simp [hr, Except.isOk, Except.toBool] at hok
  | ok r =>
    obtain ⟨r', hr'⟩ := hiff.1 ⟨r, hr⟩
    exact ⟨r, r', rfl, hr', hrender r r' hr hr'⟩

/-! ### Conditions of queries in the frames around -/

/-- A detached ruleset with a condition of a query. -/
def sharedCondition : Context :=
  let body := .ofRules [] [.declaration {} (.literal "c") (.query {} 0) {}]
  let block := .declaration {} (.literal "@d") (.detached {} (some body) none)
    { isVariable := true }
  { frames := [.mk (some (.ofRules [] [block])) (some .builtins)]
    queries := [.make ">" (.keyword {} "width") (some (.variableRef {} "@w")) none] }

/-- Rules that call the detached ruleset twice, first in the value of a variable. -/
def innerFirst : List Node :=
  let traits : DeclarationTraits := { isVariable := true }
  let inner := .declaration {} (.literal "@w") (.keyword {} "inner") traits
  [.declaration {} (.literal "@v") (.ruleset (.ofRules [] [inner, .variableCall {} "@d"])) traits,
    .declaration {} (.literal "@w") (.keyword {} "outer") traits,
    .variableCall {} "@d"]

/-- The same rules, with the variables declared at the end. -/
def outerFirst : List Node :=
  [2, 0, 1].filterMap (innerFirst[·]?)

/-- What an evaluated node prints, if it is known. -/
lemma Context.exists_of_printed {c : Context} {depth : Nat} {node : Node} {text : String}
    (h : ((c.evaluate depth node).1.toOption.bind fun r =>
      ((c.evaluate depth node).2.render r).text.toOption) = some text) :
    ∃ r, (c.evaluate depth node).1 = .ok r ∧
      ((c.evaluate depth node).2.render r).text.toOption = some text := by
  obtain ⟨r, hr, htext⟩ := Option.bind_eq_some_iff.1 h
  cases hresult : (c.evaluate depth node).1 with
  | error halt => simp [hresult, Except.toOption] at hr
  | ok r' =>
    rw [hresult] at hr
    cases hr
    exact ⟨r, rfl, htext⟩

/-- Where the frames around hold a condition of a query, the order of the rules matters: the state
that the condition is left in by its first evaluation is what later ones start from. -/
theorem not_reordered_with_conditions :
    ¬ ∀ (c : Context) (depth : Nat) (selectors : List String) (rules rules' : List Node),
      (∀ f ∈ c.frames, f.Fits FunctionTable.IsNative Node.IsNative) →
      (Node.ruleset (.ofRules selectors rules)).Throughout Node.IsStateless →
      Node.Reordered rules rules' →
      ∀ r r', (c.evaluate depth (.ruleset (.ofRules selectors rules))).1 = .ok r →
        (c.evaluate depth (.ruleset (.ofRules selectors rules'))).1 = .ok r' →
        ((c.evaluate depth (.ruleset (.ofRules selectors rules'))).2.render r').text =
          ((c.evaluate depth (.ruleset (.ofRules selectors rules))).2.render r).text := by
  intro h
  have hframes : ∀ f ∈ sharedCondition.frames,
      f.Fits FunctionTable.IsNative Node.IsNative := by
    intro f hf
    rw [List.mem_singleton.1 hf]
    constructor <;> decide
  have hinner : ((sharedCondition.evaluate 4 (.ruleset (.ofRules ["a"] innerFirst))).1.toOption.bind
      fun r => ((sharedCondition.evaluate 4 (.ruleset (.ofRules ["a"] innerFirst))).2.render
        r).text.toOption) = some "a \x7b\n  c: width > inner;\n\x7d" := by
    decide +kernel
  have houter : ((sharedCondition.evaluate 4 (.ruleset (.ofRules ["a"] outerFirst))).1.toOption.bind
      fun r => ((sharedCondition.evaluate 4 (.ruleset (.ofRules ["a"] outerFirst))).2.render
        r).text.toOption) = some "a \x7b\n  c: width > outer;\n\x7d" := by
    decide +kernel
  obtain ⟨r, hr, htext⟩ := Context.exists_of_printed hinner
  obtain ⟨r', hr', htext'⟩ := Context.exists_of_printed houter
  have hsame := h sharedCondition 4 ["a"] innerFirst outerFirst hframes (by decide) ⟨rfl, rfl⟩ r r'
    hr hr'
  rw [hsame, htext] at htext'
  exact absurd htext' (by decide)

end Cascade
