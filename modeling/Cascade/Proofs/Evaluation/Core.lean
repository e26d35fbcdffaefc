import Cascade.Proofs.Evaluation.Inheritance
import Cascade.Proofs.Printing.Core

/-!
# Evaluation looks at cores

Evaluation finds the values of variables in the frames around, and looks at nothing else in them:
two nodes with the same core are evaluated alike in frames with the same cores
(`Node.eval_of_core_eq`).  Conditions of queries are left out.  They take all declarations of
variables in scope into account, and their states outlast the evaluation of a node, so without them
the evaluation of a node leaves no trace.
-/

namespace Cascade

/-! ### Steps on cores -/

namespace Node

/-- A list around a value, by its kind. -/
lemma asValue_eq (n : Node) : n.asValue = if n.kind = .value then n else .value {} [n] := by
  cases n <;> rfl

/-- The list around a core. -/
lemma asValue_core (n : Node) : n.core.asValue = n.asValue.core := by
  rw [asValue_eq, asValue_eq, (sameShape_core n).apply_eq overlooks_kind]
  split
  · rfl
  · rfl

/-- Whether a node is a division. -/
def isDivision : Node → Bool
  | .operation _ operator _ _ _ => operator == .div
  | _ => false

lemma overlooks_isDivision : Overlooks isDivision := by
  constructor <;> intros <;> rfl

/-- What is left of an expression without its comments. -/
lemma stripComments_expression (info : Info) (items : List Node) (form : ExpressionForm) :
    (Node.expression info items form).stripComments =
      match items.filter fun item => !item.isComment with
      | [single] =>
        if single.isDivision && form.parens then .expression info items form else single
      | kept => .expression info kept { noSpacing := form.noSpacing } := by
  unfold stripComments
  dsimp only
  generalize items.filter (fun item => !item.isComment) = kept
  match kept with
  | [] | _ :: _ :: _ => rfl
  | [single] =>
    cases single with
    | operation _ operator => cases operator <;> rfl
    | _ => rfl

/-- Comments are dropped from a core as from the node. -/
lemma stripComments_core (n : Node) : n.core.stripComments = n.stripComments.core := by
  match n with
  | .expression info items form =>
    have hkept : (items.map core).filter (fun item => !item.isComment) =
        (items.filter fun item => !item.isComment).map core := by
      rw [List.filter_map]
      refine congrArg _ (List.filter_congr fun item _ => ?_)
      exact congrArg _ ((sameShape_core item).apply_eq overlooks_isComment)
    rw [core, coreEach_eq_map, stripComments_expression, stripComments_expression, hkept]
    generalize items.filter (fun item => !item.isComment) = kept
    rcases kept with _ | ⟨single, _ | ⟨second, rest⟩⟩
    · simp [core, coreEach_eq_map]
    · simp only [List.map_cons, List.map_nil, (sameShape_core single).apply_eq overlooks_isDivision]
      split
      · rw [core, coreEach_eq_map]
      · rfl
    · simp [core, coreEach_eq_map]
  | .attribute _ _ _ none _ | .attribute _ _ _ (some _) _ => rfl
  | .anonymous .. | .assignment .. | .call .. | .color .. | .comment .. | .condition ..
  | .declaration .. | .detached .. | .dimension .. | .javaScript .. | .keyword .. | .negative ..
  | .operation .. | .paren .. | .query .. | .quoted .. | .ruleset .. | .unicodeDescriptor ..
  | .value .. | .variableRef .. | .variableCall .. => rfl

/-- An operation is carried out on cores as on the nodes. -/
lemma compute_core (s : Scope) (info : Info) (operator : Operator) (spaced : Bool) (a b : Node) :
    compute s info operator spaced a.core b.core =
      (compute s info operator spaced a b).map core := by
  -- beside a number or a colour only numbers and colours count, and the result is one of them
  have hleaf (hsame : compute s info operator spaced a b.core = compute s info operator spaced a b)
      (ha : a.kind ≠ .operation) : compute s info operator spaced a b.core =
        (compute s info operator spaced a b).map core := by
    rw [hsame]
    cases hr : compute s info operator spaced a b with
    | error => rfl
    | ok r =>
      rcases compute_cases hr with ⟨i, d, rfl⟩ | ⟨i, c, rfl⟩ | ⟨⟨i, x, y, sp, rfl⟩, _⟩
      · rfl
      · rfl
      · simp [kind] at ha
  cases a with
  | dimension | color =>
    refine hleaf ((sameShape_core b).apply_eq (f := compute s info operator spaced _) ?_) ?_
    · constructor <;> intros <;> rfl
    · rintro ⟨⟩
  | operation i own l r sp =>
    cases own with
    | div =>
      unfold compute promote
      simp only [core]
      split
      · simp [Except.map, core]
      · rfl
    | _ => rfl
  | «attribute» _ _ _ v _ => cases v <;> rfl
  | _ => rfl

/-- An operation on cores is carried out, or kept, as on the nodes. -/
lemma operate_core (s : Scope) (info : Info) (operator : Operator) (spaced : Bool) (a b : Node) :
    operate s info operator spaced a.core b.core =
      (operate s info operator spaced a b).map core := by
  unfold operate
  split
  · exact compute_core s info operator spaced a b
  · simp [Except.map, core]

end Node

namespace Builtin

variable {function : Builtin}

/-- Functions look at what their arguments are, not at their parts. -/
lemma bind_argument_core {α : Type} {f : Node → Except Error α} (hf : ∀ n, f n.core = f n)
    (args : List Node) (position : Nat) :
    (function.argument (args.map Node.core) position >>= f) =
      function.argument args position >>= f := by
  unfold argument
  rw [List.getElem?_map]
  cases args[position]? with
  | none => rfl
  | some n => exact hf n

/-- A number among the cores of arguments. -/
lemma dimensionArgument_core (args : List Node) (position : Nat) :
    function.dimensionArgument (args.map Node.core) position =
      function.dimensionArgument args position := by
  refine bind_argument_core (fun n => ?_) args position
  cases n with
  | «attribute» _ _ _ v _ => cases v <;> rfl
  | _ => rfl

/-- A colour among the cores of arguments. -/
lemma colorArgument_core (args : List Node) (position : Nat) :
    function.colorArgument (args.map Node.core) position =
      function.colorArgument args position := by
  refine bind_argument_core (fun n => ?_) args position
  cases n with
  | «attribute» _ _ _ v _ => cases v <;> rfl
  | _ => rfl

/-- A function gives the same on the cores of its arguments. -/
lemma call_core (args : List Node) : function.call (args.map Node.core) = function.call args := by
  have hunit : ∀ n : Node, unitName n.core = unitName n := by
    intro n
    have hoverlooks : Node.Overlooks unitName := by constructor <;> intros <;> rfl
    exact (Node.sameShape_core n).apply_eq hoverlooks
  have hoptional : optionalUnit (args.map Node.core) 1 = optionalUnit args 1 := by
    unfold optionalUnit
    rw [List.getElem?_map]
    cases args[1]? with
    | none => rfl
    | some n => exact hunit n
  unfold call
  cases function with
  | unit => simp only [dimensionArgument_core, hoptional]
  | convert =>
    simp only [dimensionArgument_core]
    refine congrArg _ (funext fun dimension => ?_)
    exact bind_argument_core (fun n => by rw [hunit]) args 1
  | percentage => simp only [dimensionArgument_core]
  | lighten | darken | fade =>
    simp only [adjustColor, dimensionArgument_core, colorArgument_core]
  | boolean =>
    refine bind_argument_core (fun n => ?_) args 0
    rw [(Node.sameShape_core n).apply_eq Node.overlooks_asBool]
  | cond => rfl

end Builtin

/-! ### Scopes whose frames have the same cores -/

/-- A node that is no condition of a query, and keeps no frames with functions of the caller. -/
def Node.IsStateless (n : Node) : Prop :=
  n.IsNative ∧ n.kind ≠ .queryInParens

instance (n : Node) : Decidable n.IsStateless :=
  inferInstanceAs (Decidable (n.IsNative ∧ n.kind ≠ .queryInParens))

/-- Evaluation makes no conditions of queries. -/
lemma Node.heritable_isStateless : Node.Heritable FunctionTable.IsNative Node.IsStateless :=
  (Node.heritable_carries _).and
    { yields := by
        intro _ _ _ r _ _ hr
        cases hr with
        | calculated h => cases h.calculated <;> simp [Node.kind]
        | _ => simp [Node.kind, Node.ofBool]
      list := by simp [Node.kind]
      string := fun _ h _ => h
      condition := id
      narrow := by simp [Node.kind] }

/-- A scope that differs from another one in its frames only, where the frames have the same cores
and those of the other one hold no conditions of queries and no functions of the caller. -/
structure Scope.SameCore (s s' : Scope) : Prop where
  rest : s' = s.setFrames s'.frames
  frames : s'.frames.map Frame.core = s.frames.map Frame.core
  fits : s.Fits FunctionTable.IsNative Node.IsStateless

/-- The parts of nodes other than rulesets are evaluated in the same frames. -/
lemma Scope.inside_of_kind (s : Scope) {n : Node} (h : n.kind ≠ .ruleset) : s.inside n = s := by
  cases n with
  | ruleset => exact absurd rfl h
  | _ => rfl

namespace Scope.SameCore

variable {s s' : Scope}

/-- There are no frames in either scope, or the innermost ones have the same functions. -/
lemma innermost (h : s.SameCore s') :
    (s.frames = [] ∧ s'.frames = []) ∨ ∃ frame outer frame' outer', s.frames = frame :: outer ∧
      s'.frames = frame' :: outer' ∧ frame'.functions = frame.functions := by
  have hfunctions := Frame.functions_of_core_eq h.frames
  cases hframes : s.frames with
  | nil =>
    rw [hframes] at hfunctions
    exact .inl ⟨rfl, List.map_eq_nil_iff.1 hfunctions⟩
  | cons frame outer =>
    rw [hframes] at hfunctions
    obtain ⟨frame', outer', hframes', hframe, _⟩ := List.map_eq_cons_iff.1 hfunctions
    exact .inr ⟨frame, outer, frame', outer', rfl, hframes', hframe⟩

/-- The functions of the innermost frame are the same. -/
lemma functions? (h : s.SameCore s') : s'.functions? = s.functions? := by
  unfold Scope.functions?
  rcases h.innermost with ⟨hnil, hnil'⟩ | ⟨frame, outer, frame', outer', hs, hs', hframe⟩
  · rw [hnil, hnil']
  · rw [hs, hs']
    exact hframe

/-- The function table for a call is the same. -/
lemma functionTable (h : s.SameCore s') : s'.functionTable = s.functionTable := by
  unfold Scope.functionTable
  rcases h.innermost with ⟨hnil, hnil'⟩ | ⟨frame, outer, frame', outer', hs, hs', hframe⟩
  · rw [hnil, hnil']
  · simp only [hs, hs', hframe]

/-- The scopes of parts of rulesets with the same cores. -/
lemma inside (h : s.SameCore s') {n n' : Node} (hn : n'.core = n.core)
    (hstateless : n.Throughout Node.IsStateless) : (s.inside n).SameCore (s'.inside n') := by
  have hshape := Node.sameShape_of_core_eq hn
  by_cases hkind : n.kind = .ruleset
  · cases n with
    | ruleset rs =>
      obtain ⟨info, selectors, rules, root⟩ := rs
      obtain ⟨rules', rfl⟩ := hshape.exists_ruleset
      have hrules : rules'.map Node.core = rules.map Node.core := by
        have hchildren := congrArg Node.children hn
        rwa [Node.children_core, Node.children_core] at hchildren
      refine ⟨by rw [h.rest]; rfl, ?_, ?_⟩
      · show List.map Frame.core (_ :: s'.frames) = List.map Frame.core (_ :: s.frames)
        rw [List.map_cons, List.map_cons, h.frames, Frame.core_eq, Frame.core_eq]
        show Frame.mk (some (.ofRules [] ((rules'.map Node.core).filter _))) s'.functions? :: _ = _
        rw [hrules, h.functions?]
        rfl
      · exact ⟨(h.fits.pushRuleset hstateless).frames, h.fits.custom⟩
    | _ => simp [Node.kind] at hkind
  · have hkind' : n'.kind ≠ .ruleset := by rwa [hshape.apply_eq Node.overlooks_kind]
    rwa [s.inside_of_kind hkind, s'.inside_of_kind hkind']

/-- The scopes in which the values of a variable are evaluated. -/
lemma enterBinding (h : s.SameCore s') {name : String} {found found' : Binding}
    (hfound : Frame.lookup? name s.frames = some found)
    (hframes : found'.frames.map Frame.core = found.frames.map Frame.core) :
    ((s.enterVariable name).setFrames (s.bindingFrames found)).SameCore
      ((s'.enterVariable name).setFrames (s'.bindingFrames found')) := by
  refine ⟨by rw [h.rest]; rfl, ?_, h.fits.enterBinding hfound⟩
  show (s'.bindingFrames found').map Frame.core = (s.bindingFrames found).map Frame.core
  unfold Scope.bindingFrames
  rw [Frame.map_core_fillFunctions, Frame.map_core_fillFunctions, h.functions?, hframes]

/-- The scopes in which detached rulesets with the same cores are called. -/
lemma captured (h : s.SameCore s') {info : Info} {body : Option Ruleset}
    {frames frames' : Option (List Frame)}
    (hframes : frames'.map (List.map Frame.core) = frames.map (List.map Frame.core))
    (hheld : (Node.detached info body frames).Throughout Node.IsStateless) :
    (s.captured frames).SameCore (s'.captured frames') := by
  cases frames with
  | none =>
    rw [Option.map_eq_none_iff.1 hframes]
    exact h
  | some frames =>
    obtain ⟨frames', rfl, hsame⟩ := Option.map_eq_some_iff.1 hframes
    refine ⟨by rw [h.rest]; rfl, ?_, h.fits.pushCaptured (fun _ hn => hn.1) hheld⟩
    show (frames' ++ s'.frames).map Frame.core = (frames ++ s.frames).map Frame.core
    rw [List.map_append, List.map_append, hsame, h.frames]

end Scope.SameCore

/-! ### Evaluation on cores -/

/-- Two computations that differ only in what a change of their values forgets. -/
lemma Alike.of_map_eq {ε α β : Type} {Halts : ε → Prop} {P : α → Prop} {f : α → β}
    {x y : Except ε α} (h : y.map f = x.map f) (hok : ∀ a, x = .ok a → P a)
    (herror : ∀ e, x = .error e → Halts e) :
    Alike Halts (fun a b => f b = f a ∧ P a) x y := by
  cases x with
  | ok a =>
    cases y with
    | ok b => exact .ok ⟨Except.ok.inj h, hok a rfl⟩
    | error e => cases h
  | error e =>
    cases y with
    | ok b => cases h
    | error e' =>
      rw [Except.error.inj h]
      exact .error (herror e rfl)

namespace Simulation

/-- The comparison of the evaluations of two nodes with the same core in frames with the same
cores. -/
def sameCore : Simulation where
  Lax _ := False
  Halts _ := True
  Task s n s' n' := s.SameCore s' ∧ n'.core = n.core ∧ n.Throughout Node.IsStateless
  Value s n s' n' := s.SameCore s' ∧ n'.core = n.core ∧ n.Throughout Node.IsStateless
  Body s n s' n' := s.SameCore s' ∧ n'.core = n.core ∧ n.Throughout Node.IsStateless
  Result _ r r' := r'.core = r.core ∧ r.Throughout Node.IsStateless
  States _ := True
  Grows q q' := q' = q
  lax_of_failed h := h
  halts_failed _ := trivial
  grows_refl _ := rfl
  grows_trans h h' := h'.trans h
  result_mono _ h := h

/-- No condition of a query is evaluated. -/
lemma not_query {s s' : Scope} {info : Info} {id : QueryId} {n' : Node}
    (h : sameCore.Task s (.query info id) s' n') : False :=
  h.2.2.self.2 rfl

/-- Corresponding parts of results have the same cores. -/
lemma core_eq_of_piece {q : Queries} {c c' : Node} (h : sameCore.Piece q c c') :
    c'.core = c.core := by
  rcases h with h | ⟨v, v', h, rfl, rfl⟩
  · exact h.1
  · rw [← Node.asValue_core, ← Node.asValue_core, h.1]

/-- Corresponding arguments have the same cores. -/
lemma map_core_eq_of_arguments {q : Queries} {values values' : List Node}
    (h : List.Forall₂ (sameCore.Argument q) values values') :
    values'.map Node.core = values.map Node.core := by
  refine Node.map_core_eq_iff.2 (h.imp fun v v' hv => ?_)
  obtain ⟨a, a', hresult, rfl, rfl⟩ := hv
  rw [← Node.stripComments_core, ← Node.stripComments_core, hresult.1]

/-- What is put together from results without conditions has none. -/
lemma throughout_of_sameCore (q : Queries) {s s' : Scope} {n n' r : Node}
    (ht : sameCore.Task s n s' n')
    (hr : Node.Yields (fun a => ∃ a', sameCore.Result q a a') s n r) :
    r.Throughout Node.IsStateless :=
  Node.heritable_isStateless.throughout_of_yields ht.1.fits.frames ht.2.2
    (fun _ ⟨_, hv⟩ => hv.2) hr

/-- Nodes with the same core look at the same things in frames with the same cores. -/
lemma sameCore_lawful : sameCore.Lawful where
  parts {s s' n n'} ht hdetached := by
    obtain ⟨heq, hparts⟩ := Node.eq_withChildren_of_core_eq ht.2.1 hdetached
    refine ⟨n'.children, heq, ?_⟩
    have hinside := ht.1.inside ht.2.1 ht.2.2
    have hboth := (List.forall₂_and_left _ _).2 ⟨fun c hc => ht.2.2.child hc, hparts⟩
    exact hboth.imp fun c c' hc => ⟨hinside, hc.2, hc.1⟩
  detached {s s' info body frames n'} ht := by
    obtain ⟨body', frames', rfl, hbody, hframes⟩ := Node.exists_detached_of_core_eq ht.2.1
    refine ⟨body', frames', rfl, fun q _ => ⟨?_, throughout_of_sameCore q ht .detached⟩⟩
    have hkept : (frames'.getD s'.frames).map Frame.core =
        (frames.getD s.frames).map Frame.core := by
      cases frames with
      | none =>
        rw [Option.map_eq_none_iff.1 hframes]
        exact ht.1.frames
      | some frames =>
        obtain ⟨frames', rfl, hsame⟩ := Option.map_eq_some_iff.1 hframes
        exact hsame
    rw [Node.core_detached, Node.core_detached, hbody, Option.map_some, Option.map_some, hkept]
  sameShape h := Node.sameShape_of_core_eq h.1
  result_rules {q rs rs'} h := by
    have hchildren := congrArg Node.children h.1
    rw [Node.children_core, Node.children_core] at hchildren
    have hboth := (List.forall₂_and_left _ _).2
      ⟨fun c hc => h.2.child hc, Node.map_core_eq_iff.1 hchildren⟩
    exact hboth.imp fun c c' hc => ⟨hc.2, hc.1⟩
  yields {s s' q n n' r cs} ht _ hr hdetached hcs := by
    have hcores : cs.map Node.core = r.children.map Node.core :=
      Node.map_core_eq_iff.2 (hcs.imp fun _ _ => core_eq_of_piece)
    refine ⟨?_, throughout_of_sameCore q ht hr⟩
    rw [Node.core_withChildren hdetached hcs.length_eq.symm, hcores, Node.core_eq hdetached]
  function {s s' q info name args asCalc n' values values'} b ht _ hvalues := by
    have hcall : b.call values' = b.call values := by
      rw [← Builtin.call_core, map_core_eq_of_arguments hvalues, Builtin.call_core]
    rw [hcall]
    refine .self (fun r hr => ⟨rfl, throughout_of_sameCore q ht (.calculated (.function b ?_ hr))⟩)
      fun _ _ => trivial
    intro v hv
    obtain ⟨_, a, a', ha, rfl, _⟩ := exists_of_forall₂ hvalues v hv
    exact ⟨a, ⟨a', ha⟩, rfl⟩
  negate {s s' q info v n' a a'} ht _ hmath ha := by
    refine .of_map_eq ?_ (fun r hr => ?_) fun _ _ => trivial
    · rw [ht.1.rest]
      have hoperate := Node.operate_core s {} .mul false Node.minusOne
      exact (hoperate a').symm.trans ((congrArg _ ha.1).trans (hoperate a))
    · exact throughout_of_sameCore q ht (.calculated (.negated hmath ⟨a', ha⟩ hr))
  operate {s s' q info operator l r spaced n' a a' b b'} ht _ ha hb := by
    refine .of_map_eq ?_ (fun r hr => ?_) fun _ _ => trivial
    · rw [ht.1.rest]
      have hoperate := Node.operate_core s info operator spaced
      rw [← hoperate a b, ← ha.1, ← hb.1]
      exact (hoperate a' b').symm
    · exact throughout_of_sameCore q ht (.calculated (.operation ⟨a', ha⟩ ⟨b', hb⟩ hr))
  truth {s s' q info relation l r negate n' a a' b b'} _ ha hb := by
    rw [← Node.relationHolds_core, ha.1, hb.1, Node.relationHolds_core]
  text {s s' q n n' v v'} ht _ _ hv := by
    right
    have hcss : v'.css q s'.style = v.css q s.style := by
      rw [← Node.css_core, hv.1, Node.css_core, ht.1.rest]
      rfl
    rw [hcss]
    exact .self (fun _ _ => rfl) fun _ _ => trivial
  resolving ht := .inr (by rw [ht.1.rest]; rfl)
  selectors ht := by rw [ht.1.rest]; rfl
  isMathOn ht := by rw [ht.1.rest]; rfl
  inCalc ht := by rw [ht.1.rest]; rfl
  scripts ht := by rw [ht.1.rest]; rfl
  functionTable ht := .inr ht.1.functionTable
  enterParens ht :=
    ⟨⟨by rw [ht.1.rest]; rfl, ht.1.frames, ht.1.fits.frames, ht.1.fits.custom⟩, ht.2⟩
  enterCall _ ht :=
    ⟨⟨by rw [ht.1.rest]; rfl, ht.1.frames, ht.1.fits.frames, ht.1.fits.custom⟩, ht.2⟩
  setMath _ ht :=
    ⟨⟨by rw [ht.1.rest]; rfl, ht.1.frames, ht.1.fits.frames, ht.1.fits.custom⟩, ht.2⟩
  guard _ _ _ := trivial
  lookup_none ht _ hnone := .inr ((Frame.lookup?_of_core_eq ht.1.frames _).1 hnone)
  lookup_some {s s' n n' name found} ht _ _ hfound := by
    obtain ⟨found', hfound', hvalue, himportant, hframes⟩ :=
      (Frame.lookup?_of_core_eq ht.1.frames name).2 found hfound
    exact ⟨found', hfound', himportant, ht.1.enterBinding hfound hframes, hvalue,
      ht.1.fits.source_of_lookup? hfound⟩
  custom {s s' info name args args' asCalc table key} ht htable hfind := by
    have hnone := ht.1.fits.custom_eq_none htable hfind
    refine ⟨by rw [ht.1.rest]; rfl, fun f hf => ?_⟩
    rw [hnone] at hf
    cases hf
  body_string filled ht hspells :=
    ⟨ht.1, rfl, Node.heritable_isStateless.throughout_string filled ht.2.2 hspells⟩
  body_ruleset ht hr := ⟨ht.1, hr⟩
  body_detached {s s' q info name n' i body body' frames frames'} ht hr := by
    obtain ⟨_, _, heq, hbody, hframes⟩ := Node.exists_detached_of_core_eq hr.1
    obtain ⟨_, rfl, rfl⟩ := Node.detached.inj heq
    cases body with
    | none =>
      rw [Option.map_eq_none_iff.1 hbody]
      exact .none
    | some rs =>
      obtain ⟨rs', rfl, hrs⟩ := Option.map_eq_some_iff.1 hbody
      refine .some ⟨ht.1.captured hframes hr.2, ?_, hr.2.body⟩
      rw [Node.core, Node.core, hrs]
  body_operand ht := (not_query ht).elim
  recorded ht := (not_query ht).elim
  variablesInScope ht := (not_query ht).elim
  narrow ht := (not_query ht).elim
  template ht := (not_query ht).elim
  record ht := (not_query ht).elim
  dangling ht := (not_query ht).elim

end Simulation

/-- Nodes with the same core are evaluated alike in frames with the same cores, and leave the
states of the query conditions as they are. -/
theorem Node.eval_of_core_eq {s s' : Scope} {n n' : Node} (hs : s.SameCore s')
    (hn : n'.core = n.core) (hstateless : n.Throughout Node.IsStateless) (depth : Nat)
    (q : Queries) :
    ((Node.eval depth n : Scoped Node) s q).queries = q ∧
      ((Node.eval depth n' : Scoped Node) s' q).queries = q ∧
      Alike (fun _ => True) (fun r r' => r'.core = r.core)
        ((Node.eval depth n : Scoped Node) s q).result
        ((Node.eval depth n' : Scoped Node) s' q).result := by
  have hmeets := Simulation.sameCore_lawful.eval trivial (fun ht => ht) (fun ht => ht) depth n q
    ⟨hs, hn, hstateless⟩
  rcases hmeets trivial with ⟨_, _, hlax⟩ | hagree
  · exact hlax.elim
  · exact ⟨hagree.grows, hagree.queries.trans hagree.grows, hagree.result.imp fun _ _ h => h.1⟩

end Cascade
