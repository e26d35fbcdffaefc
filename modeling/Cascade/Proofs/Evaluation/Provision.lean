import Cascade.Proofs.Evaluation.Inheritance
import Cascade.Proofs.Evaluation.Lookup
import Cascade.Proofs.Evaluation.Observed
import Cascade.Stylesheet

/-!
# The functions in reach

A call takes its function from the table of the innermost frame.  Evaluation pushes frames for
rulesets and for the candidates of query conditions, goes back to the frames of a declaration for
the value of a variable, and puts the frames that a detached ruleset was written in before those
where it is called.  Each time the innermost frame has the function table of a frame that was in
scope before.  So what is true of the tables of all frames at the start is true of the table in
every scope that an evaluation goes through (`Scope.Provides.eval`).

In particular the built-in functions are in reach in the whole evaluation of a stylesheet.
-/

namespace Cascade

/-! ### Frames whose tables are as expected -/

section Provides

variable (F : Option FunctionTable → Prop)

/-- The frames that a detached ruleset was written in have function tables as expected. -/
def Node.Provides : Node → Prop
  | .detached _ _ frames => ∀ frame ∈ frames.getD [], F frame.functions
  | _ => True

/-- A frame with a function table as expected, the nodes of which provide such tables. -/
structure Frame.Provides (frame : Frame) : Prop where
  functions : F frame.functions
  throughout : frame.Throughout (Node.Provides F)

/-- A scope in which the function table at hand is as expected, and all frames provide such
tables. -/
structure Scope.Provides (s : Scope) : Prop where
  innermost : F s.functions?
  frames : ∀ f ∈ s.frames, f.Provides F

/-- A marker that is handed on is the one of the variable that is being resolved. -/
def Scope.Announces (s : Scope) (marker : String) : Prop :=
  ∃ name ∈ s.resolving.head?, ∃ found, Frame.lookup? name s.frames = some found ∧
    found.important = marker

/-- The watch for evaluations whose scopes provide function tables, and which hand on the markers
of variables only. -/
def Watch.provision : Watch where
  States q := ∀ state ∈ q, state.Throughout (Node.Provides F)
  Admits
    | .enters s => s.Provides F
    | .marks s marker => s.Announces marker

/-- An evaluation in a scope that goes through scopes with function tables as expected, and whose
result provides such tables, too. -/
abbrev Observed.Provides (s : Scope) (x : Observed Node) : Prop :=
  (Watch.provision F).Keeps s (Node.Throughout (Node.Provides F)) x

end Provides

variable {F : Option FunctionTable → Prop}

/-- The nodes of a frame, whatever its function table is. -/
lemma Frame.Provides.fits {frame : Frame} (h : frame.Provides F) :
    frame.Fits (fun _ => True) (Node.Provides F) :=
  ⟨fun _ _ => trivial, h.throughout⟩

/-- Nodes other than detached rulesets provide whatever is expected. -/
lemma Node.provides_of_isDetached {n : Node} (h : n.isDetached = false) : n.Provides F := by
  cases n with
  | detached => cases h
  | _ => trivial

/-- A node without parts provides whatever is expected. -/
lemma Node.throughout_provides_of_leaf {n : Node} (h : n.isDetached = false)
    (hchildren : n.children = []) : n.Throughout (Node.Provides F) := by
  refine Node.throughout_iff.2 ⟨Node.provides_of_isDetached h, by simp [hchildren], ?_⟩
  cases n with
  | detached => cases h
  | _ => simp [Node.held]

/-- A declaration provides what its value provides. -/
lemma Node.throughout_provides_of_finishDeclaration {info : Info} {name : String}
    {traits : DeclarationTraits} {v r : Node} {marker : Option String}
    (hv : v.Throughout (Node.Provides F))
    (h : Node.finishDeclaration info name traits v marker = .ok r) :
    r.Throughout (Node.Provides F) := by
  unfold Node.finishDeclaration at h
  split at h
  · cases h
  · rw [← Except.ok.inj h]
    refine Node.throughout_iff.2 ⟨trivial, ?_, by simp [Node.held]⟩
    simpa [Node.children, PropertyName.parts] using
      Node.throughout_asValue (fun _ => trivial) hv

namespace Scope.Provides

variable {s : Scope}

/-- Only the frames of a scope matter. -/
lemma congr {s' : Scope} (h : s.Provides F) (hframes : s'.frames = s.frames) :
    s'.Provides F where
  innermost := by
    unfold Scope.functions?
    rw [hframes]
    exact h.innermost
  frames := by
    rw [hframes]
    exact h.frames

/-- Other frames, unless there are none. -/
lemma setFrames (s : Scope) {frames : List Frame} (hne : frames ≠ [])
    (h : ∀ f ∈ frames, f.Provides F) : (s.setFrames frames).Provides F where
  innermost := by
    obtain ⟨frame, outer, rfl⟩ := List.exists_cons_of_ne_nil hne
    exact (h frame List.mem_cons_self).functions
  frames := h

/-- The scope inside a ruleset, which has the functions of the frame around. -/
lemma pushRuleset (h : s.Provides F) {rs : Ruleset}
    (hrs : (Node.ruleset rs).Throughout (Node.Provides F)) :
    (s.pushFrame (s.frameOf rs)).Provides F where
  innermost := h.innermost
  frames := by
    refine List.forall_mem_cons.2 ⟨⟨h.innermost, Frame.throughout_iff.2 ?_⟩, h.frames⟩
    rintro _ ⟨⟩
    exact hrs

/-- The value of a variable. -/
lemma source_of_lookup? (h : s.Provides F) {name : String} {found : Binding}
    (hfound : Frame.lookup? name s.frames = some found) :
    found.value.Throughout (Node.Provides F) := by
  obtain ⟨⟨info, traits, hd, _⟩, _⟩ :=
    Frame.fits_of_lookup? (fun f hf => (h.frames f hf).fits) hfound
  refine hd.child ?_
  simp [Node.children]

/-- The scope in which the value of a variable is evaluated: the innermost frame has its own
functions, or else those at hand. -/
lemma enterBinding (h : s.Provides F) {name : String} {found : Binding}
    (hfound : Frame.lookup? name s.frames = some found) :
    ((s.enterVariable name).setFrames (s.bindingFrames found)).Provides F := by
  have hframes : ∀ f ∈ found.frames, f.Provides F :=
    fun f hf => h.frames f ((Frame.suffix_of_lookup? hfound).subset hf)
  obtain ⟨⟨ruleset, own⟩, outer, hcons⟩ :=
    List.exists_cons_of_ne_nil (Frame.frames_ne_nil_of_lookup? hfound)
  rw [hcons, List.forall_mem_cons] at hframes
  have hrules := Frame.throughout_iff.1 hframes.1.throughout
  unfold Scope.bindingFrames Frame.fillFunctions
  rw [hcons]
  refine setFrames _ (List.cons_ne_nil _ _) (List.forall_mem_cons.2 ⟨⟨?_, ?_⟩, hframes.2⟩)
  · cases own with
    | none => exact h.innermost
    | some table => exact hframes.1.functions
  · exact Frame.throughout_iff.2 hrules

/-- The scope in which a detached ruleset is called. -/
lemma pushCaptured (h : s.Provides F) {info : Info} {body : Option Ruleset} {frames : List Frame}
    (hn : (Node.detached info body (some frames)).Throughout (Node.Provides F)) :
    (s.setFrames (frames ++ s.frames)).Provides F := by
  have hcaptured : ∀ f ∈ frames, f.Provides F := by
    intro f hf
    refine ⟨hn.self f hf, Frame.throughout_iff.2 fun rs hrs => hn.ofHeld ?_⟩
    simp only [Node.held, Option.getD_some, List.mem_map, List.mem_append, List.mem_filterMap]
    exact ⟨rs, .inr ⟨f, hf, hrs⟩, rfl⟩
  -- without captured frames the innermost frame is the one at hand
  cases frames with
  | nil => exact h.congr rfl
  | cons frame rest =>
    exact setFrames s (List.cons_ne_nil _ _) (List.forall_mem_append.2 ⟨hcaptured, h.frames⟩)

/-- The scope in which a query condition is evaluated under one declaration. -/
lemma pushNarrow (h : s.Provides F) {d : Node} (hd : d ∈ Resolver.variablesInScope s) :
    (s.pushFrame (Resolver.narrowFrame s d)).Provides F := by
  obtain ⟨f, hf, hd⟩ := List.mem_flatMap.1 hd
  refine h.pushRuleset (Node.throughout_iff.2 ⟨trivial, ?_, by simp [Node.held]⟩)
  simpa [Node.children, Ruleset.ofRules, Ruleset.rules] using
    (h.frames f hf).fits.rule (List.mem_filter.1 hd).1

/-- The function table for a call. -/
lemma functionTable (h : s.Provides F) {table : FunctionTable}
    (htable : s.functionTable = .ok table) : F (some table) := by
  rw [← Scope.functionTable_eq_ok_iff.1 htable]
  exact h.innermost

/-- What a node yields provides such tables, too: a detached ruleset keeps the frames in scope. -/
lemma yields (h : s.Provides F) {n r : Node} (hn : n.Throughout (Node.Provides F))
    (hr : Node.Yields (Node.Throughout (Node.Provides F)) s n r) :
    r.Throughout (Node.Provides F) := by
  refine hr.throughout ?_ (fun _ => trivial) (fun f hf => (h.frames f hf).throughout) hn
    fun _ hv => hv
  cases hr with
  | @detached info body frames =>
    cases frames with
    | none => exact fun f hf => (h.frames f hf).functions
    | some frames => exact hn.self
  | calculated h => cases h.calculated <;> trivial
  | _ => trivial

end Scope.Provides

/-! ### Evaluation -/

/-- How evaluation goes on among frames with function tables as expected. -/
structure Resolver.Provides (F : Option FunctionTable → Prop) (resolve : Resolver Observed) :
    Prop where
  value : ∀ {s n}, s.Provides F → n.Throughout (Node.Provides F) →
    Observed.Provides F s (resolve.value n)
  body : ∀ {s n}, s.Provides F → n.Throughout (Node.Provides F) →
    Observed.Provides F s (resolve.body n)

namespace Resolver.Provides

variable {resolve : Resolver Observed} {s : Scope}

/-- The value of a variable. -/
lemma binding (h : resolve.Provides F) (hs : s.Provides F) (name : String) :
    Observed.Provides F s (resolve.binding name) := by
  refine .binding (hs.congr rfl) fun _ found hfound => ⟨⟨name, rfl, found, hfound, rfl⟩, ?_, ?_⟩
  · exact hs.enterBinding hfound
  · exact h.value (hs.enterBinding hfound) (hs.source_of_lookup? hfound)

/-- A string with its placeholders filled in. -/
lemma string (h : resolve.Provides F) (hs : s.Provides F) (info : Info) (quote : Char)
    (text : String) (escaped : Bool) :
    Observed.Provides F s (resolve.string info quote text escaped) :=
  .string (h.binding hs) (Node.throughout_provides_of_leaf rfl rfl) fun _ =>
    h.body hs (Node.throughout_provides_of_leaf rfl rfl)

/-- A call of what a variable holds. -/
lemma variableCall (h : resolve.Provides F) (hs : s.Provides F) (name : String) :
    Observed.Provides F s (resolve.variableCall name) := by
  refine .bind (.reference (h.binding hs) name) fun held hheld => ?_
  refine .bind (P := fun result => ∀ r ∈ result, r.Throughout (Node.Provides F)) ?_
    fun result hresult => ?_
  · cases held with
    | ruleset rs => exact .bind_some (h.body hs hheld)
    | detached info body frames =>
      dsimp only [Resolver.callHeld, Resolver.callDetached]
      cases body with
      | none => exact .pure nofun
      | some rs =>
        refine .bind_some ?_
        cases frames with
        | none => exact h.body hs hheld.body
        | some frames =>
          have hcaptured := hs.pushCaptured hheld
          exact .bind_scope (.inFrames hcaptured (h.body hcaptured hheld.body))
    | _ => exact .pure nofun
  · cases result with
    | none => exact .fail _
    | some r => exact .pure (hresult r rfl)

/-- An operand of a query condition that may be missing. -/
lemma optional (h : resolve.Provides F) (hs : s.Provides F) {node : Option Node}
    (hnode : ∀ n ∈ node, n.Throughout (Node.Provides F)) :
    (Watch.provision F).Keeps s (fun result => ∀ r ∈ result, r.Throughout (Node.Provides F))
      (resolve.optional node) := by
  cases node with
  | none => exact .pure nofun
  | some n => exact .bind_some (h.body hs (hnode n rfl))

/-- The template of a query condition under each declaration in scope. -/
lemma candidates (h : resolve.Provides F) (hs : s.Provides F) {template : Option Node}
    (htemplate : ∀ n ∈ template, n.Throughout (Node.Provides F)) :
    (Watch.provision F).Keeps s (fun found => ∀ r ∈ found, r.Throughout (Node.Provides F))
      (resolve.candidates template) := by
  cases template with
  | none => exact .pure nofun
  | some node =>
    refine .bind_scope ((Watch.Keeps.runEach fun x hx => ?_).imp fun found hfound => hfound.2)
    obtain ⟨d, hd, rfl⟩ := List.mem_map.1 hx
    have hnarrow := hs.pushNarrow hd
    exact .inFrame hnarrow (h.body hnarrow (htemplate node rfl))

/-- A query condition: its sides are evaluated and recorded. -/
lemma query (h : resolve.Provides F) (hs : s.Provides F) (id : QueryId) :
    (Watch.provision F).Keeps s (fun _ => True) (resolve.query id) := by
  refine .bind (.update fun q hq => Queries.forall_modify hq fun _ hstate => hstate.withTemplate)
    fun _ _ => .bind .queries fun states hstates => ?_
  cases hstate : states[id]? with
  | none => exact .pure trivial
  | some state =>
    have hoperand : ∀ n ∈ state.operands, n.Throughout (Node.Provides F) :=
      fun n hn => hstates state (List.mem_of_getElem? hstate) n (List.mem_append_left _ hn)
    have hleft := hoperand state.left (by simp [Query.operands, Query.sides])
    have hmiddle : ∀ n ∈ state.middle, n.Throughout (Node.Provides F) :=
      fun n hn => hoperand n (by simp_all [Query.operands, Query.sides])
    have hright : ∀ n ∈ state.range.map Prod.snd, n.Throughout (Node.Provides F) :=
      fun n hn => hoperand n (by simp_all [Query.operands, Query.sides])
    have htemplate : ∀ n ∈ state.template, n.Throughout (Node.Provides F) :=
      fun n hn => hoperand n (by simp_all [Query.operands])
    refine .bind (h.body hs hleft) fun left hleft => ?_
    refine .bind (h.optional hs hmiddle) fun middle hmiddle => ?_
    refine .bind (h.optional hs hright) fun right hright => ?_
    refine .bind (h.candidates hs htemplate) fun found hfound => ?_
    exact .update fun q hq => Queries.forall_modify hq fun _ hstate =>
      hstate.record hleft hmiddle hright hfound

end Resolver.Provides

/-- Rules one after the other. -/
lemma Watch.Keeps.evaluateRules {s : Scope} (rules : List Node) {xs : List (Observed Node)}
    (h : ∀ x ∈ xs, Observed.Provides F s x) :
    (Watch.provision F).Keeps s (fun results => ∀ r ∈ results, r.Throughout (Node.Provides F))
      (Node.evaluateRules rules xs) := by
  induction xs generalizing rules with
  | nil => cases rules <;> exact .pure nofun
  | cons x rest ih =>
    obtain ⟨hx, hrest⟩ := List.forall_mem_cons.1 h
    cases rules with
    | nil => exact .pure nofun
    | cons rule rules =>
      refine .bind hx fun result hresult => .bind (ih rules hrest) fun others hothers => .pure ?_
      refine List.forall_mem_append.2 ⟨fun r hr => ?_, hothers⟩
      rw [Node.splice_eq] at hr
      split at hr
      · exact hresult.child hr
      · rwa [List.mem_singleton.1 hr]

namespace Scope.Provides

variable {resolve : Resolver Observed} {s : Scope} {info : Info}

/-- A call. -/
lemma call (hF : ∀ table, F (some table) → table.IsNative) (hs : s.Provides F) {name : String}
    {args : List Node} {asCalc : Bool}
    (hn : (Node.call info name args asCalc).Throughout (Node.Provides F))
    (hargs : ∀ {t}, t.Provides F →
      ∀ x ∈ Node.evalEach resolve args, Observed.Provides F t x) :
    Observed.Provides F s (Node.evalWith resolve (.call info name args asCalc)) := by
  have hinside : (s.enterCall asCalc).Provides F := hs.congr rfl
  rw [Node.evalWith]
  refine .inCall hinside (.callNamed (hargs hinside) (by simp [Node.evalEach_eq_map]) ?_ ?_ ?_ ?_)
  · -- no table that is expected has a function of the caller
    intro table key htable hfind
    have hbuiltin := (hF table (hinside.functionTable htable)).isBuiltin_of_find? hfind
    cases hbuiltin
  · exact fun b values r hvalues hr => hs.yields hn (.calculated (.function b hvalues hr))
  · exact fun _ _ _ => ⟨Node.throughout_provides_of_leaf rfl rfl, fun _ hr => hr⟩
  · exact fun _ values _ _ hvalues => hs.yields hn (.call hvalues)

/-- A declaration. -/
lemma declaration (hs : s.Provides F) {name : PropertyName} {value : Node}
    {traits : DeclarationTraits}
    (hname : ∀ part ∈ name.parts, Observed.Provides F s (Node.evalWith resolve part))
    (hvalue : ∀ {t}, t.Provides F → Observed.Provides F t (Node.evalWith resolve value)) :
    Observed.Provides F s (Node.evalWith resolve (.declaration info name value traits)) := by
  have htext : (Watch.provision F).Keeps s (fun _ => True) (PropertyName.evalWith resolve name) :=
    .propertyName hname
  rw [Node.evalWith]
  refine .bind htext fun text _ => .bind_scope ?_
  have hinside : (s.setMath (s.mathOf text)).Provides F := hs.congr rfl
  refine .bind (.inMath hinside (.capture (hvalue hinside))) ?_
  rintro ⟨v, marker⟩ hv
  exact .ofExcept fun r hr => Node.throughout_provides_of_finishDeclaration hv hr

/-- An expression. -/
lemma expression (hs : s.Provides F) {items : List Node} {form : ExpressionForm}
    (hn : (Node.expression info items form).Throughout (Node.Provides F))
    (hitems : ∀ {t}, t.Provides F →
      ∀ x ∈ Node.evalEach resolve items, Observed.Provides F t x) :
    Observed.Provides F s (Node.evalWith resolve (.expression info items form)) := by
  have hresult : ∀ {t : Scope}, t.Provides F →
      Observed.Provides F t (Node.expressionOf info form (Node.evalEach resolve items)) := by
    intro t ht
    refine .expressionOf (hitems ht) (fun _ => ?_) fun values _ hvalues => ?_
    · exact Node.throughout_provides_of_leaf rfl rfl
    · exact hs.yields hn (.expression hvalues)
  have hinside : s.enterParens.Provides F := hs.congr rfl
  rw [Node.evalWith]
  refine .bind_scope (.bind (.parenthesized hinside (hresult hinside) (hresult hs))
    fun r hr => .pure ?_)
  unfold Node.keepParens
  split
  · exact hs.yields hn (.parenthesized hr)
  · exact hr

/-- A ruleset. -/
lemma ruleset (hs : s.Provides F) {selectors : List String} {rules : List Node} {root : Bool}
    (hn : (Node.ruleset (.mk info selectors rules root)).Throughout (Node.Provides F))
    (hrules : ∀ {t}, t.Provides F →
      ∀ x ∈ Node.evalEach resolve rules, Observed.Provides F t x) :
    Observed.Provides F s
      (Node.evalWith resolve (.ruleset (.mk info selectors rules root))) := by
  -- two scopes are entered: the one of the frame, and inside it the one of the selectors
  have hframe := hs.pushRuleset hn
  have hinside : ((s.pushFrame (s.frameOf (.mk info selectors rules root))).setSelectors
      (Ruleset.combineSelectors s.selectors selectors)).Provides F := hframe.congr rfl
  rw [Node.evalWith, Ruleset.evalWith]
  refine .bind_scope (.bind (.inFrame hframe (.inSelectors hinside
    (.evaluateRules rules (hrules hinside)))) fun results hresults => .pure ?_)
  exact hs.yields hn (.ruleset hresults)

/-- An evaluation in a scope that provides function tables goes through such scopes only, if it
goes on in this way with nodes that are not part of the tree. -/
theorem evalWith (hF : ∀ table, F (some table) → table.IsNative) (hresolve : resolve.Provides F)
    (node : Node) :
    ∀ {s : Scope}, s.Provides F → node.Throughout (Node.Provides F) →
      Observed.Provides F s (Node.evalWith resolve node) := by
  induction node using Node.inductionOnChildren with
  | step n ih =>
  intro s hs hn
  have heach : ∀ {t : Scope}, t.Provides F →
      ∀ x ∈ Node.evalEach resolve n.children, Observed.Provides F t x :=
    fun ht => .evalEach fun c hc => ih c hc ht (hn.child hc)
  have hpart : ∀ c ∈ n.children, Observed.Provides F s (Node.evalWith resolve c) :=
    fun c hc => ih c hc hs (hn.child hc)
  cases n with
  | anonymous | color | comment | dimension | keyword | unicodeDescriptor =>
    rw [Node.evalWith]
    exact .pure (Node.throughout_provides_of_leaf rfl rfl)
  | assignment =>
    rw [Node.evalWith]
    refine .bind (hpart _ (by simp [Node.children])) fun v hv => .pure ?_
    exact hs.yields hn (.assignment hv)
  | «attribute» _ _ _ v _ =>
    cases v with
    | none =>
      rw [Node.evalWith]
      exact .pure (Node.throughout_provides_of_leaf rfl rfl)
    | some v =>
      rw [Node.evalWith]
      refine .bind (hpart _ (by simp [Node.children])) fun r hr => .pure ?_
      refine hs.yields hn (.selector ?_)
      rintro _ ⟨⟩
      exact hr
  | call => exact hs.call hF hn heach
  | condition =>
    rw [Node.evalWith]
    refine .bind (hpart _ (by simp [Node.children])) fun a _ => ?_
    refine .bind (hpart _ (by simp [Node.children])) fun b _ => .bind .queries fun _ _ => .pure ?_
    exact hs.yields hn (.truth _)
  | declaration info name value traits =>
    have hmem : value ∈ (Node.declaration info name value traits).children := by
      simp [Node.children]
    refine hs.declaration (fun part hpart' => hpart part (by simp [Node.children, hpart'])) ?_
    exact fun ht => ih value hmem ht (hn.child hmem)
  | detached =>
    rw [Node.evalWith]
    exact .bind_scope (.pure (hs.yields hn .detached))
  | expression => exact hs.expression hn heach
  | javaScript =>
    rw [Node.evalWith]
    exact .bind_scope (.fail _)
  | negative =>
    rw [Node.evalWith]
    refine .bind_scope (.bind (hpart _ (by simp [Node.children])) fun v hv => ?_)
    split
    next hmath =>
      exact .bind_scope (.ofExcept fun r hr => hs.yields hn (.calculated (.negated hmath hv hr)))
    · exact .pure (hs.yields hn (.negative hv))
  | operation =>
    rw [Node.evalWith]
    refine .bind (hpart _ (by simp [Node.children])) fun a ha => ?_
    refine .bind (hpart _ (by simp [Node.children])) fun b hb => .bind_scope (.ofExcept ?_)
    exact fun r hr => hs.yields hn (.calculated (.operation ha hb hr))
  | paren =>
    rw [Node.evalWith]
    refine .bind (hpart _ (by simp [Node.children])) fun v hv => .pure ?_
    exact hs.yields hn (.paren hv)
  | query _ id =>
    rw [Node.evalWith]
    refine .bind (hresolve.query hs id) fun _ _ => .pure ?_
    exact Node.throughout_provides_of_leaf rfl rfl
  | quoted =>
    rw [Node.evalWith]
    exact hresolve.string hs _ _ _ _
  | ruleset rs =>
    cases rs
    exact hs.ruleset hn heach
  | value info items =>
    rw [Node.evalWith]
    refine .valueOf (heach hs) fun values _ hvalues => ?_
    exact hs.yields hn (.value hvalues)
  | variableRef _ name =>
    rw [Node.evalWith]
    exact .reference (hresolve.binding hs) name
  | variableCall _ name =>
    rw [Node.evalWith]
    exact hresolve.variableCall hs name

/-- Evaluation at any depth goes through scopes that provide function tables only, and hands on the
markers of variables only. -/
theorem eval (hF : ∀ table, F (some table) → table.IsNative) (hs : s.Provides F) (depth : Nat)
    {node : Node} (hn : node.Throughout (Node.Provides F)) :
    Observed.Provides F s (Node.eval depth node) := by
  induction depth generalizing s node with
  | zero => exact .stop _
  | succ depth ih => exact evalWith hF ⟨fun hs hn => ih hs hn, fun hs hn => ih hs hn⟩ node hs hn

end Scope.Provides

/-! ### Stylesheets -/

/-- A detached ruleset that has not been given the frames it was written in. -/
def Node.IsLoose : Node → Prop
  | .detached _ _ frames => frames.isNone
  | _ => True

instance (n : Node) : Decidable n.IsLoose :=
  match n with
  | .detached _ _ frames => inferInstanceAs (Decidable (frames.isNone))
  | .anonymous .. | .assignment .. | .attribute .. | .call .. | .color .. | .comment ..
  | .condition .. | .declaration .. | .dimension .. | .expression .. | .javaScript ..
  | .keyword .. | .negative .. | .operation .. | .paren .. | .query .. | .quoted .. | .ruleset ..
  | .unicodeDescriptor .. | .value .. | .variableRef .. | .variableCall .. => .isTrue trivial

/-- Before it is given frames, a detached ruleset provides whatever is expected. -/
lemma Node.IsLoose.provides {n : Node} (h : n.IsLoose) : n.Provides F := by
  cases n with
  | detached info body frames =>
    obtain rfl : frames = none := Option.isNone_iff_eq_none.1 h
    exact List.forall_mem_nil _
  | _ => trivial

/-- The table of built-in functions has no other functions. -/
lemma FunctionTable.isNative_builtins : FunctionTable.builtins.IsNative := by
  decide

/-- Where a function table is at hand, it is the one of the innermost frame, and every call finds
it. -/
lemma Scope.functionTable_of_functions? {s : Scope} {table : FunctionTable}
    (h : s.functions? = some table) :
    (∃ frame ∈ s.frames.head?, frame.functions = some table) ∧ s.functionTable = .ok table :=
  ⟨Option.bind_eq_some_iff.1 h, Scope.functionTable_eq_ok_iff.2 h⟩

/-- The built-in functions are in reach during the whole evaluation of a stylesheet in which no
detached ruleset has been given frames: from the start and in every scope that the evaluation goes
through, the innermost frame has their table, so that no call is left without a function table.
Printing the result leaves all as it is. -/
theorem Stylesheet.builtins_in_reach (depth : Nat) (options : Options) (queries : Queries)
    (root : Node) (hroot : root.Throughout Node.IsLoose)
    (hqueries : ∀ state ∈ queries, state.Throughout Node.IsLoose) :
    let start := options.context queries
    let course := start.course depth root
    Stylesheet.evaluate depth options queries root =
        (course.result, start.afterwards course.outcome) ∧
      (Stylesheet.render depth options queries root).2 =
        (Stylesheet.evaluate depth options queries root).2 ∧
      ∀ s ∈ start.scope :: course.scopes,
        (∃ frame ∈ s.frames.head?, frame.functions = some .builtins) ∧
          s.functionTable = .ok .builtins := by
  intro start course
  have hstart : start.scope.Provides (· = some FunctionTable.builtins) :=
    ⟨rfl, List.forall_mem_singleton.2 ⟨rfl, Frame.throughout_iff.2 nofun⟩⟩
  have hnative : ∀ table, some table = some FunctionTable.builtins → table.IsNative := by
    rintro _ ⟨⟩
    exact FunctionTable.isNative_builtins
  have hkept := hstart.eval hnative depth (hroot.imp fun _ hn => hn.provides) queries
    fun state hstate n hn => (hqueries state hstate n hn).imp fun _ hx => hx.provides
  refine ⟨start.evaluate_eq_course depth root, ?_, ?_⟩
  · unfold Stylesheet.render
    split <;> simp_all
  · refine List.forall_mem_cons.2 ⟨Scope.functionTable_of_functions? hstart.innermost, ?_⟩
    intro s hs
    obtain ⟨event, hevent, hentered⟩ := List.mem_filterMap.1 hs
    cases event with
    | marks => cases hentered
    | enters scope =>
      obtain rfl := Option.some.inj hentered
      have hscope : scope.Provides _ := hkept.events _ hevent
      exact Scope.functionTable_of_functions? hscope.innermost

/-- Calls in the value of a variable, in a detached ruleset, and in a nested ruleset. -/
def switchRules : Node :=
  let call arg := .makeCall {} "boolean" [arg]
  let traits : DeclarationTraits := { isVariable := true }
  let body := .ofRules [] [.declaration {} (.literal "top") (call (.variableRef {} "@on")) {}]
  let nested := .ofRules ["b"] [.variableCall {} "@block", .query {} 0]
  .ruleset (.ofRoot
    [.declaration {} (.literal "@on") (call (.keyword {} "true")) traits,
      .declaration {} (.literal "@block") (.detached {} (some body) none) traits,
      .ruleset nested])

/-- A query condition with a call among its candidates. -/
def switchQueries : Queries :=
  [.make "=" (.keyword {} "hover") (some (.makeCall {} "boolean" [.variableRef {} "@on"])) none]

/-- All these calls are evaluated, with the built-in functions in reach. -/
theorem Stylesheet.builtins_in_reach_switchRules :
    let course := (({} : Options).context switchQueries).course 4 switchRules
    (Stylesheet.evaluate 4 {} switchQueries switchRules).1.isOk ∧ course.scopes.length = 31 ∧
      ∀ s ∈ course.scopes,
        (∃ frame ∈ s.frames.head?, frame.functions = some .builtins) ∧
          s.functionTable = .ok .builtins := by
  have hqueries : ∀ state ∈ switchQueries, state.Throughout Node.IsLoose := by
    intro state hstate
    rw [List.mem_singleton.1 hstate]
    decide
  obtain ⟨_, _, hscopes⟩ :=
    Stylesheet.builtins_in_reach 4 {} switchQueries switchRules (by decide) hqueries
  exact ⟨by decide +kernel, by decide +kernel, (List.forall_mem_cons.1 hscopes).2⟩

end Cascade
