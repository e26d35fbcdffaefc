import Cascade.Proofs.Evaluation.Simulation
import Cascade.Proofs.Text.Placeholder
import Cascade.Proofs.Tree.Rebuild

/-!
# Evaluation in lockstep

`Simulation.Lawful` collects what a comparison of two evaluations has to satisfy: the parts of
corresponding nodes correspond to each other in the scopes in which they are evaluated, what is put
together from corresponding results corresponds to each other, the scopes agree on what the nodes
look at in them, and the states of the query conditions develop as expected.  Then corresponding
resolvers give evaluations that proceed in lockstep (`Simulation.Lawful.evalWith`).  Each law
mentions the kind of node that needs it, so that it is void for a comparison without such nodes.
-/

namespace Cascade

/-! ### What evaluation looks at -/

/-- Whether evaluating a node turns values into text: to find the name of a variable, to fill
placeholders, or to put a name together. -/
def Node.Spells : Node → Prop
  | .variableRef _ name | .variableCall _ name => 1 < Resolver.atSigns name
  | .quoted _ _ text _ => Text.Piece.names (Text.pieces text) ≠ []
  | .declaration _ (.interpolated _) _ _ => True
  | _ => False

/-- Whether evaluating a node, apart from its parts, may look up a variable of the given name.  A
name that is found by way of a text may be any name. -/
def Node.Mentions (name : String) : Node → Prop
  | .variableRef _ own | .variableCall _ own => own = name ∨ 1 < Resolver.atSigns own
  | .quoted _ _ text _ => Text.Piece.names (Text.pieces text) ≠ []
  | _ => False

/-- The sides of a query condition. -/
def Query.sides (state : Query) : List Node :=
  state.left :: (state.middle.toList ++ (state.range.map Prod.snd).toList)

/-- The nodes that are evaluated along with a query condition. -/
def Query.operands (state : Query) : List Node :=
  state.sides ++ state.template.toList

/-- The scope in which the parts of a node are evaluated, but for parentheses, calls and the rules
for arithmetic. -/
def Scope.inside (s : Scope) : Node → Scope
  | .ruleset rs =>
    (s.pushFrame (s.frameOf rs)).setSelectors
      (Ruleset.combineSelectors s.selectors rs.selectors)
  | _ => s

/-- The scope in which a detached ruleset that was written in the given frames is called. -/
def Scope.captured (s : Scope) : Option (List Frame) → Scope
  | none => s
  | some frames => s.setFrames (frames ++ s.frames)

section Views

variable {m : Type → Type} [Evaluation m]

/-- The name that a value gives, by its text. -/
lemma Resolver.nameText_eq (v : Node) :
    (Resolver.nameText v : m String) =
      (v.string?.or v.word?).elim (Evaluation.textOf v) Pure.pure := by
  cases v <;> rfl

/-- What fills a placeholder, by its text. -/
lemma Resolver.fillText_eq (v : Node) :
    (Resolver.fillText v : m String) = v.string?.elim (Evaluation.textOf v) Pure.pure := by
  cases v <;> rfl

/-- A part of a name, by its text. -/
lemma Node.namePart_eq (part : Node) (x : m Node) :
    Node.namePart part x = part.word?.elim (x >>= Evaluation.textOf) Pure.pure := by
  cases part <;> rfl

/-- Only detached rulesets and rulesets can be called. -/
lemma Resolver.callHeld_of_kind (resolve : Resolver m) {held : Node}
    (h : held.kind ∉ [.detachedRuleset, .ruleset]) : resolve.callHeld held = pure none := by
  cases held <;> first | rfl | simp [Node.kind] at h

end Views

/-- What a rule contributes depends on whether it is a call and gave a ruleset. -/
lemma Node.splice_eq (rule result : Node) :
    rule.splice result =
      if rule.kind = .variableCall ∧ result.kind = .ruleset then result.children else [result] := by
  unfold Node.splice
  split
  · simp [Node.kind, Node.children]
  · next hcase =>
    rw [if_neg]
    rintro ⟨hrule, hresult⟩
    cases rule with
    | variableCall info name =>
      cases result with
      | ruleset rs => exact hcase info name rs rfl rfl
      | _ => simp [Node.kind] at hresult
    | _ => simp [Node.kind] at hrule

/-- An item in parentheses of its own, by its form. -/
lemma Node.isDoubleParen_singleton (s : Scope) (item : Node) :
    Node.isDoubleParen s [item] =
      item.form?.any fun form => form.parens && !form.parensInOp && !s.inCalc := by
  cases item <;> rfl

/-- A procedure that ends with an error, whatever its arguments are evaluated to. -/
inductive Procedure.Fails : Procedure → Prop where
  | finish {x : Eval Node} (h : ∀ q, ∃ halt, (x q).result = .error halt) : Fails (.finish x)
  | evaluate {position : Nat} {change : Surroundings → Surroundings}
    {next : Except Error Node → Procedure} (h : ∀ result, Fails (next result)) :
    Fails (.evaluate position change next)

/-- Carrying out a procedure that ends with an error. -/
lemma Procedure.Fails.run {procedure : Procedure} (h : procedure.Fails) (name : String)
    (xs : List (Scoped Node)) (s : Scope) (q : Queries) :
    ∃ halt, (procedure.run name xs s q).result = .error halt := by
  induction h generalizing q with
  | finish h => exact h q
  | @evaluate position change next _ ih =>
    unfold Procedure.run
    cases xs[position]? with
    | none => exact ⟨_, rfl⟩
    | some x =>
      dsimp only
      rw [Correspondence.bind_apply]
      cases (Evaluation.attempt (Evaluation.inSurroundings change x) s q).result with
      | error halt => exact ⟨halt, rfl⟩
      | ok result => exact ih result _

/-- A function that has its first argument evaluated in changed surroundings and finishes with what
is made of the outcome. -/
def CustomFunction.evaluating (change : Surroundings → Surroundings)
    (finish : Except Error Node → Eval Node) : CustomFunction where
  evaluatesArguments := false
  call _ := Eval.fail .needsScope
  callRaw _ _ := .evaluate 0 change fun result => .finish (finish result)

/-- The table of a single function of the caller. -/
def FunctionTable.single (name : String) : FunctionTable :=
  ⟨[(name, .custom name)]⟩

namespace Simulation

variable (K : Simulation)

/-- Corresponding parts of results: results, or lists around results. -/
def Piece (q : Queries) (c c' : Node) : Prop :=
  K.Result q c c' ∨ ∃ v v', K.Result q v v' ∧ c = v.asValue ∧ c' = v'.asValue

/-- Corresponding arguments of a function: results without comments. -/
def Argument (q : Queries) (v v' : Node) : Prop :=
  ∃ a a', K.Result q a a' ∧ v = a.stripComments ∧ v' = a'.stripComments

variable {K} {q : Queries} in
/-- Where corresponding results are equal, so are corresponding parts of results. -/
lemma eq_of_pieces (h : ∀ {r r'}, K.Result q r r' → r' = r) {cs cs' : List Node}
    (hcs : List.Forall₂ (K.Piece q) cs cs') : cs' = cs := by
  have heq : List.Forall₂ (fun c c' => c' = c ∧ True) cs cs' := by
    refine hcs.imp fun c c' hpiece => ⟨?_, trivial⟩
    rcases hpiece with hc | ⟨v, v', hv, rfl, rfl⟩
    · exact h hc
    · rw [h hv]
  exact (eq_and_forall_of_forall₂ heq).1

variable {K} {q : Queries} in
/-- Where corresponding results are equal, so are corresponding arguments. -/
lemma eq_of_arguments (h : ∀ {r r'}, K.Result q r r' → r' = r) {values values' : List Node}
    (hvalues : List.Forall₂ (K.Argument q) values values') : values' = values := by
  have heq : List.Forall₂ (fun v v' => v' = v ∧ True) values values' := by
    refine hvalues.imp fun v v' hv => ⟨?_, trivial⟩
    obtain ⟨a, a', ha, rfl, rfl⟩ := hv
    rw [h ha]
  exact (eq_and_forall_of_forall₂ heq).1

/-- The second of two procedures follows the first one: they have the same arguments evaluated, in
surroundings in which corresponding nodes still correspond to each other, go on with what comes out,
and finish alike.  After an error that is not covered the first one ends with an error itself. -/
inductive Follows (s s' : Scope) : Queries → Procedure → Procedure → Prop where
  | finish {q : Queries} {x x' : Eval Node}
    (h : K.Meets s s' K.Result (Evaluation.foreign x) (Evaluation.foreign x') q) :
    Follows s s' q (.finish x) (.finish x')
  | evaluate {q : Queries} {position : Nat} {change change' : Surroundings → Surroundings}
    {next next' : Except Error Node → Procedure}
    (hscope : ∀ {c c'}, K.Task s c s' c' →
      K.Task (s.changeSurroundings change) c (s'.changeSurroundings change') c')
    (hnext : ∀ {q' r r'}, K.Grows q q' → K.States q' → K.Ends (K.Result q') r r' →
      Follows s s' q' (next r) (next' r'))
    (hfails : ∀ {error}, K.Lax (.failed error) → (next (.error error)).Fails) :
    Follows s s' q (.evaluate position change next) (.evaluate position change' next')

/-- What a comparison of two evaluations has to satisfy. -/
structure Lawful : Prop where
  parts : ∀ {s s' n n'}, K.Task s n s' n' → n.isDetached = false →
    ∃ cs, n' = n.withChildren cs ∧
      List.Forall₂ (fun c c' => K.Task (s.inside n) c (s'.inside n') c') n.children cs
  detached : ∀ {s s' info body frames n'}, K.Task s (.detached info body frames) s' n' →
    ∃ body' frames', n' = .detached info body' frames' ∧ ∀ q, K.States q →
      K.Result q (.detached info.snapshot body (some (frames.getD s.frames)))
        (.detached info.snapshot body' (some (frames'.getD s'.frames)))
  -- results
  sameShape : ∀ {q r r'}, K.Result q r r' → r.SameShape r'
  result_rules : ∀ {q rs rs'}, K.Result q (.ruleset rs) (.ruleset rs') →
    List.Forall₂ (K.Result q) rs.rules rs'.rules
  yields : ∀ {s s' q n n' r cs}, K.Task s n s' n' → K.States q →
    Node.Yields (fun a => ∃ a', K.Result q a a') s n r → r.isDetached = false →
    List.Forall₂ (K.Piece q) r.children cs → K.Result q r (r.withChildren cs)
  function : ∀ {s s' q info name args asCalc n' values values'} (b : Builtin),
    K.Task s (.call info name args asCalc) s' n' → K.States q →
    List.Forall₂ (K.Argument q) values values' →
    K.Ends (K.Result q) (b.call values) (b.call values')
  negate : ∀ {s s' q info v n' a a'}, K.Task s (.negative info v) s' n' → K.States q →
    s.isMathOn → K.Result q a a' →
    K.Ends (K.Result q) (Node.operate s {} .mul false Node.minusOne a)
      (Node.operate s' {} .mul false Node.minusOne a')
  operate : ∀ {s s' q info operator l r spaced n' a a' b b'},
    K.Task s (.operation info operator l r spaced) s' n' → K.States q → K.Result q a a' →
    K.Result q b b' →
    K.Ends (K.Result q) (Node.operate s info operator spaced a b)
      (Node.operate s' info operator spaced a' b')
  truth : ∀ {s s' q info relation l r negate n' a a' b b'},
    K.Task s (.condition info relation l r negate) s' n' → K.Result q a a' → K.Result q b b' →
    Node.relationHolds q relation a' b' = Node.relationHolds q relation a b
  text : ∀ {s s' q n n' v v'}, K.Task s n s' n' → K.States q → n.Spells → K.Result q v v' →
    (∃ halt, v.css q s.style = .error halt ∧ K.Lax halt) ∨
      Alike K.Halts (fun t t' => t' = t) (v.css q s.style) (v'.css q s'.style)
  -- what nodes look at in their scope
  resolving : ∀ {s s' n n'}, K.Task s n s' n' →
    ((∀ name, K.Lax (.failed (.recursiveVariable name))) ∧ s'.resolving ⊆ s.resolving) ∨
      s'.resolving = s.resolving
  selectors : ∀ {s s' n n'}, K.Task s n s' n' → s'.selectors = s.selectors
  isMathOn : ∀ {s s' n n'}, K.Task s n s' n' → s'.isMathOn = s.isMathOn
  inCalc : ∀ {s s' n n'}, K.Task s n s' n' → s'.inCalc = s.inCalc
  scripts : ∀ {s s' n n'}, K.Task s n s' n' → s'.style.scripts = s.style.scripts
  functionTable : ∀ {s s' n n'}, K.Task s n s' n' →
    (∃ error, s.functionTable = .error error ∧ K.Lax (.failed error)) ∨
      s'.functionTable = s.functionTable
  -- the scopes of parts
  enterParens : ∀ {s s' n n'}, K.Task s n s' n' → K.Task s.enterParens n s'.enterParens n'
  enterCall : ∀ {s s' n n'} asCalc, K.Task s n s' n' →
    K.Task (s.enterCall asCalc) n (s'.enterCall asCalc) n'
  setMath : ∀ {s s' n n'} property, K.Task s n s' n' →
    K.Task (s.setMath (s.mathOf property)) n (s'.setMath (s'.mathOf property)) n'
  -- variables
  guard : ∀ {s s' n n' name}, K.Task s n s' n' → n.Mentions name → name ∈ s.resolving →
    K.Halts (.failed (.recursiveVariable name))
  lookup_none : ∀ {s s' n n' name}, K.Task s n s' n' → n.Mentions name →
    Frame.lookup? name s.frames = none →
    K.Lax (.failed (.undefinedVariable name)) ∨ Frame.lookup? name s'.frames = none
  lookup_some : ∀ {s s' n n' name found}, K.Task s n s' n' → n.Mentions name →
    name ∉ s.resolving → Frame.lookup? name s.frames = some found →
    ∃ found', Frame.lookup? name s'.frames = some found' ∧ found'.important = found.important ∧
      K.Value ((s.enterVariable name).setFrames (s.bindingFrames found)) found.value
        ((s'.enterVariable name).setFrames (s'.bindingFrames found')) found'.value
  -- functions of the caller
  custom : ∀ {s s' info name args args' asCalc table key},
    K.Task s (.call info name args asCalc) s' (.call info name args' asCalc) →
    s.functionTable = .ok table → table.find? name = some (.custom key) →
    s'.custom key = s.custom key ∧ ∀ f, s.custom key = some f → ∀ q,
      (∀ values values', List.Forall₂ (K.Argument q) values values' →
        K.Meets s s' K.Result (Evaluation.foreign (f.call values))
          (Evaluation.foreign (f.call values')) q) ∧
      K.Follows s s' q (f.callRaw s.toSurroundings args) (f.callRaw s'.toSurroundings args')
  -- nodes that evaluation goes on with
  body_string : ∀ {s s' info quote text escaped n'} filled,
    K.Task s (.quoted info quote text escaped) s' n' →
    (Node.quoted info quote text escaped).Spells →
    K.Body s (.quoted info quote filled escaped) s' (.quoted info quote filled escaped)
  body_ruleset : ∀ {s s' q info name n' rs rs'}, K.Task s (.variableCall info name) s' n' →
    K.Result q (.ruleset rs) (.ruleset rs') → K.Body s (.ruleset rs) s' (.ruleset rs')
  body_detached : ∀ {s s' q info name n' i body body' frames frames'},
    K.Task s (.variableCall info name) s' n' →
    K.Result q (.detached i body frames) (.detached i body' frames') →
    Option.Rel (fun rs rs' =>
      K.Body (s.captured frames) (.ruleset rs) (s'.captured frames') (.ruleset rs')) body body'
  -- query conditions, whose states are the same in both evaluations
  body_operand : ∀ {s s' q info id n' state n}, K.Task s (.query info id) s' n' → K.States q →
    q[id]? = some state → n ∈ state.operands → K.Body s n s' n
  recorded : ∀ {s s' q info id n' r r'}, K.Task s (.query info id) s' n' → K.Result q r r' →
    r' = r
  variablesInScope : ∀ {s s' info id n'}, K.Task s (.query info id) s' n' →
    Resolver.variablesInScope s' = Resolver.variablesInScope s
  narrow : ∀ {s s' info id n' d n}, K.Task s (.query info id) s' n' →
    d ∈ Resolver.variablesInScope s → K.Body s n s' n →
    K.Body (s.pushFrame (Resolver.narrowFrame s d)) n (s'.pushFrame (Resolver.narrowFrame s' d)) n
  template : ∀ {s s' q info id n'}, K.Task s (.query info id) s' n' → K.States q →
    K.Grows q (q.modify id Query.withTemplate) ∧ K.States (q.modify id Query.withTemplate)
  record : ∀ {s s' q info id n' left middle right found}, K.Task s (.query info id) s' n' →
    K.States q → K.Result q left left → (∀ r, middle = some r → K.Result q r r) →
    (∀ r, right = some r → K.Result q r r) → (∀ r ∈ found, K.Result q r r) →
    K.Grows q (q.modify id fun state => state.record left middle right found) ∧
      K.States (q.modify id fun state => state.record left middle right found) ∧
      K.Result (q.modify id fun state => state.record left middle right found)
        (.query info.snapshot id) (.query info.snapshot id)
  dangling : ∀ {s s' q info id n'}, K.Task s (.query info id) s' n' → K.States q →
    q[id]? = none → K.Result q (.query info.snapshot id) (.query info.snapshot id)

/-- Corresponding resolvers. -/
structure Resolves (resolve resolve' : Resolver Scoped) : Prop where
  value : ∀ {s s' n n'} q, K.Value s n s' n' →
    K.Meets s s' K.Result (resolve.value n) (resolve'.value n') q
  body : ∀ {s s' n n'} q, K.Body s n s' n' →
    K.Meets s s' K.Result (resolve.body n) (resolve'.body n') q

namespace Lawful

variable {K} {resolve resolve' : Resolver Scoped} {s s' : Scope} {q : Queries} {n n' : Node}

/-- Corresponding nodes have the same shape. -/
lemma shape (h : K.Lawful) (ht : K.Task s n s' n') : n.SameShape n' := by
  cases hdetached : n.isDetached with
  | false =>
    obtain ⟨cs, rfl, hcs⟩ := h.parts ht hdetached
    exact .rebuilt n hcs.length_eq.symm
  | true =>
    cases n with
    | detached info body frames =>
      obtain ⟨body', frames', rfl, _⟩ := h.detached ht
      exact .detached info body body' frames frames'
    | _ => simp [Node.isDetached] at hdetached

/-- A node without parts is evaluated in both evaluations. -/
lemma eq_of_children_eq_nil (h : K.Lawful) (ht : K.Task s n s' n') (hn : n.isDetached = false)
    (hchildren : n.children = []) : n' = n :=
  (h.shape ht).eq_of_children_eq_nil hn hchildren

/-- What is put together from corresponding results. -/
lemma rebuilt (h : K.Lawful) (ht : K.Task s n s' n') (hq : K.States q) {r : Node} {cs : List Node}
    (hr : Node.Yields (fun a => ∃ a', K.Result q a a') s n r) (hdetached : r.isDetached = false)
    (hcs : List.Forall₂ (K.Result q) r.children cs) : K.Result q r (r.withChildren cs) :=
  h.yields ht hq hr hdetached (hcs.imp fun _ _ => .inl)

/-- A node that does not depend on results. -/
lemma constant (h : K.Lawful) (ht : K.Task s n s' n') (hq : K.States q) {r : Node}
    (hr : Node.Yields (fun a => ∃ a', K.Result q a a') s n r) (hdetached : r.isDetached = false)
    (hchildren : r.children = []) : K.Result q r r := by
  have hnone : List.Forall₂ (K.Result q) r.children r.children := by
    rw [hchildren]
    exact .nil
  have hresult := h.rebuilt ht hq hr hdetached hnone
  rwa [Node.withChildren_children] at hresult

/-! ### Variables and strings -/

/-- The value of a variable. -/
lemma binding (h : K.Lawful) (hr : K.Resolves resolve resolve') (ht : K.Task s n s' n')
    {name : String} (hname : n.Mentions name) :
    K.Meets s s' K.Result (resolve.binding name) (resolve'.binding name) q := by
  refine .bind_scope ?_
  by_cases hmem : name ∈ s.resolving
  · have hrefused : s.resolving.contains name = true := List.contains_iff_mem.2 hmem
    rcases h.resolving ht with ⟨hlax, _⟩ | hsame
    · exact .of_lax (by rw [if_pos hrefused]; rfl) (hlax name)
    · rw [hsame, if_pos hrefused, if_pos hrefused]
      exact .stop (h.guard ht hname hmem)
  have hmem' : name ∉ s'.resolving := by
    rcases h.resolving ht with ⟨_, hsubset⟩ | hsame
    · exact fun hmem' => hmem (hsubset hmem')
    · rwa [hsame]
  rw [if_neg (mt List.contains_iff_mem.1 hmem), if_neg (mt List.contains_iff_mem.1 hmem')]
  unfold Resolver.lookup
  cases hfound : Frame.lookup? name s.frames with
  | none =>
    rcases h.lookup_none ht hname hfound with hlax | hnone
    · exact .of_lax rfl hlax
    · rw [hnone]
      exact .fail nofun
  | some found =>
    obtain ⟨found', hfound', himportant, hvalue⟩ :=
      h.lookup_some ht hname hmem hfound
    rw [hfound']
    dsimp only
    rw [himportant]
    refine .inVariable (.bind (.announce _) fun _ _ q' _ _ _ => .inFrames ?_)
    exact hr.value q' hvalue

/-- The text of a value. -/
lemma textOf (h : K.Lawful) (ht : K.Task s n s' n') (hspells : n.Spells) {v v' : Node}
    (hv : K.Result q v v') :
    K.Meets s s' (fun _ t t' => t' = t) (Evaluation.textOf v) (Evaluation.textOf v') q := by
  intro hq
  rcases h.text ht hq hspells hv with ⟨halt, hhalt, hlax⟩ | halike
  · exact .inl ⟨halt, hhalt, hlax⟩
  · exact .inr ⟨rfl, rfl, halike, K.grows_refl q, hq⟩

/-- A known text, or the text of a value. -/
lemma textOr (h : K.Lawful) (ht : K.Task s n s' n') (hspells : n.Spells) {v v' : Node}
    (hv : K.Result q v v') (known : Option String) :
    K.Meets s s' (fun _ t t' => t' = t) (known.elim (Evaluation.textOf v) Pure.pure)
      (known.elim (Evaluation.textOf v') Pure.pure) q := by
  cases known with
  | none => exact h.textOf ht hspells hv
  | some text => exact .pure rfl

/-- The name that a value gives. -/
lemma nameText (h : K.Lawful) (ht : K.Task s n s' n') (hspells : n.Spells) {v v' : Node}
    (hv : K.Result q v v') :
    K.Meets s s' (fun _ t t' => t' = t) (Resolver.nameText v) (Resolver.nameText v') q := by
  have hshape := h.sameShape hv
  rw [Resolver.nameText_eq, Resolver.nameText_eq, hshape.apply_eq Node.overlooks_string?,
    hshape.apply_eq Node.overlooks_word?]
  exact h.textOr ht hspells hv _

/-- The value of a reference. -/
lemma reference (h : K.Lawful) (hr : K.Resolves resolve resolve') (ht : K.Task s n s' n')
    {name : String} (hname : Resolver.atSigns name ≤ 1 → n.Mentions name)
    (hspells : 1 < Resolver.atSigns name → n.Spells ∧ ∀ any, n.Mentions any) (q : Queries) :
    K.Meets s s' K.Result (resolve.reference name) (resolve'.reference name) q := by
  unfold Resolver.reference
  dsimp only
  split
  next hsigns => exact h.binding hr ht (hname hsigns)
  next hsigns =>
  obtain ⟨hspells, hany⟩ := hspells (by omega)
  have hindirect : ∀ base depth q, K.Meets s s' K.Result (resolve.indirect base depth)
      (resolve'.indirect base depth) q := by
    intro base depth
    induction depth with
    | zero => exact fun q => h.binding hr ht (hany base)
    | succ depth ih =>
      intro q
      refine .bind (ih q) fun inner inner' q₁ _ _ hinner => ?_
      refine .bind (h.nameText ht hspells hinner) fun text _ q₂ _ _ htext => ?_
      rw [htext]
      exact h.binding hr ht (hany _)
  exact hindirect _ _ q

/-- What the placeholders of a string stand for. -/
lemma placeholders (h : K.Lawful) (hr : K.Resolves resolve resolve') {info : Info} {quote : Char}
    {text : String} {escaped : Bool} (ht : K.Task s (.quoted info quote text escaped) s' n')
    (hspells : (Node.quoted info quote text escaped).Spells) (names : List String) :
    K.Meets s s' (fun _ ts ts' => ts' = ts)
      (Evaluation.runAll (names.map resolve.placeholder))
      (Evaluation.runAll (names.map resolve'.placeholder)) q := by
  have hall : List.Forall₂ (fun x y => ∀ q, K.Meets s s' (fun _ t t' => t' = t) x y q)
      (names.map resolve.placeholder) (names.map resolve'.placeholder) := by
    rw [List.forall₂_map_left_iff, List.forall₂_map_right_iff, List.forall₂_same]
    intro name _ q
    refine .bind (h.reference hr ht (fun _ => hspells) (fun _ => ⟨hspells, fun _ => hspells⟩) q)
      fun value value' q' _ _ hvalue => ?_
    rw [Resolver.fillText_eq, Resolver.fillText_eq,
      (h.sameShape hvalue).apply_eq Node.overlooks_string?]
    exact h.textOr ht hspells hvalue _
  refine (Meets.runAll (fun _ _ _ _ _ htext => htext) hall).imp fun q' ts ts' htexts => ?_
  exact (List.forall₂_eq_eq_eq ▸ htexts.imp fun _ _ => Eq.symm : ts = ts').symm

/-- A string with its placeholders filled in. -/
lemma string (h : K.Lawful) (hr : K.Resolves resolve resolve') {info : Info} {quote : Char}
    {text : String} {escaped : Bool} (ht : K.Task s (.quoted info quote text escaped) s' n') :
    K.Meets s s' K.Result (resolve.string info quote text escaped)
      (resolve'.string info quote text escaped) q := by
  have hkept : ∀ q', K.States q' → K.Meets s s' K.Result
      (pure (.quoted info.snapshot quote text escaped))
      (pure (.quoted info.snapshot quote text escaped)) q' :=
    fun q' hq' => .pure (h.constant ht hq' .quoted rfl rfl)
  unfold Resolver.string
  by_cases hnames : Text.Piece.names (Text.pieces text) = []
  · -- without placeholders the text stays as it is
    simp only [hnames, List.map_nil]
    refine .bind (P := fun _ ts ts' => ts = [] ∧ ts' = []) ?_ ?_
    · exact .bind (P := fun _ rs rs' => rs = [] ∧ rs' = []) (.pure ⟨rfl, rfl⟩) (by
        rintro _ _ q' _ _ ⟨rfl, rfl⟩
        exact .pure ⟨rfl, rfl⟩)
    · rintro _ _ q' _ hq' ⟨rfl, rfl⟩
      rw [if_pos (Text.fill_pieces_of_names_eq_nil hnames),
        if_pos (Text.fill_pieces_of_names_eq_nil hnames)]
      exact hkept q' hq'
  · refine .bind (h.placeholders hr ht hnames _) ?_
    rintro ts _ q' _ hq' rfl
    dsimp only
    split
    · exact hkept q' hq'
    · exact hr.body q' (h.body_string _ ht hnames)

/-! ### Detached rulesets and query conditions -/

/-- A call of a detached ruleset or a ruleset that a variable holds. -/
lemma callHeld (h : K.Lawful) (hr : K.Resolves resolve resolve') {info : Info} {name : String}
    (ht : K.Task s (.variableCall info name) s' n') {held held' : Node}
    (hheld : K.Result q held held') :
    K.Meets s s' (fun q' => Option.Rel (K.Result q')) (resolve.callHeld held)
      (resolve'.callHeld held') q := by
  have hshape := h.sameShape hheld
  cases held with
  | detached i body frames =>
    obtain ⟨body', frames', rfl⟩ := hshape.exists_detached
    have hbody := h.body_detached ht hheld
    have hcaptured : ∀ (x : Scoped Node) (s : Scope) frames q,
        Resolver.inCaptured frames x s q = x (s.captured frames) q := by
      intro x s frames q
      cases frames with
      | none => rfl
      | some frames => exact Correspondence.scope_bind_apply _
    unfold Resolver.callHeld Resolver.callDetached
    dsimp only
    cases hbody with
    | none => exact .pure .none
    | @some rs rs' hrs =>
      have hcalled : K.Meets s s' K.Result (Resolver.inCaptured frames (resolve.body (.ruleset rs)))
          (Resolver.inCaptured frames' (resolve'.body (.ruleset rs'))) q := by
        unfold Meets
        rw [hcaptured, hcaptured]
        exact hr.body q hrs
      exact hcalled.bind fun r r' q' _ _ hresult => .pure (.some hresult)
  | ruleset rs =>
    obtain ⟨info, selectors, rules, root⟩ := rs
    obtain ⟨rules', rfl⟩ := hshape.exists_ruleset
    refine .bind (hr.body q (h.body_ruleset ht hheld)) fun r r' q' _ _ hresult => .pure ?_
    exact .some hresult
  | _ =>
    rw [Resolver.callHeld_of_kind _ (by simp [Node.kind]),
      Resolver.callHeld_of_kind _ (by rw [hshape.apply_eq Node.overlooks_kind]; simp [Node.kind])]
    exact .pure .none

/-- A call of what a variable holds. -/
lemma variableCall (h : K.Lawful) (hr : K.Resolves resolve resolve') {info : Info} {name : String}
    (ht : K.Task s (.variableCall info name) s' n') :
    K.Meets s s' K.Result (resolve.variableCall name) (resolve'.variableCall name) q := by
  refine .bind (h.reference hr ht (fun _ => .inl rfl)
    (fun hsigns => ⟨hsigns, fun _ => .inr hsigns⟩) q) fun held held' q₁ _ _ hheld => ?_
  refine .bind (h.callHeld hr ht hheld) fun result result' q₂ _ _ hresult => ?_
  cases hresult with
  | none => exact .fail nofun
  | some hr => exact .pure hr

section Query

variable {info : Info} {id : QueryId}

/-- An operand of a condition. -/
lemma operand (h : K.Lawful) (hr : K.Resolves resolve resolve') {t t' : Scope}
    (ht : K.Task s (.query info id) s' n') {node : Node} (hbody : K.Body t node t' node)
    (q : Queries) :
    K.Meets t t' (fun q' r r' => r' = r ∧ K.Result q' r r) (resolve.body node)
      (resolve'.body node) q := by
  refine (hr.body q hbody).imp fun q' r r' hresult => ?_
  obtain rfl := h.recorded ht hresult
  exact ⟨rfl, hresult⟩

/-- An operand that may be missing. -/
lemma optional (h : K.Lawful) (hr : K.Resolves resolve resolve')
    (ht : K.Task s (.query info id) s' n') {node : Option Node}
    (hnode : ∀ n, node = some n → K.Body s n s' n) :
    K.Meets s s' (fun q' r r' => r' = r ∧ ∀ x, r = some x → K.Result q' x x)
      (resolve.optional node) (resolve'.optional node) q := by
  cases node with
  | none => exact .pure ⟨rfl, by simp⟩
  | some n =>
    refine .bind (h.operand hr ht (hnode n rfl) q) ?_
    rintro r _ q' _ _ ⟨rfl, hresult⟩
    exact .pure ⟨rfl, by simpa using hresult⟩

/-- The template of a condition under each declaration in scope. -/
lemma candidates (h : K.Lawful) (hr : K.Resolves resolve resolve')
    (ht : K.Task s (.query info id) s' n') {template : Option Node}
    (htemplate : ∀ n, template = some n → K.Body s n s' n) :
    K.Meets s s' (fun q' found found' => found' = found ∧ ∀ r ∈ found, K.Result q' r r)
      (resolve.candidates template) (resolve'.candidates template) q := by
  unfold Resolver.candidates
  cases template with
  | none => exact .pure ⟨rfl, by simp⟩
  | some node =>
    refine .bind_scope ?_
    rw [h.variablesInScope ht]
    refine (Meets.runEach (P := fun q' r r' => r' = r ∧ K.Result q' r r) ?_ ?_ q).imp
      fun _ _ _ => eq_and_forall_of_forall₂
    · exact fun _ _ _ _ hgrows hresult => ⟨hresult.1, K.result_mono hgrows hresult.2⟩
    · rw [List.forall₂_map_left_iff, List.forall₂_map_right_iff, List.forall₂_same]
      exact fun d hd q => .inFrame (h.operand hr ht (h.narrow ht hd (htemplate node rfl)) q)

/-- A query condition: its sides are evaluated and recorded. -/
lemma query (h : K.Lawful) (hr : K.Resolves resolve resolve')
    (ht : K.Task s (.query info id) s' n') :
    K.Meets s s' (fun q' _ _ => K.Result q' (.query info.snapshot id) (.query info.snapshot id))
      (resolve.query id) (resolve'.query id) q := by
  refine .bind (P := fun _ _ _ => True) (.update fun hq => ?_) fun _ _ q₁ _ _ _ => ?_
  · exact ⟨rfl, (h.template ht hq).1, (h.template ht hq).2, trivial⟩
  refine .bind .queries ?_
  rintro _ states _ _ hq₂ ⟨rfl, rfl⟩
  cases hstate : states[id]? with
  | none => exact .pure (h.dangling ht hq₂ hstate)
  | some state =>
    have hoperand : ∀ n ∈ state.operands, K.Body s n s' n :=
      fun n hmem => h.body_operand ht hq₂ hstate hmem
    have hleft : K.Body s state.left s' state.left :=
      hoperand _ (by simp [Query.operands, Query.sides])
    have hmiddle : ∀ n, state.middle = some n → K.Body s n s' n :=
      fun n hn => hoperand n (by simp [Query.operands, Query.sides, hn])
    have hright : ∀ n, state.range.map Prod.snd = some n → K.Body s n s' n :=
      fun n hn => hoperand n (by simp [Query.operands, Query.sides, hn])
    have htemplate : ∀ n, state.template = some n → K.Body s n s' n :=
      fun n hn => hoperand n (by simp [Query.operands, hn])
    refine .bind (h.operand hr ht hleft _) ?_
    rintro left _ q₃ _ _ ⟨rfl, hleft⟩
    refine .bind (h.optional hr ht hmiddle) ?_
    rintro middle _ q₄ h₃₄ _ ⟨rfl, hmiddle⟩
    refine .bind (h.optional hr ht hright) ?_
    rintro right _ q₅ h₄₅ _ ⟨rfl, hright⟩
    refine .bind (h.candidates hr ht htemplate) ?_
    rintro found _ q₆ h₅₆ _ ⟨rfl, hfound⟩
    -- what the first steps gave is still a result when it is recorded
    have h₄₆ : K.Grows q₄ q₆ := K.grows_trans h₄₅ h₅₆
    exact .update fun hq₆ => ⟨rfl, h.record ht hq₆ (K.result_mono (K.grows_trans h₃₄ h₄₆) hleft)
      (fun r hr => K.result_mono h₄₆ (hmiddle r hr)) (fun r hr => K.result_mono h₅₆ (hright r hr))
      hfound⟩

end Query

/-! ### Functions

The arguments of a call come with their evaluations; both lists are related one by one. -/

/-- Lists that are related one by one are related at every place. -/
lemma rel_getElem?_of_forall₂ {γ δ : Type} {R : γ → δ → Prop} {xs : List γ} {ys : List δ}
    (h : List.Forall₂ R xs ys) (i : Nat) : Option.Rel R xs[i]? ys[i]? := by
  induction h generalizing i with
  | nil => exact .none
  | cons hr _ ih =>
    cases i with
    | zero => exact .some hr
    | succ i => exact ih i

/-- Evaluations that correspond one by one. -/
abbrev Each (K : Simulation) (s s' : Scope) : List (Scoped Node) → List (Scoped Node) → Prop :=
  List.Forall₂ fun x y => ∀ q, K.Meets s s' K.Result x y q

/-- Corresponding parts of nodes that are evaluated in lockstep, in whatever scopes they
correspond to each other. -/
structure Runs (K : Simulation) (resolve resolve' : Resolver Scoped) (s s' : Scope)
    (c c' : Node) : Prop where
  task : K.Task s c s' c'
  meets : ∀ {t t' d} q, K.Task t c t' d →
    K.Meets t t' K.Result (Node.evalWith resolve c) (Node.evalWith resolve' d) q

/-- The evaluations of parts, in other scopes in which they correspond to each other. -/
lemma evalEach {t t' : Scope} {nodes nodes' : List Node}
    (hnodes : List.Forall₂ (Runs K resolve resolve' s s') nodes nodes')
    (hscope : ∀ {c c'}, K.Task s c s' c' → K.Task t c t' c') :
    Each K t t' (Node.evalEach resolve nodes) (Node.evalEach resolve' nodes') := by
  rw [Node.evalEach_eq_map, Node.evalEach_eq_map]
  unfold Each
  rw [List.forall₂_map_left_iff, List.forall₂_map_right_iff]
  exact hnodes.imp fun _ _ hrun q => hrun.meets q (hscope hrun.task)

/-- Corresponding parts have the same shapes. -/
lemma shapes (h : K.Lawful) {nodes nodes' : List Node}
    (hnodes : List.Forall₂ (Runs K resolve resolve' s s') nodes nodes') :
    List.Forall₂ Node.SameShape nodes nodes' :=
  hnodes.imp fun _ _ hrun => h.shape hrun.task

section Functions

variable {xs ys : List (Scoped Node)} {info : Info} {name : String} {args args' : List Node}
  {asCalc : Bool}

/-- The evaluation of an argument of the conditional. -/
lemma branch (hxy : Each K s s' xs ys) (position : Nat) :
    K.Meets s s' K.Result (Builtin.branch xs position) (Builtin.branch ys position) q := by
  have hat := rel_getElem?_of_forall₂ hxy position
  unfold Builtin.branch Builtin.argument
  generalize xs[position]? = x at hat ⊢
  generalize ys[position]? = y at hat ⊢
  cases hat with
  | none => exact .fail nofun
  | some hmeets => exact hmeets q

/-- The conditional. -/
lemma choose (h : K.Lawful) (ht : K.Task s (.call info name args asCalc) s' n')
    (hxy : Each K s s' xs ys) :
    K.Meets s s' K.Result (Builtin.choose xs) (Builtin.choose ys) q := by
  refine .bind (branch hxy 0) fun condition condition' q' _ hq' hcondition => ?_
  rw [(h.sameShape hcondition).apply_eq Node.overlooks_asBool]
  split
  · exact branch hxy 1
  · have hat := rel_getElem?_of_forall₂ hxy 2
    generalize xs[2]? = x at hat ⊢
    generalize ys[2]? = y at hat ⊢
    cases hat with
    | none => exact .pure (h.constant ht hq' .nothing rfl rfl)
    | some hmeets => exact hmeets q'

/-- The arguments of a function, evaluated and without comments. -/
lemma evaluateArguments (h : K.Lawful) (function : String)
    (hargs : List.Forall₂ Node.SameShape args args') (hxy : Each K s s' xs ys) (q : Queries) :
    K.Meets s s' (fun q' => List.Forall₂ (K.Argument q'))
      (Node.evaluateArguments function (args.zip xs))
      (Node.evaluateArguments function (args'.zip ys)) q := by
  induction hxy generalizing args args' q with
  | nil =>
    simp only [List.zip_nil_right]
    exact .pure .nil
  | cons hmeets _ ih =>
    cases hargs with
    | nil => exact .pure .nil
    | cons hshape hargs =>
      simp only [List.zip_cons_cons, Node.evaluateArguments]
      rw [hshape.apply_eq Node.overlooks_isEvaluable, hshape.apply_eq Node.overlooks_kind]
      split
      · refine .bind (hmeets q) fun r r' q₁ _ _ hresult => ?_
        refine .bind (ih hargs q₁) fun others others' q₂ hgrows _ hothers => .pure ?_
        rw [(h.sameShape hresult).apply_eq Node.overlooks_isComment]
        split
        · exact hothers
        · exact .cons ⟨r, r', K.result_mono hgrows hresult, rfl, rfl⟩ hothers
      · exact .fail nofun

/-- A function that is given its arguments as they are. -/
lemma run (hargs : List.Forall₂ (Runs K resolve resolve' s s') args args') (function : String)
    {procedure procedure' : Procedure} (hfollows : K.Follows s s' q procedure procedure') :
    K.Meets s s' K.Result (procedure.run function (Node.evalEach resolve args))
      (procedure'.run function (Node.evalEach resolve' args')) q := by
  induction hfollows with
  | finish h => exact h
  | @evaluate q position _ _ _ _ hscope _ hfails ih =>
    have hat := rel_getElem?_of_forall₂ hargs position
    unfold Procedure.run
    rw [Node.evalEach_eq_map, Node.evalEach_eq_map, List.getElem?_map, List.getElem?_map]
    rw [Node.evalEach_eq_map, Node.evalEach_eq_map] at ih
    generalize args[position]? = arg at hat ⊢
    generalize args'[position]? = arg' at hat ⊢
    cases hat with
    | none => exact .fail nofun
    | some hrun =>
      refine .bind_attempt (.inSurroundings (hrun.meets q (hscope hrun.task))) ?_ ?_
      · exact fun _ _ _ hgrows hstates hends => ih hgrows hstates hends
      · exact fun _ q' hlax => (hfails hlax).run function _ s q'

/-- A call of a function in the table. -/
lemma callFunction (h : K.Lawful)
    (ht : K.Task s (.call info name args asCalc) s' (.call info name args' asCalc))
    (hargs : List.Forall₂ (Runs K resolve resolve' s s') args args') {table : FunctionTable}
    (htable : s.functionTable = .ok table) {function : FunctionRef}
    (hfind : table.find? name = some function) :
    K.Meets s s' K.Result
      (s.callFunction (Text.lower name) function (args.zip (Node.evalEach resolve args)))
      (s'.callFunction (Text.lower name) function (args'.zip (Node.evalEach resolve' args')))
      q := by
  have hlength : (Node.evalEach resolve args).length = args.length := by
    simp [Node.evalEach_eq_map]
  have hlength' : (Node.evalEach resolve' args').length = args'.length := by
    simp [Node.evalEach_eq_map]
  have hvalues := h.evaluateArguments (Text.lower name) (h.shapes hargs) (evalEach hargs id) q
  cases function with
  | builtin b =>
    unfold Scope.callFunction
    dsimp only
    split
    · exact hvalues.bind fun _ _ _ _ hq' hvalues => .ofExcept (h.function b ht hq' hvalues)
    next hraw =>
    have hcond : b = .cond := by cases b <;> simp_all [Builtin.evaluatesArguments]
    subst hcond
    simp only [Builtin.callRaw, List.map_snd_zip (Nat.le_of_eq hlength),
      List.map_snd_zip (Nat.le_of_eq hlength')]
    exact h.choose ht (evalEach hargs id)
  | custom key =>
    obtain ⟨hcustom, hforeign⟩ := h.custom ht htable hfind
    unfold Scope.callFunction Scope.callCustom
    dsimp only
    rw [hcustom, List.map_fst_zip (Nat.le_of_eq hlength.symm),
      List.map_fst_zip (Nat.le_of_eq hlength'.symm), List.map_snd_zip (Nat.le_of_eq hlength),
      List.map_snd_zip (Nat.le_of_eq hlength')]
    cases hf : s.custom key with
    | none => exact .fail (by rintro _ ⟨⟩)
    | some f =>
      dsimp only
      split
      · exact hvalues.bind fun _ _ q' _ _ hvalues => (hforeign f hf q').1 _ _ hvalues
      · exact run hargs _ (hforeign f hf q).2

/-- A call, in the scope of its arguments. -/
lemma callNamed (h : K.Lawful)
    (ht : K.Task s (.call info name args asCalc) s' (.call info name args' asCalc))
    (hargs : List.Forall₂ (Runs K resolve resolve' s s') args args') :
    K.Meets s s' K.Result (Node.callNamed info name args asCalc (Node.evalEach resolve args))
      (Node.callNamed info name args' asCalc (Node.evalEach resolve' args')) q := by
  refine .bind_scope ?_
  rcases h.functionTable ht with ⟨error, htable, hlax⟩ | htable
  · rw [htable]
    exact .of_lax rfl hlax
  rw [htable]
  cases htable : s.functionTable with
  | error error =>
    have hscope : ∀ name, error ≠ .recursiveVariable name := by
      intro name herror
      unfold Scope.functionTable at htable
      subst herror
      split at htable
      · cases htable
      · split at htable <;> cases htable
    exact .bind (P := fun _ _ _ => False) (.fail hscope) fun _ _ _ _ _ hfalse => hfalse.elim
  | ok table =>
    refine .bind (P := fun _ t t' => table = t ∧ table = t') (.pure ⟨rfl, rfl⟩) ?_
    rintro _ _ q₁ _ _ ⟨rfl, rfl⟩
    cases hfind : table.find? name with
    | some function => exact h.callFunction ht hargs htable hfind
    | none =>
      refine .bind (.runEach (P := K.Result) (fun _ _ _ _ => K.result_mono) (evalEach hargs id) q₁)
        fun values values' q₂ _ hq₂ hvalues => .pure ?_
      exact h.rebuilt ht hq₂ (.call (exists_of_forall₂ hvalues)) rfl hvalues

end Functions

/-! ### Nodes -/

/-- What a rule contributes. -/
lemma splice (h : K.Lawful) {rule rule' result result' : Node} (hrule : rule.SameShape rule')
    (hresult : K.Result q result result') :
    List.Forall₂ (K.Result q) (rule.splice result) (rule'.splice result') := by
  have hshape := h.sameShape hresult
  rw [Node.splice_eq, Node.splice_eq, hrule.apply_eq Node.overlooks_kind,
    hshape.apply_eq Node.overlooks_kind]
  split
  next hcalled =>
    cases result with
    | ruleset rs =>
      obtain ⟨info, selectors, rules, root⟩ := rs
      obtain ⟨rules', rfl⟩ := hshape.exists_ruleset
      exact h.result_rules hresult
    | _ => simp [Node.kind] at hcalled
  · exact .cons hresult .nil

/-- Rules one after the other. -/
lemma evaluateRules (h : K.Lawful) {rules rules' : List Node}
    (hrules : List.Forall₂ Node.SameShape rules rules') {xs ys : List (Scoped Node)}
    (hxy : Each K s s' xs ys) (q : Queries) :
    K.Meets s s' (fun q' => List.Forall₂ (K.Result q')) (Node.evaluateRules rules xs)
      (Node.evaluateRules rules' ys) q := by
  induction hxy generalizing rules rules' q with
  | nil => cases hrules <;> exact .pure .nil
  | cons hmeets _ ih =>
    cases hrules with
    | nil => exact .pure .nil
    | cons hrule hrules =>
      refine .bind (hmeets q) fun result result' q₁ _ _ hresult => ?_
      refine .bind (ih hrules q₁) fun rest rest' q₂ hgrows _ hrest => .pure ?_
      exact List.rel_append (h.splice hrule (K.result_mono hgrows hresult)) hrest

/-- The name of a declaration. -/
lemma nameParts (h : K.Lawful) (ht : K.Task s n s' n') (hspells : n.Spells)
    {parts parts' : List Node} (hparts : List.Forall₂ Node.SameShape parts parts')
    {xs ys : List (Scoped Node)} (hxy : Each K s s' xs ys) (q : Queries) :
    K.Meets s s' (fun _ t t' => t' = t) (Node.nameParts parts xs) (Node.nameParts parts' ys) q := by
  induction hxy generalizing parts parts' q with
  | nil => cases hparts <;> exact .pure rfl
  | @cons x y _ _ hmeets _ ih =>
    cases hparts with
    | nil => exact .pure rfl
    | @cons part part' _ _ hpart hparts =>
      have htext : K.Meets s s' (fun _ t t' => t' = t) (Node.namePart part x)
          (Node.namePart part' y) q := by
        rw [Node.namePart_eq, Node.namePart_eq, hpart.apply_eq Node.overlooks_word?]
        cases part.word? with
        | none => exact .bind (hmeets q) fun v v' q' _ _ hv => h.textOf ht hspells hv
        | some text => exact .pure rfl
      refine htext.bind ?_
      rintro text _ q₁ _ _ rfl
      refine (ih hparts q₁).bind ?_
      rintro rest _ q₂ _ _ rfl
      exact .pure rfl

/-- The items of an expression. -/
lemma expressionOf (h : K.Lawful) {info : Info} {items : List Node} {form : ExpressionForm}
    (ht : K.Task s (.expression info items form) s' n') {xs ys : List (Scoped Node)}
    (hxy : Each K s s' xs ys) :
    K.Meets s s' K.Result (Node.expressionOf info form xs) (Node.expressionOf info form ys) q := by
  cases hxy with
  | nil => exact .assuming fun hq => .pure (h.constant ht hq (.expression (by simp)) rfl rfl)
  | cons hfirst hrest =>
    cases hrest with
    | nil => exact hfirst q
    | cons hsecond hrest =>
      refine .bind (.runEach (P := K.Result) (fun _ _ _ _ => K.result_mono)
        (.cons hfirst (.cons hsecond hrest)) q) fun values values' q' _ hq' hvalues => .pure ?_
      exact h.rebuilt ht hq' (.expression (exists_of_forall₂ hvalues)) rfl hvalues

/-- The items of a list. -/
lemma valueOf (h : K.Lawful) {info : Info} {items : List Node}
    (ht : K.Task s (.value info items) s' n') {xs ys : List (Scoped Node)}
    (hxy : Each K s s' xs ys) :
    K.Meets s s' K.Result (Node.valueOf info xs) (Node.valueOf info ys) q := by
  have hseveral : ∀ {xs ys}, Each K s s' xs ys → K.Meets s s' K.Result
      (Evaluation.runEach xs >>= fun values => pure (.value info.snapshot values))
      (Evaluation.runEach ys >>= fun values => pure (.value info.snapshot values)) q := by
    intro xs ys hxy
    refine .bind (.runEach (P := K.Result) (fun _ _ _ _ => K.result_mono) hxy q)
      fun values values' q' _ hq' hvalues => .pure ?_
    exact h.rebuilt ht hq' (.value (exists_of_forall₂ hvalues)) rfl hvalues
  cases hxy with
  | nil => exact hseveral .nil
  | cons hfirst hrest =>
    cases hrest with
    | nil => exact hfirst q
    | cons hsecond hrest => exact hseveral (.cons hfirst (.cons hsecond hrest))

/-- A declaration. -/
lemma declaration (h : K.Lawful) {info : Info} {name : PropertyName} {parts' : List Node}
    {value value' : Node} {traits : DeclarationTraits}
    (ht : K.Task s (.declaration info name value traits) s' n')
    (hparts : List.Forall₂ (Runs K resolve resolve' s s') name.parts parts')
    (hvalue : Runs K resolve resolve' s s' value value') :
    K.Meets s s' K.Result (Node.evalWith resolve (.declaration info name value traits))
      (Node.evalWith resolve' (.declaration info (name.withParts parts') value' traits)) q := by
  have htext : K.Meets s s' (fun _ text text' => text' = text ∧ ∀ t, name = .literal t → text = t)
      (PropertyName.evalWith resolve name)
      (PropertyName.evalWith resolve' (name.withParts parts')) q := by
    cases name with
    | literal text =>
      rw [PropertyName.withParts, PropertyName.evalWith, PropertyName.evalWith]
      exact .pure (by simp)
    | interpolated parts =>
      rw [PropertyName.withParts, PropertyName.evalWith, PropertyName.evalWith]
      exact (h.nameParts ht trivial (h.shapes hparts) (evalEach hparts id) q).imp (by simp)
  have htraits : (name.withParts parts').traits traits = name.traits traits := by
    cases name <;> rfl
  rw [Node.evalWith, Node.evalWith, htraits]
  refine htext.bind ?_
  rintro _ text q₁ _ _ ⟨rfl, hname⟩
  refine .bind_scope ?_
  refine .bind (.inMath (.capture (hvalue.meets q₁ (h.setMath text hvalue.task)))) ?_
  rintro ⟨v, marker⟩ ⟨v', _⟩ q₂ _ hq₂ ⟨hv, rfl⟩
  refine .ofExcept ?_
  unfold Node.finishDeclaration
  rw [(h.sameShape hv).apply_eq Node.overlooks_isDetached]
  split
  · exact .error (K.halts_failed (by rintro _ ⟨⟩))
  · have hpiece : List.Forall₂ (K.Piece q₂) [v.asValue] [v'.asValue] :=
      .cons (.inr ⟨v, v', hv, rfl, rfl⟩) .nil
    exact .ok (h.yields ht hq₂ (.declaration hname ⟨v', hv⟩) rfl hpiece)

/-- An expression. -/
lemma expression (h : K.Lawful) {info : Info} {items items' : List Node} {form : ExpressionForm}
    (ht : K.Task s (.expression info items form) s' n')
    (hitems : List.Forall₂ (Runs K resolve resolve' s s') items items') :
    K.Meets s s' K.Result (Node.evalWith resolve (.expression info items form))
      (Node.evalWith resolve' (.expression info items' form)) q := by
  have hinside : K.Meets s s' K.Result
      (Evaluation.parenthesized form.parens
        (Node.expressionOf info form (Node.evalEach resolve items)))
      (Evaluation.parenthesized form.parens
        (Node.expressionOf info form (Node.evalEach resolve' items'))) q := by
    unfold Evaluation.parenthesized
    split
    · exact .inParens (h.expressionOf (h.enterParens ht) (evalEach hitems h.enterParens))
    · exact h.expressionOf ht (evalEach hitems id)
  have hdouble : Node.isDoubleParen s' items' = Node.isDoubleParen s items := by
    cases h.shapes hitems with
    | nil => rfl
    | cons hfirst hrest =>
      cases hrest with
      | nil =>
        rw [Node.isDoubleParen_singleton, Node.isDoubleParen_singleton,
          hfirst.apply_eq Node.overlooks_form?, h.inCalc ht]
      | cons => simp [Node.isDoubleParen]
  rw [Node.evalWith, Node.evalWith]
  refine .bind_scope (hinside.bind fun r r' q' _ hq' hr => .pure ?_)
  unfold Node.keepParens
  rw [hdouble, h.isMathOn ht, (h.sameShape hr).apply_eq Node.overlooks_isDimension]
  split
  · exact h.rebuilt ht hq' (.parenthesized ⟨r', hr⟩) rfl (.cons hr .nil)
  · exact hr

/-- A ruleset. -/
lemma ruleset (h : K.Lawful) {info : Info} {selectors : List String} {rules rules' : List Node}
    {root : Bool} (ht : K.Task s (.ruleset (.mk info selectors rules root)) s' n')
    (hrules : List.Forall₂ (Runs K resolve resolve'
      (s.inside (.ruleset (.mk info selectors rules root)))
      (s'.inside (.ruleset (.mk info selectors rules' root)))) rules rules') :
    K.Meets s s' K.Result (Node.evalWith resolve (.ruleset (.mk info selectors rules root)))
      (Node.evalWith resolve' (.ruleset (.mk info selectors rules' root))) q := by
  rw [Node.evalWith, Node.evalWith, Ruleset.evalWith, Ruleset.evalWith]
  refine .bind_scope (.bind (.inFrame (.inSelectors (h.evaluateRules (h.shapes hrules)
    (evalEach hrules id) q))) fun results results' q' _ hq' hresults => .pure ?_)
  rw [h.selectors ht]
  exact h.rebuilt ht hq' (.ruleset (exists_of_forall₂ hresults)) rfl hresults

/-- A condition. -/
lemma condition (h : K.Lawful) {info : Info} {relation : Relation} {l l' r r' : Node}
    {negate : Bool} (ht : K.Task s (.condition info relation l r negate) s' n')
    (hl : Runs K resolve resolve' s s' l l') (hr : Runs K resolve resolve' s s' r r') :
    K.Meets s s' K.Result (Node.evalWith resolve (.condition info relation l r negate))
      (Node.evalWith resolve' (.condition info relation l' r' negate)) q := by
  rw [Node.evalWith, Node.evalWith]
  refine .bind (hl.meets q hl.task) fun a a' q₁ _ _ ha => ?_
  refine .bind (hr.meets q₁ hr.task) fun b b' q₂ hgrows _ hb => .bind .queries ?_
  rintro _ _ q₃ hgrows' hq₃ ⟨rfl, rfl⟩
  rw [h.truth ht (K.result_mono (K.grows_trans hgrows hgrows') ha) (K.result_mono hgrows' hb)]
  exact .pure (h.constant ht hq₃ (.truth _) rfl rfl)

/-- An operation. -/
lemma operation (h : K.Lawful) {info : Info} {operator : Operator} {l l' r r' : Node}
    {spaced : Bool} (ht : K.Task s (.operation info operator l r spaced) s' n')
    (hl : Runs K resolve resolve' s s' l l') (hr : Runs K resolve resolve' s s' r r') :
    K.Meets s s' K.Result (Node.evalWith resolve (.operation info operator l r spaced))
      (Node.evalWith resolve' (.operation info operator l' r' spaced)) q := by
  rw [Node.evalWith, Node.evalWith]
  refine .bind (hl.meets q hl.task) fun a a' q₁ _ _ ha => ?_
  refine .bind (hr.meets q₁ hr.task) fun b b' q₂ hgrows hq₂ hb => .bind_scope ?_
  exact .ofExcept (h.operate ht hq₂ (K.result_mono hgrows ha) hb)

/-- A node with a sign. -/
lemma negative (h : K.Lawful) {info : Info} {v v' : Node}
    (ht : K.Task s (.negative info v) s' n') (hv : Runs K resolve resolve' s s' v v') :
    K.Meets s s' K.Result (Node.evalWith resolve (.negative info v))
      (Node.evalWith resolve' (.negative info v')) q := by
  rw [Node.evalWith, Node.evalWith]
  refine .bind_scope (.bind (hv.meets q hv.task) fun a a' q' _ hq' ha => ?_)
  rw [h.isMathOn ht]
  split
  next hmath => exact .bind_scope (.ofExcept (h.negate ht hq' hmath ha))
  · exact .pure (h.rebuilt ht hq' (.negative ⟨a', ha⟩) rfl (.cons ha .nil))

/-- A node without parts that is evaluated to a copy of itself. -/
lemma leaf (h : K.Lawful) (ht : K.Task s n s' n') (hn : n.isDetached = false)
    (hchildren : n.children = []) {r : Node}
    (heval : ∀ resolve : Resolver Scoped, Node.evalWith resolve n = pure r)
    (hr : ∀ q, Node.Yields (fun a => ∃ a', K.Result q a a') s n r)
    (hdetached : r.isDetached = false) (hparts : r.children = []) :
    K.Meets s s' K.Result (Node.evalWith resolve n) (Node.evalWith resolve' n') q := by
  rw [h.eq_of_children_eq_nil ht hn hchildren, heval, heval]
  exact .assuming fun hq => .pure (h.constant ht hq (hr q) hdetached hparts)

/-- Corresponding resolvers give evaluations in lockstep. -/
theorem evalWith (h : K.Lawful) (hr : K.Resolves resolve resolve') (node : Node) :
    ∀ {s s' node'} q, K.Task s node s' node' →
      K.Meets s s' K.Result (Node.evalWith resolve node) (Node.evalWith resolve' node') q := by
  induction node using Node.inductionOnChildren with
  | step n ih =>
    intro s s' n' q ht
    cases hdetached : n.isDetached with
    | true =>
      cases n with
      | detached info body frames =>
        obtain ⟨body', frames', rfl, hresult⟩ := h.detached ht
        rw [Node.evalWith, Node.evalWith]
        exact .bind_scope (.assuming fun hq => .pure (hresult q hq))
      | _ => simp [Node.isDetached] at hdetached
    | false =>
    obtain ⟨cs, rfl, hcs⟩ := h.parts ht hdetached
    have hparts : List.Forall₂
        (Runs K resolve resolve' (s.inside n) (s'.inside (n.withChildren cs))) n.children cs :=
      ((List.forall₂_and_left _ _).2 ⟨ih, hcs⟩).imp fun _ _ hpart => ⟨hpart.2, hpart.1⟩
    cases n with
    | declaration _ name value _ =>
      obtain ⟨parts', value', rfl, hname, hvalue⟩ := forall₂_concat_left hparts
      simp only [Node.withChildren, List.dropLast_concat, List.getLastD_concat]
      exact h.declaration ht hname hvalue
    | detached => cases hdetached
    | expression => exact h.expression ht hparts
    | ruleset rs =>
      cases rs
      exact h.ruleset ht hparts
    | assignment =>
      cases hparts with
      | cons hv hrest =>
      cases hrest
      rw [Node.withChildren, Node.evalWith, Node.evalWith]
      refine .bind (hv.meets q hv.task) fun r r' q' _ hq' hresult => .pure ?_
      exact h.rebuilt ht hq' (.assignment ⟨r', hresult⟩) rfl (.cons hresult .nil)
    | paren =>
      cases hparts with
      | cons hv hrest =>
      cases hrest
      rw [Node.withChildren, Node.evalWith, Node.evalWith]
      refine .bind (hv.meets q hv.task) fun r r' q' _ hq' hresult => .pure ?_
      exact h.rebuilt ht hq' (.paren ⟨r', hresult⟩) rfl (.cons hresult .nil)
    | «attribute» _ _ _ v _ =>
      cases v with
      | some =>
        cases hparts with
        | cons hv hrest =>
        cases hrest
        rw [Node.withChildren, Node.evalWith, Node.evalWith]
        refine .bind (hv.meets q hv.task) fun r r' q' _ hq' hresult => .pure ?_
        have hsome : ∀ x, some r = some x → ∃ x', K.Result q' x x' := by
          rintro _ ⟨⟩
          exact ⟨r', hresult⟩
        exact h.rebuilt ht hq' (.selector hsome) rfl (.cons hresult .nil)
      | none =>
        refine h.leaf ht rfl rfl (fun _ => by rw [Node.evalWith]) (fun _ => ?_) rfl rfl
        exact .selector (by simp)
    | call _ _ _ asCalc =>
      rw [Node.withChildren, Node.evalWith, Node.evalWith]
      refine .inCall (h.callNamed (h.enterCall asCalc ht) (hparts.imp fun _ _ hrun => ?_))
      exact ⟨h.enterCall asCalc hrun.task, hrun.meets⟩
    | condition =>
      cases hparts with
      | cons hl hrest =>
      cases hrest with
      | cons hr hrest =>
      cases hrest
      exact h.condition ht hl hr
    | operation =>
      cases hparts with
      | cons hl hrest =>
      cases hrest with
      | cons hr hrest =>
      cases hrest
      exact h.operation ht hl hr
    | negative =>
      cases hparts with
      | cons hv hrest =>
      cases hrest
      exact h.negative ht hv
    | value =>
      rw [Node.withChildren, Node.evalWith, Node.evalWith]
      exact h.valueOf ht (evalEach hparts id)
    -- nodes without parts are the same in both evaluations
    | query =>
      rw [h.eq_of_children_eq_nil ht rfl rfl, Node.evalWith, Node.evalWith]
      exact (h.query hr ht).bind fun _ _ _ _ _ hresult => .pure hresult
    | quoted =>
      rw [h.eq_of_children_eq_nil ht rfl rfl, Node.evalWith, Node.evalWith]
      exact h.string hr ht
    | javaScript =>
      rw [h.eq_of_children_eq_nil ht rfl rfl, Node.evalWith, Node.evalWith]
      refine .bind_scope ?_
      unfold Error.ofScript
      rw [h.scripts ht]
      split
      · exact .fail (by rintro _ ⟨⟩)
      · exact .fail (by rintro _ ⟨⟩)
    | variableRef =>
      rw [h.eq_of_children_eq_nil ht rfl rfl, Node.evalWith, Node.evalWith]
      exact h.reference hr ht (fun _ => .inl rfl) (fun hsigns => ⟨hsigns, fun _ => .inr hsigns⟩) q
    | variableCall =>
      rw [h.eq_of_children_eq_nil ht rfl rfl, Node.evalWith, Node.evalWith]
      exact h.variableCall hr ht
    | anonymous =>
      exact h.leaf ht rfl rfl (fun _ => by rw [Node.evalWith]) (fun _ => .anonymous) rfl rfl
    | color =>
      exact h.leaf ht rfl rfl (fun _ => by rw [Node.evalWith]) (fun _ => .color) rfl rfl
    | comment =>
      exact h.leaf ht rfl rfl (fun _ => by rw [Node.evalWith]) (fun _ => .comment) rfl rfl
    | dimension =>
      exact h.leaf ht rfl rfl (fun _ => by rw [Node.evalWith]) (fun _ => .dimension) rfl rfl
    | keyword =>
      exact h.leaf ht rfl rfl (fun _ => by rw [Node.evalWith]) (fun _ => .keyword) rfl rfl
    | unicodeDescriptor =>
      exact h.leaf ht rfl rfl (fun _ => by rw [Node.evalWith]) (fun _ => .unicodeDescriptor) rfl rfl

/-- Evaluation at any depth, if running out of it is covered and all that evaluation goes on with
corresponds to each other as the parts of a tree do. -/
theorem eval (h : K.Lawful) (hexhausted : K.Halts .exhausted)
    (hvalue : ∀ {s s' n n'}, K.Value s n s' n' → K.Task s n s' n')
    (hbody : ∀ {s s' n n'}, K.Body s n s' n' → K.Task s n s' n') (depth : Nat) (node : Node) :
    ∀ {s s' node'} q, K.Task s node s' node' →
      K.Meets s s' K.Result (Node.eval depth node) (Node.eval depth node') q := by
  induction depth generalizing node with
  | zero =>
    intro s s' node' q _
    exact .stop hexhausted
  | succ depth ih =>
    refine h.evalWith ⟨?_, ?_⟩ node
    · intro s s' n n' q hn
      exact ih n q (hvalue hn)
    · intro s s' n n' q hn
      exact ih n q (hbody hn)

end Lawful

end Simulation

end Cascade
