import Cascade.Proofs.Evaluation.Changes
import Cascade.Proofs.Evaluation.Hoisting

/-!
# Candidates of a query condition

All copies of a query condition share one state, and every evaluation of a copy advances it.  This
module follows the state through any number of such evaluations (`Query.candidates_accumulate`).
The template is the middle that the condition had at first.  An evaluation that succeeds adds one
candidate for each variable declared in scope, and one that fails adds nothing and leaves the sides
alone.  So candidates are only ever added at the end, and the first of them is the middle from then
on.

Evaluating the operands of the condition must not evaluate the condition itself.  This is said of
the evaluation as it runs: all changes that it records spare the condition (`Query.Trial.Finds`).
-/

namespace Cascade

/-! ### The operands of a condition -/

/-- The evaluated operands of a condition, and the candidates found with them. -/
structure Query.Operands where
  left : Node
  middle : Option Node
  right : Option Node
  found : List Node

/-- The state of a condition after an evaluation with the given operands. -/
def Query.advance (q : Query) (operands : Operands) : Query :=
  q.record operands.left operands.middle operands.right operands.found

/-- Evaluates the operands of a condition. -/
def Resolver.operands {m : Type → Type} [Evaluation m] (resolve : Resolver m) (q : Query) :
    m Query.Operands := do
  let left ← resolve.body q.left
  let middle ← resolve.optional q.middle
  let right ← resolve.optional (q.range.map Prod.snd)
  let found ← resolve.candidates q.template
  pure ⟨left, middle, right, found⟩

/-- The operands of a condition under another interpretation. -/
lemma Evaluation.Morphism.map_operands {m n : Type → Type} [Evaluation m] [Evaluation n]
    (φ : Morphism m n) (resolve : Resolver m) (q : Query) :
    φ.map (resolve.operands q) = (φ.resolver resolve).operands q := by
  simp [Resolver.operands, Evaluation.Morphism.resolver]

namespace Scoped

variable {α β γ : Type}

/-- Steps may be grouped in any way: of several markers the last one counts. -/
lemma bind_assoc (x : Scoped α) (f : α → Scoped β) (g : β → Scoped γ) :
    x >>= f >>= g = x >>= fun a => f a >>= g := by
  funext s q
  simp only [Correspondence.bind_apply]
  cases (x s q).result with
  | error halt => rfl
  | ok a =>
    dsimp only
    cases (f a s (x s q).queries).result with
    | error halt => rfl
    | ok b => simp [Option.or_assoc]

instance : LawfulMonad Scoped :=
  .mk' Scoped
    (by
      intro α x
      funext s q
      show Eval.bind (x s) (fun a => Eval.pure a) q = x s q
      unfold Eval.bind Eval.pure
      obtain ⟨_ | a, states, marker⟩ := x s q <;> rfl)
    (by
      intro α β a f
      funext s q
      show (pure a >>= f : Scoped β) s q = f a s q
      rw [Correspondence.bind_apply]
      simp [pure, Eval.pure])
    bind_assoc

variable {s : Scope} {q : Queries}

/-- The outcome of a step after a change of the states. -/
lemma update_bind_apply (change : Queries → Queries) (f : PUnit → Scoped β) :
    (Evaluation.update change >>= f) s q = f ⟨⟩ s (change q) := by
  rw [Correspondence.bind_apply]
  simp [Evaluation.update, Eval.update]

/-- The outcome of a step that looks at the states. -/
lemma queries_bind_apply (f : Queries → Scoped β) :
    (Evaluation.queries >>= f) s q = f q s q := by
  rw [Correspondence.bind_apply]
  simp [Evaluation.queries, Eval.read]

end Scoped

section Operands

variable {resolve : Resolver Scoped} {s : Scope} {q : Queries}

/-- The sides of a condition are replaced after all operands were evaluated. -/
lemma Resolver.sides_eq (id : QueryId) (state : Query) :
    resolve.sides id state = resolve.operands state >>= fun operands =>
      Evaluation.update fun queries => queries.modify id fun q => q.advance operands := by
  simp [Resolver.sides, Resolver.operands, Query.advance]

/-- The template of a condition under each variable that is declared in scope, one after the
other. -/
lemma Resolver.forall₂_of_candidates {template : Node} {found : List Node}
    (h : (resolve.candidates (some template) s q).result = .ok found) :
    List.Forall₂ (fun declaration candidate => ∃ q,
        (resolve.body template (s.pushFrame (narrowFrame s declaration)) q).result =
          .ok candidate)
      (variablesInScope s) found := by
  rw [Resolver.candidates, Correspondence.scope_bind_apply] at h
  have hfound := Scoped.forall₂_of_runEach_eq_ok h
  rwa [List.forall₂_map_left_iff] at hfound

/-- Where the operands come from: without a middle none is evaluated, and without a template no
candidates are found. -/
lemma Resolver.parts_of_operands {state : Query} {operands : Query.Operands}
    (h : (resolve.operands state s q).result = .ok operands) :
    (state.middle = none → operands.middle = none) ∧
      (state.template = none → operands.found = []) ∧
      ∀ template, state.template = some template → ∃ q,
        (resolve.candidates (some template) s q).result = .ok operands.found := by
  unfold Resolver.operands at h
  obtain ⟨left, hleft, h⟩ := Scoped.exists_of_bind_eq_ok h
  obtain ⟨middle, hmiddle, h⟩ := Scoped.exists_of_bind_eq_ok h
  obtain ⟨right, hright, h⟩ := Scoped.exists_of_bind_eq_ok h
  obtain ⟨found, hfound, h⟩ := Scoped.exists_of_bind_eq_ok h
  cases h
  refine ⟨fun hnone => ?_, fun hnone => ?_, fun template htemplate => ?_⟩
  · rw [hnone] at hmiddle
    cases hmiddle
    rfl
  · rw [hnone] at hfound
    cases hfound
    rfl
  · rw [htemplate] at hfound
    exact ⟨_, hfound⟩

/-- A condition is evaluated by fixing its template and then evaluating its sides. -/
lemma Resolver.query_apply {id : QueryId} {before : Query} (h : q[id]? = some before) :
    resolve.query id s q =
      resolve.sides id before.withTemplate s (q.modify id Query.withTemplate) := by
  have hstate : (q.modify id Query.withTemplate)[id]? = some before.withTemplate := by
    rw [List.getElem?_modify_eq, h]
    rfl
  unfold Resolver.query
  rw [Scoped.update_bind_apply, Scoped.queries_bind_apply, hstate]

end Operands

/-! ### One evaluation of a condition -/

/-- Whether a rule declares a variable. -/
def Node.declaresVariable : Node → Bool
  | .declaration _ _ _ traits => traits.isVariable
  | _ => false

/-- An evaluation of a copy of a condition: the infos of the copy, the context, and how much deeper
it may go. -/
structure Query.Trial where
  info : Info
  context : Context
  depth : Nat

namespace Query.Trial

variable (v : Trial) (id : QueryId)

/-- What the evaluation gives, and the context after it. -/
def outcome : Except Halt Node × Context :=
  v.context.evaluate (v.depth + 1) (.query v.info id)

/-- The states from which the operands are evaluated. -/
def start : Queries :=
  v.context.queries.modify id Query.withTemplate

/-- The evaluation of the operands, with the changes it makes. -/
def operands (before : Query) : Recording (v.start id) Query.Operands :=
  (Resolver.operands ⟨Node.eval v.depth, Node.eval v.depth⟩ before.withTemplate :
    Recorded Query.Operands) v.context.scope (v.start id)

/-- The evaluation finds the condition in the given state, and evaluating its operands does not
evaluate the condition itself. -/
structure Finds (before : Query) : Prop where
  state : v.context.queries[id]? = some before
  apart : ∀ change ∈ (v.operands id before).changes, Queries.Spares id change

variable {v id} {before : Query}

/-- The evaluation of the operands without the record. -/
lemma outcome_operands (before : Query) :
    (v.operands id before).outcome =
      (Resolver.operands ⟨Node.eval v.depth, Node.eval v.depth⟩ before.withTemplate :
        Scoped Query.Operands) v.context.scope (v.start id) := by
  have hresolver : Recorded.morphism.resolver ⟨Node.eval v.depth, Node.eval v.depth⟩ =
      ⟨Node.eval v.depth, Node.eval v.depth⟩ := by
    simp [Evaluation.Morphism.resolver, Evaluation.Morphism.map_eval]
  have hoperands := Recorded.morphism.map_operands ⟨Node.eval v.depth, Node.eval v.depth⟩
    before.withTemplate
  rw [hresolver] at hoperands
  exact congrFun (congrFun hoperands v.context.scope) (v.start id)

/-- The evaluation of a condition in terms of the evaluation of its operands. -/
lemma eval_query (h : v.context.queries[id]? = some before) :
    (Node.eval (v.depth + 1) (.query v.info id) : Scoped Node) v.context.scope v.context.queries =
      match (v.operands id before).outcome.result with
      | .error halt => ⟨.error halt, (v.operands id before).outcome.queries,
          (v.operands id before).outcome.marker⟩
      | .ok operands => ⟨.ok (.query v.info.snapshot id),
          (v.operands id before).outcome.queries.modify id fun q => q.advance operands,
          (v.operands id before).outcome.marker⟩ := by
  rw [outcome_operands, Node.eval, Node.evalWith, Correspondence.bind_apply,
    Resolver.query_apply h, Resolver.sides_eq, Correspondence.bind_apply]
  unfold start
  cases ((Resolver.operands ⟨Node.eval v.depth, Node.eval v.depth⟩ before.withTemplate :
    Scoped Query.Operands) v.context.scope
      (v.context.queries.modify id Query.withTemplate)).result with
  | error halt => rfl
  | ok operands => rfl

/-- What an evaluation of a condition does: it fails if evaluating the operands fails, and then only
the template may have been fixed, and else the state advances. -/
lemma Finds.cases (h : v.Finds id before) :
    (∃ halt, (v.outcome id).1 = .error halt ∧
        (v.outcome id).2.queries[id]? = some before.withTemplate) ∨
      ∃ operands, (v.operands id before).outcome.result = .ok operands ∧
        (v.outcome id).1 = .ok (.query v.info.snapshot id) ∧
        (v.outcome id).2.queries[id]? = some (before.withTemplate.advance operands) := by
  -- evaluating the operands leaves the condition alone, because every change it makes does
  have hkept : (v.operands id before).outcome.queries[id]? = some before.withTemplate := by
    rw [Recording.getElem?_queries _ h.apart, start, List.getElem?_modify_eq, h.state]
    rfl
  have heval := eval_query h.state
  rw [outcome, Context.evaluate_eq]
  dsimp only
  rw [heval]
  cases hresult : (v.operands id before).outcome.result with
  | error halt => exact .inl ⟨halt, rfl, hkept⟩
  | ok operands =>
    refine .inr ⟨operands, rfl, rfl, ?_⟩
    show (List.modify _ _ _)[id]? = _
    rw [List.getElem?_modify_eq, hkept]
    rfl

/-- The candidates that the evaluation adds to a condition with the given template: none without a
template, else the template under each variable declared in a frame, innermost frame first. -/
def Adds (v : Trial) : Option Node → List Node → Prop
  | none, found => found = []
  | some template, found =>
    List.Forall₂ (fun declaration candidate => ∃ states,
        ({ v.context with
            frames := .mk (some (.ofRules [] [declaration])) v.context.scope.functions? ::
              v.context.frames
            queries := states }.evaluate v.depth template).1 = .ok candidate)
      (v.context.frames.flatMap fun frame => frame.rules.filter Node.declaresVariable) found

/-- The candidates found with the operands. -/
lemma adds_of_operands {operands : Query.Operands}
    (h : (v.operands id before).outcome.result = .ok operands) :
    v.Adds before.withTemplate.template operands.found := by
  rw [outcome_operands] at h
  obtain ⟨_, hnone, hsome⟩ := Resolver.parts_of_operands h
  cases htemplate : before.withTemplate.template with
  | none => exact hnone htemplate
  | some template =>
    obtain ⟨q, hfound⟩ := hsome template htemplate
    refine (Resolver.forall₂_of_candidates hfound).imp ?_
    rintro declaration candidate ⟨states, hcandidate⟩
    refine ⟨states, ?_⟩
    rw [Context.evaluate_eq]
    exact hcandidate

/-- What an evaluation does to a condition whose middle was at first the given one. -/
structure Advances (v : Trial) (id : QueryId) (origin : Option Node) (before after : Query) :
    Prop where
  template : after.template = origin
  success : ∀ node, (v.outcome id).1 = .ok node →
    ∃ found, after.candidates = before.candidates ++ found ∧ v.Adds origin found
  failure : ∀ halt, (v.outcome id).1 = .error halt → after = { before with template := origin }

end Query.Trial

/-! ### Any number of evaluations -/

namespace Query

/-- Evaluations of copies of a condition one after the other, each of which finds the state that the
one before left. -/
inductive Trials (id : QueryId) : Query → List Trial → Query → Prop where
  | nil (state : Query) : Trials id state [] state
  | cons {v : Trial} {rest : List Trial} {before after final : Query} (hv : v.Finds id before)
    (hafter : (v.outcome id).2.queries[id]? = some after) (hrest : Trials id after rest final) :
    Trials id before (v :: rest) final

/-- A condition that has not been evaluated. -/
structure IsFresh (q : Query) : Prop where
  candidates : q.candidates = []
  template : q.template = none

/-- The condition is printed with the given middle. -/
def Prints (q : Query) (middle : Node) : Prop :=
  ∀ cell : QueryId → Style → Rendering, ∃ tail,
    q.write cell = q.left.write cell ++
      (Printer.ofText (" " ++ q.operator ++ " ") ++ (middle.write cell ++ tail))

/-- What later states keep of a state: the template, the candidates, and the first candidate as the
middle, which is the one that is printed. -/
structure KeptBy (earlier later : Query) : Prop where
  template : later.template = earlier.template
  candidates : earlier.candidates <+: later.candidates
  middle : ∀ node, earlier.candidates.head? = some node →
    later.middle = some node ∧ later.Prints node

/-- The first candidate is printed as the middle. -/
lemma prints_of_head? {q : Query} {node : Node} (h : q.candidates.head? = some node) :
    q.Prints node := by
  intro cell
  have hshown : q.shownMiddle? = some node := by
    rw [shownMiddle?, h, Option.some_or]
  rw [write, hshown]
  exact ⟨_, rfl⟩

/-- The invariant of a condition whose middle was at first the given one. -/
structure HasOrigin (origin : Option Node) (q : Query) : Prop where
  template : q.withTemplate.template = origin
  candidates : origin = none → q.candidates = []
  middle : ∀ node, q.candidates.head? = some node → q.middle = some node

/-- A condition has its own middle as the first one before it is evaluated. -/
lemma IsFresh.hasOrigin {q : Query} (h : q.IsFresh) : HasOrigin q.middle q where
  template := by rw [withTemplate, h.template, Option.none_or]
  candidates _ := h.candidates
  middle node hnode := by
    rw [h.candidates] at hnode
    cases hnode

variable {id : QueryId} {origin : Option Node} {before q : Query} {operands : Operands} {v : Trial}

/-- Fixing the template keeps the invariant. -/
lemma HasOrigin.withTemplate (h : HasOrigin origin q) : HasOrigin origin q.withTemplate where
  template := by
    rw [← h.template]
    show (q.template.or q.middle).or q.middle = q.template.or q.middle
    rw [Option.or_assoc, Option.or_self]
  candidates := h.candidates
  middle := h.middle

/-- Without a template there is no middle to be evaluated. -/
lemma HasOrigin.middle_eq_none (h : HasOrigin none q) : q.middle = none :=
  (Option.or_eq_none_iff.1 h.template).2

/-- Advancing keeps the invariant, if nothing comes from nothing. -/
lemma HasOrigin.advance (h : HasOrigin origin q) (htemplate : q.template = origin)
    (hnone : origin = none → operands.middle = none ∧ operands.found = []) :
    HasOrigin origin (q.advance operands) where
  template := by
    show q.template.or ((q.candidates ++ operands.found).head?.or operands.middle) = origin
    rw [htemplate]
    cases origin with
    | some node => exact Option.some_or
    | none =>
      obtain ⟨hmiddle, hfound⟩ := hnone rfl
      rw [h.candidates rfl, hfound, hmiddle]
      rfl
  candidates horigin := by
    show q.candidates ++ operands.found = []
    rw [h.candidates horigin, (hnone horigin).2, List.append_nil]
  middle node hnode := by
    show (q.candidates ++ operands.found).head?.or operands.middle = some node
    rw [show (q.candidates ++ operands.found).head? = some node from hnode, Option.some_or]

/-- An evaluation keeps the invariant and adds candidates at the end. -/
lemma HasOrigin.trial (h : HasOrigin origin before) (hv : v.Finds id before) :
    ∃ after, (v.outcome id).2.queries[id]? = some after ∧ v.Advances id origin before after ∧
      HasOrigin origin after ∧ before.candidates <+: after.candidates := by
  obtain ⟨halt, hresult, hafter⟩ | ⟨operands, hoperands, hresult, hafter⟩ := hv.cases
  · refine ⟨_, hafter, ⟨h.template, fun node hnode => ?_, fun _ _ => ?_⟩, h.withTemplate,
      List.prefix_refl _⟩
    · rw [hresult] at hnode
      cases hnode
    · rw [← h.template]
      rfl
  · have hadds := Trial.adds_of_operands hoperands
    rw [h.template] at hadds
    refine ⟨_, hafter, ⟨h.template, fun _ _ => ⟨operands.found, rfl, hadds⟩, fun halt hhalt => ?_⟩,
      h.withTemplate.advance h.template fun horigin => ?_, List.prefix_append _ _⟩
    · rw [hresult] at hhalt
      cases hhalt
    · subst horigin
      rw [Trial.outcome_operands] at hoperands
      exact ⟨(Resolver.parts_of_operands hoperands).1 h.middle_eq_none, hadds⟩

/-- A run of evaluations keeps the invariant, the candidates there are, and a template that is
fixed. -/
lemma HasOrigin.run {trials : List Trial} {final : Query} (h : HasOrigin origin q)
    (hrun : Trials id q trials final) :
    HasOrigin origin final ∧ q.candidates <+: final.candidates ∧
      (q.template = origin → final.template = origin) := by
  induction hrun with
  | nil state => exact ⟨h, List.prefix_refl _, fun htemplate => htemplate⟩
  | cons hv hafter _ ih =>
    obtain ⟨state, hstate, hadvances, horigin, hprefix⟩ := h.trial hv
    cases hafter.symm.trans hstate
    obtain ⟨hfinal, hcandidates, htemplate⟩ := ih horigin
    exact ⟨hfinal, hprefix.trans hcandidates, fun _ => htemplate hadvances.template⟩

/-- Later states of a condition keep what an evaluation made of it. -/
lemma HasOrigin.keptBy {trials : List Trial} {final : Query} (h : HasOrigin origin q)
    (htemplate : q.template = origin) (hrun : Trials id q trials final) : q.KeptBy final := by
  obtain ⟨hfinal, hcandidates, hkept⟩ := h.run hrun
  refine ⟨(hkept htemplate).trans htemplate.symm, hcandidates, fun node hnode => ?_⟩
  have hhead : final.candidates.head? = some node := by
    obtain ⟨added, happend⟩ := hcandidates
    rw [← happend, List.head?_append, hnode, Option.some_or]
  exact ⟨hfinal.middle node hhead, prints_of_head? hhead⟩

/-- Candidates accumulate.  However often a condition was evaluated before, in whatever contexts, an
evaluation of it leaves a state that has the first middle of all as its template.  If it succeeds,
it has added one candidate for each variable declared in scope, and if it fails, it has changed
nothing else.  All later states keep the template and the candidates, and the first candidate is
their middle and is printed. -/
theorem candidates_accumulate {id : QueryId} {first before : Query} {earlier : List Trial}
    {v : Trial} (hfresh : first.IsFresh) (hearlier : Trials id first earlier before)
    (hv : v.Finds id before) :
    ∃ after, (v.outcome id).2.queries[id]? = some after ∧
      v.Advances id first.middle before after ∧
      ∀ later final, Trials id after later final → after.KeptBy final := by
  obtain ⟨horigin, _, _⟩ := hfresh.hasOrigin.run hearlier
  obtain ⟨after, hafter, hadvances, horiginAfter, _⟩ := horigin.trial hv
  refine ⟨after, hafter, hadvances, fun later final hlater => ?_⟩
  exact horiginAfter.keptBy hadvances.template hlater

end Query

/-- A condition that compares the width with a variable. -/
def breakpoint : Query :=
  .make ">=" (.keyword {} "width") (some (.variableRef {} "@breakpoint")) none

/-- An evaluation of the condition in a given state, in one frame for each value of the variable. -/
def breakpointTrial (state : Query) (values : List String) : Query.Trial :=
  let frame (value : String) : Frame := .mk (some (.ofRules []
    [.declaration {} (.literal "@breakpoint") (.keyword {} value) { isVariable := true }]))
    (some .builtins)
  { info := {}, depth := 2, context := { frames := values.map frame, queries := [state] } }

/-- The condition is evaluated in vain where the variable is not declared.  Where it is declared
twice, two candidates are found. -/
theorem candidates_accumulate_breakpoint :
    let fixed := breakpoint.withTemplate
    let v := breakpointTrial fixed ["narrow", "wide"]
    ((breakpointTrial breakpoint []).outcome 0).1.isOk = false ∧ (v.outcome 0).1.isOk ∧
      ∃ after, (v.outcome 0).2.queries[0]? = some after ∧
        v.Advances 0 breakpoint.middle fixed after ∧
        ∀ later final, Query.Trials 0 after later final → after.KeptBy final := by
  have hquiet : ∀ {state values},
      ((breakpointTrial state values).operands 0 state).changes.length = 0 →
        (breakpointTrial state values).Finds 0 state := by
    intro state values hchanges
    refine ⟨rfl, fun change hchange => ?_⟩
    rw [List.eq_nil_of_length_eq_zero hchanges] at hchange
    cases hchange
  refine ⟨by decide +kernel, by decide +kernel, ?_⟩
  have hearlier : Query.Trials 0 breakpoint [breakpointTrial breakpoint []]
      breakpoint.withTemplate :=
    .cons (hquiet (by decide +kernel)) rfl (.nil _)
  exact Query.candidates_accumulate ⟨rfl, rfl⟩ hearlier (hquiet (by decide +kernel))

end Cascade
