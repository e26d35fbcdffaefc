import Cascade.Proofs.Evaluation.Depth
import Cascade.Proofs.Evaluation.Guard
import Cascade.Stylesheet

/-!
# Calls keep evaluation from ending

The values of variables are guarded against recursion; the bodies of detached rulesets, refilled
strings and the sides of conditions are not.  Evaluating a stylesheet comes to an end exactly if
these are nested finitely deep, whatever the variables are (`Stylesheet.ends_iff_nested`).  The
name of a detached ruleset is not being resolved any more when its body is evaluated, so a body
that calls itself nests without end, and no error is reported (`Stylesheet.selfCall_endless`).
-/

namespace Cascade

/-! ### Bodies nested to some depth -/

section Nested

variable {m : Type → Type} [Evaluation m]

/-- Evaluates a node where the values of variables are nested less than `values` deep, and other
nodes are evaluated by `body`. -/
def Node.evalValues (body : Node → m Node) : Nat → Node → m Node
  | 0, _ => Evaluation.stop .exhausted
  | values + 1, node => Node.evalWith ⟨Node.evalValues body values, body⟩ node

/-- Evaluates a node where bodies of detached rulesets, refilled strings and sides of conditions
are nested less than `bodies` deep, and in each of them at most `values` values of variables. -/
def Node.evalNested (values : Nat) : Nat → Node → m Node
  | 0, _ => Evaluation.stop .exhausted
  | bodies + 1, node => Node.evalValues (Node.evalNested values bodies) (values + 1) node

end Nested

namespace Evaluation.Morphism

variable {m n : Type → Type} [Evaluation m] [Evaluation n] (φ : Morphism m n)

/-- Evaluation with nested values of variables respects a map between interpretations. -/
lemma map_evalValues (body : Node → m Node) (values : Nat) (node : Node) :
    φ.map (Node.evalValues body values node) =
      Node.evalValues (fun node => φ.map (body node)) values node := by
  induction values generalizing node with
  | zero => simp [Node.evalValues]
  | succ values ih => simp [Node.evalValues, map_evalWith, resolver, ih]

/-- Evaluation with nested bodies respects a map between interpretations. -/
lemma map_evalNested (values bodies : Nat) (node : Node) :
    φ.map (Node.evalNested values bodies node) = Node.evalNested values bodies node := by
  induction bodies generalizing node with
  | zero => simp [Node.evalNested]
  | succ bodies ih => simp [Node.evalNested, map_evalValues, ih]

end Evaluation.Morphism

/-- Evaluates a node in a context, where bodies are nested less than `bodies` deep and in each of
them at most `values` values of variables. -/
def Context.evaluateNested (c : Context) (values bodies : Nat) (node : Node) :
    Except Halt Node × Context :=
  (Node.evalNested values bodies node : InPlace Node) c

/-- Evaluating in place gives what evaluating in the scope of the context gives. -/
lemma Context.evaluateNested_fst (c : Context) (values bodies : Nat) (node : Node) :
    (c.evaluateNested values bodies node).1 =
      ((Node.evalNested values bodies node : Scoped Node) c.scope c.queries).result :=
  congrArg Prod.fst (congrFun (Scoped.morphism.map_evalNested values bodies node) c).symm

/-! ### Depth is enough for nested bodies -/

/-- One evaluation is below another one through a third. -/
lemma Scoped.Below.trans {α : Type} {x y z : Scoped α} (hxy : x.Below y) (hyz : y.Below z) :
    x.Below z := by
  intro s q hne
  have hy := hxy s q hne
  rw [← hy] at hne
  rw [hyz s q hne, hy]

/-- Values of variables nested on top of bodies that stay within a depth. -/
lemma Node.evalValues_below {body : Node → Scoped Node} {depth : Nat}
    (hbody : ∀ n, (body n).Below (Node.eval depth n)) (values : Nat) (node : Node) :
    (Node.evalValues body values node).Below (Node.eval (depth + values) node) := by
  induction values generalizing node with
  | zero =>
    intro s q hne
    exact absurd rfl hne
  | succ values ih =>
    refine Node.evalWith_below ih (fun n => ?_) node
    exact (hbody n).trans (Node.eval_below (Nat.le_add_right depth values) n)

/-- Nested bodies stay within the depth of all their values together. -/
lemma Node.evalNested_below (values bodies : Nat) (node : Node) :
    (Node.evalNested values bodies node : Scoped Node).Below
      (Node.eval (bodies * (values + 1)) node) := by
  induction bodies generalizing node with
  | zero =>
    intro s q hne
    exact absurd rfl hne
  | succ bodies ih =>
    rw [Nat.succ_mul]
    exact Node.evalValues_below ih (values + 1) node

/-! ### Nested bodies are enough for every depth -/

/-- An evaluation that stays within a depth nests at most so many bodies, and in each of them at
most as many values of variables as there are names.  The induction is on the depth: a value has
one name less to go, and in a body all names are left. -/
lemma Node.eval_meets_evalValues {T : FunctionTable → Prop} {P : Node → Prop}
    {names : Finset String} (hP : Node.Guarded T P names) (depth : Nat) {values bodies : Nat}
    (h : depth ≤ bodies + 1) (node : Node) :
    ∀ {s s'} q, (Correspondence.guarded T P names True values).Source node →
      (Correspondence.guarded T P names True values).Scopes s s' →
      (Correspondence.guarded T P names True values).Meets s s'
        (Correspondence.guarded T P names True values).Result (Node.eval depth node)
        (Node.evalValues (Node.evalNested names.card bodies) (values + 1) node) q := by
  induction depth generalizing values bodies node with
  | zero =>
    intro s s' q _ _
    exact .of_lax rfl ⟨trivial, rfl⟩
  | succ depth ih =>
    intro s s' q hn hs
    have hlawful := (Correspondence.guarded_invariant hP (fun _ _ => .inl trivial) values).lawful
    refine hlawful.evalWith ⟨?_, ?_⟩ node q hn hs
    · intro n s s' q hn hs
      cases values with
      | zero => exact absurd hs.2.2 (Nat.not_lt_zero _)
      | succ values =>
        have hinner : (Correspondence.guarded T P names True values).Scopes s s' :=
          ⟨hs.1, hs.2.1, Nat.le_of_lt_succ hs.2.2⟩
        exact Correspondence.guarded_meets
          (@ih values bodies (Nat.le_of_succ_le h) n s s' q hn hinner)
    · intro n s s' q hn hs
      cases bodies with
      | zero =>
        rw [Nat.le_zero.1 (Nat.le_of_succ_le_succ h)]
        exact .of_lax rfl ⟨trivial, rfl⟩
      | succ bodies =>
        have hfresh : (Correspondence.guarded T P names True names.card).Scopes s s' :=
          ⟨hs.1, hs.2.1, Scope.pending_le⟩
        exact Correspondence.guarded_meets (ih (Nat.le_of_succ_le_succ h) n q hn.2 hfresh)

namespace Stylesheet

/-- The names of the variables that a tree and the conditions of its queries declare. -/
def variableNames (queries : Queries) (root : Node) : Finset String :=
  (root.variableNames ++ queries.flatMap fun state =>
    (state.operands ++ state.candidates).flatMap Node.variableNames).toFinset

/-- The nodes of the conditions declare no other variables. -/
lemma throughout_of_mem {queries : Queries} {root : Node} {state : Query} (h : state ∈ queries) :
    state.Throughout (Node.DeclaresWithin (variableNames queries root)) := by
  intro n hn
  refine Node.throughout_declaresWithin fun name hname => List.mem_toFinset.2 ?_
  exact List.mem_append_right _
    (List.mem_flatMap.2 ⟨state, h, List.mem_flatMap.2 ⟨n, hn, hname⟩⟩)

/-- Evaluating a stylesheet ends, with a result or an error, exactly if it ends with bodies of
detached rulesets, refilled strings and sides of conditions nested to some finite depth, and with
values of variables nested no deeper than there are names. -/
theorem ends_iff_nested (options : Options) (queries : Queries) (root : Node) :
    (∃ depth, (evaluate depth options queries root).1 ≠ .error .exhausted) ↔
      ∃ bodies, ((options.context queries).evaluateNested (variableNames queries root).card bodies
        root).1 ≠ .error .exhausted := by
  constructor
  · rintro ⟨depth, hends⟩
    refine ⟨depth + 1, ?_⟩
    have hscope : (options.context queries).scope.Fits (fun _ => True)
        (Node.DeclaresWithin (variableNames queries root)) :=
      { frames := fun f hf => by
          rw [List.mem_singleton.1 hf]
          exact ⟨fun _ _ => trivial, Frame.throughout_iff.2 nofun⟩
        custom := fun _ _ => rfl }
    have hroot : root.Throughout (Node.DeclaresWithin (variableNames queries root)) :=
      Node.throughout_declaresWithin fun _ hname =>
        List.mem_toFinset.2 (List.mem_append_left _ hname)
    have hmeets := Node.eval_meets_evalValues (Node.guarded_declaresWithin _) depth
      (Nat.le_succ depth) root queries hroot ⟨rfl, hscope, Scope.pending_le⟩
    rw [evaluate, Context.evaluate_eq] at hends
    rw [Context.evaluateNested_fst]
    rcases hmeets fun _ _ => throughout_of_mem with ⟨_, hhalt, _, rfl⟩ | hagree
    · exact absurd hhalt hends
    · exact (congrArg Outcome.result hagree.same).trans_ne hends
  · rintro ⟨bodies, hends⟩
    refine ⟨bodies * ((variableNames queries root).card + 1), ?_⟩
    rw [Context.evaluateNested_fst] at hends
    rw [evaluate, Context.evaluate_eq]
    simp only
    rw [Node.evalNested_below _ _ _ _ _ hends]
    exact hends

end Stylesheet

/-! ### A detached ruleset that calls itself -/

namespace Scoped

variable {α β : Type} {x : Scoped α} {f : α → Scoped β} {s : Scope} {q : Queries}

/-- A stop at the first step. -/
lemma result_bind_of_error {halt : Halt} (h : (x s q).result = .error halt) :
    ((x >>= f) s q).result = .error halt := by
  rw [Correspondence.bind_apply, h]

/-- A stop at the second step. -/
lemma result_bind_of_ok {a : α} {halt : Halt} (h : (x s q).result = .ok a)
    (hf : (f a s (x s q).queries).result = .error halt) :
    ((x >>= f) s q).result = .error halt := by
  rw [Correspondence.bind_apply, h]
  exact hf

/-- The outcome of a step after a value. -/
lemma pure_bind_apply (a : α) (f : α → Scoped β) : (pure a >>= f) s q = f a s q := by
  rw [Correspondence.bind_apply]
  simp [pure, Eval.pure]

end Scoped

namespace Stylesheet

/-- The body of a detached ruleset that calls a variable. -/
def selfCallBody : Ruleset :=
  .ofRules [] [.variableCall {} "@r"]

/-- The detached ruleset with this body. -/
def selfCallValue : Node :=
  .value {} [.detached {} (some selfCallBody) (some [])]

/-- The value of the detached ruleset is the detached ruleset. -/
lemma eval_selfCallValue (depth : Nat) (s : Scope) (q : Queries) :
    (Node.eval (depth + 1) selfCallValue : Scoped Node) s q =
      ⟨.ok (.detached ({} : Info).snapshot (some selfCallBody) (some [])), q, none⟩ :=
  rfl

/-- A stylesheet that gives the detached ruleset to the variable and calls it. -/
def selfCall : Node :=
  .ruleset (.ofRoot [.declaration {} (.literal "@r") selfCallValue { isVariable := true },
    .variableCall {} "@r"])

/-- The variable is not being resolved, and its value is the detached ruleset. -/
structure BindsSelfCall (s : Scope) : Prop where
  resolving : "@r" ∉ s.resolving
  lookup : ∃ frames, Frame.lookup? "@r" s.frames = some ⟨selfCallValue, "", frames⟩

namespace BindsSelfCall

variable {s : Scope}

/-- The variable is bound in the same way inside the body. -/
lemma body (h : BindsSelfCall s) (selectors : List String) :
    BindsSelfCall ((s.pushFrame (s.frameOf selfCallBody)).setSelectors selectors) where
  resolving := h.resolving
  lookup := h.lookup

/-- A reference to the variable goes on with the detached ruleset. -/
lemma reference_apply (h : BindsSelfCall s) (resolve : Resolver Scoped) (q : Queries) :
    ∃ inner, resolve.reference "@r" s q = resolve.value selfCallValue inner q := by
  obtain ⟨frames, hlookup⟩ := h.lookup
  refine ⟨(s.enterVariable "@r").setFrames (s.bindingFrames ⟨selfCallValue, "", frames⟩), ?_⟩
  have hname : resolve.reference "@r" = resolve.binding "@r" := rfl
  rw [hname, Resolver.binding_apply h.resolving]
  unfold Resolver.lookup
  rw [hlookup]
  exact Scoped.pure_bind_apply _ _

/-- A call of the variable runs out of every depth.  The induction is on the depth: the variable is
not being resolved any more when its body is evaluated, so the call in the body is in the same
situation as the call of the body. -/
lemma eval_variableCall (depth : Nat) (h : BindsSelfCall s) (q : Queries) :
    ((Node.eval depth (.variableCall {} "@r") : Scoped Node) s q).result =
      .error .exhausted := by
  induction depth generalizing s q with
  | zero => rfl
  | succ depth ih =>
    obtain ⟨inner, hreference⟩ := h.reference_apply ⟨Node.eval depth, Node.eval depth⟩ q
    show ((Resolver.variableCall ⟨Node.eval depth, Node.eval depth⟩ "@r" : Scoped Node)
      s q).result = _
    rw [Resolver.variableCall]
    cases depth with
    | zero => exact Scoped.result_bind_of_error (congrArg Outcome.result hreference)
    | succ depth =>
      have hheld := hreference.trans (eval_selfCallValue depth inner q)
      refine Scoped.result_bind_of_ok (congrArg Outcome.result hheld)
        (Scoped.result_bind_of_error (Scoped.result_bind_of_error ?_))
      rw [hheld, Resolver.inCaptured, Correspondence.scope_bind_apply]
      show ((Ruleset.evalWith ⟨Node.eval depth, Node.eval depth⟩ selfCallBody : Scoped Node)
        s q).result = _
      rw [selfCallBody, Ruleset.ofRules, Ruleset.evalWith, Correspondence.scope_bind_apply]
      exact Scoped.result_bind_of_error (Scoped.result_bind_of_error (ih (h.body _) q))

end BindsSelfCall

/-- The stylesheet is evaluated without end: no depth is enough, and no error is reported. -/
theorem selfCall_endless :
    ¬ ∃ depth, (evaluate depth {} [] selfCall).1 ≠ .error .exhausted := by
  rintro ⟨depth, hends⟩
  apply hends
  rw [evaluate, Context.evaluate_eq]
  cases depth with
  | zero => rfl
  | succ depth =>
    show ((Ruleset.evalWith ⟨Node.eval depth, Node.eval depth⟩ (.mk {} [] _ true) : Scoped Node)
      _ _).result = _
    rw [Ruleset.evalWith, Correspondence.scope_bind_apply]
    -- the declaration is evaluated, and then the call runs out of depth
    refine Scoped.result_bind_of_error (Scoped.result_bind_of_ok rfl
      (Scoped.result_bind_of_error (Scoped.result_bind_of_error ?_)))
    refine BindsSelfCall.eval_variableCall (depth + 1) ?_ _
    exact ⟨List.not_mem_nil, _, rfl⟩

end Stylesheet

end Cascade
