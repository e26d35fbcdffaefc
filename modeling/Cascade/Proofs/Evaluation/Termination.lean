import Cascade.Proofs.Evaluation.Depth
import Cascade.Proofs.Evaluation.Guard

/-!
# Variables do not keep evaluation from ending

A tree without calls of variables, strings and conditions is evaluated to the end, however its
variables refer to each other: the guard against recursive variables bounds how deep their values
are nested (`Context.evaluate_ends`).
-/

namespace Cascade

section Plain

variable {T : FunctionTable → Prop} {P : Node → Prop} {names : Finset String}

/-- One more than the number of names left is deep enough.  The induction is on the number of
names: a value has one name less than the node that refers to it. -/
lemma Node.eval_guarded (hP : Node.Guarded T P names) (hplain : ∀ n, P n → n.IsPlain)
    (values : Nat) (node : Node) :
    ∀ {s s'} q, (Correspondence.guarded T P names False values).Source node →
      (Correspondence.guarded T P names False values).Scopes s s' →
      (Correspondence.guarded T P names False values).Meets s s'
        (Correspondence.guarded T P names False values).Result
        (Node.eval (values + 1) node) (Node.eval (values + 1) node) q := by
  have hlawful (values : Nat) : (Correspondence.guarded T P names False values).Lawful :=
    (Correspondence.guarded_invariant hP (fun n hn => .inr (hplain n hn)) values).lawful
  induction values generalizing node with
  | zero =>
    intro s s' q hn hs
    refine (hlawful 0).evalWith ⟨?_, ?_⟩ node q hn hs
    · intro _ _ _ _ _ hs
      exact absurd hs.2.2 (Nat.not_lt_zero _)
    · intro _ _ _ _ hn _
      exact hn.1.elim
  | succ values ih =>
    intro s s' q hn hs
    refine (hlawful (values + 1)).evalWith ⟨?_, ?_⟩ node q hn hs
    · intro n _ _ q hn hs
      exact Correspondence.guarded_meets
        (ih n q hn ⟨hs.1, hs.2.1, Nat.le_of_lt_succ hs.2.2⟩)
    · intro _ _ _ _ hn _
      exact hn.1.elim

end Plain

/-- The names of the variables that a tree and the frames around it declare. -/
def Context.variableNames (c : Context) (node : Node) : Finset String :=
  (node.variableNames ++ c.frames.flatMap Frame.variableNames).toFinset

section Variables

variable {c : Context} {node : Node} {name : String}

/-- The variables of the tree. -/
lemma Context.mem_variableNames_of_node (h : name ∈ node.variableNames) :
    name ∈ c.variableNames node :=
  List.mem_toFinset.2 (List.mem_append_left _ h)

/-- The variables of a frame. -/
lemma Context.mem_variableNames_of_frame {f : Frame} (hf : f ∈ c.frames)
    (h : name ∈ f.variableNames) : name ∈ c.variableNames node :=
  List.mem_toFinset.2 (List.mem_append_right _ (List.mem_flatMap.2 ⟨f, hf, h⟩))

end Variables

/-- A tree without calls of variables, strings and conditions is evaluated to the end, at every
depth beyond the number of its variables, and the depth does not matter then. -/
theorem Context.evaluate_ends (c : Context) (node : Node)
    (hframes : ∀ f ∈ c.frames, f.Fits FunctionTable.IsNative Node.IsNative)
    (hnode : node.Throughout Node.IsNative)
    (hplainFrames : ∀ f ∈ c.frames, f.Throughout Node.IsPlain)
    (hplainNode : node.Throughout Node.IsPlain) :
    (c.evaluate ((c.variableNames node).card + 1) node).1 ≠ .error .exhausted ∧
      ∀ depth, (c.variableNames node).card < depth →
        c.evaluate depth node = c.evaluate ((c.variableNames node).card + 1) node := by
  have hP : Node.Guarded FunctionTable.IsNative
      (fun x => (x.IsNative ∧ x.IsPlain) ∧ x.DeclaresWithin (c.variableNames node))
      (c.variableNames node) :=
    { heritable := ((Node.heritable_carries _).and (Node.heritable_isPlain _)).and
        (Node.heritable_declaresWithin _ _)
      carries := fun _ hn => hn.1.1
      declares := fun _ hn => hn.2 }
  have hdeclares : node.Throughout (Node.DeclaresWithin (c.variableNames node)) :=
    Node.throughout_declaresWithin fun _ => Context.mem_variableNames_of_node
  have hscope : c.scope.Fits FunctionTable.IsNative
      fun x => (x.IsNative ∧ x.IsPlain) ∧ x.DeclaresWithin (c.variableNames node) := by
    refine .ofNative fun f hf => ⟨(hframes f hf).carries, fun x hx => ⟨⟨?_, ?_⟩, ?_⟩⟩
    · exact (hframes f hf).throughout x hx
    · exact hplainFrames f hf x hx
    · exact Frame.throughout_declaresWithin (fun _ => Context.mem_variableNames_of_frame hf) x hx
  have hmeets := Node.eval_guarded hP (fun _ hn => hn.1.2) (c.variableNames node).card node
    c.queries (fun x hx => ⟨⟨hnode x hx, hplainNode x hx⟩, hdeclares x hx⟩)
    ⟨rfl, hscope, Scope.pending_le⟩
  have hends : (c.evaluate ((c.variableNames node).card + 1) node).1 ≠ .error .exhausted := by
    rw [Context.evaluate_eq]
    rcases hmeets False.elim with ⟨_, _, hlax⟩ | hagree
    · exact hlax.1.elim
    · intro hhalt
      exact (hagree.halts _ hhalt).elim id fun hne => hne rfl
  exact ⟨hends, fun depth hdepth => c.evaluate_of_le hdepth hends⟩

/-- Three variables that refer to each other, one of them through a name that is put together. -/
def circularContext : Context :=
  let declare (name : String) (value : Node) : Node :=
    .declaration {} (.literal name) value { isVariable := true }
  let rules := [declare "@a" (.variableRef {} "@b"), declare "@b" (.variableRef {} "@@c"),
    declare "@c" (.keyword {} "a")]
  { frames := [.mk (some (.ofRules [] rules)) (some .builtins)] }

/-- A reference to a variable that depends on itself is evaluated to the end. -/
theorem evaluate_ends_circularContext :
    (circularContext.evaluate 4 (.variableRef {} "@a")).1 ≠ .error .exhausted ∧
      ∀ depth, 3 < depth → circularContext.evaluate depth (.variableRef {} "@a") =
        circularContext.evaluate 4 (.variableRef {} "@a") := by
  have hframes : ∀ f ∈ circularContext.frames,
      f.Fits FunctionTable.IsNative Node.IsNative ∧ f.Throughout Node.IsPlain := by
    intro f hf
    rw [List.mem_singleton.1 hf]
    exact ⟨⟨by decide, by decide⟩, by decide⟩
  have hcard : (circularContext.variableNames (.variableRef {} "@a")).card = 3 := by decide
  have hends := circularContext.evaluate_ends (.variableRef {} "@a")
    (fun f hf => (hframes f hf).1) (by decide) (fun f hf => (hframes f hf).2) (by decide)
  rwa [hcard] at hends

end Cascade
