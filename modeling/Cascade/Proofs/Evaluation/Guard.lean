import Mathlib.Data.Finset.Card
import Mathlib.Data.Finset.SDiff
import Cascade.Proofs.Evaluation.Inheritance
import Cascade.Proofs.Evaluation.Invariant
import Cascade.Proofs.Printing.Stop

/-!
# The guard against recursive variables

The names of the variables being resolved are kept, and a variable is not resolved again while it
is being resolved.  The declarations in scope come from the tree and from the frames around it, and
evaluation makes no new names of variables.  So the values of variables can only be nested as deep
as there are names that are not being resolved yet (`Scope.pending`), and each value has one name
less to go (`Scope.pending_enterVariable_lt`).

`Correspondence.guarded` states this as an invariant of evaluation, together with what else the
evaluation may go on with: the bodies of detached rulesets, refilled strings and the sides of
query conditions are not guarded.
-/

namespace Cascade

/-! ### Names of variables -/

/-- The name of the variable that a node declares. -/
def Node.declares : Node → List String
  | .declaration _ (.literal name) _ traits => if traits.isVariable then [name] else []
  | _ => []

/-- The names of all variables that a tree declares. -/
def Node.variableNames (n : Node) : List String :=
  n.nodes.flatMap Node.declares

/-- The names of all variables that a frame declares. -/
def Frame.variableNames (frame : Frame) : List String :=
  frame.nodes.flatMap Node.declares

/-- A node declares no variable of another name. -/
def Node.DeclaresWithin (names : Finset String) (n : Node) : Prop :=
  ∀ name ∈ n.declares, name ∈ names

/-- A node with which evaluation does not go on elsewhere, unless it refers to a variable. -/
def Node.IsPlain (n : Node) : Prop :=
  n.kind ∉ [.variableCall, .quoted, .queryInParens]

instance (n : Node) : Decidable n.IsPlain :=
  inferInstanceAs (Decidable (n.kind ∉ [.variableCall, .quoted, .queryInParens]))

/-- A plain node is no condition. -/
lemma Node.IsPlain.queryOf_eq_nil {n : Node} (h : n.IsPlain) : n.queryOf = [] := by
  unfold Node.queryOf
  split
  · simp [Node.IsPlain, Node.kind] at h
  · rfl

/-- A tree declares its own variables. -/
lemma Node.throughout_declaresWithin {n : Node} {names : Finset String}
    (h : ∀ name ∈ n.variableNames, name ∈ names) : n.Throughout (Node.DeclaresWithin names) :=
  fun x hx name hname => h name (List.mem_flatMap.2 ⟨x, hx, hname⟩)

/-- A frame declares its own variables. -/
lemma Frame.throughout_declaresWithin {frame : Frame} {names : Finset String}
    (h : ∀ name ∈ frame.variableNames, name ∈ names) :
    frame.Throughout (Node.DeclaresWithin names) :=
  fun x hx name hname => h name (List.mem_flatMap.2 ⟨x, hx, hname⟩)

/-- Evaluation makes no names of variables: a name that was put together declares a property. -/
lemma Node.heritable_declaresWithin (T : FunctionTable → Prop) (names : Finset String) :
    Node.Heritable T (Node.DeclaresWithin names) where
  yields {Result s n r} hn _ hr := by
    cases hr with
    | @declaration info name _ _ traits text _ hname _ =>
      cases name with
      | literal t =>
        rw [hname t rfl]
        exact hn
      | interpolated parts => exact nofun
    | calculated h => cases h.calculated <;> exact nofun
    | _ => exact nofun
  list _ := nofun
  string _ _ _ := nofun
  condition _ := nofun
  narrow _ := nofun

/-- Evaluation makes no strings, calls of variables and conditions. -/
lemma Node.heritable_isPlain (T : FunctionTable → Prop) : Node.Heritable T Node.IsPlain where
  yields {Result s n r} hn _ hr := by
    cases hr with
    | quoted => exact hn
    | calculated h => cases h.calculated <;> simp [Node.IsPlain, Node.kind]
    | _ => simp [Node.IsPlain, Node.kind, Node.ofBool]
  list _ := by simp [Node.IsPlain, Node.kind]
  string _ h _ := h
  condition h := h
  narrow _ := by simp [Node.IsPlain, Node.kind]

/-! ### Names that are left -/

namespace Scope

variable {names : Finset String} {s : Scope}

/-- The number of names that are not being resolved. -/
def pending (names : Finset String) (s : Scope) : Nat :=
  (names \ s.resolving.toFinset).card

/-- There are never more names left than there are names. -/
lemma pending_le : s.pending names ≤ names.card :=
  Finset.card_le_card Finset.sdiff_subset

/-- Resolving a variable leaves one name less. -/
lemma pending_enterVariable_lt {name : String} (hname : name ∈ names)
    (hfresh : name ∉ s.resolving) : (s.enterVariable name).pending names < s.pending names := by
  refine Finset.card_lt_card (Finset.ssubset_iff_of_subset ?_ |>.2 ⟨name, ?_, ?_⟩)
  · intro x hx
    simp only [enterVariable, List.toFinset_cons, Finset.mem_sdiff, Finset.mem_insert,
      not_or] at hx ⊢
    exact ⟨hx.1, hx.2.2⟩
  · simpa using ⟨hname, hfresh⟩
  · simp [enterVariable]

end Scope

/-! ### The invariant -/

/-- A property of nodes that evaluation preserves and that bounds the names of variables. -/
structure Node.Guarded (T : FunctionTable → Prop) (P : Node → Prop) (names : Finset String) :
    Prop where
  heritable : Node.Heritable T P
  carries : ∀ n, P n → n.Carries T
  declares : ∀ n, P n → n.DeclaresWithin names

/-- The names of variables alone bound the names of variables, whatever the function tables are. -/
lemma Node.guarded_declaresWithin (names : Finset String) :
    Node.Guarded (fun _ => True) (Node.DeclaresWithin names) names where
  heritable := Node.heritable_declaresWithin _ names
  carries n _ := Node.carries_true n
  declares _ h := h

/-- The name of a variable that is found is one of the names. -/
lemma Scope.Fits.mem_names {T : FunctionTable → Prop} {P : Node → Prop} {names : Finset String}
    {s : Scope} (h : s.Fits T P) (hP : Node.Guarded T P names) {name : String} {found : Binding}
    (hfound : Frame.lookup? name s.frames = some found) : name ∈ names := by
  obtain ⟨⟨info, traits, hd, hvariable⟩, _⟩ := Frame.fits_of_lookup? h.frames hfound
  refine hP.declares _ hd.self name ?_
  simp [Node.declares, hvariable]

namespace Correspondence

/-- Evaluation where at most so many values of variables can be nested.  It runs out of depth only
because of other nodes it goes on with, if there are any. -/
def guarded (T : FunctionTable → Prop) (P : Node → Prop) (names : Finset String) (bodies : Prop)
    (values : Nat) : Correspondence where
  Lax halt := bodies ∧ halt = .exhausted
  Halts halt := bodies ∨ halt ≠ .exhausted
  Scopes s s' := s' = s ∧ s.Fits T P ∧ s.pending names ≤ values
  Inner s s' := s' = s ∧ s.Fits T P ∧ s.pending names < values
  Source n := n.Throughout P
  Body n := bodies ∧ n.Throughout P
  Result _ n := n.Throughout P
  States q := bodies → ∀ state ∈ q, state.Throughout P
  Grows _ _ := True
  lax_of_failed h := by cases h.2
  halts_failed _ := .inr nofun
  grows_refl _ := trivial
  grows_trans _ _ := trivial
  result_mono _ hn := hn

variable {T : FunctionTable → Prop} {P : Node → Prop} {names : Finset String} {bodies : Prop}

/-- The number of values that can be nested concerns the scopes only. -/
lemma guarded_meets {α : Type} {values values' : Nat} {s s' : Scope} {q : Queries}
    {Post : Queries → α → Prop} {x y : Scoped α}
    (h : (guarded T P names bodies values).Meets s s' Post x y q) :
    (guarded T P names bodies values').Meets s s' Post x y q := by
  intro hq
  rcases h hq with hlax | hagree
  · exact .inl hlax
  · exact .inr ⟨hagree.same, trivial, hagree.states, hagree.post, hagree.halts⟩

/-- Nothing but the calls, strings and conditions of a tree makes evaluation go on elsewhere. -/
lemma bodies_of_throughout (hplain : ∀ n, P n → bodies ∨ n.IsPlain) {n : Node}
    (hn : n.Throughout P) (hkind : ¬ n.IsPlain) : bodies :=
  (hplain n hn.self).resolve_right hkind

/-- The invariant of the guard. -/
lemma guarded_invariant (hP : Node.Guarded T P names) (hplain : ∀ n, P n → bodies ∨ n.IsPlain)
    (values : Nat) :
    (guarded T P names bodies values).Invariant
      (fun s => s.Fits T P ∧ s.pending names ≤ values)
      (fun s => s.Fits T P ∧ s.pending names < values) where
  scopes_iff := Iff.rfl
  inner_iff := Iff.rfl
  source_child hn hc := hn.child hc
  yields hs _ hn hr := hP.heritable.throughout_of_yields hs.1.frames hn (fun _ hv => hv) hr
  result_rule hrs hc := hrs.child hc
  text _ _ _ _ hv hhalt := by
    by_cases hbodies : bodies
    · exact .inl hbodies
    · refine .inr fun heq => Node.css_ne_exhausted (hv.imp fun x hx => ?_) (heq ▸ hhalt)
      exact Node.IsPlain.queryOf_eq_nil ((hplain x hx).resolve_left hbodies)
  enterParens hs := ⟨⟨hs.1.frames, hs.1.custom⟩, hs.2⟩
  enterCall _ hs := ⟨⟨hs.1.frames, hs.1.custom⟩, hs.2⟩
  setMath _ hs := ⟨⟨hs.1.frames, hs.1.custom⟩, hs.2⟩
  ruleset hs hrs := ⟨⟨(hs.1.pushRuleset hrs).frames, hs.1.custom⟩, hs.2⟩
  lookup hs hfresh hfound := by
    refine ⟨hs.1.source_of_lookup? hfound, hs.1.enterBinding hfound, ?_⟩
    exact Nat.lt_of_lt_of_le
      (Scope.pending_enterVariable_lt (hs.1.mem_names hP hfound) hfresh) hs.2
  custom hs _ htable hfind hcustom := by
    rw [hs.1.custom_eq_none htable hfind] at hcustom
    cases hcustom
  body_string filled hn hspells :=
    ⟨bodies_of_throughout hplain hn (by simp [Node.IsPlain, Node.kind]),
      hP.heritable.throughout_string filled hn hspells⟩
  body_ruleset hn hrs :=
    ⟨bodies_of_throughout hplain hn (by simp [Node.IsPlain, Node.kind]), hrs⟩
  body_detached hn hheld :=
    ⟨bodies_of_throughout hplain hn (by simp [Node.IsPlain, Node.kind]),
      Node.Throughout.body hheld⟩
  captured hs _ hn := ⟨hs.1.pushCaptured hP.carries hn, hs.2⟩
  body_operand hq hn hstate hoperand := by
    have hbodies : bodies := bodies_of_throughout hplain hn (by simp [Node.IsPlain, Node.kind])
    exact ⟨hbodies, hq hbodies _ (List.mem_of_getElem? hstate) _ (List.mem_append_left _ hoperand)⟩
  narrow hs _ hd := ⟨hs.1.pushNarrow hP.heritable hd, hs.2⟩
  template hq _ :=
    ⟨trivial, fun hbodies =>
      Queries.forall_modify (hq hbodies) fun _ hstate => hstate.withTemplate⟩
  record hq hn hleft hmiddle hright hfound :=
    ⟨trivial, fun hbodies => Queries.forall_modify (hq hbodies) fun _ hstate =>
      hstate.record hleft hmiddle hright hfound, hP.heritable.throughout_condition hn⟩
  dangling _ hn _ := hP.heritable.throughout_condition hn

end Correspondence

end Cascade
