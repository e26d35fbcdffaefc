import Cascade.Proofs.Evaluation.InPlace
import Cascade.Proofs.Evaluation.Inheritance
import Cascade.Proofs.Evaluation.Lookup

/-!
# Outer scopes

A variable is looked up from the innermost frame outwards, and its value is evaluated from the
frame of its declaration outwards.  So frames further out never change what is found already: what
a tree is evaluated to in some frames, it is evaluated to also with more frames around them
(`Context.evaluate_outer`).  In particular a detached ruleset whose body needs nothing but the
frames it was written in gives the same wherever it is called.

The frames inside of a tree that stands in no frame at all carry no function table, but with frames
around they do.  This does no harm, since a call fails where there is no function table.
-/

namespace Cascade

/-- A node that keeps no frames for later, calls no ruleset that does, and is no condition. -/
def Node.IsTransparent (n : Node) : Prop :=
  n.kind ∉ [.detachedRuleset, .variableCall, .queryInParens]

instance (n : Node) : Decidable n.IsTransparent :=
  inferInstanceAs (Decidable (n.kind ∉ [.detachedRuleset, .variableCall, .queryInParens]))

/-! ### Frames with more frames around them -/

section FillFunctions

variable {frames outer : List Frame}

/-- A function table is given to the innermost frame, whatever is around. -/
lemma Frame.fillFunctions_append (functions : Option FunctionTable) (h : frames ≠ []) :
    Frame.fillFunctions functions (frames ++ outer) =
      Frame.fillFunctions functions frames ++ outer := by
  cases frames with
  | nil => exact absurd rfl h
  | cons frame rest =>
    cases frame
    rfl

/-- Frames without function tables, where there is none to be given. -/
lemma Frame.functions_fillFunctions_none (h : ∀ f ∈ frames, f.functions = none) :
    ∀ f ∈ Frame.fillFunctions none frames, f.functions = none := by
  cases frames with
  | nil => exact h
  | cons frame rest =>
    obtain ⟨ruleset, own⟩ := frame
    have hown : own = none := h _ List.mem_cons_self
    subst hown
    exact h

end FillFunctions

/-- The second list has more frames around than the first one.  If the frames are those of rulesets
that stand in no frame, they carry no function table, and then only the rulesets are the same. -/
inductive Frame.Surrounded (outer : List Frame) : List Frame → List Frame → Prop where
  | appended {frames : List Frame} (h : frames ≠ []) :
    Frame.Surrounded outer frames (frames ++ outer)
  | bare {frames frames' : List Frame} (hnone : ∀ f ∈ frames, f.functions = none)
    (h : frames'.map Frame.ruleset = frames.map Frame.ruleset ++ outer.map Frame.ruleset) :
    Frame.Surrounded outer frames frames'

namespace Frame.Surrounded

variable {outer frames frames' : List Frame} {s s' : Scope}

/-- Any frames with more frames around them. -/
lemma append (outer frames : List Frame) : Frame.Surrounded outer frames (frames ++ outer) := by
  cases frames with
  | nil => exact .bare (by simp) rfl
  | cons frame rest => exact .appended (List.cons_ne_nil frame rest)

/-- A call fails without a function table, or finds the same one. -/
lemma functionTable (h : Frame.Surrounded outer s.frames s'.frames) :
    (∃ error, s.functionTable = .error error) ∨ s'.functionTable = s.functionTable := by
  unfold Scope.functionTable
  generalize s.frames = frames at h ⊢
  generalize s'.frames = frames' at h ⊢
  cases h with
  | appended hne =>
    cases frames with
    | nil => exact absurd rfl hne
    | cons frame rest => exact .inr rfl
  | bare hnone _ =>
    cases frames with
    | nil => exact .inl ⟨_, rfl⟩
    | cons frame rest =>
      have hframe := hnone frame List.mem_cons_self
      exact .inl ⟨.noFunctions, by simp [hframe]⟩

/-- The frames inside a ruleset: it has the functions of the innermost frame. -/
lemma pushRuleset (h : Frame.Surrounded outer frames frames') (rs : Ruleset) :
    Frame.Surrounded outer (.mk (some rs) (frames.head?.bind Frame.functions) :: frames)
      (.mk (some rs) (frames'.head?.bind Frame.functions) :: frames') := by
  cases h with
  | appended hne =>
    cases frames with
    | nil => exact absurd rfl hne
    | cons frame rest => exact .appended (List.cons_ne_nil _ _)
  | bare hnone hrulesets =>
    refine .bare (List.forall_mem_cons.2 ⟨?_, hnone⟩) ?_
    · cases frames with
      | nil => rfl
      | cons frame rest => exact hnone frame List.mem_cons_self
    · rw [List.map_cons, hrulesets]
      rfl

/-- What is found is found with more frames around, and its frames have more frames around
them. -/
lemma lookup? (h : Frame.Surrounded outer frames frames') {name : String} {found : Binding}
    (hfound : Frame.lookup? name frames = some found) :
    ∃ found', Frame.lookup? name frames' = some found' ∧ found'.value = found.value ∧
      found'.important = found.important ∧
      Frame.Surrounded outer
        (Frame.fillFunctions (frames.head?.bind Frame.functions) found.frames)
        (Frame.fillFunctions (frames'.head?.bind Frame.functions) found'.frames) := by
  cases h with
  | appended hne =>
    have hfunctions : (frames ++ outer).head?.bind Frame.functions =
        frames.head?.bind Frame.functions := by
      cases frames with
      | nil => exact absurd rfl hne
      | cons frame rest => rfl
    refine ⟨_, Frame.lookup?_append hfound outer, rfl, rfl, ?_⟩
    rw [hfunctions, Frame.fillFunctions_append _ (Frame.frames_ne_nil_of_lookup? hfound)]
    exact .append outer _
  | bare hnone hrulesets =>
    obtain ⟨found', hfound', hvalue, himportant, hframes⟩ :=
      Frame.lookup?_of_rulesets hfound hrulesets
    refine ⟨found', hfound', hvalue, himportant, .bare ?_ ?_⟩
    · have hfunctions : frames.head?.bind Frame.functions = none := by
        cases frames with
        | nil => rfl
        | cons frame rest => exact hnone frame List.mem_cons_self
      rw [hfunctions]
      refine Frame.functions_fillFunctions_none fun f hf => hnone f ?_
      exact (Frame.suffix_of_lookup? hfound).subset hf
    · rw [Frame.map_ruleset_fillFunctions, Frame.map_ruleset_fillFunctions, hframes]

end Frame.Surrounded

/-! ### Evaluation with more frames around -/

namespace Correspondence

/-- The comparison of an evaluation that succeeds with one in a scope that has more frames
around. -/
def surrounded (outer : List Frame) : Correspondence where
  Lax _ := True
  Halts _ := True
  Scopes s s' := s' = s.setFrames s'.frames ∧ Frame.Surrounded outer s.frames s'.frames ∧
    s.Fits FunctionTable.IsNative Node.IsTransparent
  Inner s s' := s' = s.setFrames s'.frames ∧ Frame.Surrounded outer s.frames s'.frames ∧
    s.Fits FunctionTable.IsNative Node.IsTransparent
  Source n := n.Throughout Node.IsTransparent
  Body n := n.Throughout Node.IsTransparent
  Result _ _ := True
  States _ := True
  Grows _ _ := True
  lax_of_failed _ := trivial
  halts_failed _ := trivial
  grows_refl _ := trivial
  grows_trans _ _ := trivial
  result_mono _ _ := trivial

/-- A detached ruleset is not transparent. -/
lemma not_transparent {n : Node} (hn : n.Throughout Node.IsTransparent)
    (hkind : n.kind ∈ [.detachedRuleset, .variableCall, .queryInParens]) : False :=
  hn.self hkind

/-- Transparent nodes look at their frames only through what they find in them. -/
lemma surrounded_lawful (outer : List Frame) : (surrounded outer).Lawful where
  source_child hn hc := hn.child hc
  yields _ _ _ _ := trivial
  result_rule _ _ := trivial
  resolving hs := .inr (by rw [hs.1]; rfl)
  selectors hs := by rw [hs.1]; rfl
  isMathOn hs := by rw [hs.1]; rfl
  inCalc hs := by rw [hs.1]; rfl
  scripts hs := by rw [hs.1]; rfl
  frames _ hn := (not_transparent hn (by simp [Node.kind])).elim
  functionTable hs := hs.2.1.functionTable.imp_left fun ⟨error, herror⟩ => ⟨error, herror, trivial⟩
  negate hs _ _ := by rw [hs.1]; rfl
  operate hs _ _ _ := by rw [hs.1]; rfl
  text hs _ _ _ _ := .inr ⟨by rw [hs.1]; rfl, fun _ _ => trivial⟩
  enterParens hs := ⟨by rw [hs.1]; rfl, hs.2.1, hs.2.2.frames, hs.2.2.custom⟩
  enterCall _ hs := ⟨by rw [hs.1]; rfl, hs.2.1, hs.2.2.frames, hs.2.2.custom⟩
  setMath _ hs := ⟨by rw [hs.1]; rfl, hs.2.1, hs.2.2.frames, hs.2.2.custom⟩
  ruleset {s s' rs} hs hrs :=
    ⟨by rw [hs.1]; rfl, hs.2.1.pushRuleset rs, (hs.2.2.pushRuleset hrs).frames, hs.2.2.custom⟩
  lookup_none _ _ := .inl trivial
  lookup_some hs _ hfound := by
    obtain ⟨found', hfound', hvalue, himportant, hframes⟩ := hs.2.1.lookup? hfound
    refine ⟨found', hfound', hvalue, himportant, hs.2.2.source_of_lookup? hfound, ?_, hframes,
      hs.2.2.enterBinding hfound⟩
    rw [hs.1]
    rfl
  custom {s s' info name args asCalc table key} hs _ htable hfind := by
    have hnone := hs.2.2.custom_eq_none htable hfind
    refine ⟨by rw [hs.1]; rfl, fun f hf => ?_⟩
    rw [hnone] at hf
    cases hf
  body_string {info quote text escaped} filled hn _ :=
    Node.throughout_iff.2 ⟨hn.self, by simp [Node.children], by simp [Node.held]⟩
  body_ruleset hn _ := (not_transparent hn (by simp [Node.kind])).elim
  body_detached hn _ := (not_transparent hn (by simp [Node.kind])).elim
  captured _ hn _ := (not_transparent hn (by simp [Node.kind])).elim
  body_operand _ hn _ _ := (not_transparent hn (by simp [Node.kind])).elim
  variablesInScope _ hn := (not_transparent hn (by simp [Node.kind])).elim
  narrow _ hn _ := (not_transparent hn (by simp [Node.kind])).elim
  template _ hn := (not_transparent hn (by simp [Node.kind])).elim
  record _ hn _ _ _ _ := (not_transparent hn (by simp [Node.kind])).elim
  dangling _ _ _ := trivial

end Correspondence

section Outer

variable {c : Context} {inner : List Frame} {depth : Nat} {node r : Node}

/-- The outcome of a tree in some frames is its outcome with more frames around, if the tree is
evaluated to the end. -/
lemma Context.eval_outer (outer : List Frame)
    (hinner : ∀ f ∈ inner, f.Fits FunctionTable.IsNative Node.IsTransparent)
    (hnode : node.Throughout Node.IsTransparent)
    (hr : ({ c with frames := inner }.evaluate depth node).1 = .ok r) :
    ((Node.eval depth node : Scoped Node) (c.scope.setFrames (inner ++ outer)) c.queries).result =
      .ok r := by
  rw [Context.evaluate_eq] at hr
  have hscopes : (Correspondence.surrounded outer).Scopes (c.scope.setFrames inner)
      (c.scope.setFrames (inner ++ outer)) :=
    ⟨rfl, .append outer inner, .ofNative hinner⟩
  have hmeets := (Correspondence.surrounded_lawful outer).eval trivial (fun hs => hs)
    (fun hn => hn) depth node c.queries hnode hscopes
  have hresult : ((Node.eval depth node : Scoped Node) (c.scope.setFrames inner)
      c.queries).result = .ok r := hr
  rcases hmeets trivial with ⟨halt, hhalt, _⟩ | hagree
  · rw [hresult] at hhalt
    cases hhalt
  · rw [hagree.same, hresult]

end Outer

/-- Outer scopes never change what already resolves: what a tree is evaluated to in some frames, it
is evaluated to with more frames around them.  So a detached ruleset whose body is evaluated in the
frames it was written in gives the same result wherever it is called. -/
theorem Context.evaluate_outer (c : Context) (inner outer : List Frame) (depth : Nat)
    (hinner : ∀ f ∈ inner, f.Fits FunctionTable.IsNative Node.IsTransparent) :
    (∀ node r, node.Throughout Node.IsTransparent →
      ({ c with frames := inner }.evaluate depth node).1 = .ok r →
      ({ c with frames := inner ++ outer }.evaluate depth node).1 = .ok r) ∧
      ∀ body r, (Node.ruleset body).Throughout Node.IsTransparent →
        ({ c with frames := inner }.evaluate depth (.ruleset body)).1 = .ok r →
        ({ c with frames := outer }.callDetached depth (some body) (some inner)).1 =
          .ok (some r) := by
  constructor
  · intro node r hnode hr
    rw [Context.evaluate_eq]
    exact Context.eval_outer outer hinner hnode hr
  · intro body r hbody hr
    have hcalled := Context.eval_outer outer hinner hbody hr
    have hcaptured : (Resolver.inCaptured (some inner) (Node.eval depth (.ruleset body)) :
        Scoped Node) (c.scope.setFrames outer) c.queries =
          (Node.eval depth (.ruleset body) : Scoped Node) (c.scope.setFrames (inner ++ outer))
            c.queries :=
      Correspondence.scope_bind_apply _
    rw [Context.callDetached_eq]
    show ((Resolver.inCaptured (some inner) (Node.eval depth (.ruleset body)) >>=
      fun result => pure (some result) : Scoped (Option Node)) (c.scope.setFrames outer)
        c.queries).result = _
    rw [Correspondence.bind_apply, hcaptured, hcalled]
    rfl

/-- A frame with two variables, one of which refers to the other. -/
def nearFrames : List Frame :=
  let traits : DeclarationTraits := { isVariable := true }
  [.mk (some (.ofRules [] [.declaration {} (.literal "@a") (.variableRef {} "@b") traits,
    .declaration {} (.literal "@b") (.keyword {} "near") traits])) (some .builtins)]

/-- A frame that gives one of the variables another value. -/
def farFrames : List Frame :=
  [.mk (some (.ofRules [] [.declaration {} (.literal "@b") (.keyword {} "far")
    { isVariable := true }])) (some .builtins)]

/-- A nested ruleset, a reference, a placeholder and a name that is put together. -/
def nearBody : Ruleset :=
  .ofRules ["p"]
    [.declaration {} (.literal "width") (.variableRef {} "@a") {},
      .ruleset (.ofRules ["q"]
        [.declaration {} (.interpolated [.variableRef {} "@b"])
          (.quoted {} '"' "@\x7ba\x7d" false) {}])]

/-- The rules are evaluated in the near frame, and the far one does not change the result. -/
theorem evaluate_outer_nearBody :
    ∃ r, ({ frames := nearFrames : Context }.evaluate 3 (.ruleset nearBody)).1 = .ok r ∧
      ({ frames := nearFrames ++ farFrames : Context }.evaluate 3 (.ruleset nearBody)).1 = .ok r ∧
      ({ frames := farFrames : Context }.callDetached 3 (some nearBody) (some nearFrames)).1 =
        .ok (some r) := by
  have hinner : ∀ f ∈ nearFrames, f.Fits FunctionTable.IsNative Node.IsTransparent := by
    intro f hf
    rw [List.mem_singleton.1 hf]
    constructor <;> decide
  have hok : ({ frames := nearFrames : Context }.evaluate 3 (.ruleset nearBody)).1.isOk = true := by
    decide +kernel
  have houter := Context.evaluate_outer {} nearFrames farFrames 3 hinner
  cases hr : ({ frames := nearFrames : Context }.evaluate 3 (.ruleset nearBody)).1 with
  | error halt => simp [hr, Except.isOk, Except.toBool] at hok
  | ok r => exact ⟨r, rfl, houter.1 _ r (by decide) hr, houter.2 _ r (by decide) hr⟩

end Cascade
