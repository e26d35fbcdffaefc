import Cascade.Proofs.Evaluation.Normal
import Cascade.Proofs.Evaluation.OuterScopes

/-!
# Shared variables

An evaluation depends on the variables that it looks at, and on no others.  Which ones these are is
known only when it runs, since the names may be put together on the way.  But a look at a variable
that is being resolved is refused: an evaluation that succeeds where some variables are being
resolved never looked at them.

So let some variables be held back in this way.  Two lists of frames share the others if their
frames declare them in the same way, one by one, whatever frames are around the second list
(`Frame.Follow`).  What is evaluated in the first frames has the same outcome in the second ones,
where nothing is held back (`Node.eval_of_shares`).
-/

namespace Cascade

/-! ### Frames that share variables -/

/-- Two frames that declare all variables that are not held back in the same way, with values that
keep no frames. -/
structure Frame.Shared (held : List String) (f f' : Frame) : Prop where
  holds : f.Holds (· ∉ held) (Node.Throughout Node.IsTransparent)
  functions : f'.functions = f.functions
  declared : ∀ name, name ∉ held → f'.declared? name = f.declared? name

/-- Frames that share variables one by one, and possibly more frames around the second ones. -/
inductive Frame.Follow (held : List String) : List Frame → List Frame → Prop where
  | outer (frames : List Frame) : Frame.Follow held [] frames
  | cons {f f' : Frame} {frames frames' : List Frame} (h : f.Shared held f')
    (hrest : Frame.Follow held frames frames') : Frame.Follow held (f :: frames) (f' :: frames')

/-- A frame shares its variables with itself. -/
lemma Frame.Holds.shared {held : List String} {f : Frame}
    (h : f.Holds (· ∉ held) (Node.Throughout Node.IsTransparent)) : f.Shared held f :=
  ⟨h, rfl, fun _ _ => rfl⟩

namespace Frame.Follow

variable {held : List String} {frames frames' : List Frame}

/-- Frames with the same frames and more around them. -/
lemma append (h : ∀ f ∈ frames, f.Holds (· ∉ held) (Node.Throughout Node.IsTransparent))
    (outer : List Frame) : Frame.Follow held frames (frames ++ outer) := by
  induction frames with
  | nil => exact .outer outer
  | cons f frames ih =>
    obtain ⟨hf, hframes⟩ := List.forall_mem_cons.1 h
    exact .cons hf.shared (ih hframes)

/-- Frames share their variables with themselves. -/
lemma refl (h : ∀ f ∈ frames, f.Holds (· ∉ held) (Node.Throughout Node.IsTransparent)) :
    Frame.Follow held frames frames := by
  have hfollow := append h []
  rwa [List.append_nil] at hfollow

/-- The innermost frames have the built-in functions, if there are any. -/
lemma functions (h : Frame.Follow held frames frames') (hne : frames ≠ []) :
    frames.head?.bind Frame.functions = some .builtins ∧
      frames'.head?.bind Frame.functions = some .builtins := by
  cases h with
  | outer => exact absurd rfl hne
  | cons hf _ => exact ⟨hf.holds.functions, hf.functions.trans hf.holds.functions⟩

/-- Frames that have functions are given none. -/
lemma fillFunctions (h : Frame.Follow held frames frames') (hne : frames ≠ [])
    (functions : Option FunctionTable) :
    Frame.fillFunctions functions frames = frames ∧
      Frame.fillFunctions functions frames' = frames' := by
  cases h with
  | outer => exact absurd rfl hne
  | @cons f f' _ _ hf _ =>
    obtain ⟨ruleset, own⟩ := f
    obtain ⟨ruleset', own'⟩ := f'
    obtain rfl : own = some .builtins := hf.holds.functions
    obtain rfl : own' = some .builtins := hf.functions
    exact ⟨rfl, rfl⟩

/-- A variable that is not held back is found in both lists, with the same value. -/
lemma lookup? (h : Frame.Follow held frames frames') {name : String} {found : Binding}
    (hname : name ∉ held) (hfound : Frame.lookup? name frames = some found) :
    ∃ found', Frame.lookup? name frames' = some found' ∧ found'.value = found.value ∧
      found'.important = found.important ∧ found.value.Throughout Node.IsTransparent ∧
      Frame.Follow held found.frames found'.frames := by
  induction h with
  | outer => cases hfound
  | @cons f f' frames frames' hf hrest ih =>
    rw [Frame.lookup?_cons] at hfound ⊢
    rw [hf.declared name hname]
    cases hdeclared : f.declared? name with
    | none =>
      rw [hdeclared] at hfound
      exact ih hfound
    | some binding =>
      rw [hdeclared] at hfound
      obtain rfl := Option.some.inj hfound
      exact ⟨_, rfl, rfl, rfl, hf.holds.values name _ _ hname hdeclared, .cons hf hrest⟩

end Frame.Follow

/-- The value that a rule gives to a variable is a part of the rule. -/
lemma Node.Throughout.of_bindingOf? {P : Node → Prop} {rule v : Node} {name marker : String}
    (hrule : rule.Throughout P) (h : rule.bindingOf? name = some (v, marker)) :
    v.Throughout P := by
  obtain ⟨info, traits, rfl, _⟩ := Node.eq_declaration_of_bindingOf? h
  exact hrule.child (by simp [Node.children])

/-- What the variables of a frame have if its rules give it to them. -/
lemma Frame.holds_of_rules {Looks : String → Prop} {Value : Node → Prop} {f : Frame}
    (hfunctions : f.functions = some .builtins)
    (h : ∀ rule ∈ f.rules, ∀ name v marker, Looks name →
      rule.bindingOf? name = some (v, marker) → Value v) : f.Holds Looks Value where
  functions := hfunctions
  values name v marker hname hdeclared := by
    obtain ⟨rule, hrule, hbinding⟩ := Frame.exists_of_declared? hdeclared
    exact h rule hrule name v marker hname hbinding

/-! ### Evaluation in frames that share variables -/

/-- Two scopes that differ in their frames, which share variables, and in the variables being
resolved, of which the first scope has those of the second one and those that are held back. -/
structure Scope.Shares (held : List String) (s s' : Scope) : Prop where
  rest : s' = { s with frames := s'.frames, resolving := s'.resolving }
  nonempty : s.frames ≠ []
  frames : Frame.Follow held s.frames s'.frames
  resolving : s'.resolving ⊆ s.resolving
  refused : ∀ name ∈ held, name ∈ s.resolving

namespace Scope.Shares

variable {held : List String} {s s' : Scope}

/-- The innermost frames have the built-in functions. -/
lemma functions? (h : s.Shares held s') :
    s.functions? = some .builtins ∧ s'.functions? = some .builtins :=
  h.frames.functions h.nonempty

/-- The function table for a call is the same. -/
lemma functionTable (h : s.Shares held s') : s'.functionTable = s.functionTable := by
  obtain ⟨hs, hs'⟩ := h.functions?
  rw [Scope.functionTable_eq_ok_iff.2 hs, Scope.functionTable_eq_ok_iff.2 hs']

/-- The scope with another number of parentheses around, in a call, or under other rules for
arithmetic. -/
lemma congr (h : s.Shares held s') (f : Scope → Scope) (hframes : ∀ t, (f t).frames = t.frames)
    (hresolving : ∀ t, (f t).resolving = t.resolving)
    (hrest : f s' = { f s with frames := s'.frames, resolving := s'.resolving }) :
    (f s).Shares held (f s') where
  rest := by rw [hframes s', hresolving s', hrest]
  nonempty := by
    rw [hframes s]
    exact h.nonempty
  frames := by
    rw [hframes s, hframes s']
    exact h.frames
  resolving := by
    rw [hresolving s, hresolving s']
    exact h.resolving
  refused := by
    rw [hresolving s]
    exact h.refused

/-- The scope inside a ruleset that keeps no frames. -/
lemma pushRuleset (h : s.Shares held s') {rs : Ruleset}
    (hrs : (Node.ruleset rs).Throughout Node.IsTransparent) (selectors : List String) :
    ((s.pushFrame (s.frameOf rs)).setSelectors selectors).Shares held
      ((s'.pushFrame (s'.frameOf rs)).setSelectors selectors) where
  rest := by rw [h.rest]; rfl
  nonempty := List.cons_ne_nil _ _
  frames := by
    obtain ⟨hs, hs'⟩ := h.functions?
    refine .cons ⟨Frame.holds_of_rules hs ?_, hs'.trans hs.symm, fun _ _ => rfl⟩ h.frames
    intro rule hrule name v marker _ hbinding
    have hchild : rule ∈ (Node.ruleset rs).children := hrule
    exact (hrs.child hchild).of_bindingOf? hbinding
  resolving := h.resolving
  refused := h.refused

/-- The scopes in which the value of a variable is evaluated. -/
lemma enterBinding (h : s.Shares held s') {name : String} {found found' : Binding}
    (hfound : Frame.lookup? name s.frames = some found)
    (hframes : Frame.Follow held found.frames found'.frames) :
    ((s.enterVariable name).setFrames (s.bindingFrames found)).Shares held
      ((s'.enterVariable name).setFrames (s'.bindingFrames found')) := by
  have hne := Frame.frames_ne_nil_of_lookup? hfound
  have hfilled : s.bindingFrames found = found.frames := (hframes.fillFunctions hne _).1
  have hfilled' : s'.bindingFrames found' = found'.frames := (hframes.fillFunctions hne _).2
  rw [hfilled, hfilled']
  exact {
    rest := by rw [h.rest]; rfl
    nonempty := hne
    frames := hframes
    resolving := List.cons_subset_cons name h.resolving
    refused := fun other hmem => List.mem_cons_of_mem name (h.refused other hmem) }

end Scope.Shares

namespace Correspondence

/-- The comparison of an evaluation that succeeds with one in a scope that shares variables. -/
def shared (held : List String) : Correspondence where
  Lax _ := True
  Halts _ := True
  Scopes s s' := s.Shares held s'
  Inner s s' := s.Shares held s'
  Source n := n.Throughout Node.IsTransparent
  Body n := n.Throughout Node.IsTransparent
  Result _ _ := True
  States _ := True
  Grows q q' := q' = q
  lax_of_failed _ := trivial
  halts_failed _ := trivial
  grows_refl _ := rfl
  grows_trans h h' := h'.trans h
  result_mono _ _ := trivial

/-- What keeps no frames depends on the variables that it looks at. -/
lemma shared_lawful (held : List String) : (shared held).Lawful where
  source_child hn hc := hn.child hc
  yields _ _ _ _ := trivial
  result_rule _ _ := trivial
  resolving hs := .inl ⟨fun _ => trivial, hs.resolving⟩
  selectors hs := by rw [hs.rest]
  isMathOn hs := by rw [hs.rest]; rfl
  inCalc hs := by rw [hs.rest]
  scripts hs := by rw [hs.rest]
  frames _ hn := (hn.self (by simp [Node.kind])).elim
  functionTable hs := .inr hs.functionTable
  negate hs _ _ := by rw [hs.rest]; rfl
  operate hs _ _ _ := by rw [hs.rest]; rfl
  text hs _ _ _ _ := .inr ⟨by rw [hs.rest], fun _ _ => trivial⟩
  enterParens hs := hs.congr Scope.enterParens (fun _ => rfl) (fun _ => rfl) (by rw [hs.rest]; rfl)
  enterCall name hs :=
    hs.congr (·.enterCall name) (fun _ => rfl) (fun _ => rfl) (by rw [hs.rest]; rfl)
  setMath property hs := hs.congr (fun t => t.setMath (t.mathOf property)) (fun _ => rfl)
    (fun _ => rfl) (by rw [hs.rest]; rfl)
  ruleset hs hrs := hs.pushRuleset hrs _
  lookup_none _ _ := .inl trivial
  lookup_some {s s' name found} hs hfresh hfound := by
    have hlooks : name ∉ held := fun hmem => hfresh (hs.refused name hmem)
    obtain ⟨found', hfound', hvalue, himportant, hsees, hframes⟩ :=
      hs.frames.lookup? hlooks hfound
    exact ⟨found', hfound', hvalue, himportant, hsees, hs.enterBinding hfound hframes⟩
  custom {s s' info name args asCalc table key} hs _ htable hfind := by
    have hbuiltins := Scope.functionTable_eq_ok_iff.1 htable
    rw [hs.functions?.1] at hbuiltins
    obtain rfl := Option.some.inj hbuiltins
    cases FunctionTable.isNative_builtins.isBuiltin_of_find? hfind
  body_string filled hn hspells := Node.throughout_iff.2
    ⟨by simp [Node.IsTransparent, Node.kind], by simp [Node.children], by simp [Node.held]⟩
  body_ruleset hn _ := (hn.self (by simp [Node.kind])).elim
  body_detached hn _ := (hn.self (by simp [Node.kind])).elim
  captured _ hn _ := (hn.self (by simp [Node.kind])).elim
  body_operand _ hn _ _ := (hn.self (by simp [Node.kind])).elim
  variablesInScope _ hn := (hn.self (by simp [Node.kind])).elim
  narrow _ hn _ := (hn.self (by simp [Node.kind])).elim
  template _ hn := (hn.self (by simp [Node.kind])).elim
  record _ hn _ _ _ _ := (hn.self (by simp [Node.kind])).elim
  dangling _ _ _ := trivial

end Correspondence

/-- What is evaluated while some variables are held back has the same outcome in a scope that shares
the others, and the states of the query conditions are left as they are. -/
theorem Node.eval_of_shares {held : List String} {s s' : Scope} (hs : s.Shares held s') {n : Node}
    (hn : n.Throughout Node.IsTransparent) {depth : Nat} {q : Queries} {r : Node}
    (hr : ((Node.eval depth n : Scoped Node) s q).result = .ok r) :
    (Node.eval depth n : Scoped Node) s' q = (Node.eval depth n : Scoped Node) s q ∧
      ((Node.eval depth n : Scoped Node) s q).queries = q := by
  have hmeets := (Correspondence.shared_lawful held).eval trivial (fun hs => hs) (fun hn => hn)
    depth n q hn hs
  rcases hmeets trivial with ⟨halt, hhalt, _⟩ | hagree
  · rw [hr] at hhalt
    cases hhalt
  · exact ⟨hagree.same, hagree.grows⟩

end Cascade
