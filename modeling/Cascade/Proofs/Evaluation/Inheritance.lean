import Cascade.Proofs.Evaluation.Laws
import Cascade.Proofs.Tree.Contents

/-!
# Properties that results inherit

Evaluation puts its results together from the nodes of the tree and of the frames in scope, so a
property of all these nodes is one of all nodes of the result, if what a node yields has the
property whenever the node has it.  `Node.Heritable` is this condition, and
`Node.Heritable.throughout_of_yields` draws the conclusion for one step of evaluation.

What a function of the caller gives is not known.  So the frames in scope have to carry function
tables of a kind, such as tables of built-in functions, and the scope must not know any function of
the caller that is named in such a table (`Scope.Fits`).
-/

namespace Cascade

/-! ### Built-in functions only -/

/-- Whether a function is a built-in one. -/
def FunctionRef.isBuiltin : FunctionRef → Bool
  | .builtin _ => true
  | .custom _ => false

/-- A table with built-in functions only. -/
def FunctionTable.IsNative (table : FunctionTable) : Prop :=
  ∀ entry ∈ table.entries, entry.2.isBuiltin

instance (table : FunctionTable) : Decidable table.IsNative :=
  inferInstanceAs (Decidable (∀ entry ∈ table.entries, entry.2.isBuiltin))

/-- A function found in a table is one of its entries. -/
lemma FunctionTable.IsNative.isBuiltin_of_find? {table : FunctionTable} {name : String}
    {function : FunctionRef} (h : table.IsNative) (hfind : table.find? name = some function) :
    function.isBuiltin := by
  obtain ⟨before, after, hentries, _⟩ := List.lookup_eq_some_iff.1 hfind
  refine h (Text.lower name, function) ?_
  simp [hentries]

/-! ### The tables of frames -/

section Tables

variable (T : FunctionTable → Prop)

/-- A frame whose function table, if it has one, is of a kind. -/
def Frame.Carries (frame : Frame) : Prop :=
  ∀ table ∈ frame.functions, T table

/-- The frames that a detached ruleset was written in carry function tables of a kind. -/
def Node.Carries : Node → Prop
  | .detached _ _ frames => ∀ frame ∈ frames.getD [], frame.Carries T
  | _ => True

instance [DecidablePred T] (frame : Frame) : Decidable (frame.Carries T) :=
  inferInstanceAs (Decidable (∀ table ∈ frame.functions, T table))

instance [DecidablePred T] (n : Node) : Decidable (n.Carries T) :=
  match n with
  | .detached _ _ frames => inferInstanceAs (Decidable (∀ frame ∈ frames.getD [], frame.Carries T))
  | .anonymous .. | .assignment .. | .attribute .. | .call .. | .color .. | .comment ..
  | .condition .. | .declaration .. | .dimension .. | .expression .. | .javaScript ..
  | .keyword .. | .negative .. | .operation .. | .paren .. | .query .. | .quoted .. | .ruleset ..
  | .unicodeDescriptor .. | .value .. | .variableRef .. | .variableCall .. => .isTrue trivial

end Tables

/-- Nothing is asked of the tables. -/
lemma Node.carries_true (n : Node) : n.Carries fun _ => True := by
  cases n with
  | detached => exact fun _ _ _ _ => trivial
  | _ => trivial

/-- The frames that a detached ruleset was written in carry built-in functions only. -/
abbrev Node.IsNative : Node → Prop :=
  Node.Carries FunctionTable.IsNative

/-! ### Frames whose nodes have a property -/

/-- A frame with a table of a kind whose nodes have a property. -/
structure Frame.Fits (T : FunctionTable → Prop) (P : Node → Prop) (frame : Frame) : Prop where
  carries : frame.Carries T
  throughout : frame.Throughout P

section Frames

variable {T : FunctionTable → Prop} {P : Node → Prop} {s : Scope}

/-- The functions of the innermost frame. -/
lemma Scope.carries_functions? {table : FunctionTable} (h : ∀ f ∈ s.frames, f.Carries T)
    (htable : table ∈ s.functions?) : T table := by
  unfold Scope.functions? at htable
  cases hframes : s.frames with
  | nil => simp [hframes] at htable
  | cons frame outer =>
    rw [hframes] at h htable
    exact h frame List.mem_cons_self table htable

/-- The function table for a call is the one of the innermost frame. -/
lemma Scope.functionTable_eq_ok_iff {s : Scope} {table : FunctionTable} :
    s.functionTable = .ok table ↔ s.functions? = some table := by
  unfold Scope.functionTable Scope.functions?
  cases s.frames with
  | nil => simp
  | cons frame outer => cases hfunctions : frame.functions <;> simp [hfunctions]

/-- The function table for a call. -/
lemma Scope.carries_functionTable {table : FunctionTable} (h : ∀ f ∈ s.frames, f.Carries T)
    (htable : s.functionTable = .ok table) : T table :=
  Scope.carries_functions? h (Scope.functionTable_eq_ok_iff.1 htable)

/-- The frame of a ruleset. -/
lemma Frame.fits_frameOf {rs : Ruleset} (h : ∀ f ∈ s.frames, f.Carries T)
    (hrs : (Node.ruleset rs).Throughout P) : (s.frameOf rs).Fits T P where
  carries _ htable := Scope.carries_functions? h htable
  throughout := Frame.throughout_iff.2 (by rintro _ ⟨⟩; exact hrs)

/-- The rules of a frame have the property throughout. -/
lemma Frame.Fits.rule {frame : Frame} (h : frame.Fits T P) {rule : Node}
    (hrule : rule ∈ frame.rules) : rule.Throughout P := by
  unfold Frame.rules at hrule
  cases hrs : frame.ruleset with
  | none => simp [hrs] at hrule
  | some rs =>
    have hnode := Frame.throughout_iff.1 h.throughout rs hrs
    refine hnode.child ?_
    simpa [hrs, Node.children] using hrule

/-- What the declaration of a variable looks like. -/
lemma Node.eq_declaration_of_bindingOf? {name : String} {d v : Node} {important : String}
    (h : d.bindingOf? name = some (v, important)) :
    ∃ info traits, d = .declaration info (.literal name) v traits ∧ traits.isVariable := by
  unfold Node.bindingOf? at h
  split at h
  · split at h
    · next hcond =>
      simp only [Bool.and_eq_true, beq_iff_eq] at hcond
      obtain ⟨rfl, _⟩ := Prod.mk.inj (Option.some.inj h)
      exact ⟨_, _, by rw [hcond.2], hcond.1⟩
    · cases h
  · cases h

/-- The binding of a variable: its declaration is a rule of a frame, and its frames are frames in
scope. -/
lemma Frame.fits_of_lookup? {name : String} {frames : List Frame} {found : Binding}
    (h : ∀ f ∈ frames, f.Fits T P) (hfound : Frame.lookup? name frames = some found) :
    (∃ info traits, (Node.declaration info (.literal name) found.value traits).Throughout P ∧
      traits.isVariable) ∧ ∀ f ∈ found.frames, f.Fits T P := by
  induction frames with
  | nil => simp [Frame.lookup?] at hfound
  | cons frame outer ih =>
    rw [List.forall_mem_cons] at h
    unfold Frame.lookup? at hfound
    split at hfound
    next value important hbinding =>
      obtain ⟨d, hd, hd'⟩ := List.exists_of_findSome?_eq_some hbinding
      obtain ⟨info, traits, rfl, hvariable⟩ := Node.eq_declaration_of_bindingOf? hd'
      rw [← Option.some.inj hfound]
      exact ⟨⟨info, traits, h.1.rule (List.mem_reverse.1 hd), hvariable⟩,
        List.forall_mem_cons.2 h⟩
    · exact ih h.2 hfound

/-- The frames in which the value of a variable is evaluated. -/
lemma Frame.fits_bindingFrames {found : Binding} (h : ∀ f ∈ s.frames, f.Carries T)
    (hfound : ∀ f ∈ found.frames, f.Fits T P) : ∀ f ∈ s.bindingFrames found, f.Fits T P := by
  unfold Scope.bindingFrames Frame.fillFunctions
  split
  · simp
  next ruleset own outer hframes =>
  rw [hframes, List.forall_mem_cons] at hfound
  have hown := Frame.throughout_iff.1 hfound.1.throughout
  refine List.forall_mem_cons.2 ⟨⟨fun table htable => ?_, Frame.throughout_iff.2 hown⟩, hfound.2⟩
  cases own with
  | none => exact Scope.carries_functions? h htable
  | some functions => exact hfound.1.carries table htable

end Frames

/-! ### Heritable properties -/

/-- A property of nodes that passes to whatever evaluation makes of a node. -/
structure Node.Heritable (T : FunctionTable → Prop) (P : Node → Prop) : Prop where
  yields : ∀ {Result s n r}, P n → (∀ f ∈ s.frames, f.Carries T) → Node.Yields Result s n r → P r
  list : ∀ v, P (.value {} [v])
  string : ∀ {info quote text escaped} filled, P (.quoted info quote text escaped) →
    (Node.quoted info quote text escaped).Spells → P (.quoted info quote filled escaped)
  condition : ∀ {info id}, P (.query info id) → P (.query info.snapshot id)
  narrow : ∀ d, P (.ruleset (.ofRules [] [d]))

/-- Two heritable properties. -/
lemma Node.Heritable.and {T : FunctionTable → Prop} {P Q : Node → Prop}
    (hP : Node.Heritable T P) (hQ : Node.Heritable T Q) :
    Node.Heritable T fun n => P n ∧ Q n where
  yields hn hframes hr := ⟨hP.yields hn.1 hframes hr, hQ.yields hn.2 hframes hr⟩
  list v := ⟨hP.list v, hQ.list v⟩
  string filled h hspells := ⟨hP.string filled h.1 hspells, hQ.string filled h.2 hspells⟩
  condition h := ⟨hP.condition h.1, hQ.condition h.2⟩
  narrow d := ⟨hP.narrow d, hQ.narrow d⟩

/-- Carrying tables of a kind is heritable: a detached ruleset is given the frames in scope. -/
lemma Node.heritable_carries (T : FunctionTable → Prop) : Node.Heritable T (Node.Carries T) where
  yields {Result s n r} hn hframes hr := by
    cases hr with
    | @detached info body frames =>
      cases frames with
      | none => exact hframes
      | some frames => exact hn
    | calculated h => cases h.calculated <;> trivial
    | _ => trivial
  list _ := trivial
  string _ _ _ := trivial
  condition _ := trivial
  narrow _ := trivial

/-- The rulesets kept by what is put together are kept by the node already, or belong to the
frames in scope. -/
lemma Node.Yields.mem_held {Result : Node → Prop} {s : Scope} {n r c : Node}
    (h : Node.Yields Result s n r) (hc : c ∈ r.held) :
    c ∈ n.held ∨ ∃ f ∈ s.frames, ∃ rs, f.ruleset = some rs ∧ c = .ruleset rs := by
  cases h with
  | @detached info body frames =>
    cases frames with
    | some frames => exact .inl hc
    | none =>
      simp only [Node.held, Option.getD_none, Option.getD_some, List.map_append, List.mem_append,
        List.mem_map, List.mem_filterMap, Option.mem_toList] at hc
      rcases hc with ⟨rs, hrs, rfl⟩ | ⟨rs, ⟨f, hf, hrs⟩, rfl⟩
      · exact .inl (by simp [Node.held, hrs])
      · exact .inr ⟨f, hf, rs, hrs, rfl⟩
  | calculated h => cases h.calculated <;> simp [Node.held] at hc
  | _ => simp [Node.held, Node.ofBool] at hc

/-- A list around a value. -/
lemma Node.throughout_asValue {P : Node → Prop} (hlist : ∀ v, P (.value {} [v])) {v : Node}
    (hv : v.Throughout P) : v.asValue.Throughout P := by
  rcases Node.asValue_cases v with heq | heq
  · rwa [heq]
  · rw [heq]
    refine Node.throughout_iff.2 ⟨hlist v, ?_, ?_⟩
    · simpa [Node.children] using hv
    · simp [Node.held]

/-- A property of a node that is put together is one of all its nodes, if the results it is put
together from, the node that it is made from and the frames in scope have it throughout. -/
lemma Node.Yields.throughout {P Result : Node → Prop} {s : Scope} {n r : Node}
    (hr : Node.Yields Result s n r) (hself : P r) (hlist : ∀ v, P (.value {} [v]))
    (hframes : ∀ f ∈ s.frames, f.Throughout P) (hn : n.Throughout P)
    (hresult : ∀ v, Result v → v.Throughout P) : r.Throughout P := by
  refine Node.throughout_iff.2 ⟨hself, fun c hc => ?_, fun c hc => ?_⟩
  · rcases hr.mem_children hc with hc | ⟨v, hv, rfl⟩
    · exact hresult c hc
    · exact Node.throughout_asValue hlist (hresult v hv)
  · rcases hr.mem_held hc with hc | ⟨f, hf, rs, hrs, rfl⟩
    · exact hn.ofHeld hc
    · exact Frame.throughout_iff.1 (hframes f hf) rs hrs

namespace Node.Heritable

variable {T : FunctionTable → Prop} {P : Node → Prop} {s : Scope}

/-- A string whose placeholders were filled in. -/
lemma throughout_string (h : Node.Heritable T P) {info : Info} {quote : Char} {text : String}
    {escaped : Bool} (filled : String) (hn : (Node.quoted info quote text escaped).Throughout P)
    (hspells : (Node.quoted info quote text escaped).Spells) :
    (Node.quoted info quote filled escaped).Throughout P :=
  Node.throughout_iff.2
    ⟨h.string filled hn.self hspells, by simp [Node.children], by simp [Node.held]⟩

/-- A condition of a query. -/
lemma throughout_condition (h : Node.Heritable T P) {info : Info} {id : QueryId}
    (hn : (Node.query info id).Throughout P) : (Node.query info.snapshot id).Throughout P :=
  Node.throughout_iff.2 ⟨h.condition hn.self, by simp [Node.children], by simp [Node.held]⟩

/-- One step of evaluation: what a node yields has the property throughout, if the node, the frames
in scope and the results it is put together from have it. -/
theorem throughout_of_yields (h : Node.Heritable T P) {Result : Node → Prop} {n r : Node}
    (hframes : ∀ f ∈ s.frames, f.Fits T P) (hn : n.Throughout P)
    (hresult : ∀ v, Result v → v.Throughout P) (hr : Node.Yields Result s n r) :
    r.Throughout P :=
  hr.throughout (h.yields hn.self (fun f hf => (hframes f hf).carries) hr) h.list
    (fun f hf => (hframes f hf).throughout) hn hresult

end Node.Heritable

/-! ### Scopes whose frames have a property -/

/-- A scope whose frames fit, and which does not know what the functions of the caller in their
tables do. -/
structure Scope.Fits (T : FunctionTable → Prop) (P : Node → Prop) (s : Scope) : Prop where
  frames : ∀ f ∈ s.frames, f.Fits T P
  custom : ∀ {table name key}, T table → table.find? name = some (.custom key) →
    s.custom key = none

namespace Scope.Fits

variable {T : FunctionTable → Prop} {P : Node → Prop} {s : Scope}

/-- Other frames that fit. -/
lemma setFrames (h : s.Fits T P) {frames : List Frame} (hframes : ∀ f ∈ frames, f.Fits T P) :
    (s.setFrames frames).Fits T P :=
  ⟨hframes, h.custom⟩

/-- One more frame that fits. -/
lemma pushFrame (h : s.Fits T P) {frame : Frame} (hframe : frame.Fits T P) :
    (s.pushFrame frame).Fits T P :=
  ⟨List.forall_mem_cons.2 ⟨hframe, h.frames⟩, h.custom⟩

/-- The scope inside a ruleset. -/
lemma pushRuleset (h : s.Fits T P) {rs : Ruleset} (hrs : (Node.ruleset rs).Throughout P) :
    (s.pushFrame (s.frameOf rs)).Fits T P :=
  h.pushFrame (Frame.fits_frameOf (fun f hf => (h.frames f hf).carries) hrs)

/-- The value of a variable. -/
lemma source_of_lookup? (h : s.Fits T P) {name : String} {found : Binding}
    (hfound : Frame.lookup? name s.frames = some found) : found.value.Throughout P := by
  obtain ⟨⟨info, traits, hd, _⟩, _⟩ := Frame.fits_of_lookup? h.frames hfound
  refine hd.child ?_
  simp [Node.children]

/-- The scope in which the value of a variable is evaluated. -/
lemma enterBinding (h : s.Fits T P) {name : String} {found : Binding}
    (hfound : Frame.lookup? name s.frames = some found) :
    ((s.enterVariable name).setFrames (s.bindingFrames found)).Fits T P :=
  ⟨Frame.fits_bindingFrames (fun f hf => (h.frames f hf).carries)
    (Frame.fits_of_lookup? h.frames hfound).2, h.custom⟩

/-- The scope in which a detached ruleset is called. -/
lemma pushCaptured (h : s.Fits T P) (hP : ∀ n, P n → n.Carries T) {info : Info}
    {body : Option Ruleset} {frames : List Frame}
    (hn : (Node.detached info body (some frames)).Throughout P) :
    (s.setFrames (frames ++ s.frames)).Fits T P := by
  refine h.setFrames (List.forall_mem_append.2 ⟨fun f hf => ⟨?_, ?_⟩, h.frames⟩)
  · exact hP _ hn.self f hf
  · refine Frame.throughout_iff.2 fun rs hrs => hn.ofHeld ?_
    simp only [Node.held, Option.getD_some, List.mem_map, List.mem_append, List.mem_filterMap]
    exact ⟨rs, .inr ⟨f, hf, hrs⟩, rfl⟩

/-- The scope in which a query condition is evaluated under one declaration. -/
lemma pushNarrow (h : s.Fits T P) (hP : Node.Heritable T P) {d : Node}
    (hd : d ∈ Resolver.variablesInScope s) :
    (s.pushFrame (Resolver.narrowFrame s d)).Fits T P := by
  obtain ⟨f, hf, hd⟩ := List.mem_flatMap.1 hd
  refine h.pushRuleset (Node.throughout_iff.2 ⟨hP.narrow d, ?_, by simp [Node.held]⟩)
  simpa [Node.children, Ruleset.ofRules, Ruleset.rules] using
    (h.frames f hf).rule (List.mem_filter.1 hd).1

/-- No function of the caller is ever called. -/
lemma custom_eq_none (h : s.Fits T P) {table : FunctionTable} {name key : String}
    (htable : s.functionTable = .ok table) (hfind : table.find? name = some (.custom key)) :
    s.custom key = none :=
  h.custom (Scope.carries_functionTable (fun f hf => (h.frames f hf).carries) htable) hfind

/-- Built-in functions are no functions of the caller. -/
lemma ofNative (h : ∀ f ∈ s.frames, f.Fits FunctionTable.IsNative P) :
    s.Fits FunctionTable.IsNative P where
  frames := h
  custom htable hfind := absurd (htable.isBuiltin_of_find? hfind) Bool.false_ne_true

end Scope.Fits

/-! ### Query conditions whose nodes have a property -/

/-- A property that all nodes in the state of a query condition have. -/
def Query.Throughout (P : Node → Prop) (state : Query) : Prop :=
  ∀ n ∈ state.operands ++ state.candidates, n.Throughout P

instance {P : Node → Prop} [DecidablePred P] (state : Query) : Decidable (state.Throughout P) :=
  inferInstanceAs (Decidable (∀ n ∈ state.operands ++ state.candidates, n.Throughout P))

/-- A property of all states passes to the changed states. -/
lemma Queries.forall_modify {p : Query → Prop} {q : Queries} {id : QueryId} {f : Query → Query}
    (h : ∀ state ∈ q, p state) (hf : ∀ state, p state → p (f state)) :
    ∀ state ∈ q.modify id f, p state := by
  intro state hstate
  obtain ⟨i, hi⟩ := List.mem_iff_getElem?.1 hstate
  rw [List.getElem?_modify] at hi
  obtain ⟨old, hold, rfl⟩ := Option.map_eq_some_iff.1 hi
  have hp := h old (List.mem_of_getElem? hold)
  split
  · exact hf old hp
  · exact hp

/-- The sides after an evaluation: the evaluated ones, and the first candidate of all. -/
lemma Query.mem_sides_record {state : Query} {left n : Node} {middle right : Option Node}
    {found : List Node} (h : n ∈ (state.record left middle right found).sides) :
    n = left ∨ n ∈ middle ∨ n ∈ right ∨
      n ∈ (state.record left middle right found).candidates.head? := by
  simp only [Query.sides, Query.record, List.mem_cons, List.mem_append, Option.mem_toList,
    Option.or_eq_some_iff, Option.map_eq_some_iff, Option.bind_eq_some_iff] at h ⊢
  rcases h with rfl | (h | ⟨_, h⟩) | ⟨_, ⟨_, _, r, hr, rfl⟩, rfl⟩
  · exact .inl rfl
  · exact .inr (.inr (.inr h))
  · exact .inr (.inl h)
  · exact .inr (.inr (.inl hr))

namespace Query.Throughout

variable {P : Node → Prop} {state : Query}

/-- The template is a middle of the condition. -/
lemma withTemplate (h : state.Throughout P) : state.withTemplate.Throughout P := by
  intro n hn
  refine h n ?_
  simp only [Query.operands, Query.sides, Query.withTemplate, List.mem_append, List.mem_cons,
    Option.mem_toList, Option.or_eq_some_iff] at hn ⊢
  tauto

/-- The recorded sides and candidates. -/
lemma record (h : state.Throughout P) {left : Node} {middle right : Option Node}
    {found : List Node} (hleft : left.Throughout P) (hmiddle : ∀ r ∈ middle, r.Throughout P)
    (hright : ∀ r ∈ right, r.Throughout P) (hfound : ∀ r ∈ found, r.Throughout P) :
    (state.record left middle right found).Throughout P := by
  have hcandidates : ∀ n ∈ state.candidates ++ found, n.Throughout P :=
    List.forall_mem_append.2 ⟨fun n hn => h n (List.mem_append_right _ hn), hfound⟩
  refine List.forall_mem_append.2 ⟨List.forall_mem_append.2 ⟨fun n hn => ?_, fun n hn => ?_⟩,
    hcandidates⟩
  · rcases Query.mem_sides_record hn with rfl | hn | hn | hn
    · exact hleft
    · exact hmiddle n hn
    · exact hright n hn
    · exact hcandidates n (List.mem_of_mem_head? hn)
  · exact h n (List.mem_append_left _ (List.mem_append_right _ hn))

end Query.Throughout

end Cascade
