import Cascade.Proofs.Evaluation.Provision

/-!
# The markers of declarations

A variable may be declared with a marker such as `!important`.  Its value then marks the declaration
that it is used in.  Markers only go this way: the markers that the declarations around have been
given so far do not influence an evaluation, and a declaration is marked by itself, or else by the
last marked variable among those that are looked up for its value (`Context.evaluate_markers`).
-/

namespace Cascade

/-- A function table, if there is one, with built-in functions only. -/
def FunctionTable.NativeIfAny (functions : Option FunctionTable) : Prop :=
  ∀ table ∈ functions, table.IsNative

/-- The frames that a detached ruleset was written in carry built-in functions only. -/
lemma Node.provides_nativeIfAny {n : Node} :
    n.Provides FunctionTable.NativeIfAny ↔ n.IsNative := by
  cases n <;> exact Iff.rfl

/-- The traits of a declaration after the evaluation of its value: it is marked by the last marker
in the course of the evaluation, or else by its own. -/
def DeclarationTraits.markedBy (traits : DeclarationTraits) (events : List Event) :
    DeclarationTraits :=
  let marker := (Event.lastMarker events).map Node.importantMarker
  { traits with important := marker.getD traits.important }

namespace Context

/-- The context with other markers of the declarations around. -/
def withMarkers (c : Context) (markers : List (Option String)) : Context :=
  { c with important := markers }

/-- The context for the value of a declaration whose name is known: no declaration is around that
could be marked. -/
def forValue (c : Context) (property : String) (queries : Queries) : Context :=
  { c with math := c.scope.mathOf property, queries, important := [] }

/-- The course of evaluating the name of a declaration in a context. -/
def nameCourse (c : Context) (depth : Nat) (name : PropertyName) : Course String :=
  let evaluation : Observed String := PropertyName.evalWith ⟨Node.eval depth, Node.eval depth⟩ name
  evaluation c.scope c.queries

/-- The course of an evaluation does not depend on the markers of the declarations around. -/
lemma course_withMarkers (c : Context) (markers : List (Option String)) (depth : Nat)
    (node : Node) : (c.withMarkers markers).course depth node = c.course depth node :=
  rfl

/-- A declaration is put together from its name, from its value, and from its own marker or the last
one in the course of evaluating the value. -/
lemma course_declaration {c : Context} {depth : Nat} {info : Info} {name : PropertyName}
    {value r : Node} {traits : DeclarationTraits}
    (h : (c.course (depth + 1) (.declaration info name value traits)).result = .ok r) :
    ∃ text v, (c.nameCourse depth name).result = .ok text ∧
      let course := (c.forValue text (c.nameCourse depth name).queries).course (depth + 1) value
      course.result = .ok v ∧
        r = .declaration info.snapshot (.literal text) v.asValue
          ((name.traits traits).markedBy course.events) := by
  unfold course at h
  rw [Node.eval, Node.evalWith, Observed.bind_result_eq_ok] at h
  obtain ⟨text, hname, h⟩ := h
  obtain ⟨_, ⟨⟩, h⟩ := Observed.bind_result_eq_ok.1 h
  obtain ⟨⟨v, marker⟩, hvalue, h⟩ := Observed.bind_result_eq_ok.1 h
  obtain ⟨hresult, rfl⟩ := Observed.capture_result_eq_ok.1 hvalue
  refine ⟨text, v, hname, hresult, ?_⟩
  replace h := Observed.ofExcept_result_eq_ok.1 h
  dsimp only [Node.finishDeclaration] at h
  split at h
  · cases h
  · exact (Except.ok.inj h).symm

/-! ### Built-in functions only -/

/-- A context with built-in functions only. -/
structure IsNative (c : Context) : Prop where
  frames : ∀ f ∈ c.frames, f.Fits FunctionTable.IsNative Node.IsNative
  queries : ∀ state ∈ c.queries, state.Throughout Node.IsNative

namespace IsNative

variable {c : Context}

/-- The scope of the context provides tables of built-in functions. -/
lemma provides (h : c.IsNative) : c.scope.Provides FunctionTable.NativeIfAny where
  innermost _ := Scope.carries_functions? fun f hf => (h.frames f hf).carries
  frames f hf := ⟨(h.frames f hf).carries, fun n hn =>
    Node.provides_nativeIfAny.2 ((h.frames f hf).throughout n hn)⟩

/-- What is evaluated in the context goes through such scopes only. -/
lemma keeps (h : c.IsNative) (depth : Nat) {node : Node} (hnode : node.Throughout Node.IsNative) :
    (Watch.provision FunctionTable.NativeIfAny).Keeps c.scope
      (Node.Throughout (Node.Provides FunctionTable.NativeIfAny)) (Node.eval depth node) :=
  h.provides.eval (fun table htable => htable table rfl) depth
    (hnode.imp fun _ => Node.provides_nativeIfAny.2)

/-- The states of the query conditions at the start. -/
lemma states (h : c.IsNative) : (Watch.provision FunctionTable.NativeIfAny).States c.queries :=
  fun state hstate n hn => (h.queries state hstate n hn).imp fun _ => Node.provides_nativeIfAny.2

/-- Only markers of variables that are looked up come up in the evaluation of a node. -/
lemma announces_of_marks (h : c.IsNative) {depth : Nat} {node : Node}
    (hnode : node.Throughout Node.IsNative) {s : Scope} {marker : String}
    (hevent : .marks s marker ∈ (c.course depth node).events) : s.Announces marker :=
  (h.keeps depth hnode c.queries h.states).events _ hevent

/-- The context for the value of a declaration. -/
lemma forValue (h : c.IsNative) (property : String) (depth : Nat) {name : PropertyName}
    (hname : ∀ part ∈ name.parts, part.Throughout Node.IsNative) :
    (c.forValue property (c.nameCourse depth name).queries).IsNative where
  frames := h.frames
  queries := by
    have hkept := Watch.Keeps.propertyName
      (fun part hpart => h.keeps (depth + 1) (hname part hpart)) c.queries h.states
    intro state hstate n hn
    exact (hkept.states state hstate n hn).imp fun _ => Node.provides_nativeIfAny.1

end IsNative

/-! ### Markers -/

/-- Markers do not reach inwards.  The markers that the declarations around have been given change
neither the result of an evaluation nor what it does otherwise.  Where functions are built-in ones,
a declaration is evaluated to one that is marked by the last marker met in the evaluation of its
value, each of which belongs to a variable looked up there, or else by its own. -/
theorem evaluate_markers (c : Context) (depth : Nat) :
    (∀ (node : Node) (markers : List (Option String)),
        ((c.withMarkers markers).evaluate depth node).1 = (c.evaluate depth node).1 ∧
          ((c.withMarkers markers).evaluate depth node).2.withMarkers c.important =
            (c.evaluate depth node).2.withMarkers c.important) ∧
      ∀ (info : Info) (name : PropertyName) (value : Node) (traits : DeclarationTraits) (r : Node),
        c.IsNative → (Node.declaration info name value traits).Throughout Node.IsNative →
        (c.evaluate (depth + 1) (.declaration info name value traits)).1 = .ok r →
        ∃ text v, (c.nameCourse depth name).result = .ok text ∧
          let course := (c.forValue text (c.nameCourse depth name).queries).course (depth + 1) value
          course.result = .ok v ∧
            r = .declaration info.snapshot (.literal text) v.asValue
              ((name.traits traits).markedBy course.events) ∧
            ∀ s marker, .marks s marker ∈ course.events → s.Announces marker := by
  constructor
  · intro node markers
    rw [evaluate_eq_course, evaluate_eq_course, course_withMarkers]
    exact ⟨rfl, rfl⟩
  · intro info name value traits r hc hdeclaration hr
    rw [evaluate_eq_course] at hr
    obtain ⟨text, v, hname, hvalue, hr⟩ := course_declaration hr
    have hparts : ∀ part ∈ name.parts, part.Throughout Node.IsNative :=
      fun part hpart => hdeclaration.child (by simp [Node.children, hpart])
    refine ⟨text, v, hname, hvalue, hr, fun s marker hevent => ?_⟩
    exact (hc.forValue text depth hparts).announces_of_marks
      (hdeclaration.child (by simp [Node.children])) hevent

end Context

/-- A marked variable, inside declarations that have been given markers. -/
def accentContext : Context :=
  let traits : DeclarationTraits := { isVariable := true, important := " !important" }
  let accent := .declaration {} (.literal "@accent") (.keyword {} "red") traits
  { frames := [.mk (some (.ofRules [] [accent])) (some .builtins)]
    important := [some " !outer", none] }

/-- The variable marks a declaration that uses it, whatever markers are around. -/
theorem evaluate_markers_accentContext :
    let marked : DeclarationTraits := { important := " !important" }
    let declared : Node := .declaration {} (.literal "color") (.value {} [.keyword {} "red"]) marked
    let rule : Node := .declaration {} (.literal "color") (.variableRef {} "@accent") {}
    (accentContext.evaluate 2 rule).1 = .ok declared ∧
      ((accentContext.withMarkers []).evaluate 2 rule).1 = .ok declared ∧
      ∃ text v, (accentContext.nameCourse 1 (.literal "color")).result = .ok text ∧
        let inner := accentContext.forValue text
          (accentContext.nameCourse 1 (.literal "color")).queries
        let course := inner.course 2 (.variableRef {} "@accent")
        course.result = .ok v ∧
          declared = .declaration {} (.literal text) v.asValue
            (DeclarationTraits.markedBy {} course.events) ∧
          ∀ s marker, .marks s marker ∈ course.events → s.Announces marker := by
  intro marked declared rule
  have hnative : accentContext.IsNative := by
    refine ⟨fun f hf => ?_, List.forall_mem_nil _⟩
    rw [List.mem_singleton.1 hf]
    constructor <;> decide
  have hdeclared : (accentContext.evaluate 2 rule).1 = .ok declared := by rfl
  obtain ⟨hinwards, _⟩ := accentContext.evaluate_markers 2
  refine ⟨hdeclared, (hinwards rule []).1.trans hdeclared, ?_⟩
  exact (accentContext.evaluate_markers 1).2 _ _ _ _ _ hnative (by decide) hdeclared

end Cascade
