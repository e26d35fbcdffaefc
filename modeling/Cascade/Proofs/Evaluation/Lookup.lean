import Mathlib.Tactic.Lemma
import Cascade.Eval.Scope

/-!
# The lookup of variables

A variable is looked up from the innermost frame outwards.  `Frame.lookup?_eq_some_iff` says what
is found: the last declaration in the first frame that has one.  Hence frames further out do not
matter to what is found already, and only the rulesets of the frames matter.
-/

namespace Cascade

namespace Frame

/-- The value and the marker that the last declaration of a variable in a frame gives it. -/
def declared? (name : String) (frame : Frame) : Option (Node × String) :=
  frame.rules.reverse.findSome? (Node.bindingOf? name)

variable {name : String} {frames outer : List Frame} {found : Binding}

/-- What a frame declares comes from one of its rules. -/
lemma exists_of_declared? {frame : Frame} {v : Node} {marker : String}
    (h : frame.declared? name = some (v, marker)) :
    ∃ rule ∈ frame.rules, rule.bindingOf? name = some (v, marker) := by
  obtain ⟨rule, hrule, hbinding⟩ := List.exists_of_findSome?_eq_some h
  exact ⟨rule, List.mem_reverse.1 hrule, hbinding⟩

/-- The last rule that declares a variable decides what a frame declares. -/
lemma declared?_eq_getLast? (name : String) (frame : Frame) :
    frame.declared? name = (frame.rules.filterMap (Node.bindingOf? name)).getLast? := by
  rw [declared?, ← List.head?_filterMap, List.filterMap_reverse, List.head?_reverse]

/-- The innermost frame that declares a variable decides. -/
lemma lookup?_cons (name : String) (frame : Frame) (outer : List Frame) :
    Frame.lookup? name (frame :: outer) =
      match frame.declared? name with
      | some (value, important) => some ⟨value, important, frame :: outer⟩
      | none => Frame.lookup? name outer :=
  rfl

/-- What is found is declared in the first frame that declares the variable. -/
theorem lookup?_eq_some_iff :
    Frame.lookup? name frames = some found ↔
      ∃ inner frame outer, frames = inner ++ frame :: outer ∧
        (∀ f ∈ inner, f.declared? name = none) ∧
        frame.declared? name = some (found.value, found.important) ∧
        found.frames = frame :: outer := by
  induction frames with
  | nil => simp [Frame.lookup?]
  | cons frame rest ih =>
    rw [lookup?_cons]
    cases hdeclared : frame.declared? name with
    | some binding =>
      constructor
      · intro h
        refine ⟨[], frame, rest, rfl, by simp, ?_, ?_⟩
        · rw [hdeclared, ← Option.some.inj h]
        · rw [← Option.some.inj h]
      · rintro ⟨inner, frame', outer, hframes, hinner, hdeclared', hfound⟩
        cases inner with
        | nil =>
          obtain ⟨rfl, rfl⟩ := List.cons.inj hframes
          rw [hdeclared] at hdeclared'
          rw [Option.some.inj hdeclared', ← hfound]
        | cons first inner =>
          obtain ⟨rfl, _⟩ := List.cons.inj hframes
          rw [hinner frame List.mem_cons_self] at hdeclared
          cases hdeclared
    | none =>
      dsimp only
      rw [ih]
      constructor
      · rintro ⟨inner, frame', outer, rfl, hinner, hdeclared', hfound⟩
        refine ⟨frame :: inner, frame', outer, rfl, ?_, hdeclared', hfound⟩
        exact List.forall_mem_cons.2 ⟨hdeclared, hinner⟩
      · rintro ⟨inner, frame', outer, hframes, hinner, hdeclared', hfound⟩
        cases inner with
        | nil =>
          obtain ⟨rfl, _⟩ := List.cons.inj hframes
          rw [hdeclared] at hdeclared'
          cases hdeclared'
        | cons first inner =>
          obtain ⟨_, rfl⟩ := List.cons.inj hframes
          exact ⟨inner, frame', outer, rfl, (List.forall_mem_cons.1 hinner).2, hdeclared', hfound⟩

/-- The frames of a binding start at the frame of its declaration. -/
lemma frames_ne_nil_of_lookup? (h : Frame.lookup? name frames = some found) :
    found.frames ≠ [] := by
  obtain ⟨inner, frame, outer, _, _, _, hfound⟩ := lookup?_eq_some_iff.1 h
  rw [hfound]
  exact List.cons_ne_nil frame outer

/-- The frames of a binding are the last ones of those in which it was found. -/
lemma suffix_of_lookup? (h : Frame.lookup? name frames = some found) :
    found.frames <:+ frames := by
  obtain ⟨inner, frame, outer, hframes, _, _, hfound⟩ := lookup?_eq_some_iff.1 h
  exact ⟨inner, by rw [hfound, hframes]⟩

/-- What is found in some frames is found with more frames around them. -/
lemma lookup?_append (h : Frame.lookup? name frames = some found) (outer : List Frame) :
    Frame.lookup? name (frames ++ outer) =
      some { found with frames := found.frames ++ outer } := by
  obtain ⟨inner, frame, rest, rfl, hinner, hdeclared, hfound⟩ := lookup?_eq_some_iff.1 h
  refine lookup?_eq_some_iff.2 ⟨inner, frame, rest ++ outer, ?_, hinner, hdeclared, ?_⟩
  · rw [List.append_assoc, List.cons_append]
  · show found.frames ++ outer = frame :: (rest ++ outer)
    rw [hfound, List.cons_append]

/-- What a frame declares depends on its ruleset only. -/
lemma declared?_of_ruleset {f f' : Frame} (h : f'.ruleset = f.ruleset) (name : String) :
    f'.declared? name = f.declared? name := by
  unfold declared? Frame.rules
  rw [h]

/-- Only the rulesets of frames matter to a lookup. -/
lemma lookup?_of_rulesets {frames' : List Frame} {outer : List (Option Ruleset)}
    (h : Frame.lookup? name frames = some found)
    (hframes : frames'.map Frame.ruleset = frames.map Frame.ruleset ++ outer) :
    ∃ found', Frame.lookup? name frames' = some found' ∧ found'.value = found.value ∧
      found'.important = found.important ∧
      found'.frames.map Frame.ruleset = found.frames.map Frame.ruleset ++ outer := by
  obtain ⟨inner, frame, rest, rfl, hinner, hdeclared, hfound⟩ := lookup?_eq_some_iff.1 h
  rw [List.map_append, List.append_assoc] at hframes
  obtain ⟨inner', rest', rfl, hinner', hrest'⟩ := List.map_eq_append_iff.1 hframes
  rw [List.map_cons, List.cons_append] at hrest'
  obtain ⟨frame', rest', rfl, hruleset, hrest'⟩ := List.map_eq_cons_iff.1 hrest'
  refine ⟨⟨found.value, found.important, frame' :: rest'⟩, ?_, rfl, rfl, ?_⟩
  · refine lookup?_eq_some_iff.2 ⟨inner', frame', rest', rfl, fun f hf => ?_, ?_, rfl⟩
    · have hmem : f.ruleset ∈ inner.map Frame.ruleset := by
        rw [← hinner']
        exact List.mem_map_of_mem hf
      obtain ⟨g, hg, hruleset⟩ := List.mem_map.1 hmem
      rw [declared?_of_ruleset hruleset.symm]
      exact hinner g hg
    · rw [declared?_of_ruleset hruleset]
      exact hdeclared
  · rw [hfound, List.map_cons, List.map_cons, hruleset, hrest', List.cons_append]

/-- A function table given to the innermost frame leaves the rulesets as they are. -/
lemma map_ruleset_fillFunctions (functions : Option FunctionTable) (frames : List Frame) :
    (Frame.fillFunctions functions frames).map Frame.ruleset = frames.map Frame.ruleset := by
  cases frames with
  | nil => rfl
  | cons frame rest =>
    cases frame
    rfl

end Frame

end Cascade
