import Cascade.Proofs.Evaluation.Lookup
import Cascade.Proofs.Tree.Rebuild

/-!
# The core of a tree

Of the frames that a detached ruleset was written in, only the declarations of variables matter
later.  The core of a tree has all other rules taken out of these frames, in every detached ruleset
it contains.  Two trees with the same core differ only in what nothing looks at.

`Node.core_eq` says that the core of a node that is no detached ruleset is the node with the cores
of its parts, so that nodes with the same core have the same shape and parts with the same cores.
`Frame.lookup?_core` says that a variable is found in the cores of frames where it is found in the
frames.
-/

namespace Cascade

/-- Whether a rule declares a variable under a name that is known. -/
def Node.isBinding : Node → Bool
  | .declaration _ (.literal _) _ traits => traits.isVariable
  | _ => false

mutual

/-- The node with the frames of its detached rulesets reduced to the declarations of variables. -/
def Node.core : Node → Node
  | .assignment info key v => .assignment info key (Node.core v)
  | .attribute info key operator (some v) flag =>
    .attribute info key operator (some (Node.core v)) flag
  | .call info name args asCalc => .call info name (Node.coreEach args) asCalc
  | .condition info relation l r negate =>
    .condition info relation (Node.core l) (Node.core r) negate
  | .declaration info name v traits =>
    .declaration info (PropertyName.core name) (Node.core v) traits
  | .detached info body frames =>
    let body := match body with
      | some rs => some (Ruleset.core rs)
      | none => none
    let frames := match frames with
      | some frames => some (Frame.coreEach frames)
      | none => none
    .detached info body frames
  | .expression info items form => .expression info (Node.coreEach items) form
  | .negative info v => .negative info (Node.core v)
  | .operation info operator l r spaced =>
    .operation info operator (Node.core l) (Node.core r) spaced
  | .paren info v => .paren info (Node.core v)
  | .ruleset rs => .ruleset (Ruleset.core rs)
  | .value info items => .value info (Node.coreEach items)
  | leaf => leaf

/-- The cores of some nodes. -/
def Node.coreEach : List Node → List Node
  | [] => []
  | node :: rest => Node.core node :: Node.coreEach rest

/-- The cores of the declarations of variables among some rules. -/
def Node.coreBindings : List Node → List Node
  | [] => []
  | rule :: rest =>
    if rule.isBinding then Node.core rule :: Node.coreBindings rest else Node.coreBindings rest

/-- The name of a declaration with the cores of its parts. -/
def PropertyName.core : PropertyName → PropertyName
  | .literal text => .literal text
  | .interpolated parts => .interpolated (Node.coreEach parts)

/-- The ruleset with the cores of its rules. -/
def Ruleset.core : Ruleset → Ruleset
  | .mk info selectors rules root => .mk info selectors (Node.coreEach rules) root

/-- The frame with nothing but the declarations of variables. -/
def Frame.core : Frame → Frame
  | .mk (some (.mk _ _ rules _)) functions =>
    .mk (some (.ofRules [] (Node.coreBindings rules))) functions
  | .mk none functions => .mk (some (.ofRules [] [])) functions

/-- The cores of some frames. -/
def Frame.coreEach : List Frame → List Frame
  | [] => []
  | frame :: rest => Frame.core frame :: Frame.coreEach rest

end

/-! ### Cores of lists -/

/-- The cores of some nodes, one by one. -/
lemma Node.coreEach_eq_map (nodes : List Node) : Node.coreEach nodes = nodes.map Node.core := by
  induction nodes with
  | nil => rfl
  | cons node rest ih => exact congrArg (node.core :: ·) ih

/-- The cores of some frames, one by one. -/
lemma Frame.coreEach_eq_map (frames : List Frame) :
    Frame.coreEach frames = frames.map Frame.core := by
  induction frames with
  | nil => rfl
  | cons frame rest ih => exact congrArg (frame.core :: ·) ih

/-- The declarations of variables among some rules. -/
lemma Node.coreBindings_eq (rules : List Node) :
    Node.coreBindings rules = (rules.filter Node.isBinding).map Node.core := by
  induction rules with
  | nil => rfl
  | cons rule rest ih =>
    show (if rule.isBinding then rule.core :: Node.coreBindings rest else _) = _
    rw [List.filter_cons]
    split
    · rw [List.map_cons, ih]
    · exact ih

namespace Node

/-- The core of a detached ruleset. -/
lemma core_detached (info : Info) (body : Option Ruleset) (frames : Option (List Frame)) :
    (Node.detached info body frames).core =
      .detached info (body.map Ruleset.core) (frames.map (List.map Frame.core)) := by
  cases frames with
  | none => cases body <;> rfl
  | some frames =>
    rw [Option.map_some, ← Frame.coreEach_eq_map]
    cases body <;> rfl

/-- The core of a node that is no detached ruleset has the cores of the parts. -/
lemma core_eq {n : Node} (h : n.isDetached = false) :
    n.core = n.withChildren (n.children.map Node.core) := by
  match n with
  | .detached .. => simp [isDetached] at h
  | .call info name args asCalc =>
    exact congrArg (Node.call info name · asCalc) (coreEach_eq_map args)
  | .expression info items form =>
    exact congrArg (Node.expression info · form) (coreEach_eq_map items)
  | .value info items => exact congrArg (Node.value info) (coreEach_eq_map items)
  | .declaration info (.interpolated parts) v traits =>
    have hparts : ((parts ++ [v]).map Node.core).dropLast = parts.map Node.core ∧
        ((parts ++ [v]).map Node.core).getLastD v = v.core := by simp
    show Node.declaration info (.interpolated (coreEach parts)) v.core traits =
      .declaration info (.interpolated ((parts ++ [v]).map Node.core).dropLast)
        (((parts ++ [v]).map Node.core).getLastD v) traits
    rw [hparts.1, hparts.2, coreEach_eq_map]
  | .ruleset (.mk info selectors rules root) =>
    exact congrArg (fun rules => Node.ruleset (.mk info selectors rules root))
      (coreEach_eq_map rules)
  | .declaration _ (.literal _) _ _ | .attribute _ _ _ none _ | .attribute _ _ _ (some _) _
  | .assignment .. | .negative .. | .paren .. | .condition .. | .operation .. | .anonymous ..
  | .color .. | .comment .. | .dimension .. | .javaScript .. | .keyword .. | .query ..
  | .quoted .. | .unicodeDescriptor .. | .variableRef .. | .variableCall .. => rfl

/-- A node has the shape of its core. -/
lemma sameShape_core (n : Node) : n.SameShape n.core := by
  cases hdetached : n.isDetached with
  | false =>
    rw [core_eq hdetached]
    exact .rebuilt n (List.length_map _)
  | true =>
    cases n with
    | detached info body frames =>
      rw [core_detached]
      exact .detached info body _ frames _
    | _ => simp [isDetached] at hdetached

/-- The parts of the core of a node are the cores of its parts. -/
lemma children_core (n : Node) : n.core.children = n.children.map Node.core := by
  cases hdetached : n.isDetached with
  | false =>
    rw [core_eq hdetached]
    exact children_withChildren (List.length_map _)
  | true =>
    cases n with
    | detached info body frames =>
      rw [core_detached]
      rfl
    | _ => simp [isDetached] at hdetached

/-- The core of a node with other parts. -/
lemma core_withChildren {n : Node} {cs : List Node} (hdetached : n.isDetached = false)
    (hcs : cs.length = n.children.length) :
    (n.withChildren cs).core = n.withChildren (cs.map Node.core) := by
  have hshape : n.SameShape (n.withChildren cs) := .rebuilt n hcs
  rw [core_eq ((hshape.apply_eq overlooks_isDetached).trans hdetached), children_withChildren hcs,
    withChildren_withChildren hcs (by rw [List.length_map, hcs])]

/-- Lists of nodes with the same cores. -/
lemma map_core_eq_iff {nodes nodes' : List Node} :
    nodes'.map Node.core = nodes.map Node.core ↔
      List.Forall₂ (fun c c' => c'.core = c.core) nodes nodes' := by
  constructor
  · intro h
    rw [← List.forall₂_map_left_iff (R := fun c c' => Node.core c' = c),
      ← List.forall₂_map_right_iff (R := fun c c' => c' = c), h]
    exact List.forall₂_same.2 fun _ _ => rfl
  · intro h
    induction h with
    | nil => rfl
    | cons hc _ ih => rw [List.map_cons, List.map_cons, hc, ih]

/-- Nodes with the same core differ only in their parts, which have the same cores, if they are no
detached rulesets. -/
lemma eq_withChildren_of_core_eq {n n' : Node} (h : n'.core = n.core)
    (hdetached : n.isDetached = false) :
    n' = n.withChildren n'.children ∧
      List.Forall₂ (fun c c' => c'.core = c.core) n.children n'.children := by
  have hchildren : n'.children.map Node.core = n.children.map Node.core := by
    rw [← children_core, ← children_core, h]
  have hdetached' : n'.isDetached = false := by
    rw [← hdetached, ← (sameShape_core n).apply_eq Node.overlooks_isDetached, ← h,
      (sameShape_core n').apply_eq Node.overlooks_isDetached]
  have hlength : n'.children.length = n.children.length := by
    have hmap := congrArg List.length hchildren
    rwa [List.length_map, List.length_map] at hmap
  refine ⟨?_, map_core_eq_iff.1 hchildren⟩
  -- the core of the one with the parts of the other
  calc n' = n'.withChildren n'.children := n'.withChildren_children.symm
    _ = n'.core.withChildren n'.children := by
      rw [core_eq hdetached', withChildren_withChildren (List.length_map _) rfl]
    _ = n.core.withChildren n'.children := by rw [h]
    _ = n.withChildren n'.children := by
      rw [core_eq hdetached, withChildren_withChildren (List.length_map _) hlength]

/-- Detached rulesets with the same core. -/
lemma exists_detached_of_core_eq {info : Info} {body : Option Ruleset}
    {frames : Option (List Frame)} {n' : Node}
    (h : n'.core = (Node.detached info body frames).core) :
    ∃ body' frames', n' = .detached info body' frames' ∧
      body'.map Ruleset.core = body.map Ruleset.core ∧
      frames'.map (List.map Frame.core) = frames.map (List.map Frame.core) := by
  have hkind : n'.kind = .detachedRuleset := by
    rw [← (sameShape_core n').apply_eq Node.overlooks_kind, h,
      (sameShape_core _).apply_eq Node.overlooks_kind]
    rfl
  cases n' with
  | detached info' body' frames' =>
    rw [core_detached, core_detached] at h
    obtain ⟨rfl, hbody, hframes⟩ := Node.detached.inj h
    exact ⟨body', frames', rfl, hbody, hframes⟩
  | _ => simp [Node.kind] at hkind

/-- Nodes with the same core have the same shape. -/
lemma sameShape_of_core_eq {n n' : Node} (h : n'.core = n.core) : n.SameShape n' := by
  cases hdetached : n.isDetached with
  | false =>
    obtain ⟨heq, hparts⟩ := eq_withChildren_of_core_eq h hdetached
    rw [heq]
    exact .rebuilt n hparts.length_eq.symm
  | true =>
    cases n with
    | detached info body frames =>
      obtain ⟨body', frames', rfl, _⟩ := exists_detached_of_core_eq h
      exact .detached info body body' frames frames'
    | _ => simp [isDetached] at hdetached

/-- What the declaration of a variable looks like. -/
lemma eq_declaration_of_isBinding {n : Node} (h : n.isBinding) :
    ∃ info text v traits, n = .declaration info (.literal text) v traits ∧
      traits.isVariable = true := by
  unfold isBinding at h
  split at h
  · exact ⟨_, _, _, _, rfl, h⟩
  · exact absurd h Bool.false_ne_true

/-- Only the declarations of variables give a binding. -/
lemma bindingOf?_eq_none {n : Node} (h : n.isBinding = false) (name : String) :
    n.bindingOf? name = none := by
  unfold bindingOf?
  split
  · simp only [isBinding] at h
    simp [h]
  · rfl

lemma overlooks_isBinding : Overlooks isBinding := by
  constructor <;> intros <;> rfl

/-- The core of a rule declares a variable if the rule does. -/
@[simp]
lemma isBinding_core (n : Node) : n.core.isBinding = n.isBinding :=
  (sameShape_core n).apply_eq overlooks_isBinding

/-- The binding that the core of a rule gives to a variable. -/
lemma bindingOf?_core (name : String) (n : Node) :
    n.core.bindingOf? name = (n.bindingOf? name).map (Prod.map Node.core id) := by
  cases hbinding : n.isBinding with
  | false =>
    have hcore : n.core.isBinding = false := by rw [isBinding_core, hbinding]
    rw [bindingOf?_eq_none hbinding, bindingOf?_eq_none hcore, Option.map_none]
  | true =>
    obtain ⟨info, text, v, traits, rfl, _⟩ := eq_declaration_of_isBinding hbinding
    show (if traits.isVariable && text == name then some (v.core, traits.important) else none) =
      Option.map _ (if traits.isVariable && text == name then some (v, traits.important) else none)
    split <;> rfl

end Node

/-! ### Cores of frames -/

namespace Frame

/-- The core of a frame has the declarations of variables among the cores of its rules. -/
lemma core_eq (f : Frame) :
    f.core = .mk (some (.ofRules [] ((f.rules.map Node.core).filter Node.isBinding)))
      f.functions := by
  have hbindings : ∀ rules : List Node,
      Node.coreBindings rules = (rules.map Node.core).filter Node.isBinding := by
    intro rules
    rw [Node.coreBindings_eq, List.filter_map]
    simp only [Function.comp_def, Node.isBinding_core]
  match f with
  | .mk (some (.mk _ _ rules _)) functions =>
    show Frame.mk (some (.ofRules [] (Node.coreBindings rules))) functions = _
    rw [hbindings]
    rfl
  | .mk none functions => rfl

/-- The functions of the core of a frame. -/
@[simp]
lemma functions_core (f : Frame) : f.core.functions = f.functions := by
  rw [core_eq]
  rfl

/-- What the core of a frame declares. -/
lemma declared?_core (name : String) (f : Frame) :
    f.core.declared? name = (f.declared? name).map (Prod.map Node.core id) := by
  have hfind : ∀ rules : List Node,
      ((rules.map Node.core).filter Node.isBinding).findSome? (Node.bindingOf? name) =
        (rules.findSome? (Node.bindingOf? name)).map (Prod.map Node.core id) := by
    intro rules
    induction rules with
    | nil => rfl
    | cons rule rest ih =>
      rw [List.map_cons, List.filter_cons, Node.isBinding_core, List.findSome?_cons]
      cases hbinding : rule.isBinding with
      | true =>
        rw [if_pos rfl, List.findSome?_cons, Node.bindingOf?_core]
        cases rule.bindingOf? name with
        | none => exact ih
        | some binding => rfl
      | false =>
        rw [if_neg Bool.false_ne_true, Node.bindingOf?_eq_none hbinding]
        exact ih
  unfold declared?
  rw [core_eq]
  show (((f.rules.map Node.core).filter Node.isBinding).reverse).findSome? _ = _
  rw [← List.filter_reverse, ← List.map_reverse, hfind]

/-- A variable is found in the cores of frames where it is found in the frames. -/
theorem lookup?_core (name : String) (frames : List Frame) :
    Frame.lookup? name (frames.map Frame.core) =
      (Frame.lookup? name frames).map fun found =>
        ⟨found.value.core, found.important, found.frames.map Frame.core⟩ := by
  induction frames with
  | nil => rfl
  | cons frame outer ih =>
    rw [List.map_cons, lookup?_cons, lookup?_cons, declared?_core]
    cases frame.declared? name with
    | some binding => rfl
    | none => exact ih

/-- Frames with the same cores have bindings with the same cores. -/
lemma lookup?_of_core_eq {frames frames' : List Frame}
    (h : frames'.map Frame.core = frames.map Frame.core) (name : String) :
    (Frame.lookup? name frames = none → Frame.lookup? name frames' = none) ∧
      ∀ found, Frame.lookup? name frames = some found →
        ∃ found', Frame.lookup? name frames' = some found' ∧
          found'.value.core = found.value.core ∧ found'.important = found.important ∧
          found'.frames.map Frame.core = found.frames.map Frame.core := by
  have hlookup := lookup?_core name frames'
  rw [h, lookup?_core] at hlookup
  constructor
  · intro hnone
    rw [hnone] at hlookup
    exact Option.map_eq_none_iff.1 hlookup.symm
  · intro found hfound
    rw [hfound] at hlookup
    obtain ⟨found', hfound', heq⟩ := Option.map_eq_some_iff.1 hlookup.symm
    obtain ⟨hvalue, himportant, hframes⟩ := Binding.mk.inj heq
    exact ⟨found', hfound', hvalue, himportant, hframes⟩

/-- Frames with the same cores carry the same function tables. -/
lemma functions_of_core_eq {frames frames' : List Frame}
    (h : frames'.map Frame.core = frames.map Frame.core) :
    frames'.map Frame.functions = frames.map Frame.functions := by
  have hfunctions := congrArg (List.map Frame.functions) h
  simpa only [List.map_map, Function.comp_def, functions_core] using hfunctions

/-- A function table given to the innermost frame is given to that of the cores. -/
lemma map_core_fillFunctions (functions : Option FunctionTable) (frames : List Frame) :
    (Frame.fillFunctions functions frames).map Frame.core =
      Frame.fillFunctions functions (frames.map Frame.core) := by
  cases frames with
  | nil => rfl
  | cons frame outer =>
    obtain ⟨ruleset, own⟩ := frame
    rw [List.map_cons, core_eq]
    show core _ :: _ = _
    rw [core_eq]
    rfl

end Frame

end Cascade
