import Mathlib.Data.List.Forall2
import Cascade.Proofs.Tree.Contents
import Cascade.Render.Writer

/-!
# Printing to two media at once

The writer prints to any medium, so what it prints to one medium and what it prints to another
are related in every way that the operations of the two media respect.  A `Printer.Simulation`
is such a relation, and `Printer.Simulation.write` says that it relates the two printed forms of
every node.  Facts about the writer that concern only its medium are instances: they need no
walk over the tree of their own.
-/

namespace Cascade

variable {ρ σ : Type}

section Operations

variable [Printer ρ] [Printer σ]

open Printer

/-- A relation between what is printed to two media that all operations of the writer respect,
apart from the stop of a condition that contains itself.  The writer fails in many ways, but it
looks up no variables. -/
structure Printer.Simulation (R : ρ → σ → Prop) : Prop where
  empty : R empty empty
  chunk : ∀ text file index, R (chunk text file index) (chunk text file index)
  fail : ∀ {error}, (∀ name, error ≠ .recursiveVariable name) → R (fail error) (fail error)
  append : ∀ {a a' : ρ} {b b' : σ}, R a b → R a' b' → R (a ++ a') (b ++ b')
  styled : ∀ {f : Style → ρ} {g : Style → σ}, (∀ style, R (f style) (g style)) →
    R (styled f) (styled g)
  relocated : ∀ {a : ρ} {b : σ} (position : Position), R a b →
    R (relocated position a) (relocated position b)
  aside : ∀ {as : List ρ} {bs : List σ} {k : String → ρ} {l : String → σ},
    List.Forall₂ R as bs → (∀ text, R (k text) (l text)) → R (aside as k) (aside bs l)
  item : ∀ {a : ρ} {b : σ} (last : Bool), R a b → R (item last a) (item last b)
  indented : ∀ {a : ρ} {b : σ}, R a b → R (indented a) (indented b)

end Operations

/-! ### Blocks and parts of two media

A relation between items gives one between blocks under the same selectors, and one between the
contributions of rules.  Laying out contributions respects it. -/

/-- Blocks with the same selectors and related items. -/
structure Block.Related (R : ρ → σ → Prop) (a : Block ρ) (b : Block σ) : Prop where
  selectors : a.selectors = b.selectors
  items : List.Forall₂ R a.items b.items

/-- Contributions of the same form with related items. -/
inductive Part.Related (R : ρ → σ → Prop) : Part ρ → Part σ → Prop where
  | item {a : ρ} {b : σ} : R a b → Part.Related R (.item a) (.item b)
  | nested {as : List (Block ρ)} {bs : List (Block σ)} :
    List.Forall₂ (Block.Related R) as bs → Part.Related R (.nested as) (.nested bs)
  | hidden : Part.Related R .hidden .hidden

section Layout

variable {R : ρ → σ → Prop}

/-- Related lists are empty at the same time. -/
lemma isEmpty_eq_of_forall₂ {as : List ρ} {bs : List σ} (h : List.Forall₂ R as bs) :
    as.isEmpty = bs.isEmpty := by
  cases h <;> rfl

/-- A choice between two parts. -/
lemma related_choice (p : Prop) [Decidable p] {a a' : ρ} {b b' : σ} (ha : R a b) (hb : R a' b') :
    R (if p then a else a') (if p then b else b') := by
  split
  · exact ha
  · exact hb

/-- The contribution of a rule respects relations. -/
lemma Part.Related.ofRule {a : ρ} {b : σ} {as : Option (List (Block ρ))}
    {bs : Option (List (Block σ))} (style : Style) (rule : Node) (h : R a b)
    (hn : Option.Rel (List.Forall₂ (Block.Related R)) as bs) :
    Part.Related R (.ofRule style rule a as) (.ofRule style rule b bs) := by
  unfold Part.ofRule
  by_cases hshown : rule.isShown
  · simp only [hshown, if_true]
    cases hn with
    | some hblocks => exact .nested hblocks
    | none =>
      by_cases hrendered : rule.isRendered style
      · simpa only [hrendered, if_true] using .item h
      · simpa only [hrendered, if_false] using .hidden
  · simpa only [hshown, if_false] using .hidden

/-- Laying out the contributions of rules respects relations. -/
lemma Block.Related.arrange (selectors : List String) {as : List (Part ρ)} {bs : List (Part σ)}
    (h : List.Forall₂ (Part.Related R) as bs) :
    List.Forall₂ (Block.Related R) (Block.arrange selectors as) (Block.arrange selectors bs) := by
  unfold Block.arrange
  split
  · refine List.rel_flatMap h fun a b hab => ?_
    cases hab with
    | item hr => exact .cons ⟨rfl, .cons hr .nil⟩ .nil
    | nested hblocks => exact hblocks
    | hidden => exact .nil
  · have hitems : List.Forall₂ R (as.filterMap Part.item?) (bs.filterMap Part.item?) := by
      refine List.rel_filterMap (fun a b hab => ?_) h
      cases hab with
      | item hr => exact .some hr
      | nested _ => exact .none
      | hidden => exact .none
    have hnested : List.Forall₂ (Block.Related R) (as.flatMap Part.nestedBlocks)
        (bs.flatMap Part.nestedBlocks) := by
      refine List.rel_flatMap h fun a b hab => ?_
      cases hab with
      | item _ => exact .nil
      | nested hblocks => exact hblocks
      | hidden => exact .nil
    refine List.rel_append ?_ hnested
    rw [isEmpty_eq_of_forall₂ hitems]
    split
    · exact .nil
    · exact .cons ⟨rfl, hitems⟩ .nil

end Layout

/-! ### The writer -/

namespace Printer.Simulation

variable [Printer ρ] [Printer σ] {R : ρ → σ → Prop}

/-- A chunk without a place is related to itself. -/
lemma ofText (h : Simulation R) (text : String) : R (Printer.ofText text) (Printer.ofText text) :=
  h.chunk text none none

/-- A chunk at the place of a node is related to itself. -/
lemma located (h : Simulation R) (text : String) (info : Info) :
    R (Printer.located text info) (Printer.located text info) :=
  h.chunk text info.file (some info.index)

/-- Parts one after the other. -/
lemma concat (h : Simulation R) {as : List ρ} {bs : List σ} (hs : List.Forall₂ R as bs) :
    R (Printer.concat as) (Printer.concat bs) := by
  induction hs with
  | nil => exact h.empty
  | cons hr _ ih => exact h.append hr ih

/-- Parts with separators between them. -/
lemma separated (h : Simulation R) {as : List ρ} {bs : List σ} (hs : List.Forall₂ R as bs) :
    R (Printer.separated as) (Printer.separated bs) := by
  induction hs with
  | nil => exact h.empty
  | cons hr hrest ih =>
    cases hrest with
    | nil => exact hr
    | cons _ _ => exact h.append hr (h.append (h.styled fun style => h.ofText style.comma) ih)

/-- The items of an expression. -/
lemma spaceItems (h : Simulation R) (noSpacing : Bool) (nodes : List Node) {as : List ρ}
    {bs : List σ} (hs : List.Forall₂ R as bs) :
    R (Node.spaceItems noSpacing nodes as) (Node.spaceItems noSpacing nodes bs) := by
  induction hs generalizing nodes with
  | nil =>
    match nodes with
    | [] | [_] | _ :: _ :: _ => exact h.empty
  | cons hr hrest ih =>
    match nodes with
    | [] | [_] => exact h.concat (.cons hr hrest)
    | _ :: next :: nodes =>
      exact h.append hr (h.append (related_choice _ h.empty (h.ofText " ")) (ih (next :: nodes)))

/-- A line number before a rule. -/
lemma debugPart (h : Simulation R) (info : Info) (debug : Option DebugInfo) :
    R (Node.debugPart info debug) (Node.debugPart info debug) :=
  h.styled fun style => related_choice _ h.empty (h.located (style.debugText debug) info)

/-- A declaration after its name. -/
lemma declarationPart (h : Simulation R) (info : Info) (traits : DeclarationTraits) {a : ρ} {b : σ}
    (hr : R a b) (name : String) :
    R (Node.declarationPart info traits a name) (Node.declarationPart info traits b name) :=
  h.append (h.styled fun _ => h.located _ info)
    (h.append (h.relocated info.position hr) (h.styled fun _ => h.located _ info))

/-- The comparison of an attribute selector. -/
lemma comparisonPart (h : Simulation R) (operator : Option String) {a : Option ρ} {b : Option σ}
    (hr : Option.Rel R a b) :
    R (Node.comparisonPart operator a) (Node.comparisonPart operator b) := by
  cases operator with
  | none => exact h.empty
  | some text =>
    cases hr with
    | none => exact h.empty
    | some hr => exact h.append (h.ofText text) hr

/-- The case flag of an attribute selector. -/
lemma flagPart (h : Simulation R) (flag : Option String) :
    R (Node.flagPart flag) (Node.flagPart flag) := by
  cases flag with
  | none => exact h.empty
  | some flag => exact h.ofText (" " ++ flag)

/-- A number. -/
lemma dimensionPart (h : Simulation R) (dimension : Dimension) :
    R (Node.dimensionPart dimension) (Node.dimensionPart dimension) := by
  refine h.styled fun style => ?_
  cases htext : dimension.text style.strictUnits style.compress style.precision with
  | ok text => exact h.ofText text
  | error error =>
    refine h.fail fun name => ?_
    rintro rfl
    unfold Dimension.text at htext
    grind

/-- The line start of an item. -/
lemma lineStart (h : Simulation R) : R Block.lineStart Block.lineStart :=
  h.styled fun style => related_choice _ h.empty (h.ofText style.indent)

/-- The items of a block in braces. -/
lemma writeItems (h : Simulation R) {as : List ρ} {bs : List σ} (hs : List.Forall₂ R as bs) :
    R (Block.writeItems as) (Block.writeItems bs) := by
  induction hs with
  | nil => exact h.empty
  | @cons a b as bs hr hrest ih =>
    have hend : R Block.lineEnd Block.lineEnd :=
      h.styled fun _ => related_choice _ h.empty (h.ofText "\n")
    unfold Block.writeItems
    rw [isEmpty_eq_of_forall₂ hrest]
    exact h.append h.lineStart (h.append (h.item _ hr) (h.append hend ih))

/-- The selectors of a block. -/
lemma opening (h : Simulation R) (selectors : List String) :
    R (Block.opening selectors) (Block.opening selectors) :=
  h.styled fun style =>
    related_choice _ (h.append (h.ofText _) (h.ofText "\x7b"))
      (h.append (h.ofText style.indent) (h.append (h.ofText _) (h.ofText " \x7b\n")))

/-- One block. -/
lemma writeBlock (h : Simulation R) {a : Block ρ} {b : Block σ} (hr : a.Related R b) :
    R a.write b.write := by
  have hbare : R (Block.writeBare a.items) (Block.writeBare b.items) :=
    h.concat (List.rel_map (fun _ _ hr => h.append h.lineStart (h.item true hr)) hr.items)
  have hbraced : R a.writeBraced b.writeBraced := by
    unfold Block.writeBraced
    rw [hr.selectors]
    exact h.append (h.opening _)
      (h.append (h.indented (h.writeItems hr.items)) (h.append h.lineStart (h.ofText "\x7d")))
  unfold Block.write Block.isBare
  rw [hr.selectors]
  exact related_choice _ hbare hbraced

/-- A sequence of blocks. -/
lemma writeAll (h : Simulation R) {as : List (Block ρ)} {bs : List (Block σ)}
    (hs : List.Forall₂ (Block.Related R) as bs) : R (Block.writeAll as) (Block.writeAll bs) := by
  have hgap : ∀ previous bare, R (Block.gap previous bare) (Block.gap previous bare) := by
    intro previous bare
    cases previous with
    | none => exact h.empty
    | some previousBare => exact h.styled fun _ => related_choice _ h.empty (h.ofText _)
  have hafter : ∀ previous, R (Block.writeAfter previous as) (Block.writeAfter previous bs) := by
    induction hs with
    | nil => exact fun _ => h.empty
    | cons hr _ ih =>
      intro previous
      unfold Block.writeAfter Block.isBare
      rw [hr.selectors]
      exact h.append (hgap _ _) (h.append (h.writeBlock hr) (ih _))
  exact hafter none

end Printer.Simulation

/-- The printed forms of some nodes, one by one. -/
lemma Node.writeEach_eq_map [Printer ρ] (cell : QueryId → ρ) (nodes : List Node) :
    Node.writeEach cell nodes = nodes.map (Node.write cell) := by
  induction nodes with
  | nil => rfl
  | cons node rest ih => exact congrArg (Node.write cell node :: ·) ih

namespace Printer.Simulation

variable [Printer ρ] [Printer σ] {R : ρ → σ → Prop} {cell : QueryId → ρ} {cell' : QueryId → σ}

/-- A list of nodes whose printed forms are related. -/
lemma writeEach {nodes : List Node}
    (hs : ∀ c ∈ nodes, R (Node.write cell c) (Node.write cell' c)) :
    List.Forall₂ R (Node.writeEach cell nodes) (Node.writeEach cell' nodes) := by
  rw [Node.writeEach_eq_map, Node.writeEach_eq_map, List.forall₂_map_left_iff,
    List.forall₂_map_right_iff, List.forall₂_same]
  exact hs

/-- The blocks that a rule contributes, if it is a ruleset. -/
def nestedBlocks (cell : QueryId → ρ) (style : Style) : Node → Option (List (Block ρ))
  | .ruleset rs => some (Ruleset.itemBlocks cell rs style)
  | _ => none

/-- The contributions of one rule and the rest. -/
lemma itemParts_cons (style : Style) (rule : Node) (rest : List Node) :
    Node.itemParts cell (rule :: rest) style =
      .ofRule style rule (Node.write cell rule) (nestedBlocks cell style rule) ::
        Node.itemParts cell rest style := by
  cases rule <;> rfl

/-- The contributions of rules whose printed forms and blocks are related. -/
lemma itemParts (style : Style) {rules : List Node}
    (hs : ∀ c ∈ rules, R (Node.write cell c) (Node.write cell' c))
    (hn : ∀ rs, .ruleset rs ∈ rules → List.Forall₂ (Block.Related R)
      (Ruleset.itemBlocks cell rs style) (Ruleset.itemBlocks cell' rs style)) :
    List.Forall₂ (Part.Related R) (Node.itemParts cell rules style)
      (Node.itemParts cell' rules style) := by
  induction rules with
  | nil => exact .nil
  | cons rule rest ih =>
    have hrule : Option.Rel (List.Forall₂ (Block.Related R)) (nestedBlocks cell style rule)
        (nestedBlocks cell' style rule) := by
      cases rule with
      | ruleset rs => exact .some (hn rs List.mem_cons_self)
      | _ => exact .none
    rw [itemParts_cons, itemParts_cons]
    refine .cons (.ofRule style rule (hs rule List.mem_cons_self) hrule) (ih ?_ ?_)
    · exact fun c hc => hs c (List.mem_cons_of_mem rule hc)
    · exact fun rs hrs => hn rs (List.mem_cons_of_mem rule hrs)

/-- The two printed forms of a declaration. -/
lemma declaration (h : Simulation R) (info : Info) {name : PropertyName} {value : Node}
    (traits : DeclarationTraits)
    (hname : ∀ c ∈ name.parts, R (Node.write cell c) (Node.write cell' c))
    (hvalue : R (Node.write cell value) (Node.write cell' value)) :
    R (Node.write cell (.declaration info name value traits))
      (Node.write cell' (.declaration info name value traits)) := by
  rw [Node.write, Node.write]
  refine h.append (h.debugPart info traits.debug) ?_
  cases name with
  | literal text =>
    rw [PropertyName.write, PropertyName.write]
    exact h.declarationPart info traits hvalue text
  | interpolated parts =>
    rw [PropertyName.write, PropertyName.write]
    exact h.aside (writeEach hname) (h.declarationPart info traits hvalue)

/-- The two printed forms of an attribute selector. -/
lemma selector (h : Simulation R) (info : Info) (key : String) {value : Option Node}
    (operator flag : Option String)
    (hvalue : ∀ v, value = some v → R (Node.write cell v) (Node.write cell' v)) :
    R (Node.write cell (.attribute info key operator value flag))
      (Node.write cell' (.attribute info key operator value flag)) := by
  have hrest : ∀ {a : Option ρ} {b : Option σ}, Option.Rel R a b →
      R (Node.comparisonPart operator a ++ (Node.flagPart flag ++ Printer.ofText "]"))
        (Node.comparisonPart operator b ++ (Node.flagPart flag ++ Printer.ofText "]")) :=
    fun hr => h.append (h.comparisonPart operator hr) (h.append (h.flagPart flag) (h.ofText "]"))
  cases value with
  | none =>
    rw [Node.write, Node.write]
    exact h.append (h.ofText "[") (h.append (h.ofText key) (hrest .none))
  | some v =>
    rw [Node.write, Node.write]
    exact h.append (h.ofText "[") (h.append (h.ofText key) (hrest (.some (hvalue v rfl))))

/-- The two printed forms of a node, from those of its parts. -/
lemma step (h : Simulation R) {n : Node} (hcell : ∀ id ∈ n.queryOf, R (cell id) (cell' id))
    (hpart : ∀ c ∈ n.children, R (Node.write cell c) (Node.write cell' c))
    (hblocks : ∀ rs, n = .ruleset rs → ∀ style, List.Forall₂ (Block.Related R)
      (Ruleset.itemBlocks cell rs style) (Ruleset.itemBlocks cell' rs style)) :
    R (Node.write cell n) (Node.write cell' n) := by
  match n with
  | .declaration info name value traits =>
    refine h.declaration info traits (fun c hc => hpart c ?_) (hpart value ?_)
    · simp [Node.children, hc]
    · simp [Node.children]
  | .attribute info key operator value flag =>
    refine h.selector info key operator flag fun v hv => hpart v ?_
    simp [Node.children, hv]
  | .ruleset rs =>
    rw [Node.write, Node.write]
    exact h.styled fun style => h.writeAll (hblocks rs rfl style)
  | .query _ id =>
    rw [Node.write, Node.write]
    exact hcell id (List.mem_singleton_self id)
  | .assignment _ key value =>
    rw [Node.write, Node.write]
    exact h.append (h.ofText _) (hpart value (List.mem_singleton_self value))
  | .negative _ value =>
    rw [Node.write, Node.write]
    exact h.append (h.ofText _) (hpart value (List.mem_singleton_self value))
  | .paren _ value =>
    rw [Node.write, Node.write]
    exact h.append (h.ofText _)
      (h.append (hpart value (List.mem_singleton_self value)) (h.ofText _))
  | .operation _ operator left right spaced =>
    have hblank := related_choice (spaced = true) (h.ofText " ") h.empty
    have hleft := hpart left (by simp [Node.children])
    have hright := hpart right (by simp [Node.children])
    rw [Node.write, Node.write]
    exact h.append hleft (h.append hblank (h.append (h.ofText _) (h.append hblank hright)))
  | .call info name args _ =>
    rw [Node.write, Node.write]
    exact h.append (h.located _ info) (h.append (h.separated (writeEach hpart)) (h.ofText _))
  | .expression _ items form =>
    rw [Node.write, Node.write]
    exact h.spaceItems form.noSpacing items (writeEach hpart)
  | .value _ items =>
    rw [Node.write, Node.write]
    exact h.separated (writeEach hpart)
  | .anonymous info text mapLines _ =>
    rw [Node.write, Node.write]
    exact related_choice _ h.empty (h.chunk text info.file _)
  | .color _ color =>
    rw [Node.write, Node.write]
    exact h.styled fun style => h.ofText _
  | .comment info text _ debug =>
    rw [Node.write, Node.write]
    exact h.append (h.debugPart info debug) (h.ofText text)
  | .dimension _ dimension =>
    rw [Node.write, Node.write]
    exact h.dimensionPart dimension
  | .javaScript _ source _ =>
    rw [Node.write, Node.write]
    refine h.styled fun style => h.fail fun name => ?_
    unfold Error.ofScript
    split <;> rintro ⟨⟩
  | .keyword info text =>
    rw [Node.write, Node.write]
    exact related_choice _ (h.fail (by rintro _ ⟨⟩)) (h.located text info)
  | .quoted info quote text escaped =>
    rw [Node.write, Node.write]
    exact related_choice _ (h.ofText text)
      (h.append (h.located _ info) (h.append (h.ofText text) (h.ofText _)))
  | .unicodeDescriptor _ text =>
    rw [Node.write, Node.write]
    exact h.ofText text
  | .condition .. | .detached .. | .variableRef .. | .variableCall .. =>
    rw [Node.write, Node.write]
    exact h.empty

/-- A relation that the media respect and that relates the printed conditions of a tree relates
the two printed forms of the tree. -/
theorem write (h : Simulation R) {node : Node}
    (hcell : node.Throughout fun x => ∀ id ∈ x.queryOf, R (cell id) (cell' id)) :
    R (Node.write cell node) (Node.write cell' node) := by
  -- a ruleset inside another one is printed through its blocks, so these take part
  suffices hboth : R (Node.write cell node) (Node.write cell' node) ∧
      ∀ rs, node = .ruleset rs → ∀ style, List.Forall₂ (Block.Related R)
        (Ruleset.itemBlocks cell rs style) (Ruleset.itemBlocks cell' rs style) from hboth.1
  induction node using Node.inductionOnChildren with
  | step n ih =>
    have hpart : ∀ c ∈ n.children, R (Node.write cell c) (Node.write cell' c) :=
      fun c hc => (ih c hc (hcell.child hc)).1
    have hblocks : ∀ rs, n = .ruleset rs → ∀ style, List.Forall₂ (Block.Related R)
        (Ruleset.itemBlocks cell rs style) (Ruleset.itemBlocks cell' rs style) := by
      rintro ⟨info, selectors, rules, root⟩ rfl style
      rw [Ruleset.itemBlocks, Ruleset.itemBlocks]
      refine Block.Related.arrange selectors (itemParts style hpart fun rs hrs => ?_)
      exact (ih _ hrs (hcell.child hrs)).2 rs rfl style
    exact ⟨h.step hcell.self hpart hblocks, hblocks⟩

/-- A condition, from its sides. -/
lemma query (h : Simulation R) (hcell : ∀ id, R (cell id) (cell' id)) (q : Query) :
    R (q.write cell) (q.write cell') := by
  have hside : ∀ node : Node, R (node.write cell) (node.write cell') :=
    fun node => h.write fun _ _ id _ => hcell id
  unfold Query.write
  cases q.shownMiddle? with
  | none => exact h.fail nofun
  | some middle =>
    refine h.append (hside q.left) (h.append (h.ofText _) (h.append (hside middle) ?_))
    cases q.range with
    | none => exact h.empty
    | some range => exact h.append (h.ofText _) (hside range.2)

/-- A relation that also relates the stops of conditions that contain themselves relates the
two printed forms of every node. -/
theorem print (h : Simulation R)
    (hstop : R (Printer.stop .exhausted) (Printer.stop .exhausted)) (queries : Queries)
    (node : Node) : R (Node.print queries node) (Node.print queries node) := by
  have hcell : ∀ depth id, R (Queries.writeCell queries depth id)
      (Queries.writeCell queries depth id) := by
    intro depth
    induction depth with
    | zero => exact fun _ => hstop
    | succ depth ih =>
      intro id
      unfold Queries.writeCell
      cases queries[id]? with
      | none => exact h.empty
      | some q => exact h.query ih q
  exact h.write fun _ _ id _ => hcell _ id

end Printer.Simulation

end Cascade
