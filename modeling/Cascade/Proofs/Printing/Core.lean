import Cascade.Proofs.Printing.Simulation
import Cascade.Proofs.Tree.Core
import Cascade.Render.Compare

/-!
# Printing and comparing cores

A detached ruleset prints nothing, so what it keeps for later is never seen: a node and its core
print the same (`Node.write_core`) and compare the same (`Node.relationHolds_core`).  Nor does the
declaration of a variable print anything among the rules of a ruleset, so two rulesets print the
same if their other rules have the same cores (`Node.write_ruleset_of_core_eq`).
-/

namespace Cascade

section Write

variable {ρ : Type} [Printer ρ] {cell : QueryId → ρ}

/-! ### The writer -/

lemma Node.overlooks_isComma : Node.Overlooks Node.isComma := by
  constructor <;> intros <;> rfl

/-- The blanks between items depend on where the lone commas are. -/
lemma Node.spaceItems_core (noSpacing : Bool) (items : List Node) (printed : List ρ) :
    Node.spaceItems noSpacing (items.map Node.core) printed =
      Node.spaceItems noSpacing items printed := by
  induction items generalizing printed with
  | nil => rfl
  | cons item rest ih =>
    match rest, printed with
    | [], _ | _ :: _, [] => rfl
    | next :: nodes, r :: others =>
      have hcomma : next.core.isComma = next.isComma :=
        (Node.sameShape_core next).apply_eq Node.overlooks_isComma
      simp only [List.map_cons, Node.spaceItems, hcomma] at ih ⊢
      rw [ih]

/-- What rules contribute depends on their printed forms and their blocks. -/
lemma Node.itemParts_core (style : Style) {rules : List Node}
    (hwrite : ∀ c ∈ rules, Node.write cell c.core = Node.write cell c)
    (hblocks : ∀ rs, .ruleset rs ∈ rules →
      Ruleset.itemBlocks cell rs.core style = Ruleset.itemBlocks cell rs style) :
    Node.itemParts cell (rules.map Node.core) style = Node.itemParts cell rules style := by
  induction rules with
  | nil => rfl
  | cons rule rest ih =>
    rw [List.forall_mem_cons] at hwrite
    have hnested : Printer.Simulation.nestedBlocks cell style rule.core =
        Printer.Simulation.nestedBlocks cell style rule := by
      match rule with
      | .ruleset rs => exact congrArg some (hblocks rs List.mem_cons_self)
      | .attribute _ _ _ none _ | .attribute _ _ _ (some _) _ => rfl
      | .anonymous .. | .assignment .. | .call .. | .color .. | .comment .. | .condition ..
      | .declaration .. | .detached .. | .dimension .. | .expression .. | .javaScript ..
      | .keyword .. | .negative .. | .operation .. | .paren .. | .query .. | .quoted ..
      | .unicodeDescriptor .. | .value .. | .variableRef .. | .variableCall .. => rfl
    have hrule : ∀ (r : ρ) nested, Part.ofRule style rule.core r nested =
        Part.ofRule style rule r nested := by
      intro r nested
      have hoverlooks : Node.Overlooks fun n => Part.ofRule style n r nested := by
        constructor <;> intros <;> rfl
      exact (Node.sameShape_core rule).apply_eq hoverlooks
    rw [List.map_cons, Printer.Simulation.itemParts_cons, Printer.Simulation.itemParts_cons,
      hwrite.1, hnested, hrule, ih hwrite.2 fun rs hrs => hblocks rs (List.mem_cons_of_mem _ hrs)]

/-- A node and its core print the same, and so do the blocks of a ruleset.  A ruleset inside another
one is printed through its blocks, so both are proved at once. -/
lemma Node.write_core_and_itemBlocks_core (n : Node) :
    Node.write cell n.core = Node.write cell n ∧
      ∀ rs, n = .ruleset rs → ∀ style,
        Ruleset.itemBlocks cell rs.core style = Ruleset.itemBlocks cell rs style := by
  induction n using Node.inductionOnChildren with
  | step n ih =>
    have hwrite : ∀ c ∈ n.children, Node.write cell c.core = Node.write cell c :=
      fun c hc => (ih c hc).1
    have heach : ∀ nodes : List Node, (∀ c ∈ nodes, c ∈ n.children) →
        Node.writeEach cell (Node.coreEach nodes) = Node.writeEach cell nodes := by
      intro nodes hnodes
      rw [Node.writeEach_eq_map, Node.writeEach_eq_map, Node.coreEach_eq_map, List.map_map]
      exact List.map_congr_left fun c hc => hwrite c (hnodes c hc)
    have hblocks : ∀ rs, n = .ruleset rs → ∀ style,
        Ruleset.itemBlocks cell rs.core style = Ruleset.itemBlocks cell rs style := by
      rintro ⟨info, selectors, rules, root⟩ rfl style
      have hparts := Node.itemParts_core style hwrite fun rs hrs => (ih _ hrs).2 rs rfl style
      rw [Ruleset.core, Ruleset.itemBlocks, Ruleset.itemBlocks, Node.coreEach_eq_map]
      exact congrArg (Block.arrange selectors) hparts
    refine ⟨?_, hblocks⟩
    cases n with
    | ruleset rs =>
      rw [Node.core, Node.write, Node.write]
      exact congrArg _ (funext fun style => congrArg _ (hblocks rs rfl style))
    | expression _ items form =>
      rw [Node.core, Node.write, Node.write, heach items fun _ hc => hc, Node.coreEach_eq_map,
        Node.spaceItems_core]
    | call _ _ args _ | value _ args =>
      rw [Node.core, Node.write, Node.write, heach args fun _ hc => hc]
    | assignment _ _ v | negative _ v | paren _ v =>
      rw [Node.core, Node.write, Node.write]
      simp only [hwrite v (List.mem_singleton_self v)]
    | «attribute» _ _ _ v _ =>
      cases v with
      | none => rfl
      | some v =>
        rw [Node.core, Node.write, Node.write]
        simp only [hwrite v (List.mem_singleton_self v)]
    | operation _ _ l r _ =>
      rw [Node.core, Node.write, Node.write, hwrite l (by simp [Node.children]),
        hwrite r (by simp [Node.children])]
    | declaration _ name v _ =>
      cases name with
      | literal _ =>
        rw [Node.core, PropertyName.core, Node.write, Node.write,
          hwrite v (by simp [Node.children])]
      | interpolated parts =>
        have hparts : ∀ c ∈ parts, c ∈ parts ++ [v] := fun c hc => List.mem_append_left _ hc
        rw [Node.core, PropertyName.core, Node.write, Node.write, PropertyName.write,
          PropertyName.write, heach parts hparts, hwrite v (by simp [Node.children])]
    | condition =>
      rw [Node.core, Node.write, Node.write]
    | detached =>
      rw [Node.core_detached, Node.write, Node.write]
    | _ => rfl

/-- A node and its core print the same. -/
theorem Node.write_core (n : Node) : Node.write cell n.core = Node.write cell n :=
  n.write_core_and_itemBlocks_core.1

/-- What a rule contributes to the blocks of its ruleset, with the items printed. -/
def Node.itemPart (cell : QueryId → ρ) (style : Style) (rule : Node) : Part ρ :=
  .ofRule style rule (Node.write cell rule) (Printer.Simulation.nestedBlocks cell style rule)

/-- The contributions of rules, one by one. -/
lemma Node.itemParts_eq_map (style : Style) (rules : List Node) :
    Node.itemParts cell rules style = rules.map (Node.itemPart cell style) := by
  induction rules with
  | nil => rfl
  | cons rule rest ih => rw [Printer.Simulation.itemParts_cons, ih, List.map_cons, Node.itemPart]

/-- Rules with the same cores contribute the same. -/
lemma Node.map_itemPart_of_core_eq (style : Style) {rules rules' : List Node}
    (h : rules'.map Node.core = rules.map Node.core) :
    rules'.map (Node.itemPart cell style) = rules.map (Node.itemPart cell style) := by
  have hparts : ∀ rules : List Node,
      Node.itemParts cell (rules.map Node.core) style = Node.itemParts cell rules style := by
    intro rules
    refine Node.itemParts_core style (fun c _ => Node.write_core c) fun rs _ => ?_
    exact (Node.ruleset rs).write_core_and_itemBlocks_core.2 rs rfl style
  rw [← Node.itemParts_eq_map, ← Node.itemParts_eq_map, ← hparts, h, hparts]

/-! ### Rules that print nothing -/

/-- Whether a part adds nothing to the blocks. -/
def Part.isVoid {β : Type} : Part β → Bool
  | .item _ => false
  | .nested blocks => blocks.isEmpty
  | .hidden => true

/-- Only the parts that add something take part in the layout. -/
lemma Block.arrange_of_filter_eq {β : Type} (selectors : List String) {parts parts' : List (Part β)}
    (h : (parts'.filter fun part => !part.isVoid) = parts.filter fun part => !part.isVoid) :
    Block.arrange selectors parts' = Block.arrange selectors parts := by
  -- whatever is collected from the parts
  have hcollect : ∀ {γ : Type} (f : Part β → List γ), (∀ part, part.isVoid → f part = []) →
      parts'.flatMap f = parts.flatMap f := by
    intro γ f hf
    have hkept : ∀ parts : List (Part β),
        (parts.filter fun part => !part.isVoid).flatMap f = parts.flatMap f := by
      intro parts
      induction parts with
      | nil => rfl
      | cons part rest ih =>
        rw [List.filter_cons, List.flatMap_cons, ← ih]
        cases hpart : part.isVoid with
        | true => rw [hf part hpart]; rfl
        | false => rfl
    rw [← hkept parts', h, hkept]
  have hitem : ∀ part : Part β, part.isVoid → part.item?.toList = [] := by
    intro part hpart
    cases part with
    | item b => cases hpart
    | nested | hidden => rfl
  have hnested : ∀ part : Part β, part.isVoid → part.nestedBlocks = [] := by
    intro part hpart
    cases part with
    | nested blocks => exact List.isEmpty_iff.1 hpart
    | item | hidden => rfl
  have hbare : ∀ part : Part β, part.isVoid → part.bareBlocks = [] := by
    intro part hpart
    cases part with
    | item b => cases hpart
    | nested blocks => exact List.isEmpty_iff.1 hpart
    | hidden => rfl
  unfold Block.arrange
  simp only [List.filterMap_eq_flatMap_toList]
  rw [hcollect Part.bareBlocks hbare, hcollect (fun part => part.item?.toList) hitem,
    hcollect Part.nestedBlocks hnested]

/-- The declaration of a variable contributes nothing. -/
lemma Node.isVoid_itemPart_of_isBinding (style : Style) {rule : Node} (h : rule.isBinding) :
    (Node.itemPart cell style rule).isVoid := by
  obtain ⟨info, text, v, traits, rfl, hvariable⟩ := Node.eq_declaration_of_isBinding h
  have hrendered : (Node.declaration info (.literal text) v traits).isRendered style = false := by
    simp [Node.isRendered, hvariable]
  simp [Node.itemPart, Part.ofRule, Printer.Simulation.nestedBlocks, hrendered, Part.isVoid]

/-- The declarations of variables do not take part in the layout. -/
lemma Block.arrange_filter (selectors : List String) (rules : List Node) (style : Style) :
    Block.arrange selectors
        (Node.itemParts cell (rules.filter fun rule => !rule.isBinding) style) =
      Block.arrange selectors (Node.itemParts cell rules style) := by
  refine Block.arrange_of_filter_eq selectors ?_
  rw [Node.itemParts_eq_map, Node.itemParts_eq_map, List.filter_map, List.filter_map,
    List.filter_filter]
  refine congrArg _ (List.filter_congr fun rule _ => ?_)
  cases hrule : rule.isBinding with
  | true => simp [Node.isVoid_itemPart_of_isBinding style hrule]
  | false => simp

/-- Rulesets under the same selectors print the same if their rules, apart from the declarations of
variables, have the same cores. -/
theorem Node.write_ruleset_of_core_eq {info info' : Info} {selectors : List String}
    {rules rules' : List Node} {root root' : Bool}
    (h : (rules'.filter fun rule => !rule.isBinding).map Node.core =
      (rules.filter fun rule => !rule.isBinding).map Node.core) :
    Node.write cell (.ruleset (.mk info' selectors rules' root')) =
      Node.write cell (.ruleset (.mk info selectors rules root)) := by
  rw [Node.write, Node.write]
  refine congrArg _ (funext fun style => congrArg _ ?_)
  rw [Ruleset.itemBlocks, Ruleset.itemBlocks, ← Block.arrange_filter, Node.itemParts_eq_map,
    Node.map_itemPart_of_core_eq style h, ← Node.itemParts_eq_map, Block.arrange_filter]

end Write

/-- The text of a node and of its core. -/
@[simp]
lemma Node.css_core (queries : Queries) (style : Style) (n : Node) :
    n.core.css queries style = n.css queries style := by
  unfold Node.css Node.render Node.print
  rw [Node.write_core]

/-! ### Comparisons -/

namespace Node

/-- The text of a string that is printed with its quotes. -/
def unescaped? : Node → Option String
  | .quoted _ _ text false => some text
  | _ => none

/-- The text by which a node compares with nodes of its own kind, and the kind. -/
def label? : Node → Option (Kind × String)
  | .keyword _ text => some (.keyword, text)
  | .unicodeDescriptor _ text => some (.unicodeDescriptor, text)
  | .comment _ text _ _ => some (.comment, text)
  | _ => none

lemma overlooks_unescaped? : Overlooks unescaped? := by
  constructor <;> intros <;> rfl

lemma overlooks_label? : Overlooks label? := by
  constructor <;> intros <;> rfl

lemma overlooks_isComparable : Overlooks isComparable := by
  constructor <;> intros <;> rfl

lemma overlooks_isTextual : Overlooks isTextual := by
  constructor <;> intros <;> rfl

variable {queries : Queries} {a b : Node}

/-- The text by which a node is compared: that of a string, or the printed one. -/
lemma comparisonText_eq (n : Node) :
    n.comparisonText queries = n.string?.or (n.css queries {}).toOption := by
  cases n <;> rfl

/-- A string compares by its text with other strings, and by its printed form otherwise. -/
lemma compareOwn_quoted (info : Info) (quote : Char) (text : String) (b : Node) :
    compareOwn queries (.quoted info quote text false) b =
      b.unescaped?.elim (comparePrinted queries (.quoted info quote text false) b)
        fun other => some (compare text other) := by
  match b with
  | .quoted _ _ _ true | .quoted _ _ _ false => rfl
  | .anonymous .. | .assignment .. | .attribute .. | .call .. | .color .. | .comment ..
  | .condition .. | .declaration .. | .detached .. | .dimension .. | .expression ..
  | .javaScript .. | .keyword .. | .negative .. | .operation .. | .paren .. | .query ..
  | .ruleset .. | .unicodeDescriptor .. | .value .. | .variableRef .. | .variableCall .. => rfl

/-- Nodes without a comparison of their own compare only with nodes of their kind, by text. -/
lemma compareSimple_of_not_comparable (ha : a.isComparable = false) (hb : b.isComparable = false) :
    compareSimple queries a b =
      a.label?.bind fun x => b.label?.bind fun y =>
        if x.1 = y.1 then some (compare x.2 y.2) else none := by
  unfold compareSimple
  rw [if_neg (by simp [ha]), if_neg (by simp [hb])]
  cases a with
  | keyword | unicodeDescriptor | comment => cases b <;> rfl
  | _ => rfl

/-- The comparison that a node brings with it. -/
lemma compareOwn_core (h : a.isComparable) :
    compareOwn queries a b.core = compareOwn queries a b := by
  have hprinted : comparePrinted queries a b.core = comparePrinted queries a b := by
    unfold comparePrinted
    rw [css_core]
  cases a with
  | dimension | color =>
    refine (sameShape_core b).apply_eq (f := compareOwn queries _) ?_
    constructor <;> intros <;> rfl
  | anonymous => exact hprinted
  | quoted info quote text escaped =>
    cases escaped with
    | true => exact hprinted
    | false =>
      rw [compareOwn_quoted, compareOwn_quoted, hprinted,
        (sameShape_core b).apply_eq overlooks_unescaped?]
  | _ => simp [isComparable] at h

/-- The comparison of two nodes that are not both lists of one kind. -/
lemma compareSimple_core :
    compareSimple queries a.core b.core = compareSimple queries a b := by
  have hleaf : ∀ {n : Node}, n.isComparable → n.core = n := by
    intro n hn
    cases n with
    | anonymous | color | dimension | quoted => rfl
    | _ => simp [isComparable] at hn
  have hcomparable : ∀ n : Node, n.core.isComparable = n.isComparable :=
    fun n => (sameShape_core n).apply_eq overlooks_isComparable
  have htextual : b.core.isTextual = b.isTextual := (sameShape_core b).apply_eq overlooks_isTextual
  cases ha : a.isComparable with
  | true =>
    unfold compareSimple compareTexts
    rw [hleaf ha, compareOwn_core ha, htextual, comparisonText_eq b.core, comparisonText_eq b,
      css_core, (sameShape_core b).apply_eq overlooks_string?]
    simp [ha]
  | false =>
    cases hb : b.isComparable with
    | true =>
      unfold compareSimple
      rw [hleaf hb, compareOwn_core hb, hcomparable]
      simp [ha, hb]
    | false =>
      rw [compareSimple_of_not_comparable ha hb,
        compareSimple_of_not_comparable (by rw [hcomparable, ha]) (by rw [hcomparable, hb]),
        (sameShape_core a).apply_eq overlooks_label?, (sameShape_core b).apply_eq overlooks_label?]

/-- Only lists of one kind are compared item by item. -/
lemma compareWith_eq_compareSimple (h : ¬ (a.kind = b.kind ∧ a.kind ∈ [.value, .expression])) :
    compareWith queries a b = compareSimple queries a b := by
  cases a with
  | value info xs =>
    cases b with
    | value => simp [kind] at h
    | _ => simp only [compareWith]
  | expression info xs form =>
    cases b with
    | expression => simp [kind] at h
    | _ => simp only [compareWith]
  | _ => simp only [compareWith]

/-- Lists are compared item by item. -/
lemma itemsEqual_core (xs ys : List Node)
    (h : ∀ x ∈ xs, ∀ y, compareWith queries x.core y.core = compareWith queries x y) :
    itemsEqual queries (coreEach xs) (coreEach ys) = itemsEqual queries xs ys := by
  induction xs generalizing ys with
  | nil => cases ys <;> simp [coreEach, itemsEqual]
  | cons x xs ih =>
    rw [List.forall_mem_cons] at h
    cases ys with
    | nil => simp [coreEach, itemsEqual]
    | cons y ys => rw [coreEach, coreEach, itemsEqual, itemsEqual, h.1, ih ys h.2]

/-- Nodes and their cores compare the same. -/
lemma compareWith_core (a b : Node) :
    compareWith queries a.core b.core = compareWith queries a b := by
  induction a using inductionOnChildren generalizing b with
  | step a ih =>
    have hkind : ∀ n : Node, n.core.kind = n.kind :=
      fun n => (sameShape_core n).apply_eq overlooks_kind
    by_cases hlists : a.kind = b.kind ∧ a.kind ∈ [.value, .expression]
    · obtain ⟨hsame, hlist⟩ := hlists
      cases a with
      | value info xs =>
        cases b with
        | value _ ys =>
          simp only [core, compareWith]
          rw [itemsEqual_core xs ys ih]
        | _ => simp [kind] at hsame
      | expression info xs form =>
        cases b with
        | expression _ ys _ =>
          simp only [core, compareWith]
          rw [itemsEqual_core xs ys ih]
        | _ => simp [kind] at hsame
      | _ => simp [kind] at hlist
    · rw [compareWith_eq_compareSimple hlists, ← compareSimple_core]
      exact compareWith_eq_compareSimple (by rwa [hkind, hkind])

/-- A guard holds of two nodes if it holds of their cores. -/
theorem relationHolds_core (relation : Relation) (a b : Node) :
    relationHolds queries relation a.core b.core = relationHolds queries relation a b := by
  unfold relationHolds
  rw [compareWith_core, (sameShape_core a).apply_eq overlooks_asBool,
    (sameShape_core b).apply_eq overlooks_asBool]

end Node

end Cascade
