import Mathlib.Data.List.Perm.Basic
import Cascade.Proofs.Printing.Simulation

/-!
# The blocks of a ruleset

A ruleset is printed as the blocks that its rules and the rulesets in it give.  Here this is said
without following the layout: a `Place` leads from a ruleset down through the rules of shown
rulesets (`Ruleset.Shows`), and `Ruleset.Gives` says which places give a block and which block it
is.  A ruleset with selectors gives one at its own place, with the rules it prints itself; a rule
that is printed in a ruleset without selectors gives one at the place of the rule.

The blocks of a ruleset are exactly those that its places give, each place once, in the order of
the places (`Ruleset.inOrder_blocks`).  The order is that of words: a ruleset stands before
everything in it, and what stands earlier among the rules comes first.  Taken together, the items
are the rules that a walk down the tree keeps (`Ruleset.perm_renderedRules`).
-/

namespace Cascade

/-! ### The walk down the tree -/

mutual

/-- The rules that are printed somewhere: those met on the way down through shown rulesets. -/
def Ruleset.renderedRules (style : Style) : Ruleset → List Node
  | .mk _ _ rules _ => Node.renderedAmong style rules

/-- The rules that are printed among some rules and below them. -/
def Node.renderedAmong (style : Style) : List Node → List Node
  | [] => []
  | rule :: rest =>
    let below := match rule with
      | .ruleset rs => if rs.info.visibility.isShown then Ruleset.renderedRules style rs else []
      | _ => []
    (if rule.isRendered style then [rule] else []) ++ below ++ Node.renderedAmong style rest

end

/-- A way down from a ruleset: the positions of the rules that it leads through. -/
abbrev Place := List Nat

/-- A list holds exactly what the places give, each place once, in the order of the places. -/
def Place.InOrder {β : Type} (gives : Place → β → Prop) (found : List β) : Prop :=
  ∃ placed : List (Place × β), placed.map Prod.snd = found ∧ placed.Pairwise (·.1 < ·.1) ∧
    ∀ place b, (place, b) ∈ placed ↔ gives place b

namespace Ruleset

/-- A ruleset is found at a place below another one, or is that one, if the way leads through shown
rulesets only. -/
inductive Shows : Ruleset → Place → Ruleset → Prop where
  | here {rs : Ruleset} : Shows rs [] rs
  | inside {rs child r : Ruleset} {i : Nat} {place : Place} : rs.rules[i]? = some (.ruleset child) →
    (Node.ruleset child).isShown → Shows child place r → Shows rs (i :: place) r

/-- The block that a place gives.  A ruleset with selectors gives the rules it prints itself, if
there are any, in their order and under its selectors; in a ruleset without selectors every printed
rule is a block of its own. -/
inductive Gives (style : Style) (rs : Ruleset) : Place → Block Node → Prop where
  | braced {place : Place} {r : Ruleset} : rs.Shows place r → r.selectors ≠ [] →
    r.rules.filter (·.isRendered style) ≠ [] →
    Gives style rs place ⟨r.selectors, r.rules.filter (·.isRendered style)⟩
  | bare {place : Place} {r : Ruleset} {i : Nat} {rule : Node} : rs.Shows place r →
    r.selectors = [] → r.rules[i]? = some rule → rule.isRendered style →
    Gives style rs (place ++ [i]) ⟨[], [rule]⟩

end Ruleset

/-! ### What a rule contributes -/

namespace Node

variable {style : Style} {rule : Node}

/-- The blocks that a rule gives if it is a shown ruleset. -/
def innerBlocks (style : Style) : Node → List (Block Node)
  | .ruleset rs => if (Node.ruleset rs).isShown then rs.blocks style else []
  | _ => []

/-- The blocks that a rule gives in a ruleset without selectors. -/
def bareBlocks (style : Style) (rule : Node) : List (Block Node) :=
  if rule.isRendered style then [⟨[], [rule]⟩] else rule.innerBlocks style

/-- What a rule contributes to the blocks of its ruleset. -/
def part (style : Style) (rule : Node) : Part Node :=
  .ofRule style rule rule (match rule with
    | .ruleset rs => some (rs.blocks style)
    | _ => none)

/-- The contributions of rules, one by one. -/
lemma ofRules_eq_map (style : Style) (rules : List Node) :
    Part.ofRules style rules = rules.map (part style) := by
  induction rules with
  | nil => rfl
  | cons rule rest ih =>
    rw [List.map_cons, ← ih]
    cases rule <;> rfl

/-- A ruleset is never printed as an item. -/
@[simp] lemma isRendered_ruleset (rs : Ruleset) : (Node.ruleset rs).isRendered style = false :=
  Bool.and_false _

/-- A rule that is printed as an item is shown. -/
lemma isShown_of_isRendered (h : rule.isRendered style) : rule.isShown :=
  (Bool.and_eq_true_iff.1 h).1

/-- A ruleset contributes its blocks, unless it is hidden. -/
lemma part_ruleset (rs : Ruleset) : (Node.ruleset rs).part style =
    if (Node.ruleset rs).isShown then .nested (rs.blocks style) else .hidden :=
  rfl

/-- Any other rule contributes itself, unless it is not printed. -/
lemma part_of_ne_ruleset (h : ¬ ∃ rs, rule = .ruleset rs) :
    rule.part style = if rule.isRendered style then .item rule else .hidden := by
  have hpart : rule.part style = .ofRule style rule rule none := by
    cases rule with
    | ruleset rs => exact absurd ⟨rs, rfl⟩ h
    | _ => rfl
  rw [hpart, Part.ofRule]
  by_cases hrendered : rule.isRendered style
  · rw [if_pos (isShown_of_isRendered hrendered)]
  · simp only [if_neg hrendered, ite_self]

/-- Any other rule has no blocks inside. -/
lemma innerBlocks_of_ne_ruleset (h : ¬ ∃ rs, rule = .ruleset rs) : rule.innerBlocks style = [] := by
  cases rule with
  | ruleset rs => exact absurd ⟨rs, rfl⟩ h
  | _ => rfl

/-- The item that a rule contributes. -/
lemma item?_part (style : Style) (rule : Node) :
    (rule.part style).item? = if rule.isRendered style then some rule else none := by
  rcases em (∃ rs, rule = .ruleset rs) with ⟨rs, rfl⟩ | hrule
  · rw [part_ruleset, isRendered_ruleset]
    split <;> rfl
  · rw [part_of_ne_ruleset hrule]
    split <;> rfl

/-- The blocks of nested rulesets that a rule contributes. -/
lemma nestedBlocks_part (style : Style) (rule : Node) :
    (rule.part style).nestedBlocks = rule.innerBlocks style := by
  rcases em (∃ rs, rule = .ruleset rs) with ⟨rs, rfl⟩ | hrule
  · rw [part_ruleset, innerBlocks]
    split <;> rfl
  · rw [part_of_ne_ruleset hrule, innerBlocks_of_ne_ruleset hrule]
    split <;> rfl

/-- The blocks that a rule contributes where there are no selectors. -/
lemma bareBlocks_part (style : Style) (rule : Node) :
    (rule.part style).bareBlocks = rule.bareBlocks style := by
  rcases em (∃ rs, rule = .ruleset rs) with ⟨rs, rfl⟩ | hrule
  · rw [part_ruleset, bareBlocks, isRendered_ruleset, innerBlocks]
    split <;> rfl
  · rw [part_of_ne_ruleset hrule, bareBlocks, innerBlocks_of_ne_ruleset hrule]
    split <;> rfl

end Node

namespace Ruleset

variable {style : Style} {rs : Ruleset}

/-- The block of a ruleset with selectors itself, if it prints anything. -/
def ownBlocks (style : Style) (rs : Ruleset) : List (Block Node) :=
  if rs.rules.filter (·.isRendered style) = [] then []
  else [⟨rs.selectors, rs.rules.filter (·.isRendered style)⟩]

/-- The items of the block of a ruleset itself are the rules that it prints. -/
lemma flatMap_items_ownBlocks (style : Style) (rs : Ruleset) :
    (rs.ownBlocks style).flatMap Block.items = rs.rules.filter (·.isRendered style) := by
  unfold ownBlocks
  split
  next hnone => rw [hnone, List.flatMap_nil]
  next => rw [List.flatMap_singleton]

/-- A ruleset with selectors gives its own block and then those of the rulesets in it. -/
lemma blocks_of_selectors (h : rs.selectors ≠ []) :
    rs.blocks style = rs.ownBlocks style ++ rs.rules.flatMap (Node.innerBlocks style) := by
  obtain ⟨info, selectors, rules, root⟩ := rs
  have hitems : (rules.map (Node.part style)).filterMap Part.item? =
      rules.filter (·.isRendered style) := by
    rw [List.filterMap_map, ← List.filterMap_eq_filter]
    refine List.filterMap_congr fun rule _ => ?_
    rw [Function.comp_apply, Node.item?_part, Option.guard]
  have hselectors : selectors.isEmpty = false := List.isEmpty_eq_false_iff.2 h
  rw [blocks, Node.ofRules_eq_map, Block.arrange, hselectors, if_neg Bool.false_ne_true, hitems,
    List.flatMap_map, ownBlocks]
  simp only [List.isEmpty_iff, Node.nestedBlocks_part]
  rfl

/-- A ruleset without selectors gives the blocks of its rules one after the other. -/
lemma blocks_of_selectors_eq_nil (h : rs.selectors = []) :
    rs.blocks style = rs.rules.flatMap (Node.bareBlocks style) := by
  obtain ⟨info, selectors, rules, root⟩ := rs
  have hselectors : selectors.isEmpty = true := List.isEmpty_iff.2 h
  rw [blocks, Node.ofRules_eq_map, Block.arrange, if_pos hselectors, List.flatMap_map]
  simp only [Node.bareBlocks_part, Ruleset.rules]

end Ruleset

/-! ### No rule is lost and none is printed twice -/

namespace Node

variable {style : Style}

/-- The rules that are printed below a rule. -/
def renderedBelow (style : Style) : Node → List Node
  | .ruleset rs => if (Node.ruleset rs).isShown then rs.renderedRules style else []
  | _ => []

/-- Nothing is printed below a rule that is printed as an item. -/
lemma renderedBelow_of_isRendered {rule : Node} (h : rule.isRendered style) :
    rule.renderedBelow style = [] := by
  cases rule with
  | ruleset rs => exact absurd ((isRendered_ruleset rs).symm.trans h) Bool.false_ne_true
  | _ => rfl

/-- The walk over some rules, one by one. -/
lemma renderedAmong_eq (style : Style) (rules : List Node) :
    renderedAmong style rules = rules.flatMap fun rule =>
      (if rule.isRendered style then [rule] else []) ++ rule.renderedBelow style := by
  induction rules with
  | nil => rfl
  | cons rule rest ih =>
    rw [List.flatMap_cons, ← ih]
    cases rule <;> rfl

end Node

namespace Ruleset

variable {style : Style}

/-- The items of all blocks are the rules that the walk down the tree keeps, as often as it meets
them. -/
theorem perm_renderedRules (style : Style) (rs : Ruleset) :
    ((rs.blocks style).flatMap Block.items).Perm (rs.renderedRules style) := by
  induction rs using Ruleset.inductionOnRules with
  | step rs ih =>
    have hinner : ∀ rule ∈ rs.rules, ((rule.innerBlocks style).flatMap Block.items).Perm
        (rule.renderedBelow style) := by
      intro rule hrule
      cases rule with
      | ruleset child =>
        rw [Node.innerBlocks, Node.renderedBelow]
        split
        · exact ih child hrule
        · exact .refl _
      | _ => exact .refl _
    have hwalk : rs.renderedRules style = rs.rules.flatMap fun rule =>
        (if rule.isRendered style then [rule] else []) ++ rule.renderedBelow style := by
      obtain ⟨info, selectors, rules, root⟩ := rs
      exact Node.renderedAmong_eq style rules
    rw [hwalk]
    by_cases hselectors : rs.selectors = []
    · rw [blocks_of_selectors_eq_nil hselectors, List.flatMap_assoc]
      refine List.Perm.flatMap_left _ fun rule hrule => ?_
      rw [Node.bareBlocks]
      by_cases hrendered : rule.isRendered style
      · rw [if_pos hrendered, if_pos hrendered, Node.renderedBelow_of_isRendered hrendered]
        exact .refl _
      · rw [if_neg hrendered, if_neg hrendered]
        exact hinner rule hrule
    · have hown : (rs.ownBlocks style).flatMap Block.items =
          rs.rules.flatMap fun rule => if rule.isRendered style then [rule] else [] := by
        rw [flatMap_items_ownBlocks, ← List.filterMap_eq_filter, List.filterMap_eq_flatMap_toList]
        refine List.flatMap_congr fun rule _ => ?_
        rw [Option.guard, apply_ite Option.toList]
        rfl
      rw [blocks_of_selectors hselectors, List.flatMap_append, List.flatMap_assoc, hown]
      refine .trans ?_ (List.flatMap_append_perm _ _ _)
      exact (List.Perm.flatMap_left _ hinner).append_left _

end Ruleset

/-! ### The places of the blocks -/

namespace Place.InOrder

variable {α β : Type} {gives gives' : Place → β → Prop} {found : List β}

/-- The places may be described in another way. -/
lemma congr (h : InOrder gives found) (hgives : ∀ place b, gives place b ↔ gives' place b) :
    InOrder gives' found := by
  obtain ⟨placed, hfound, hordered, hmem⟩ := h
  exact ⟨placed, hfound, hordered, fun place b => (hmem place b).trans (hgives place b)⟩

/-- Nothing is found where no place gives anything. -/
lemma nil (h : ∀ place b, ¬ gives place b) : InOrder gives [] :=
  ⟨[], rfl, .nil, fun place b => iff_of_false List.not_mem_nil (h place b)⟩

/-- What the first place gives stands before what the places inside give. -/
lemma here {b : β} (h : InOrder gives found) (hgives : ∀ b, ¬ gives [] b) :
    InOrder (fun place b' => (place = [] ∧ b' = b) ∨ gives place b') (b :: found) := by
  obtain ⟨placed, rfl, hordered, hmem⟩ := h
  refine ⟨([], b) :: placed, rfl, List.pairwise_cons.2 ⟨?_, hordered⟩, fun place b' => ?_⟩
  · rintro ⟨place, b'⟩ hplace
    cases place with
    | nil => exact absurd ((hmem [] b').1 hplace) (hgives b')
    | cons i rest => exact List.nil_lt_cons i rest
  · rw [List.mem_cons, Prod.mk.injEq, hmem]

/-- What is found below the items of a list, one after the other. -/
lemma flatMap {l : List α} {f : α → List β} {below : α → Place → β → Prop}
    (h : ∀ a ∈ l, InOrder (below a) (f a)) :
    InOrder (fun place b => ∃ i rest a, place = i :: rest ∧ l[i]? = some a ∧ below a rest b)
      (l.flatMap f) := by
  have hplaced : ∀ a, ∃ placed : List (Place × β), a ∈ l → placed.map Prod.snd = f a ∧
      placed.Pairwise (·.1 < ·.1) ∧ ∀ place b, (place, b) ∈ placed ↔ below a place b := by
    intro a
    by_cases ha : a ∈ l
    · obtain ⟨placed, hplaced⟩ := h a ha
      exact ⟨placed, fun _ => hplaced⟩
    · exact ⟨[], fun ha' => absurd ha' ha⟩
  choose placed hplaced using hplaced
  -- the position of an item stands before the places below it
  refine ⟨l.zipIdx.flatMap fun entry =>
    (placed entry.1).map fun found => (entry.2 :: found.1, found.2), ?_, ?_, fun place b => ?_⟩
  · calc (l.zipIdx.flatMap fun entry =>
          (placed entry.1).map fun found => (entry.2 :: found.1, found.2)).map Prod.snd
        = (l.zipIdx.map Prod.fst).flatMap fun a => (placed a).map Prod.snd := by
          simp only [List.map_flatMap, List.map_map, List.flatMap_map, Function.comp_def]
      _ = l.flatMap f := by
          rw [List.zipIdx_map_fst]
          exact List.flatMap_congr fun a ha => (hplaced a ha).1
  · refine List.pairwise_flatMap.2 ⟨fun entry hentry => ?_, ?_⟩
    · have hmem : entry.1 ∈ l := List.mem_of_getElem? (List.mem_zipIdx_iff_getElem?.1 hentry)
      refine List.pairwise_map.2 ((hplaced entry.1 hmem).2.1.imp fun hlt => ?_)
      exact List.cons_lt_cons_iff.2 (.inr ⟨rfl, hlt⟩)
    · have hpositions : (l.zipIdx.map Prod.snd).Pairwise (· < ·) := by
        rw [List.zipIdx_map_snd]
        exact List.pairwise_lt_range'
      refine (List.pairwise_map.1 hpositions).imp fun hlt x hx y hy => ?_
      obtain ⟨x, -, rfl⟩ := List.mem_map.1 hx
      obtain ⟨y, -, rfl⟩ := List.mem_map.1 hy
      exact List.cons_lt_cons_iff.2 (.inl hlt)
  · simp only [List.mem_flatMap, List.mem_map, List.mem_zipIdx_iff_getElem?, Prod.mk.injEq]
    constructor
    · rintro ⟨⟨a, i⟩, ha, ⟨rest, b⟩, hfound, rfl, rfl⟩
      exact ⟨i, rest, a, rfl, ha, ((hplaced a (List.mem_of_getElem? ha)).2.2 rest b).1 hfound⟩
    · rintro ⟨i, rest, a, rfl, ha, hbelow⟩
      have hfound := ((hplaced a (List.mem_of_getElem? ha)).2.2 rest b).2 hbelow
      exact ⟨(a, i), ha, (rest, b), hfound, rfl, rfl⟩

end Place.InOrder

/-- The blocks that the places inside a rule give, if it is a shown ruleset. -/
def Node.GivesInside (style : Style) (rule : Node) (place : Place) (block : Block Node) : Prop :=
  ∃ child, rule = .ruleset child ∧ rule.isShown ∧ child.Gives style place block

namespace Ruleset

variable {style : Style} {rs : Ruleset} {place : Place} {block : Block Node}

/-- The block of a ruleset itself. -/
lemma mem_ownBlocks : block ∈ rs.ownBlocks style ↔ rs.rules.filter (·.isRendered style) ≠ [] ∧
    block = ⟨rs.selectors, rs.rules.filter (·.isRendered style)⟩ := by
  unfold ownBlocks
  split
  next hnone => exact iff_of_false List.not_mem_nil fun h => h.1 hnone
  next hsome => rw [List.mem_singleton, and_iff_right hsome]

/-- A place inside a shown ruleset among the rules gives what it gives in that ruleset. -/
lemma Gives.inside {i : Nat} {rule : Node} (hrule : rs.rules[i]? = some rule)
    (h : rule.GivesInside style place block) : rs.Gives style (i :: place) block := by
  obtain ⟨child, rfl, hshown, hchild⟩ := h
  cases hchild with
  | braced hshows hselectors hitems =>
    exact .braced (.inside hrule hshown hshows) hselectors hitems
  | bare hshows hselectors hitem hrendered =>
    exact .bare (.inside hrule hshown hshows) hselectors hitem hrendered

/-- A block is given by the ruleset itself, by one of its rules, or inside one of its rules. -/
lemma gives_iff : rs.Gives style place block ↔
    (place = [] ∧ rs.selectors ≠ [] ∧ block ∈ rs.ownBlocks style) ∨
    ∃ i rest rule, place = i :: rest ∧ rs.rules[i]? = some rule ∧
      ((rest = [] ∧ rs.selectors = [] ∧ rule.isRendered style ∧ block = ⟨[], [rule]⟩) ∨
        rule.GivesInside style rest block) := by
  constructor
  · rintro (⟨hshows, hselectors, hitems⟩ | ⟨hshows, hselectors, hitem, hrendered⟩)
    · cases hshows with
      | here => exact .inl ⟨rfl, hselectors, mem_ownBlocks.2 ⟨hitems, rfl⟩⟩
      | inside hrule hshown hshows =>
        have hchild := Gives.braced hshows hselectors hitems
        exact .inr ⟨_, _, _, rfl, hrule, .inr ⟨_, rfl, hshown, hchild⟩⟩
    · cases hshows with
      | here => exact .inr ⟨_, _, _, rfl, hitem, .inl ⟨rfl, hselectors, hrendered, rfl⟩⟩
      | inside hrule hshown hshows =>
        have hchild := Gives.bare hshows hselectors hitem hrendered
        exact .inr ⟨_, _, _, rfl, hrule, .inr ⟨_, rfl, hshown, hchild⟩⟩
  · rintro (⟨rfl, hselectors, hblock⟩ | ⟨i, rest, rule, rfl, hrule, hgives⟩)
    · obtain ⟨hitems, rfl⟩ := mem_ownBlocks.1 hblock
      exact .braced .here hselectors hitems
    · rcases hgives with ⟨rfl, hselectors, hrendered, rfl⟩ | hinside
      · exact .bare .here hselectors hrule hrendered
      · exact .inside hrule hinside

/-- The blocks inside a rule, from those of the ruleset that it is. -/
lemma inOrder_innerBlocks {rule : Node}
    (h : ∀ child, rule = .ruleset child → Place.InOrder (child.Gives style) (child.blocks style)) :
    Place.InOrder (rule.GivesInside style) (rule.innerBlocks style) := by
  rcases em (∃ child, rule = .ruleset child) with ⟨child, rfl⟩ | hrule
  · by_cases hshown : (Node.ruleset child).isShown
    · rw [Node.innerBlocks, if_pos hshown]
      refine (h child rfl).congr fun place block => ⟨fun hgives => ⟨child, rfl, hshown, hgives⟩, ?_⟩
      rintro ⟨_, ⟨⟩, -, hgives⟩
      exact hgives
    · rw [Node.innerBlocks, if_neg hshown]
      exact .nil fun place block ⟨_, _, hshown', _⟩ => hshown hshown'
  · rw [Node.innerBlocks_of_ne_ruleset hrule]
    exact .nil fun place block ⟨child, heq, _⟩ => hrule ⟨child, heq⟩

/-- A ruleset with selectors, from what is inside its rules. -/
lemma inOrder_blocks_of_selectors (h : rs.selectors ≠ [])
    (hinner : ∀ rule ∈ rs.rules,
      Place.InOrder (rule.GivesInside style) (rule.innerBlocks style)) :
    Place.InOrder (rs.Gives style) (rs.blocks style) := by
  have hinside := Place.InOrder.flatMap hinner
  have hgives : ∀ place block, rs.Gives style place block ↔
      (place = [] ∧ block ∈ rs.ownBlocks style) ∨ ∃ i rest rule, place = i :: rest ∧
        rs.rules[i]? = some rule ∧ rule.GivesInside style rest block := by
    intro place block
    simp [gives_iff, h]
  rw [blocks_of_selectors h]
  by_cases hown : rs.rules.filter (·.isRendered style) = []
  · rw [ownBlocks, if_pos hown, List.nil_append]
    refine hinside.congr fun place block => ?_
    simp [hgives, mem_ownBlocks, hown]
  · rw [ownBlocks, if_neg hown, List.singleton_append]
    refine (hinside.here ?_).congr fun place block => ?_
    · rintro block ⟨i, rest, rule, hplace, -⟩
      cases hplace
    · rw [hgives, mem_ownBlocks, and_iff_right hown]

/-- A ruleset without selectors, from what is inside its rules. -/
lemma inOrder_blocks_of_selectors_eq_nil (h : rs.selectors = [])
    (hinner : ∀ rule ∈ rs.rules,
      Place.InOrder (rule.GivesInside style) (rule.innerBlocks style)) :
    Place.InOrder (rs.Gives style) (rs.blocks style) := by
  have hbare : ∀ rule ∈ rs.rules, Place.InOrder
      (fun place block => (place = [] ∧ rule.isRendered style ∧ block = ⟨[], [rule]⟩) ∨
        rule.GivesInside style place block) (rule.bareBlocks style) := by
    intro rule hrule
    rw [Node.bareBlocks]
    by_cases hrendered : rule.isRendered style
    · have hnone : ∀ place block, ¬ rule.GivesInside style place block := by
        rintro place block ⟨child, rfl, -⟩
        exact Bool.false_ne_true ((Node.isRendered_ruleset child).symm.trans hrendered)
      rw [if_pos hrendered]
      refine ((Place.InOrder.nil hnone).here (hnone [])).congr fun place block => ?_
      rw [and_iff_right hrendered]
    · rw [if_neg hrendered]
      refine (hinner rule hrule).congr fun place block => ?_
      simp [hrendered]
  rw [blocks_of_selectors_eq_nil h]
  refine (Place.InOrder.flatMap hbare).congr fun place block => ?_
  rw [gives_iff]
  simp [h]

/-- The blocks of a ruleset are those that its places give, in the order of the places. -/
theorem inOrder_blocks (style : Style) (rs : Ruleset) :
    Place.InOrder (rs.Gives style) (rs.blocks style) := by
  induction rs using Ruleset.inductionOnRules with
  | step rs ih =>
    have hinner : ∀ rule ∈ rs.rules,
        Place.InOrder (rule.GivesInside style) (rule.innerBlocks style) :=
      fun rule hrule => inOrder_innerBlocks fun child heq => ih child (heq ▸ hrule)
    by_cases hselectors : rs.selectors = []
    · exact inOrder_blocks_of_selectors_eq_nil hselectors hinner
    · exact inOrder_blocks_of_selectors hselectors hinner

end Ruleset

/-! ### The blocks that are printed -/

section Printed

variable {ρ : Type} [Printer ρ]

/-- The printed blocks of a ruleset are its blocks with the items printed. -/
lemma Ruleset.related_itemBlocks (cell : QueryId → ρ) (style : Style) (rs : Ruleset) :
    List.Forall₂ (Block.Related fun printed node => printed = Node.write cell node)
      (rs.itemBlocks cell style) (rs.blocks style) := by
  induction rs using Ruleset.inductionOnRules with
  | step rs ih =>
    obtain ⟨info, selectors, rules, root⟩ := rs
    rw [Ruleset.itemBlocks, Ruleset.blocks, Node.ofRules_eq_map]
    refine Block.Related.arrange selectors ?_
    simp only [Ruleset.rules] at ih
    induction rules with
    | nil => exact .nil
    | cons rule rest ihrest =>
      rw [Printer.Simulation.itemParts_cons, List.map_cons]
      refine .cons (.ofRule style rule rfl ?_) (ihrest fun c hc => ih c (.tail _ hc))
      cases rule with
      | ruleset child => exact .some (ih child (.head _))
      | _ => exact .none

end Printed

namespace Ruleset

/-- Printing a ruleset loses no rule and prints none twice.  The items of its blocks, taken
together, are the rules that a walk down through shown rulesets keeps, as often as they are met.  A
ruleset with selectors that is met on the way gives one block, unless it prints nothing itself, with
the rules it prints in their order and under its own selectors; a rule that is printed in a ruleset
without selectors gives a block of its own.  There are no other blocks, no place gives two, and they
follow each other as the places do: a ruleset stands before those inside it, and what comes from an
earlier rule stands before what comes from a later one.  The writer prints these blocks. -/
theorem blocks_hold_rendered (style : Style) (rs : Ruleset) :
    ((rs.blocks style).flatMap Block.items).Perm (rs.renderedRules style) ∧
    Place.InOrder (rs.Gives style) (rs.blocks style) ∧
    ∀ (ρ : Type) [Printer ρ] (cell : QueryId → ρ),
      List.Forall₂ (Block.Related fun printed node => printed = Node.write cell node)
        (rs.itemBlocks cell style) (rs.blocks style) :=
  ⟨perm_renderedRules style rs, inOrder_blocks style rs,
    fun _ _ cell => related_itemBlocks cell style rs⟩

end Ruleset

end Cascade
