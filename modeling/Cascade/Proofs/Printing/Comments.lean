import Cascade.Proofs.Printing.Blocks

/-!
# Comments in compressed output

Compressed output drops the comments that do not begin with `/*!`.  Nothing else goes with them but
the blocks that held no other item: what is left stands in the same order and under the same
selectors as in full output (`Ruleset.blocks_without_remarks`).

This is not particular to comments.  If one style prints those rules that another one prints and
that pass a test, then at every depth its blocks are the blocks of the other one, restricted to the
items that pass (`Ruleset.blocks_eq_restrict`).
-/

namespace Cascade

/-! ### Fewer items -/

namespace Block

variable {β : Type} {keep : β → Bool}

/-- Takes the items that fail a test out of some blocks, and then the blocks that are left without
items. -/
def restrict (keep : β → Bool) (blocks : List (Block β)) : List (Block β) :=
  (blocks.map fun block => { block with items := block.items.filter keep }).filter fun block =>
    !block.items.isEmpty

@[simp] lemma restrict_nil : restrict keep [] = [] :=
  rfl

lemma restrict_append (blocks blocks' : List (Block β)) :
    restrict keep (blocks ++ blocks') = restrict keep blocks ++ restrict keep blocks' := by
  rw [restrict, List.map_append, List.filter_append, restrict, restrict]

lemma restrict_flatMap {α : Type} (l : List α) (f : α → List (Block β)) :
    restrict keep (l.flatMap f) = l.flatMap fun a => restrict keep (f a) := by
  rw [restrict, List.map_flatMap, List.filter_flatMap]
  rfl

/-- One block goes if none of its items passes. -/
lemma restrict_singleton (selectors : List String) (items : List β) :
    restrict keep [⟨selectors, items⟩] =
      if items.filter keep = [] then [] else [⟨selectors, items.filter keep⟩] := by
  cases h : items.filter keep <;> simp [restrict, h]

end Block

/-! ### Fewer rules -/

section Restricted

variable {style style' : Style} {keep : Node → Bool}

/-- The rules that one style prints and that pass the test, where the other style prints these. -/
lemma filter_isRendered_eq
    (h : ∀ rule : Node, rule.isRendered style' = (rule.isRendered style && keep rule))
    (rules : List Node) : rules.filter (·.isRendered style') =
      (rules.filter (·.isRendered style)).filter keep := by
  rw [List.filter_filter]
  exact List.filter_congr fun rule _ => (h rule).trans (Bool.and_comm _ _)

/-- The block of a ruleset itself. -/
lemma Ruleset.ownBlocks_eq_restrict
    (h : ∀ rule : Node, rule.isRendered style' = (rule.isRendered style && keep rule))
    (rs : Ruleset) : rs.ownBlocks style' = Block.restrict keep (rs.ownBlocks style) := by
  rw [ownBlocks, ownBlocks, filter_isRendered_eq h]
  by_cases hnone : rs.rules.filter (·.isRendered style) = []
  · rw [if_pos hnone, hnone, List.filter_nil, if_pos rfl, Block.restrict_nil]
  · rw [if_neg hnone, Block.restrict_singleton]

/-- The blocks inside a rule, from those of the ruleset that it is. -/
lemma Node.innerBlocks_eq_restrict {rule : Node}
    (h : ∀ child, rule = .ruleset child →
      child.blocks style' = Block.restrict keep (child.blocks style)) :
    rule.innerBlocks style' = Block.restrict keep (rule.innerBlocks style) := by
  cases rule with
  | ruleset child =>
    rw [innerBlocks, innerBlocks, h child rfl, apply_ite (Block.restrict keep), Block.restrict_nil]
  | _ => rfl

/-- The blocks of a rule where there are no selectors.  A rule that is an item has no blocks
inside, so nothing shows in its place if it fails the test. -/
lemma Node.bareBlocks_eq_restrict
    (h : ∀ rule : Node, rule.isRendered style' = (rule.isRendered style && keep rule))
    {rule : Node}
    (hinner : rule.innerBlocks style' = Block.restrict keep (rule.innerBlocks style)) :
    rule.bareBlocks style' = Block.restrict keep (rule.bareBlocks style) := by
  rw [bareBlocks, bareBlocks, h rule]
  cases hrendered : rule.isRendered style with
  | false => simpa using hinner
  | true =>
    have hnone : rule.innerBlocks style' = [] := by
      refine innerBlocks_of_ne_ruleset ?_
      rintro ⟨rs, rfl⟩
      exact Bool.false_ne_true ((isRendered_ruleset rs).symm.trans hrendered)
    cases hkeep : keep rule <;> simp [Block.restrict_singleton, hkeep, hnone]

/-- A style that prints the rules of another one that pass a test gives the blocks of the other one,
restricted to the items that pass. -/
theorem Ruleset.blocks_eq_restrict
    (h : ∀ rule : Node, rule.isRendered style' = (rule.isRendered style && keep rule))
    (rs : Ruleset) : rs.blocks style' = Block.restrict keep (rs.blocks style) := by
  induction rs using Ruleset.inductionOnRules with
  | step rs ih =>
    have hinner : ∀ rule ∈ rs.rules,
        rule.innerBlocks style' = Block.restrict keep (rule.innerBlocks style) :=
      fun rule hrule => Node.innerBlocks_eq_restrict fun child heq => ih child (heq ▸ hrule)
    by_cases hselectors : rs.selectors = []
    · rw [blocks_of_selectors_eq_nil hselectors, blocks_of_selectors_eq_nil hselectors,
        Block.restrict_flatMap]
      exact List.flatMap_congr fun rule hrule => Node.bareBlocks_eq_restrict h (hinner rule hrule)
    · rw [blocks_of_selectors hselectors, blocks_of_selectors hselectors, Block.restrict_append,
        Block.restrict_flatMap, ownBlocks_eq_restrict h]
      exact congrArg _ (List.flatMap_congr hinner)

end Restricted

/-! ### Remarks -/

namespace Node

/-- Whether a node is a comment that does not begin with `/*!`. -/
def isRemark : Node → Bool
  | .comment _ text _ _ => !Text.startsWith "/*!" text
  | _ => false

/-- Compressed output prints the rules that full output prints, except for remarks. -/
lemma isRendered_compressed (style : Style) (rule : Node) :
    rule.isRendered { style with compress := true } =
      (rule.isRendered { style with compress := false } && !rule.isRemark) := by
  cases rule with
  | comment info text isLine debug =>
    unfold isRendered isSilentComment isRemark
    cases (Node.comment info text isLine debug).isShown <;> cases isLine <;> simp
  | _ => exact (Bool.and_true _).symm

end Node

namespace Ruleset

/-- Compression drops only comments.  The blocks of a ruleset in a compressed style are its blocks
in the same style without compression, in the same order and under the same selectors, once the
comments that do not begin with `/*!` are taken out, and then the blocks that are left without
items.  The writer prints these blocks. -/
theorem blocks_without_remarks (style : Style) (rs : Ruleset) :
    rs.blocks { style with compress := true } =
      Block.restrict (!·.isRemark) (rs.blocks { style with compress := false }) ∧
    ∀ (ρ : Type) [Printer ρ] (cell : QueryId → ρ),
      List.Forall₂ (Block.Related fun printed node => printed = Node.write cell node)
        (rs.itemBlocks cell { style with compress := true })
        (Block.restrict (!·.isRemark) (rs.blocks { style with compress := false })) := by
  have hblocks := blocks_eq_restrict (Node.isRendered_compressed style) rs
  refine ⟨hblocks, fun ρ _ cell => ?_⟩
  rw [← hblocks]
  exact related_itemBlocks cell _ rs

end Ruleset

end Cascade
