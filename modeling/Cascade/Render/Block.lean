import Cascade.Node.Basic
import Cascade.Render.Printer

/-!
# Blocks

A tree of rulesets is printed as a sequence of blocks.  A ruleset with selectors gives one
block with the rules it prints itself, followed by the blocks of the rulesets nested in it;
each rule of a ruleset without selectors is a bare block of its own, and nested rulesets stay
where they are.

`Ruleset.blocks` gives the blocks of nodes.  The layout is independent of what the items are
(`Block.arrange`), so the writer uses it on printed items as well.
-/

namespace Cascade

namespace Node

/-- Whether a node takes part in the output at all. -/
def isShown (node : Node) : Bool :=
  node.info.visibility.isShown

/-- Whether a rule is printed as an item of its block. -/
def isRendered (style : Style) (node : Node) : Bool :=
  node.isShown &&
    match node with
    | .declaration _ _ _ traits => !traits.isVariable
    | .comment _ text isLine _ => !isSilentComment style.compress text isLine
    | .ruleset .. | .detached .. | .variableRef .. | .variableCall .. | .condition .. => false
    | _ => true

end Node

/-- Some items under common selectors; without selectors they stand on their own. -/
structure Block (β : Type) where
  selectors : List String
  items : List β

/-- What a rule contributes to the blocks of its ruleset. -/
inductive Part (β : Type) where
  | item (b : β)
  | nested (blocks : List (Block β))
  | hidden

namespace Part

variable {β : Type}

/-- The contribution of a rule, given its printed form and, for a nested ruleset, its
blocks. -/
def ofRule (style : Style) (rule : Node) (item : β) (nested : Option (List (Block β))) : Part β :=
  if rule.isShown then
    match nested with
    | some blocks => .nested blocks
    | none => if rule.isRendered style then .item item else .hidden
  else .hidden

/-- The item of a part. -/
def item? : Part β → Option β
  | .item b => some b
  | _ => none

/-- The blocks of a nested part. -/
def nestedBlocks : Part β → List (Block β)
  | .nested blocks => blocks
  | _ => []

/-- The blocks of a part without selectors. -/
def bareBlocks : Part β → List (Block β)
  | .item b => [⟨[], [b]⟩]
  | .nested blocks => blocks
  | .hidden => []

end Part

namespace Block

variable {β : Type}

/-- Whether the items stand on their own. -/
def isBare (block : Block β) : Bool :=
  block.selectors.isEmpty

/-- The blocks of a ruleset from the contributions of its rules. -/
def arrange (selectors : List String) (parts : List (Part β)) : List (Block β) :=
  if selectors.isEmpty then parts.flatMap Part.bareBlocks
  else
    let items := parts.filterMap Part.item?
    (if items.isEmpty then [] else [⟨selectors, items⟩]) ++ parts.flatMap Part.nestedBlocks

end Block

namespace Block

variable {ρ : Type} [Printer ρ]

open Printer

/-- The text before a block: nothing before the first one and in compressed output, one line
break beside a bare block, two between others. -/
def gap (previous : Option Bool) (bare : Bool) : ρ :=
  match previous with
  | none => empty
  | some previousBare =>
    styled fun style =>
      if style.compress then empty
      else ofText (if bare || previousBare then "\n" else "\n\n")

/-- The line start of an item or a block. -/
def lineStart : ρ :=
  styled fun style => if style.compress then empty else ofText style.indent

/-- The line end of an item. -/
def lineEnd : ρ :=
  styled fun style => if style.compress then empty else ofText "\n"

/-- The items of a block in braces, each on a line of its own; the last one is told so. -/
def writeItems : List ρ → ρ
  | [] => empty
  | r :: rest => lineStart ++ (item rest.isEmpty r ++ (lineEnd ++ writeItems rest))

/-- The items of a bare block, each of which counts as the last one. -/
def writeBare (items : List ρ) : ρ :=
  concat (items.map fun r => lineStart ++ item true r)

/-- The selectors of a block and its opening brace. -/
def opening (selectors : List String) : ρ :=
  styled fun style =>
    if style.compress then ofText (String.intercalate "," selectors) ++ ofText "\x7b"
    else
      ofText style.indent ++
        (ofText (String.intercalate ", " selectors) ++ ofText " \x7b\n")

/-- A block in braces. -/
def writeBraced (block : Block ρ) : ρ :=
  opening block.selectors ++
    (indented (writeItems block.items) ++ (lineStart ++ ofText "\x7d"))

/-- A block. -/
def write (block : Block ρ) : ρ :=
  if block.isBare then writeBare block.items else writeBraced block

/-- Blocks one after the other, after a block that was or was not bare. -/
def writeAfter (previous : Option Bool) : List (Block ρ) → ρ
  | [] => empty
  | block :: rest =>
    gap previous block.isBare ++ (block.write ++ writeAfter (some block.isBare) rest)

/-- A sequence of blocks. -/
def writeAll (blocks : List (Block ρ)) : ρ :=
  writeAfter none blocks

end Block

mutual

/-- The blocks of a ruleset. -/
def Ruleset.blocks (style : Style) : Ruleset → List (Block Node)
  | .mk _ selectors rules _ => Block.arrange selectors (Part.ofRules style rules)

/-- The contributions of some rules. -/
def Part.ofRules (style : Style) : List Node → List (Part Node)
  | [] => []
  | rule :: rest =>
    let nested := match rule with
      | .ruleset rs => some (Ruleset.blocks style rs)
      | _ => none
    Part.ofRule style rule rule nested :: Part.ofRules style rest

end

end Cascade
