/-!
# What every node carries

A node knows where it comes from (an index into its source and the file) and whether it is
visible.  The index and the file are those in effect: a node linked to a parent that has
none of its own shows those of the parent.
-/

namespace Cascade

/-- A source file. -/
structure FileInfo where
  filename : String
  directory : String := ""
  rootFilename : String := ""
deriving DecidableEq, Repr

/-- How often a node was hidden, and whether it was shown or hidden for good. -/
structure Visibility where
  blocks : Option Nat := none
  forced : Option Bool := none
deriving DecidableEq, Repr

/-- A change of visibility. -/
inductive VisibilityChange where
  | addBlock
  | removeBlock
  | reveal
  | conceal
deriving DecidableEq, Repr

namespace Visibility

/-- Makes one change. -/
def apply (v : Visibility) : VisibilityChange → Visibility
  | .addBlock => { v with blocks := some (v.blocks.getD 0 + 1) }
  | .removeBlock => { v with blocks := some (v.blocks.getD 0 - 1) }
  | .reveal => { v with forced := some true }
  | .conceal => { v with forced := some false }

/-- Whether a block is in force. -/
def isBlocked (v : Visibility) : Bool :=
  v.blocks.getD 0 != 0

/-- Whether the node is printed: it is not blocked, or it is shown for good. -/
def isShown (v : Visibility) : Bool :=
  !v.isBlocked || v.forced == some true

end Visibility

/-- What every node carries: its place, whether it was ever linked to a parent, its
visibility, and the number under which its place is known, if it has one. -/
structure Info where
  index : Nat := 0
  file : Option FileInfo := none
  linked : Bool := false
  visibility : Visibility := {}
  origin : Option Nat := none
deriving DecidableEq, Repr

namespace Info

instance : Inhabited Info := ⟨{}⟩

/-- A copy: the place in effect and the visibility, without the link and the number. -/
def snapshot (info : Info) : Info :=
  { info with linked := false, origin := none }

/-- The name of the file in effect. -/
def filename? (info : Info) : Option String :=
  info.file.map FileInfo.filename

@[simp] theorem snapshot_snapshot (info : Info) : info.snapshot.snapshot = info.snapshot := rfl

end Info

end Cascade
