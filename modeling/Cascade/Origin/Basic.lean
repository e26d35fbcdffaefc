import Cascade.Error
import Cascade.Node.Info

/-!
# Origins

An origin is a place in a source that may be linked to a parent.  The link is set once; it
outlives the parent, but leads nowhere once the parent is gone.  A place without an index or
a file of its own takes that of the nearest ancestor that has one.

`Origins` keeps all places that were ever made, by number; the place of a number that is gone
is empty.  Linking refuses what would make a place its own ancestor, so following the links
always comes to an end, after at most as many steps as there are numbers.
-/

namespace Cascade

/-- A place in a source: its own index (zero for none) and file, and the number of the parent
it was linked to. -/
structure Origin where
  index : Nat := 0
  file : Option FileInfo := none
  parent : Option Nat := none
deriving DecidableEq, Repr

/-- All places, by number. -/
structure Origins where
  slots : List (Option Origin)
deriving DecidableEq, Repr

namespace Origins

/-- No places. -/
def empty : Origins :=
  ⟨[]⟩

/-- The place of a number, unless it is gone. -/
def get? (o : Origins) (id : Nat) : Option Origin :=
  o.slots[id]?.join

/-- Adds a place under a new number. -/
def add (o : Origins) (origin : Origin) : Origins × Nat :=
  (⟨o.slots ++ [some origin]⟩, o.slots.length)

/-- Removes a place. -/
def drop (o : Origins) (id : Nat) : Origins :=
  ⟨o.slots.set id none⟩

/-- Removes all places whose number is not among those given. -/
def keepOnly (o : Origins) (live : List Nat) : Origins :=
  ⟨o.slots.mapIdx fun id slot => if live.contains id then slot else none⟩

/-- A place and its ancestors, nearest first, as far as `steps` links lead. -/
def lineageWithin (o : Origins) : Nat → Nat → List Nat
  | 0, _ => []
  | steps + 1, id =>
    match o.get? id with
    | none => []
    | some origin =>
      id :: match origin.parent with
        | none => []
        | some parent => lineageWithin o steps parent

/-- A place and all its ancestors, nearest first. -/
def lineage (o : Origins) (id : Nat) : List Nat :=
  o.lineageWithin o.slots.length id

/-- The index of a place: its own, else that of the nearest ancestor that has one. -/
def index (o : Origins) (id : Nat) : Nat :=
  ((o.lineage id).findSome? fun n =>
    (o.get? n).bind fun origin => if origin.index = 0 then none else some origin.index).getD 0

/-- The file of a place: its own, else that of the nearest ancestor that has one. -/
def file (o : Origins) (id : Nat) : Option FileInfo :=
  (o.lineage id).findSome? fun n => (o.get? n).bind Origin.file

/-- Whether a place was ever linked to a parent. -/
def isLinked (o : Origins) (id : Nat) : Bool :=
  ((o.get? id).bind Origin.parent).isSome

/-- Whether any place was ever linked to a parent. -/
def hasLinks (o : Origins) : Bool :=
  o.slots.any fun slot => (slot.bind Origin.parent).isSome

/-- A new place that stands where another one does, without a link. -/
def copyOf (o : Origins) (id : Nat) : Origin :=
  { index := o.index id, file := o.file id }

/-- Links a place to a parent.  A place cannot be its own ancestor, and can be linked only
once; the first is checked before the second. -/
def setParent (o : Origins) (child parent : Nat) : Except Error Origins :=
  if (o.lineage parent).contains child then .error .ownAncestor
  else
    match o.get? child with
    | none => .ok o
    | some origin =>
      if origin.parent.isSome then .error .secondParent
      else .ok ⟨o.slots.set child (some { origin with parent := some parent })⟩

end Origins

end Cascade
