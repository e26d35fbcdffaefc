import Cascade.Origin.Basic

/-!
# Tables of node data

Places together with visibilities, and the commands that make, copy, link and remove them.
A copy stands where the copied place stands at that moment and has no link.
-/

namespace Cascade

/-- Places and visibilities, by the same numbers. -/
structure InfoTable where
  origins : Origins
  visibilities : List Visibility
deriving DecidableEq, Repr

/-- A command on a table. -/
inductive InfoCommand where
  | new (index : Nat) (file : Option FileInfo)
  | clone (source : Nat)
  | drop (target : Nat)
  | setParent (child parent : Nat)
  | change (target : Nat) (change : VisibilityChange)
  | copyVisibility (target source : Nat)
deriving DecidableEq, Repr

/-- One line of a table: the place in effect, whether it was linked, and the visibility. -/
structure InfoView where
  index : Nat
  file : Option FileInfo
  linked : Bool
  visibility : Visibility
deriving DecidableEq, Repr

namespace InfoTable

/-- The empty table. -/
def empty : InfoTable :=
  ⟨.empty, []⟩

/-- The visibility under a number. -/
def visibility (t : InfoTable) (id : Nat) : Visibility :=
  t.visibilities[id]?.getD {}

/-- Adds a place with a visibility under a new number. -/
def add (t : InfoTable) (origin : Origin) (visibility : Visibility) : InfoTable :=
  ⟨(t.origins.add origin).1, t.visibilities ++ [visibility]⟩

/-- Carries out a command.  Only linking can fail, and a failure changes nothing. -/
def run (t : InfoTable) : InfoCommand → Except Error InfoTable
  | .new index file => .ok (t.add { index, file } {})
  | .clone source => .ok (t.add (t.origins.copyOf source) (t.visibility source))
  | .drop target => .ok { t with origins := t.origins.drop target }
  | .setParent child parent => do
    let origins ← t.origins.setParent child parent
    pure { t with origins }
  | .change target change =>
    .ok { t with visibilities := t.visibilities.modify target fun v => v.apply change }
  | .copyVisibility target source =>
    .ok { t with visibilities := t.visibilities.set target (t.visibility source) }

/-- Carries out a command in place: why it was refused, if it was, and the table after it. -/
def step (t : InfoTable) (command : InfoCommand) : Option Error × InfoTable :=
  match t.run command with
  | .ok t => (none, t)
  | .error error => (some error, t)

/-- The line of a number, unless its place is gone. -/
def view? (t : InfoTable) (id : Nat) : Option InfoView :=
  (t.origins.get? id).map fun _ =>
    ⟨t.origins.index id, t.origins.file id, t.origins.isLinked id, t.visibility id⟩

/-- All lines. -/
def views (t : InfoTable) : List (Option InfoView) :=
  (List.range t.origins.slots.length).map t.view?

end InfoTable

end Cascade
