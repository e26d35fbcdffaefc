import Cascade.Render.Rendering
import Cascade.Render.Style

/-!
# Printers

The writer does not depend on the medium it prints to.  What it asks of a medium is collected
in `Printer`: chunks one after the other, a look at the style, and the three places where the
style is different for a while or the output goes elsewhere.  A function from styles to
renderings is such a medium; a page that is written in place is another.
-/

namespace Cascade

/-- What the writer asks of the medium it prints to.  With `++` one part follows the other,
unless the first one stopped. -/
class Printer (ρ : Type) extends Append ρ where
  /-- Nothing is printed. -/
  empty : ρ
  /-- One chunk at a place. -/
  chunk : String → Option FileInfo → Option Nat → ρ
  /-- The printer stops. -/
  stop : Halt → ρ
  /-- What is printed depends on the style. -/
  styled : (Style → ρ) → ρ
  /-- An error that names a place is reported at another one. -/
  relocated : Position → ρ → ρ
  /-- Parts are printed aside, and what follows is given their text. -/
  aside : List ρ → (String → ρ) → ρ
  /-- An item of a block, which is told whether it is the last one. -/
  item : Bool → ρ → ρ
  /-- What stands between the braces of a block. -/
  indented : ρ → ρ

namespace Printer

variable {ρ : Type} [Printer ρ]

/-- One chunk without a place. -/
def ofText (text : String) : ρ :=
  chunk text none none

/-- One chunk at the place of a node. -/
def located (text : String) (info : Info) : ρ :=
  chunk text info.file (some info.index)

/-- The printer stops with an error. -/
def fail (error : Error) : ρ :=
  stop (.failed error)

/-- Parts one after the other. -/
def concat : List ρ → ρ
  | [] => empty
  | r :: rest => r ++ concat rest

/-- Parts with the separator of a list between them. -/
def separated : List ρ → ρ
  | [] => empty
  | [r] => r
  | r :: rest => r ++ (styled (fun style => ofText style.comma) ++ separated rest)

end Printer

/-- Renderings that depend on the style: printing leaves no trace but the chunks. -/
instance : Printer (Style → Rendering) where
  append a b := fun style => a style ++ b style
  empty := fun _ => .empty
  chunk text file index := fun _ => .chunk text file index
  stop halt := fun _ => .stop halt
  styled f := fun style => f style style
  relocated position r := fun style => (r style).mapHalt (Halt.relocate position)
  aside parts k := fun style => .aside (parts.map fun part => part style) fun text => k text style
  item last r := fun style => r { style with lastRule := last }
  indented r := fun style => r { style with level := style.level + 1 }

end Cascade
