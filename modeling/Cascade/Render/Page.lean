import Cascade.Render.Writer

/-!
# Printing on a page

A page holds the chunks written so far and the style, in which the printer keeps whether the
declaration at hand is the last one of its block and how deep the block is nested.  Printing
changes the page in place: an item or a block sets what it needs in the style, prints, and
puts back what was there, also when the printer stopped.
-/

namespace Cascade

/-- The style, and the chunks written so far. -/
structure Page where
  style : Style
  chunks : List Chunk := []
deriving DecidableEq, Repr

/-- Printing on a page gives why the printer stopped, if it did, and the page after it. -/
def Printing : Type :=
  Page → Option Halt × Page

namespace Printing

/-- Nothing is printed. -/
def empty : Printing :=
  fun page => (none, page)

/-- One chunk at the end of the page. -/
def chunk (text : String) (file : Option FileInfo) (index : Option Nat) : Printing :=
  fun page => (none, { page with chunks := page.chunks ++ [⟨text, file, index⟩] })

/-- The printer stops. -/
def stop (halt : Halt) : Printing :=
  fun page => (some halt, page)

/-- One part after the other, unless the first one stopped. -/
def append (a b : Printing) : Printing :=
  fun page =>
    match a page with
    | (some halt, page) => (some halt, page)
    | (none, page) => b page

/-- What is printed depends on the style at hand. -/
def styled (f : Style → Printing) : Printing :=
  fun page => f page.style page

/-- An error that names a place is reported at another one. -/
def relocated (position : Position) (a : Printing) : Printing :=
  fun page =>
    let (halt, page) := a page
    (halt.map (Halt.relocate position), page)

/-- The text of a part that is printed on a sheet of its own, with the same style. -/
def textOf (a : Printing) (style : Style) : Except Halt String × Style :=
  let (halt, sheet) := a { style }
  match halt with
  | some halt => (.error halt, sheet.style)
  | none => (.ok (String.join (sheet.chunks.map Chunk.text)), sheet.style)

/-- The texts of parts that are printed one after the other, each on a sheet of its own. -/
def joinTexts : List Printing → Style → Except Halt String × Style
  | [], style => (.ok "", style)
  | a :: rest, style =>
    match textOf a style with
    | (.error halt, style) => (.error halt, style)
    | (.ok text, style) =>
      match joinTexts rest style with
      | (.error halt, style) => (.error halt, style)
      | (.ok texts, style) => (.ok (text ++ texts), style)

/-- Parts are printed aside, and what follows is given their text. -/
def aside (parts : List Printing) (k : String → Printing) : Printing :=
  fun page =>
    match joinTexts parts page.style with
    | (.error halt, style) => (some halt, { page with style })
    | (.ok text, style) => k text { page with style }

/-- Says whether the item is the last one while it is printed. -/
def item (last : Bool) (a : Printing) : Printing :=
  fun page =>
    let previous := page.style.lastRule
    let (halt, page) := a { page with style := { page.style with lastRule := last } }
    (halt, { page with style := { page.style with lastRule := previous } })

/-- Indents by one more level while the part is printed. -/
def indented (a : Printing) : Printing :=
  fun page =>
    let level := page.style.level
    let (halt, page) := a { page with style := { page.style with level := level + 1 } }
    (halt, { page with style := { page.style with level } })

end Printing

instance : Printer Printing where
  append := Printing.append
  empty := Printing.empty
  chunk := Printing.chunk
  stop := Printing.stop
  styled := Printing.styled
  relocated := Printing.relocated
  aside := Printing.aside
  item := Printing.item
  indented := Printing.indented

/-- Prints a node at the end of a page. -/
def Page.print (page : Page) (queries : Queries) (node : Node) : Option Halt × Page :=
  (Node.print queries node : Printing) page

end Cascade
