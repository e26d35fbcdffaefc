import Cascade.Proofs.Printing.Simulation
import Cascade.Render.Page

/-!
# Printing in place

Printing on a page adds the chunks of the rendering at the end of the page and leaves
everything else as it was, also when the printer stops: what an item or a block sets in the
style is put back (`Page.print_eq`).  A node printed on a sheet of its own gives its text
(`Printing.textOf_print`).
-/

namespace Cascade

namespace Printing

/-- Printing on a page adds the chunks of a rendering and stops where the rendering does. -/
def Adds (r : Style → Rendering) (p : Printing) : Prop :=
  ∀ page : Page, p page =
    ((r page.style).halt, { page with chunks := page.chunks ++ (r page.style).chunks })

variable {r : Style → Rendering} {p : Printing}

/-- A part on a sheet of its own gives its text and keeps the style. -/
lemma Adds.textOf (h : Adds r p) (style : Style) : textOf p style = ((r style).text, style) := by
  unfold Printing.textOf Rendering.text
  rw [h]
  cases (r style).halt with
  | none => simp
  | some halt => simp

/-- The texts of parts, each on a sheet of its own. -/
lemma Adds.joinTexts {rs : List (Style → Rendering)} {ps : List Printing}
    (h : List.Forall₂ Adds rs ps) (style : Style) :
    joinTexts ps style = (Rendering.joinTexts (rs.map fun r => r style), style) := by
  induction h with
  | nil => rfl
  | @cons r p rs ps hr _ ih =>
    rw [Printing.joinTexts, hr.textOf, List.map_cons, Rendering.joinTexts]
    cases (r style).text with
    | error halt => rfl
    | ok text =>
      simp only [ih]
      cases Rendering.joinTexts (rs.map fun r => r style) with
      | error halt => rfl
      | ok texts => rfl

/-- One part after the other. -/
lemma Adds.append {r' : Style → Rendering} {p' : Printing} (h : Adds r p) (h' : Adds r' p') :
    Adds (r ++ r') (p ++ p') := by
  intro page
  have hr : (r ++ r') page.style = (r page.style).append (r' page.style) := rfl
  have hp : (p ++ p') page = Printing.append p p' page := rfl
  rw [hr, hp, Printing.append, h page, Rendering.append]
  cases hhalt : (r page.style).halt with
  | none => simp [h' _]
  | some halt => simp [hhalt]

/-- Printing aside. -/
lemma Adds.aside {rs : List (Style → Rendering)} {ps : List Printing}
    {k : String → Style → Rendering} {l : String → Printing} (h : List.Forall₂ Adds rs ps)
    (hk : ∀ text, Adds (k text) (l text)) : Adds (Printer.aside rs k) (Printer.aside ps l) := by
  intro page
  have hp : (Printer.aside ps l : Printing) page = Printing.aside ps l page := rfl
  have hr : (Printer.aside rs k : Style → Rendering) page.style =
      Rendering.aside (rs.map fun r => r page.style) fun text => k text page.style := rfl
  rw [hr, hp, Printing.aside, Adds.joinTexts h, Rendering.aside]
  cases Rendering.joinTexts (rs.map fun r => r page.style) with
  | error halt => simp [Rendering.stop]
  | ok text => exact hk text page

/-- An item puts back whether the declaration is the last one. -/
lemma Adds.item (last : Bool) (h : Adds r p) :
    Adds (Printer.item last r) (Printer.item last p) := by
  intro page
  have hp : (Printer.item last p : Printing) page = Printing.item last p page := rfl
  rw [hp, Printing.item, h]
  rfl

/-- A block puts back the level. -/
lemma Adds.indented (h : Adds r p) : Adds (Printer.indented r) (Printer.indented p) := by
  intro page
  have hp : (Printer.indented p : Printing) page = Printing.indented p page := rfl
  rw [hp, Printing.indented, h]
  rfl

/-- A stop. -/
lemma adds_stop (halt : Halt) : Adds (Printer.stop halt) (Printer.stop halt) := by
  intro page
  show (some halt, page) = (some halt, { page with chunks := page.chunks ++ [] })
  rw [List.append_nil]

/-- The writer's operations on a page are those of renderings. -/
theorem adds_simulation : Printer.Simulation Adds where
  empty page := by
    show (none, page) = (none, { page with chunks := page.chunks ++ [] })
    rw [List.append_nil]
  chunk _ _ _ _ := rfl
  fail {error} _ := adds_stop (.failed error)
  append := Adds.append
  styled h page := h page.style page
  relocated position h page := by
    show (Option.map (Halt.relocate position) _, _) = _
    rw [h page]
    rfl
  aside := Adds.aside
  item := Adds.item
  indented := Adds.indented

/-- Printing a node adds its rendering. -/
lemma adds_print (queries : Queries) (node : Node) :
    Adds (Node.print queries node) (Node.print queries node) :=
  adds_simulation.print (adds_stop .exhausted) queries node

/-- A node printed on a sheet of its own gives its text, and the style is as before. -/
theorem textOf_print (queries : Queries) (node : Node) (style : Style) :
    textOf (Node.print queries node) style = (node.css queries style, style) :=
  (adds_print queries node).textOf style

end Printing

/-- Printing a node on a page adds its rendering at the end and changes nothing else. -/
theorem Page.print_eq (page : Page) (queries : Queries) (node : Node) :
    page.print queries node =
      ((node.render queries page.style).halt,
        { page with chunks := page.chunks ++ (node.render queries page.style).chunks }) :=
  Printing.adds_print queries node page

namespace Page

/-- The text on a page. -/
def text (page : Page) : String :=
  String.join (page.chunks.map Chunk.text)

/-- Chunks at the end of a page continue its text. -/
lemma text_append (page : Page) (chunks : List Chunk) :
    text { page with chunks := page.chunks ++ chunks } =
      page.text ++ String.join (chunks.map Chunk.text) := by
  rw [text, text, List.map_append, String.join_append]

/-- Printing a node continues the text on the page, whatever stands there, with a text that depends
on the node, the conditions and the style alone, and stops for a reason that depends on them alone.
If the printer comes to the end, this is the text that the node gives on a sheet of its own; if it
stops, the node gives the same reason there.  In either case the style is as before: whether the
declaration at hand is the last one of its block, and how deep the block is nested. -/
theorem print_appends (queries : Queries) (node : Node) (style : Style) :
    ∃ (halt : Option Halt) (added : String),
      Printing.textOf (Node.print queries node) style =
        (match halt with
          | none => .ok added
          | some reason => .error reason, style) ∧
      ∀ chunks : List Chunk,
        (Page.print ⟨style, chunks⟩ queries node).1 = halt ∧
        (Page.print ⟨style, chunks⟩ queries node).2.text = text ⟨style, chunks⟩ ++ added ∧
        (Page.print ⟨style, chunks⟩ queries node).2.style = style := by
  refine ⟨(node.render queries style).halt,
    String.join ((node.render queries style).chunks.map Chunk.text), ?_, fun chunks => ?_⟩
  · rw [Printing.textOf_print, Node.css, Rendering.text]
    cases (node.render queries style).halt with
    | none => rfl
    | some reason => rfl
  · rw [print_eq]
    exact ⟨rfl, text_append ⟨style, chunks⟩ _, rfl⟩

end Page

end Cascade
