import Cascade.Proofs.Printing.Simulation

/-!
# How printing stops

The printer gives up on a condition that contains itself, and it refuses what cannot be printed.
`Rendering.StopsWithin` collects how a rendering may stop.  A tree without conditions is printed to
the end, or it is refused with an error (`Node.css_ne_exhausted`), and a tree is never refused
because of the recursion of a variable (`Node.css_ne_recursive`).
-/

namespace Cascade

/-- If the first one of two renderings stops, it stops in an allowed way, whatever the style is. -/
def Rendering.StopsWithin (Allowed : Halt → Prop) (r _ : Style → Rendering) : Prop :=
  ∀ style, ∀ halt ∈ (r style).halt, Allowed halt

namespace Rendering

variable {Allowed : Halt → Prop}

/-- Two renderings one after the other. -/
lemma allowed_append {a b : Rendering} (ha : ∀ halt ∈ a.halt, Allowed halt)
    (hb : ∀ halt ∈ b.halt, Allowed halt) : ∀ halt ∈ (a ++ b).halt, Allowed halt := by
  show ∀ halt ∈ (Rendering.append a b).halt, Allowed halt
  unfold Rendering.append
  split
  · exact ha
  · exact hb

/-- A text that cannot be put together names the reason why a rendering stopped. -/
lemma allowed_text {r : Rendering} (h : ∀ halt ∈ r.halt, Allowed halt) :
    ∀ halt, r.text = .error halt → Allowed halt := by
  intro halt htext
  unfold Rendering.text at htext
  split at htext
  next reason hreason =>
    rw [← Except.error.inj htext]
    exact h reason hreason
  next => cases htext

/-- The texts of renderings that stop in allowed ways. -/
lemma allowed_joinTexts {as bs : List (Style → Rendering)}
    (h : List.Forall₂ (StopsWithin Allowed) as bs) (style : Style) :
    ∀ halt, joinTexts (as.map fun r => r style) = .error halt → Allowed halt := by
  intro halt
  induction h with
  | nil => exact nofun
  | @cons r _ rest _ hr _ ih =>
    rw [List.map_cons, joinTexts]
    have htext := allowed_text (hr style)
    split
    next reason hreason =>
      intro heq
      rw [← Except.error.inj heq]
      exact htext reason hreason
    next =>
      split
      next hrest =>
        intro heq
        exact ih (hrest.trans heq)
      next => exact nofun

/-- The writer stops in allowed ways, if its own errors are allowed wherever they are reported. -/
lemma stopsWithin_simulation
    (hfailed : ∀ {error}, (∀ name, error ≠ .recursiveVariable name) → Allowed (.failed error))
    (hrelocate : ∀ {halt} position, Allowed halt → Allowed (halt.relocate position)) :
    Printer.Simulation (StopsWithin Allowed) where
  empty _ := nofun
  chunk _ _ _ _ := nofun
  fail {error} herror style halt hhalt := by
    rw [← Option.some.inj hhalt]
    exact hfailed herror
  append ha hb style := allowed_append (ha style) (hb style)
  styled hf style := hf style style
  relocated {a _} position ha style halt hhalt := by
    obtain ⟨reason, hreason, rfl⟩ := Option.map_eq_some_iff.1 hhalt
    exact hrelocate position (ha style reason hreason)
  aside {as _ k _} has hk style := by
    show ∀ halt ∈ (Rendering.aside (as.map fun r => r style) fun text => k text style).halt,
      Allowed halt
    have htexts := allowed_joinTexts has style
    unfold Rendering.aside
    split
    next reason hreason =>
      intro halt hhalt
      rw [← Option.some.inj hhalt]
      exact htexts reason hreason
    next => exact hk _ style
  item _ ha style := ha _
  indented ha style := ha _

end Rendering

namespace Node

/-- Printing a tree without conditions never gives up. -/
theorem css_ne_exhausted {queries : Queries} {style : Style} {node : Node}
    (h : node.Throughout fun x => x.queryOf = []) : node.css queries style ≠ .error .exhausted := by
  have hsimulation : Printer.Simulation (Rendering.StopsWithin (· ≠ .exhausted)) := by
    refine Rendering.stopsWithin_simulation (fun _ => nofun) fun {halt} position hhalt => ?_
    cases halt with
    | failed error => exact nofun
    | exhausted => exact absurd rfl hhalt
  have hcell : node.Throughout fun x => ∀ id ∈ x.queryOf,
      Rendering.StopsWithin (· ≠ .exhausted) (queries.writeCell (queries.length + 1) id)
        (queries.writeCell (queries.length + 1) id) :=
    h.imp fun x hx id hid => by simp [hx] at hid
  have hprint : Rendering.StopsWithin (· ≠ .exhausted) (Node.print queries node)
      (Node.print queries node) := hsimulation.write hcell
  exact fun hcss => Rendering.allowed_text (hprint style) _ hcss rfl

/-- A tree is never refused because of the recursion of a variable. -/
theorem css_ne_recursive {queries : Queries} {style : Style} {node : Node} {name : String} :
    node.css queries style ≠ .error (.failed (.recursiveVariable name)) := by
  have hsimulation : Printer.Simulation
      (Rendering.StopsWithin fun halt => ∀ name, halt ≠ .failed (.recursiveVariable name)) := by
    refine Rendering.stopsWithin_simulation ?_ ?_
    · intro error herror name hname
      exact herror name (Halt.failed.inj hname)
    · intro halt position hhalt name hname
      cases halt with
      | exhausted => cases hname
      | failed error =>
        have herror : error.relocate position = .recursiveVariable name := Halt.failed.inj hname
        unfold Error.relocate at herror
        split at herror
        · cases herror
        · cases herror
        · exact hhalt name (congrArg Halt.failed herror)
  have hstop : Rendering.StopsWithin (fun halt => ∀ name, halt ≠ .failed (.recursiveVariable name))
      (Printer.stop .exhausted) (Printer.stop .exhausted) := by
    intro style halt hhalt name
    rw [← Option.some.inj hhalt]
    exact nofun
  have hprint := hsimulation.print hstop queries node
  exact fun hcss => Rendering.allowed_text (hprint style) _ hcss name rfl

end Node

end Cascade
