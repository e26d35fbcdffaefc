import Mathlib.Data.List.Basic
import Mathlib.Tactic.Lemma
import Cascade.Text.Placeholder

/-!
# Texts without placeholders

Cutting a text into pieces loses nothing: where no piece is a placeholder, the pieces put
together again are the text (`Text.fill_pieces_of_names_eq_nil`).
-/

namespace Cascade.Text

namespace Piece

/-- The names of placeholders in two runs of pieces. -/
lemma names_append (as bs : List Piece) : names (as ++ bs) = names as ++ names bs :=
  List.filterMap_append

/-- Without texts to put in, pieces are put together one run after the other. -/
lemma fill_append (as bs : List Piece) : fill (as ++ bs) [] = fill as [] ++ fill bs [] := by
  induction as with
  | nil => rfl
  | cons a as ih =>
    cases a with
    | plain c => exact congrArg (c :: ·) ih
    | placeholder name => exact ih

/-- Plain characters put together. -/
lemma fill_map_plain (cs : List Char) : fill (cs.map .plain) [] = cs := by
  induction cs with
  | nil => rfl
  | cons c cs ih => exact congrArg (c :: ·) ih

namespace Pending

/-- The characters that are pending. -/
def chars (pending : Pending) : List Char :=
  fill pending.flush []

@[simp]
lemma chars_nothing : chars .nothing = [] :=
  rfl

@[simp]
lemma chars_at : chars .at = ['@'] :=
  rfl

@[simp]
lemma chars_name (reversed : List Char) :
    chars (.name reversed) = '@' :: '\x7b' :: reversed.reverse := by
  rw [chars, flush, fill, fill, fill_map_plain]

/-- A character that does not continue what is pending is read as it is. -/
lemma fill_restart (c : Char) : fill (restart c).2 [] ++ (restart c).1.chars = [c] := by
  unfold restart
  split
  · next h => simp [h, fill]
  · simp [fill]

/-- One character is either completed to a placeholder or kept. -/
lemma fill_step (pending : Pending) (c : Char) (h : names (pending.step c).2 = []) :
    fill (pending.step c).2 [] ++ (pending.step c).1.chars = pending.chars ++ [c] := by
  cases pending with
  | nothing => exact fill_restart c
  | «at» =>
    by_cases hbrace : c = '\x7b'
    · simp [step, hbrace, fill]
    · have hstep : step .at c = ((restart c).1, flush .at ++ (restart c).2) := by
        simp [step, hbrace]
      rw [hstep, fill_append, List.append_assoc, fill_restart]
      rfl
  | name reversed =>
    by_cases hname : isNameChar c
    · simp [step, hname, fill]
    by_cases hclose : c = '\x7d' ∧ reversed ≠ []
    · have hstep : step (.name reversed) c =
          (.nothing, [.placeholder (String.ofList reversed.reverse)]) := by
        simp only [step, hname, if_pos hclose, if_false, Bool.false_eq_true]
      rw [hstep] at h
      cases h
    · have hstep : step (.name reversed) c =
          ((restart c).1, flush (.name reversed) ++ (restart c).2) := by
        simp only [step, hname, hclose, if_false, Bool.false_eq_true]
      rw [hstep, fill_append, List.append_assoc, fill_restart]
      rfl

end Pending

/-- Reading on without meeting a placeholder. -/
lemma fill_scan (pending : Pending) (cs : List Char) (h : names (scan pending cs) = []) :
    fill (scan pending cs) [] = pending.chars ++ cs := by
  induction cs generalizing pending with
  | nil => simp [scan, Pending.chars]
  | cons c cs ih =>
    have hscan : scan pending (c :: cs) =
        (pending.step c).2 ++ scan (pending.step c).1 cs := rfl
    rw [hscan, names_append, List.append_eq_nil_iff] at h
    rw [hscan, fill_append, ih _ h.2, ← List.append_assoc, Pending.fill_step pending c h.1,
      List.append_assoc]
    rfl

end Piece

/-- A text without placeholders. -/
def IsFilled (text : String) : Prop :=
  Piece.names (pieces text) = []

instance (text : String) : Decidable (IsFilled text) :=
  inferInstanceAs (Decidable (Piece.names (pieces text) = []))

/-- A text without placeholders is put together from its pieces. -/
theorem fill_pieces_of_names_eq_nil {text : String} (h : Piece.names (pieces text) = []) :
    String.ofList (Piece.fill (pieces text) []) = text := by
  rw [pieces, Piece.fill_scan _ _ h, Piece.Pending.chars_nothing, List.nil_append,
    String.ofList_toList]

end Cascade.Text
