import Mathlib.Data.Finset.Lattice.Fold
import Mathlib.Order.Lattice.Nat
import Cascade.Proofs.Text.Placeholder

/-!
# Placeholders in texts that were filled in

Once the placeholders of a text are filled in, the text is read anew, and it may contain
placeholders again: those of the texts that were put in, and those that came about where an at sign
of the text now stands before a name in braces.

Whether an at sign opens a placeholder depends on what follows it only (`Piece.opening?`), and
reading a text from the left finds what its at signs open (`Piece.marks_scan`).  Texts in
which every at sign opens a placeholder keep to themselves when they are put in: they turn no at
sign of their own into a plain one.  So filling in such texts never adds plain at signs, and as long
as it takes none away either, all placeholders afterwards are those of the texts that were put in
(`decreases_of_fill`).
-/

namespace Cascade.Text

namespace Piece

/-! ### What at signs open -/

/-- The name of the placeholder that an at sign opens before the given characters. -/
def opening? : List Char → Option String
  | [] => none
  | brace :: rest =>
    let name := rest.takeWhile isNameChar
    if brace = '\x7b' ∧ name ≠ [] ∧ (rest.dropWhile isNameChar).head? = some '\x7d' then
      some (String.ofList name)
    else none

/-- What the at signs of a text open, from left to right. -/
def openings : List Char → List (Option String)
  | [] => []
  | c :: rest => if c = '@' then opening? rest :: openings rest else openings rest

/-- An at sign. -/
lemma openings_at (rest : List Char) : openings ('@' :: rest) = opening? rest :: openings rest :=
  if_pos rfl

/-- Any other character. -/
lemma openings_of_ne {c : Char} (h : c ≠ '@') (rest : List Char) :
    openings (c :: rest) = openings rest :=
  if_neg h

lemma isNameChar_at : isNameChar '@' = false := by
  decide +kernel

lemma isNameChar_close : isNameChar '\x7d' = false := by
  decide +kernel

/-- An at sign opens the placeholder of a name if a closing brace comes next after it. -/
lemma opening?_name {name : List Char} (hname : ∀ c ∈ name, isNameChar c = true)
    (rest : List Char) (hrest : ∀ c ∈ rest.head?, isNameChar c = false) :
    opening? ('\x7b' :: (name ++ rest)) =
      if name ≠ [] ∧ rest.head? = some '\x7d' then some (String.ofList name) else none := by
  have htake : rest.takeWhile isNameChar = [] ∧ rest.dropWhile isNameChar = rest := by
    cases rest with
    | nil => exact ⟨rfl, rfl⟩
    | cons c rest => simp [hrest c rfl]
  simp only [opening?, List.takeWhile_append_of_pos hname, List.dropWhile_append_of_pos hname,
    htake, List.append_nil, true_and]

/-- What an at sign opens: a name that is not empty, in braces. -/
lemma exists_of_opening? {cs : List Char} {name : String} (h : opening? cs = some name) :
    name.toList ≠ [] ∧ (∀ c ∈ name.toList, isNameChar c = true) ∧
      ∃ rest, cs = '\x7b' :: (name.toList ++ '\x7d' :: rest) := by
  cases cs with
  | nil => cases h
  | cons brace rest =>
    by_cases hopens : brace = '\x7b' ∧ rest.takeWhile isNameChar ≠ [] ∧
        (rest.dropWhile isNameChar).head? = some '\x7d'
    · rw [opening?, if_pos hopens] at h
      obtain ⟨rfl, hne, hhead⟩ := hopens
      obtain ⟨after, hafter⟩ := List.head?_eq_some_iff.1 hhead
      rw [← Option.some.inj h, String.toList_ofList]
      refine ⟨hne, List.all_eq_true.1 List.all_takeWhile, after, ?_⟩
      rw [← hafter, List.takeWhile_append_dropWhile]
    · rw [opening?, if_neg hopens] at h
      cases h

/-- An opened placeholder does not depend on what follows it. -/
lemma opening?_append {cs : List Char} {name : String} (h : opening? cs = some name)
    (others : List Char) : opening? (cs ++ others) = some name := by
  obtain ⟨hne, hname, rest, rfl⟩ := exists_of_opening? h
  rw [List.cons_append, List.append_assoc, opening?_name hname, if_pos ⟨hne, rfl⟩,
    String.ofList_toList]
  intro c hc
  rw [← Option.some.inj hc]
  exact isNameChar_close

/-- Where all at signs open placeholders, these do not depend on what follows. -/
lemma openings_append {cs : List Char} (h : none ∉ openings cs) (others : List Char) :
    openings (cs ++ others) = openings cs ++ openings others := by
  induction cs with
  | nil => rfl
  | cons c cs ih =>
    by_cases hat : c = '@'
    · rw [hat, openings_at, List.mem_cons, not_or] at h
      obtain ⟨name, hname⟩ := Option.ne_none_iff_exists'.1 (Ne.symm h.1)
      rw [hat, List.cons_append, openings_at, openings_at, opening?_append hname others, ih h.2,
        hname, List.cons_append]
    · rw [openings_of_ne hat] at h
      rw [List.cons_append, openings_of_ne hat, openings_of_ne hat, ih h]

/-- Names without at signs open nothing. -/
lemma openings_name_append {name : List Char} (hname : ∀ c ∈ name, isNameChar c = true)
    (others : List Char) : openings (name ++ others) = openings others := by
  induction name with
  | nil => rfl
  | cons c name ih =>
    have hc : c ≠ '@' := by
      rintro rfl
      exact absurd (hname '@' List.mem_cons_self) (by simp [isNameChar_at])
    rw [List.cons_append, openings_of_ne hc]
    exact ih fun c hc => hname c (List.mem_cons_of_mem _ hc)

/-- An at sign before an opening brace and a name. -/
lemma openings_pending {name : List Char} (hname : ∀ c ∈ name, isNameChar c = true)
    (others : List Char) :
    openings ('@' :: '\x7b' :: (name ++ others)) =
      opening? ('\x7b' :: (name ++ others)) :: openings others := by
  rw [openings_at, openings_of_ne (by decide), openings_name_append hname]

/-! ### Reading finds what is opened -/

/-- What the at signs of some pieces open: a placeholder starts with one that opens it, and a plain
one opens nothing. -/
def marks (ps : List Piece) : List (Option String) :=
  ps.filterMap fun
    | .plain c => if c = '@' then some none else none
    | .placeholder name => some (some name)

/-- A plain at sign. -/
lemma marks_at (ps : List Piece) : marks (.plain '@' :: ps) = none :: marks ps :=
  rfl

/-- Any other plain character. -/
lemma marks_plain_of_ne {c : Char} (h : c ≠ '@') (ps : List Piece) :
    marks (.plain c :: ps) = marks ps :=
  List.filterMap_cons_none (by simp [h])

/-- A placeholder. -/
lemma marks_placeholder (name : String) (ps : List Piece) :
    marks (.placeholder name :: ps) = some name :: marks ps :=
  rfl

/-- One run of pieces after the other. -/
lemma marks_append (ps others : List Piece) : marks (ps ++ others) = marks ps ++ marks others :=
  List.filterMap_append

/-- Plain characters of a name tell nothing. -/
lemma marks_map_plain {name : List Char} (hname : ∀ c ∈ name, isNameChar c = true) :
    marks (name.map .plain) = [] := by
  refine List.filterMap_eq_nil_iff.2 fun p hp => ?_
  obtain ⟨c, hc, rfl⟩ := List.mem_map.1 hp
  refine if_neg ?_
  rintro rfl
  exact absurd (hname '@' hc) (by simp [isNameChar_at])

/-- Plain at signs are told. -/
lemma none_mem_marks_iff {ps : List Piece} : none ∈ marks ps ↔ .plain '@' ∈ ps := by
  rw [marks, List.mem_filterMap]
  constructor
  · rintro ⟨p, hp, hmark⟩
    cases p with
    | plain c =>
      by_cases hat : c = '@'
      · exact hat ▸ hp
      · simp [hat] at hmark
    | placeholder name => cases hmark
  · intro hp
    exact ⟨_, hp, rfl⟩

/-- Placeholders are told. -/
lemma mem_names_iff {name : String} {ps : List Piece} :
    name ∈ names ps ↔ some name ∈ marks ps := by
  induction ps with
  | nil => simp [names, marks]
  | cons p ps ih =>
    cases p with
    | plain c =>
      have hnames : names (.plain c :: ps) = names ps := rfl
      by_cases hat : c = '@'
      · rw [hnames, hat, marks_at, List.mem_cons, ih]
        simp
      · rw [hnames, marks_plain_of_ne hat, ih]
    | placeholder other =>
      have hnames : names (.placeholder other :: ps) = other :: names ps := rfl
      rw [hnames, marks_placeholder, List.mem_cons, List.mem_cons, ih, Option.some_inj]

/-- The characters that were read of a name are characters of names. -/
def Pending.IsReadable : Pending → Prop
  | .name reversed => ∀ c ∈ reversed.reverse, isNameChar c = true
  | _ => True

/-- A name that is not continued is an at sign that opens nothing, with plain characters. -/
lemma Pending.marks_flush_name {reversed : List Char}
    (h : (Pending.name reversed).IsReadable) :
    marks (Pending.name reversed).flush = [none] := by
  rw [flush, marks_at, marks_plain_of_ne (by decide), marks_map_plain h]

/-- A character that does not continue what is pending is read like the first one of a text. -/
lemma marks_restart (c : Char) (cs : List Char)
    (hat : marks (scan .at cs) = openings ('@' :: cs))
    (hnothing : marks (scan .nothing cs) = openings cs) :
    marks ((Pending.restart c).2 ++ scan (Pending.restart c).1 cs) =
      openings (c :: cs) := by
  unfold Pending.restart
  split
  next h =>
    rw [h]
    exact hat
  next h =>
    rw [List.singleton_append, marks_plain_of_ne h, openings_of_ne h, hnothing]

/-- Reading a text from the left finds what its at signs open.  The induction is on the text that
is left, for every part of a placeholder that is pending. -/
lemma marks_scan (cs : List Char) : ∀ pending : Pending, pending.IsReadable →
    marks (scan pending cs) = openings (pending.chars ++ cs) := by
  induction cs with
  | nil =>
    intro pending h
    rw [scan, List.append_nil]
    cases pending with
    | nothing | «at» => rfl
    | name reversed =>
      have hopening := opening?_name h [] fun _ hc => absurd hc (Option.not_mem_none _)
      have hopenings := openings_pending h []
      rw [hopening, List.append_nil] at hopenings
      rw [Pending.marks_flush_name h, Pending.chars_name, hopenings]
      simp [openings]
  | cons c cs ih =>
    intro pending h
    have hscan : scan pending (c :: cs) = (pending.step c).2 ++ scan (pending.step c).1 cs := rfl
    have hrestart := marks_restart c cs (ih .at trivial) (ih .nothing trivial)
    rw [hscan]
    cases pending with
    | nothing => exact hrestart
    | «at» =>
      by_cases hbrace : c = '\x7b'
      · have hstep : Pending.step .at c = (.name [], []) := if_pos hbrace
        rw [hstep, List.nil_append, ih (.name []) fun _ hc => absurd hc List.not_mem_nil, hbrace]
        rfl
      · have hstep : Pending.step .at c =
            ((Pending.restart c).1, Pending.flush .at ++ (Pending.restart c).2) := if_neg hbrace
        have hopening : opening? (c :: cs) = none := by
          simp [opening?, hbrace]
        rw [hstep, List.append_assoc, marks_append, hrestart, Pending.chars_at,
          List.singleton_append, openings_at, hopening]
        rfl
    | name reversed =>
      rw [Pending.chars_name]
      by_cases hc : isNameChar c = true
      · have hstep : Pending.step (.name reversed) c = (.name (c :: reversed), []) := if_pos hc
        have hreadable : (Pending.name (c :: reversed)).IsReadable := by
          intro c' hc'
          rw [List.reverse_cons, List.mem_append, List.mem_singleton] at hc'
          exact hc'.elim (h c') fun heq => heq ▸ hc
        rw [hstep, List.nil_append, ih _ hreadable]
        simp
      · have hopening := opening?_name h (c :: cs)
          fun c' hc' => by rwa [← Option.some.inj hc', ← Bool.not_eq_true]
        rw [List.cons_append, List.cons_append, openings_pending h, hopening]
        by_cases hclose : c = '\x7d' ∧ reversed ≠ []
        · have hstep : Pending.step (.name reversed) c =
              (.nothing, [.placeholder (String.ofList reversed.reverse)]) := by
            rw [Pending.step, if_neg hc, if_pos hclose]
          have hopens : reversed.reverse ≠ [] ∧ (c :: cs).head? = some '\x7d' :=
            ⟨by simpa using hclose.2, congrArg some hclose.1⟩
          rw [hstep, marks_append, ih .nothing trivial, if_pos hopens,
            openings_of_ne (by rw [hclose.1]; decide)]
          rfl
        · have hstep : Pending.step (.name reversed) c =
              ((Pending.restart c).1, (Pending.name reversed).flush ++ (Pending.restart c).2) := by
            rw [Pending.step, if_neg hc, if_neg hclose]
          rw [hstep, List.append_assoc, marks_append, hrestart,
            Pending.marks_flush_name h, if_neg]
          · rfl
          · rintro ⟨hne, hhead⟩
            exact hclose ⟨Option.some.inj hhead, by simpa using hne⟩

/-! ### Texts that are put in -/

/-- Texts in which all at signs open placeholders are put in.  This adds no plain at sign, and as
long as all plain ones stay, the placeholders are those of the texts. -/
lemma openings_fill (ps : List Piece) {texts : List String}
    (htexts : ∀ text ∈ texts, none ∉ openings text.toList) :
    (openings (fill ps texts)).count none ≤ (marks ps).count none ∧
      ((openings (fill ps texts)).count none = (marks ps).count none →
        ∀ name, some name ∈ openings (fill ps texts) →
          ∃ text ∈ texts, some name ∈ openings text.toList) := by
  induction ps generalizing texts with
  | nil => exact ⟨Nat.le_refl 0, fun _ _ hname => absurd hname List.not_mem_nil⟩
  | cons p ps ih =>
    match p, texts with
    | .plain c, texts =>
      obtain ⟨hle, hnames⟩ := ih htexts
      rw [fill]
      by_cases hat : c = '@'
      · subst hat
        rw [openings_at, marks_at, List.count_cons_self]
        cases hopening : opening? (fill ps texts) with
        | none =>
          rw [List.count_cons_self]
          refine ⟨Nat.succ_le_succ hle, fun hcount name hname => ?_⟩
          exact hnames (Nat.succ.inj hcount) name (by simpa using hname)
        | some opened =>
          rw [List.count_cons_of_ne (by simp)]
          exact ⟨Nat.le_succ_of_le hle, fun hcount => by omega⟩
      · rw [openings_of_ne hat, marks_plain_of_ne hat]
        exact ⟨hle, hnames⟩
    | .placeholder name, [] =>
      rw [fill, marks_placeholder, List.count_cons_of_ne (by simp)]
      exact ih htexts
    | .placeholder name, text :: texts =>
      obtain ⟨htext, htexts⟩ := List.forall_mem_cons.1 htexts
      obtain ⟨hle, hnames⟩ := ih htexts
      rw [fill, openings_append htext, marks_placeholder, List.count_cons_of_ne (by simp),
        List.count_append, List.count_eq_zero.2 htext, Nat.zero_add]
      refine ⟨hle, fun hcount name hname => ?_⟩
      rcases List.mem_append.1 hname with hname | hname
      · exact ⟨text, List.mem_cons_self, hname⟩
      · obtain ⟨other, hother, hname⟩ := hnames hcount name hname
        exact ⟨other, List.mem_cons_of_mem _ hother, hname⟩

end Piece

open Piece

/-- The pieces of a text tell what its at signs open. -/
lemma marks_pieces (text : String) : marks (pieces text) = openings text.toList :=
  marks_scan text.toList .nothing trivial

/-- A name that a placeholder can have. -/
def IsPlaceholderName (name : String) : Prop :=
  name.toList ≠ [] ∧ ∀ c ∈ name.toList, isNameChar c = true

/-- The placeholders of a text have such names. -/
lemma isPlaceholderName_of_mem {text name : String} (h : name ∈ names (pieces text)) :
    IsPlaceholderName name := by
  rw [mem_names_iff, marks_pieces] at h
  generalize text.toList = cs at h
  induction cs with
  | nil => cases h
  | cons c cs ih =>
    by_cases hat : c = '@'
    · rw [hat, openings_at, List.mem_cons] at h
      rcases h with h | h
      · obtain ⟨hne, hname, -⟩ := exists_of_opening? h.symm
        exact ⟨hne, hname⟩
      · exact ih h
    · rw [openings_of_ne hat] at h
      exact ih h

/-- The number of at signs of a text that open no placeholder. -/
def strays (text : String) : Nat :=
  (marks (pieces text)).count none

/-- A text whose at signs all open placeholders, of names that rank below a bound. -/
structure RanksBelow (rank : String → Nat) (bound : Nat) (text : String) : Prop where
  opens : .plain '@' ∉ pieces text
  names_lt : ∀ name ∈ names (pieces text), rank name < bound

instance (rank : String → Nat) (bound : Nat) (text : String) :
    Decidable (RanksBelow rank bound text) :=
  decidable_of_iff (.plain '@' ∉ pieces text ∧ ∀ name ∈ names (pieces text), rank name < bound)
    ⟨fun h => ⟨h.1, h.2⟩, fun h => ⟨h.opens, h.names_lt⟩⟩

/-- A bound above the ranks of the placeholders of a text. -/
def height (rank : String → Nat) (text : String) : Nat :=
  (names (pieces text)).toFinset.sup fun name => rank name + 1

/-- The placeholders of a text rank below its height. -/
lemma rank_lt_height {rank : String → Nat} {text name : String} (h : name ∈ names (pieces text)) :
    rank name < height rank text :=
  Finset.le_sup (f := fun name => rank name + 1) (List.mem_toFinset.2 h)

/-- Texts that rank below a placeholder each are put in.  Unless the text stays the same, a plain at
sign has become the start of a placeholder, or all placeholders are new and rank lower. -/
theorem decreases_of_fill {rank : String → Nat} {text filled : String} {texts : List String}
    (h : ∀ new ∈ texts, ∃ old ∈ names (pieces text), RanksBelow rank (rank old) new)
    (hfilled : filled = String.ofList (fill (pieces text) texts)) (hne : filled ≠ text) :
    strays filled < strays text ∨
      strays filled = strays text ∧ height rank filled < height rank text := by
  have htexts : ∀ new ∈ texts, none ∉ openings new.toList := by
    intro new hnew
    obtain ⟨old, -, hranks⟩ := h new hnew
    rw [← marks_pieces, none_mem_marks_iff]
    exact hranks.opens
  have hmarks : marks (pieces filled) = openings (fill (pieces text) texts) := by
    rw [marks_pieces, hfilled, String.toList_ofList]
  obtain ⟨hle, hnames⟩ := openings_fill (pieces text) htexts
  rw [← hmarks] at hle hnames
  refine (Nat.lt_or_eq_of_le hle).imp_right fun heq => ⟨heq, ?_⟩
  -- some placeholder was filled in, so that the text had a height
  obtain ⟨name, hname⟩ : ∃ name, name ∈ names (pieces text) := by
    refine List.exists_mem_of_ne_nil _ fun hnil => hne ?_
    have hnothing : texts = [] :=
      List.eq_nil_iff_forall_not_mem.2 fun new hnew => by simpa [hnil] using h new hnew
    rw [hfilled, hnothing, fill_pieces_of_names_eq_nil hnil]
  refine (Finset.sup_lt_iff (Nat.zero_lt_of_lt (rank_lt_height hname))).2 fun name hname => ?_
  obtain ⟨new, hnew, hname⟩ := hnames heq name (mem_names_iff.1 (List.mem_toFinset.1 hname))
  obtain ⟨old, hold, hranks⟩ := h new hnew
  rw [← marks_pieces, ← mem_names_iff] at hname
  exact Nat.lt_of_le_of_lt (hranks.names_lt name hname) (rank_lt_height hold)

end Cascade.Text
