import Mathlib.Data.List.Basic
import Mathlib.Tactic.Lemma
import Cascade.Color.Reader

/-!
# Parts of texts

What is cut out of a text, said without the cutting: the part after the first occurrence of a
character (`Text.afterFirst?_eq_some_iff`) and before the last one (`Text.beforeLast?_eq_some_iff`),
the parts between the occurrences of a character (`Text.intercalate_splitOnChar`,
`Text.splitOnChar_intercalate`), and what stands between blanks (`Text.padded_iff`).
-/

namespace Cascade.Text

lemma afterFirst?_append {c : Char} {before rest : List Char} (hbefore : c ∉ before) :
    afterFirst? c (before ++ c :: rest) = some rest := by
  have hne : ∀ d ∈ before, (d != c) = true := by
    intro d hd
    simpa using ne_of_mem_of_not_mem hd hbefore
  rw [afterFirst?, List.dropWhile_append_of_pos hne]
  simp

/-- What comes after the first occurrence of a character. -/
lemma afterFirst?_eq_some_iff {c : Char} {cs rest : List Char} :
    afterFirst? c cs = some rest ↔ ∃ before, c ∉ before ∧ cs = before ++ c :: rest := by
  constructor
  · intro h
    refine ⟨cs.takeWhile (· != c), fun hc => ?_, ?_⟩
    · simpa using List.all_eq_true.1 List.all_takeWhile c hc
    · unfold afterFirst? at h
      split at h
      · cases h
      next d tail hdrop =>
        cases h
        have hd : d = c := by
          have hnot := List.head?_dropWhile_not (· != c) cs
          simpa [hdrop] using hnot
        rw [hd] at hdrop
        rw [← hdrop, List.takeWhile_append_dropWhile]
  · rintro ⟨before, hbefore, rfl⟩
    exact afterFirst?_append hbefore

lemma beforeLast?_append {c : Char} {body after : List Char} (hafter : c ∉ after) :
    beforeLast? c (body ++ c :: after) = some body := by
  have hreverse : (body ++ c :: after).reverse = after.reverse ++ c :: body.reverse := by simp
  rw [beforeLast?, hreverse, afterFirst?_append (by simpa using hafter), Option.map_some,
    List.reverse_reverse]

/-- What comes before the last occurrence of a character. -/
lemma beforeLast?_eq_some_iff {c : Char} {cs body : List Char} :
    beforeLast? c cs = some body ↔ ∃ after, c ∉ after ∧ cs = body ++ c :: after := by
  constructor
  · intro h
    obtain ⟨rest, hrest, rfl⟩ := Option.map_eq_some_iff.1 h
    obtain ⟨before, hbefore, hcs⟩ := afterFirst?_eq_some_iff.1 hrest
    refine ⟨before.reverse, by simpa using hbefore, ?_⟩
    rw [← cs.reverse_reverse, hcs]
    simp
  · rintro ⟨after, hafter, rfl⟩
    exact beforeLast?_append hafter

/-- The parts between the occurrences of a character are those of the library. -/
lemma splitOnChar_eq_splitOn (sep : Char) (cs : List Char) :
    splitOnChar sep cs = cs.splitOn sep := by
  induction cs with
  | nil => rfl
  | cons c rest ih =>
    rw [splitOnChar, List.splitOn, List.splitOnP_cons_eq_if_modifyHead, ih, List.splitOn]
    by_cases hc : c = sep
    · simp [hc]
    · rw [if_neg hc, if_neg (by simpa using hc)]
      cases hparts : List.splitOnP (· == sep) rest with
      | nil => exact absurd hparts (List.splitOnP_ne_nil (· == sep) rest)
      | cons first parts => rfl

/-- The parts are the text once the character is put between them again. -/
lemma intercalate_splitOnChar (sep : Char) (cs : List Char) :
    [sep].intercalate (splitOnChar sep cs) = cs := by
  rw [splitOnChar_eq_splitOn, List.intercalate_splitOn]

/-- A text is cut into parts without the character in one way. -/
lemma splitOnChar_intercalate {sep : Char} {parts : List (List Char)} (hne : parts ≠ [])
    (hparts : ∀ part ∈ parts, sep ∉ part) :
    splitOnChar sep ([sep].intercalate parts) = parts := by
  rw [splitOnChar_eq_splitOn, List.splitOn_intercalate sep hparts hne]

/-- The parts occur in the text. -/
lemma subset_intercalate {sep part : List Char} {parts : List (List Char)} (h : part ∈ parts) :
    part ⊆ sep.intercalate parts := by
  induction parts with
  | nil => cases h
  | cons first rest ih =>
    cases rest with
    | nil =>
      obtain rfl := List.mem_singleton.1 h
      simp
    | cons second rest =>
      rw [List.intercalate_cons_cons]
      obtain rfl | h := List.mem_cons.1 h
      · exact List.Subset.trans (List.subset_append_left _ _) (List.subset_append_left _ _)
      · exact List.Subset.trans (ih h) (List.subset_append_right _ _)

/-- Where a character occurs for the first time is settled by the text. -/
lemma eq_of_append_cons_eq {c : Char} {before before' rest rest' : List Char}
    (h : before ++ c :: rest = before' ++ c :: rest') (hbefore : c ∉ before)
    (hbefore' : c ∉ before') : before = before' := by
  have htake {before rest : List Char} (hbefore : c ∉ before) :
      (before ++ c :: rest).takeWhile (· != c) = before := by
    have hne : ∀ d ∈ before, (d != c) = true := by
      intro d hd
      simpa using ne_of_mem_of_not_mem hd hbefore
    rw [List.takeWhile_append_of_pos hne]
    simp
  rw [← htake hbefore, h, htake hbefore']

/-- No capital is left in lower case. -/
lemma toLower_toLower (c : Char) : c.toLower.toLower = c.toLower := by
  have hlower : ¬ (c.toLower.val ≥ 'A'.val ∧ c.toLower.val ≤ 'Z'.val) := by
    unfold Char.toLower
    split
    next hupper =>
      simp [UInt32.le_iff_toNat_le, UInt32.toNat_add] at hupper ⊢
      omega
    next hupper => exact hupper
  generalize c.toLower = d at hlower ⊢
  unfold Char.toLower
  exact dif_neg hlower

/-! ### Blanks around a text -/

/-- A text of the given kind between blanks, or with no blanks around it. -/
def Padded (P : List Char → Prop) (cs : List Char) : Prop :=
  ∃ before core after, cs = before ++ core ++ after ∧ (∀ c ∈ before, isBlank c) ∧
    (∀ c ∈ after, isBlank c) ∧ P core

lemma Padded.imp {P Q : List Char → Prop} {cs : List Char} (h : Padded P cs)
    (hPQ : ∀ core ⊆ cs, P core → Q core) : Padded Q cs := by
  obtain ⟨before, core, after, rfl, hbefore, hafter, hcore⟩ := h
  refine ⟨before, core, after, rfl, hbefore, hafter, hPQ core ?_ hcore⟩
  exact List.Subset.trans (List.subset_append_right _ _) (List.subset_append_left _ _)

/-- Stripping takes blanks off both ends. -/
lemma padded_trimChars (cs : List Char) : Padded (· = trimChars cs) cs := by
  have hblank {ds : List Char} : ∀ c ∈ ds.takeWhile isBlank, isBlank c :=
    List.all_eq_true.1 List.all_takeWhile
  refine ⟨cs.takeWhile isBlank, trimChars cs,
    ((cs.dropWhile isBlank).reverse.takeWhile isBlank).reverse, ?_, hblank, ?_, rfl⟩
  · rw [trimChars, List.append_assoc, ← List.reverse_append, List.takeWhile_append_dropWhile,
      List.reverse_reverse, List.takeWhile_append_dropWhile]
  · intro c hc
    exact hblank c (List.mem_reverse.1 hc)

/-- Stripping takes no more than the blanks off a text without blanks. -/
lemma trimChars_append {before core after : List Char} (hbefore : ∀ c ∈ before, isBlank c)
    (hafter : ∀ c ∈ after, isBlank c) (hcore : ∀ c ∈ core, isBlank c = false) :
    trimChars (before ++ core ++ after) = core := by
  have hdrop {ds : List Char} (hds : ∀ c ∈ ds, isBlank c = false) : ds.dropWhile isBlank = ds := by
    cases ds with
    | nil => rfl
    | cons c rest => simp [hds c List.mem_cons_self]
  have hafter' : ∀ c ∈ after.reverse, isBlank c := by simpa using hafter
  have hcore' : ∀ c ∈ core.reverse, isBlank c = false := by simpa using hcore
  rw [trimChars, List.append_assoc, List.dropWhile_append_of_pos hbefore]
  cases core with
  | nil =>
    have hnone : (after ++ []).dropWhile isBlank = [] := List.dropWhile_append_of_pos hafter
    rw [List.nil_append, ← after.append_nil, hnone]
    rfl
  | cons c rest =>
    have hfirst : ((c :: rest) ++ after).dropWhile isBlank = (c :: rest) ++ after := by
      simp [hcore c List.mem_cons_self]
    rw [hfirst, List.reverse_append, List.dropWhile_append_of_pos hafter', hdrop hcore',
      List.reverse_reverse]

/-- A text without blanks is found between blanks by stripping these. -/
lemma padded_iff {P : List Char → Prop} (hP : ∀ core, P core → ∀ c ∈ core, isBlank c = false)
    (cs : List Char) : Padded P cs ↔ P (trimChars cs) := by
  constructor
  · rintro ⟨before, core, after, rfl, hbefore, hafter, hcore⟩
    rwa [trimChars_append hbefore hafter (hP core hcore)]
  · intro h
    obtain ⟨before, _, after, hcs, hbefore, hafter, rfl⟩ := padded_trimChars cs
    exact ⟨before, _, after, hcs, hbefore, hafter, h⟩

end Cascade.Text
