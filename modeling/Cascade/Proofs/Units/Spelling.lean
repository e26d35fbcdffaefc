import Mathlib.Data.List.Flatten
import Mathlib.Tactic.Lemma
import Cascade.Proofs.Comparison.Reversal
import Cascade.Proofs.Text.Parts
import Cascade.Proofs.Units.Signature

/-!
# Units that are spelled differently

Units are compared by their texts, up to letter case.  The names in a text are in alphabetical
order, so that it does not matter in which order they were given; but all capitals stand before all
small letters in that order, so that it matters how they were spelled.  Of the same two names, one
unit may have the text `EM*px` and another one `PX*em`, and these do not compare
(`Units.incomparable_mixedCase`).

Two units compare equal if their ordered names match place by place, up to case (`Units.Matches`),
and, unless a name is empty or has one of the signs `*` and `/` in it, only then.  Of two units with
the same names, one whose order is the same in capitals (`Units.IsSteady`) matches the other exactly
if this is true of the other as well (`Units.compare_of_sameNames`).
-/

namespace Cascade

/-! ### Capitals -/

namespace Text

/-- A letter has one capital, whichever way it is written. -/
lemma upperChar_toLower (c : Char) : upperChar c.toLower = upperChar c := by
  by_cases hupper : c.val ≥ 'A'.val ∧ c.val ≤ 'Z'.val
  · have hcode : c.toNat ≤ 90 := by
      simpa [UInt32.le_iff_toNat_le] using hupper.2
    have hletters : ∀ n ≤ 90, upperChar (Char.ofNat n).toLower = upperChar (Char.ofNat n) := by
      decide
    simpa using hletters c.toNat hcode
  · have hsame : c.toLower = c := dif_neg hupper
    rw [hsame]

/-- A text has one spelling in capitals. -/
lemma upper_lowerAscii (s : String) : upper (lowerAscii s) = upper s := by
  rw [upper, lowerAscii, String.toList_ofList, List.flatMap_map, upper]
  exact congrArg String.ofList (List.flatMap_congr fun c _ => upperChar_toLower c)

/-- The tables have no capital before the digits. -/
lemma notMem_mapCase_upper {sign c : Char} (hpos : 0 < sign.toNat) (hsign : sign.toNat < 48)
    (h : sign ≠ c) : sign ∉ mapCase upperRuns upperExpansions c := by
  have hruns : upperRuns.all fun run => 48 ≤ Int.ofNat run.first + run.shift := by decide
  have hexpansions : upperExpansions.all fun entry => entry.2.all (48 ≤ ·) := by decide
  have hcode {n : Nat} (hn : 48 ≤ n) : sign ≠ Char.ofNat n := by
    rintro rfl
    by_cases hvalid : n.isValidChar
    · rw [Char.ofNat, dif_pos hvalid] at hsign
      exact Nat.not_lt.2 hn hsign
    · rw [Char.ofNat, dif_neg hvalid] at hpos
      exact absurd hpos (by decide)
  unfold mapCase
  split
  next n himage =>
    obtain ⟨run, hrun, rfl⟩ := Option.map_eq_some_iff.1 himage
    have hfirst : run.first ≤ c.toNat := by
      have hrange := List.find?_some hrun
      simp only [Bool.and_eq_true, decide_eq_true_eq] at hrange
      exact hrange.1.1
    have hshift := of_decide_eq_true (List.all_eq_true.1 hruns run (List.mem_of_find?_eq_some hrun))
    rw [List.mem_singleton]
    exact hcode (by simp only [Int.ofNat_eq_natCast] at hshift ⊢; omega)
  next =>
    split
    next image himage =>
      intro hmem
      obtain ⟨n, hn, heq⟩ := List.mem_map.1 hmem
      obtain ⟨before, after, hsplit, -⟩ := List.lookup_eq_some_iff.1 himage
      have hentry : (c.toNat, image) ∈ upperExpansions := by simp [hsplit]
      have hlarge := List.all_eq_true.1 (List.all_eq_true.1 hexpansions _ hentry) n hn
      exact hcode (of_decide_eq_true hlarge) heq.symm
    next => exact fun hmem => h (List.mem_singleton.1 hmem)

/-- A sign before the digits is the capital of no other character. -/
lemma notMem_upperChar {sign c : Char} (hpos : 0 < sign.toNat) (hsign : sign.toNat < 48)
    (h : sign ≠ c) : sign ∉ upperChar c := by
  unfold upperChar
  split
  next hascii =>
    have hcapitals : ∀ n < 128,
        48 ≤ (Char.ofNat n).toUpper.toNat ∨ (Char.ofNat n).toUpper = Char.ofNat n := by decide
    have hcapital := hcapitals c.toNat hascii
    rw [Char.ofNat_toNat] at hcapital
    intro hmem
    obtain rfl := List.mem_singleton.1 hmem
    obtain hlarge | hsame := hcapital
    · omega
    · exact h hsame
  next => exact notMem_mapCase_upper hpos hsign h

/-- Every character has a capital, be it itself. -/
lemma upperChar_ne_nil (c : Char) : upperChar c ≠ [] := by
  have hexpansions : upperExpansions.all fun entry => !entry.2.isEmpty := by decide
  unfold upperChar mapCase
  split
  · exact List.cons_ne_nil _ _
  · split
    · exact List.cons_ne_nil _ _
    · split
      next image himage =>
        obtain ⟨before, after, hsplit, -⟩ := List.lookup_eq_some_iff.1 himage
        have hentry : (c.toNat, image) ∈ upperExpansions := by simp [hsplit]
        simpa using List.all_eq_true.1 hexpansions _ hentry
      next => exact List.cons_ne_nil _ _

/-- Such a sign does not come into a text with the capitals. -/
lemma notMem_upper {sign : Char} (hpos : 0 < sign.toNat) (hsign : sign.toNat < 48) {s : String}
    (h : sign ∉ s.toList) : sign ∉ (upper s).toList := by
  rw [upper, String.toList_ofList, List.mem_flatMap]
  rintro ⟨c, hc, hmem⟩
  exact notMem_upperChar hpos hsign (fun heq => h (heq ▸ hc)) hmem

/-- Texts between signs, with every character replaced, but not the signs. -/
lemma flatMap_intercalate {f : Char → List Char} {sign : Char} (hsign : f sign = [sign])
    (parts : List (List Char)) :
    ([sign].intercalate parts).flatMap f = [sign].intercalate (parts.map (·.flatMap f)) := by
  induction parts with
  | nil => rfl
  | cons first rest ih =>
    cases rest with
    | nil => simp
    | cons second rest =>
      rw [List.intercalate_cons_cons, List.flatMap_append, List.flatMap_append, ih, List.map_cons,
        List.map_cons, List.map_cons, List.intercalate_cons_cons, List.flatMap_singleton, hsign]

/-- Parts without a sign are settled by the text that has the sign between them. -/
lemma eq_of_intercalate_eq {sign : Char} {parts parts' : List (List Char)} (hne : parts ≠ [])
    (hne' : parts' ≠ []) (hparts : ∀ part ∈ parts, sign ∉ part)
    (hparts' : ∀ part ∈ parts', sign ∉ part)
    (h : [sign].intercalate parts = [sign].intercalate parts') : parts = parts' := by
  rw [← splitOnChar_intercalate hne hparts, h, splitOnChar_intercalate hne' hparts']

end Text

/-- A name that can be read back can be read back in capitals. -/
lemma IsPlainName.upper {name : String} (h : IsPlainName name) : IsPlainName (Text.upper name) := by
  obtain ⟨hne, hstar, hslash⟩ := h
  refine ⟨fun hnone => hne ?_, Text.notMem_upper (by decide) (by decide) hstar,
    Text.notMem_upper (by decide) (by decide) hslash⟩
  rw [← String.toList_eq_nil_iff, Text.upper, String.toList_ofList,
    List.flatMap_eq_nil_iff] at hnone
  rw [← String.toList_eq_nil_iff]
  exact List.eq_nil_iff_forall_not_mem.2 fun c hc => Text.upperChar_ne_nil c (hnone c hc)

namespace Units

/-- The text of a unit in capitals has the names in capitals. -/
lemma toList_upper_text (u : Units) : (Text.upper u.text).toList =
    ['/'].intercalate (productChars (u.numerator.toList.map Text.upper) ::
      (u.denominator.toList.map Text.upper).map String.toList) := by
  rw [Text.upper, String.toList_ofList, toList_text, Text.flatMap_intercalate (by decide),
    List.map_cons, productChars, Text.flatMap_intercalate (by decide)]
  simp [productChars, Text.upper, Function.comp_def]

/-! ### The same names in another spelling -/

/-- Units have the same names above the line, and below it, up to the case of ASCII letters and in
any order. -/
structure SameNames (u v : Units) : Prop where
  numerator : (u.numerator.toList.map Text.lowerAscii).Perm
    (v.numerator.toList.map Text.lowerAscii)
  denominator : (u.denominator.toList.map Text.lowerAscii).Perm
    (v.denominator.toList.map Text.lowerAscii)

/-- The names of two units, in alphabetical order, are the same place by place, up to case. -/
structure Matches (u v : Units) : Prop where
  numerator : u.numerator.toList.map Text.upper = v.numerator.toList.map Text.upper
  denominator : u.denominator.toList.map Text.upper = v.denominator.toList.map Text.upper

/-- The names of a unit are in alphabetical order also if they are written in capitals. -/
structure IsSteady (u : Units) : Prop where
  numerator : (u.numerator.toList.map Text.upper).Pairwise (· ≤ ·)
  denominator : (u.denominator.toList.map Text.upper).Pairwise (· ≤ ·)

variable {u v : Units}

/-- Units compare equal if their texts are the same in capitals. -/
lemma compare_eq_iff : u.compare v = some .eq ↔ Text.upper u.text = Text.upper v.text := by
  simp [compare, isNamed]

/-- Units that match have the same text in capitals. -/
lemma Matches.compare_eq (h : u.Matches v) : u.compare v = some .eq := by
  rw [compare_eq_iff, ← String.toList_inj, toList_upper_text, toList_upper_text, h.numerator,
    h.denominator]

/-- Plain names match if the texts are the same in capitals. -/
lemma HasPlainNames.matches_of_compare_eq (hu : u.HasPlainNames) (hv : v.HasPlainNames)
    (h : u.compare v = some .eq) : u.Matches v := by
  have hplain {w : Units} (hw : w.HasPlainNames) {names : List String}
      (hnames : names ⊆ w.numerator.toList ++ w.denominator.toList) :
      ∀ x ∈ names.map Text.upper, IsPlainName x := by
    intro x hx
    obtain ⟨name, hname, rfl⟩ := List.mem_map.1 hx
    exact (hw name (hnames hname)).upper
  have hnumerator {w : Units} (hw : w.HasPlainNames) := hplain hw (List.subset_append_left _ _)
  have hparts {w : Units} (hw : w.HasPlainNames) :
      ∀ chars ∈ productChars (w.numerator.toList.map Text.upper) ::
        (w.denominator.toList.map Text.upper).map String.toList, '/' ∉ chars := by
    refine List.forall_mem_cons.2
      ⟨slash_notMem_productChars (hnumerator hw), fun chars hchars => ?_⟩
    obtain ⟨x, hx, rfl⟩ := List.mem_map.1 hchars
    exact (hplain hw (List.subset_append_right _ _) x hx).2.2
  rw [compare_eq_iff, ← String.toList_inj, toList_upper_text, toList_upper_text] at h
  obtain ⟨habove, hbelow⟩ := List.cons.inj
    (Text.eq_of_intercalate_eq (List.cons_ne_nil _ _) (List.cons_ne_nil _ _) (hparts hu)
      (hparts hv) h)
  exact ⟨eq_of_productChars_eq (hnumerator hu) (hnumerator hv) habove, map_toList_injective hbelow⟩

/-- The same names stand in the same order, where that is the order of their capitals. -/
lemma SameNames.matches_iff (h : u.SameNames v) (hu : u.IsSteady) :
    u.Matches v ↔ v.IsSteady := by
  have hcapitals {names names' : List String}
      (hperm : (names.map Text.lowerAscii).Perm (names'.map Text.lowerAscii)) :
      (names.map Text.upper).Perm (names'.map Text.upper) := by
    simpa [Function.comp_def, Text.upper_lowerAscii] using hperm.map Text.upper
  constructor
  · intro hmatches
    exact ⟨hmatches.numerator ▸ hu.numerator, hmatches.denominator ▸ hu.denominator⟩
  · intro hv
    have hantisymm {names names' : List String} :
        ∀ a b : String, a ∈ names → b ∈ names' → a ≤ b → b ≤ a → a = b :=
      fun _ _ _ _ => String.le_antisymm
    exact ⟨(hcapitals h.numerator).eq_of_pairwise hantisymm hu.numerator hv.numerator,
      (hcapitals h.denominator).eq_of_pairwise hantisymm hu.denominator hv.denominator⟩

/-- Units with the same names up to case compare alike in both directions, and equal if their
ordered names match place by place.  If the names can be read back from the texts, they compare
equal only then.  A unit whose order is the same in capitals matches another one exactly if this is
true of the other one as well. -/
theorem compare_of_sameNames {u v : Units} (h : u.SameNames v) :
    v.compare u = u.compare v ∧
    (u.Matches v → u.compare v = some .eq) ∧
    (u.HasPlainNames → v.HasPlainNames → u.compare v = some .eq → u.Matches v) ∧
    (u.IsSteady → (u.Matches v ↔ v.IsSteady)) :=
  ⟨compare_comm u v, Matches.compare_eq, fun hu hv => hu.matches_of_compare_eq hv, h.matches_iff⟩

/-- A speed in small letters and the same speed in capitals, given in another order. -/
theorem compare_of_sameNames_capitals :
    (ofParts ["px", "em"] ["s"] "").compare (ofParts ["EM", "PX"] ["S"] "") = some .eq ∧
    (ofParts ["EM", "PX"] ["S"] "").compare (ofParts ["px", "em"] ["s"] "") = some .eq := by
  obtain ⟨hcomm, hequal, -, hsteady⟩ := compare_of_sameNames
    (u := ofParts ["px", "em"] ["s"] "") (v := ofParts ["EM", "PX"] ["S"] "")
    ⟨by decide, by decide⟩
  have hmatches := (hsteady ⟨by decide, by decide⟩).2 ⟨by decide, by decide⟩
  exact ⟨hequal hmatches, hcomm.trans (hequal hmatches)⟩

/-- Capitals come first, so the same two names are kept in another order if the other one is written
in capitals, and the units do not compare. -/
theorem incomparable_mixedCase :
    (ofParts ["px", "EM"] [] "").SameNames (ofParts ["PX", "em"] [] "") ∧
    (ofParts ["px", "EM"] [] "").compare (ofParts ["PX", "em"] [] "") = Option.none ∧
    (ofParts ["PX", "em"] [] "").compare (ofParts ["px", "EM"] [] "") = Option.none :=
  ⟨⟨by decide, by decide⟩, by decide, by decide⟩

end Units

end Cascade
