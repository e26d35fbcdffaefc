import Mathlib.Tactic.Linarith
import Cascade.Proofs.Decimal.Doubles
import Cascade.Render.Writer

/-!
# Dimensions as text

A dimension is printed as its number and its unit.  Whether there is a numeral before the unit
depends on four tests that the printer makes one by one: if the rounded value is zero, if it is
below a millionth, which digits are left at the twentieth place, and if the zero before the point
is left out.  The first, second and last look at the double, the third at its digits.

A positive number has a numeral with another digit than zeros, unless it is at most half of the
twentieth place and only a zero is left (`unsignedChars_of_lt`, `unsignedChars_of_le`).  Below one,
a point follows the zero (`unsignedChars_of_lt_one`).  A printed dimension then shows a number
exactly if the rounded value is finite, and does not vanish in that way while it has a sign, or
while its zero is left out (`Dimension.shows_iff_of_css`).
-/

namespace Cascade

open Float.Model UnpackedFloat

/-! ### Positive numbers -/

/-- What is written for a positive number: to twenty places without trailing zeros below a
millionth, else the fewest digits. -/
def unsignedChars (significand : Nat) (exponent : Int) : List Char :=
  if magnitude significand exponent < millionth then
    dropTrailing '.' (dropTrailing '0' (Decimal.fixed 20 significand exponent).chars)
  else
    (Decimal.shortest significand exponent).chars

/-- A numeral that begins with a zero and a point, and has another digit than zeros. -/
structure IsFraction (cs fraction : List Char) : Prop where
  eq : cs = '0' :: '.' :: fraction
  digits : ∀ c ∈ fraction, c.isDigit
  exists_ne : ∃ c ∈ fraction, c ≠ '0'

namespace IsFraction

variable {cs fraction : List Char}

lemma ne_nil (h : IsFraction cs fraction) : fraction ≠ [] := by
  obtain ⟨c, hc, -⟩ := h.exists_ne
  exact List.ne_nil_of_mem hc

lemma isNumeral (h : IsFraction cs fraction) : IsNumeral cs := by
  rw [h.eq]
  change IsNumeral (['0'] ++ '.' :: fraction)
  exact .point (by simp) h.ne_nil h.digits

lemma isNumeral_tail (h : IsFraction cs fraction) : IsNumeral cs.tail := by
  rw [h.eq]
  change IsNumeral ([] ++ '.' :: fraction)
  exact .point (by simp) h.ne_nil h.digits

lemma exists_mem (h : IsFraction cs fraction) : ∃ c ∈ cs, c.isDigit ∧ c ≠ '0' := by
  obtain ⟨c, hc, hne⟩ := h.exists_ne
  rw [h.eq]
  exact ⟨c, by simp [hc], h.digits c hc, hne⟩

end IsFraction

section Unsigned

variable {m : Nat} {e : Int}

/-- Below a millionth, the twenty places that are written stand behind a zero and a point.  They
are zeros up to half of the last one. -/
lemma exists_fixed_fraction (h : magnitude m e < millionth) :
    ∃ fraction, (Decimal.fixed 20 m e).chars = '0' :: '.' :: fraction ∧
      (∀ c ∈ fraction, c.isDigit) ∧
      ((∀ c ∈ fraction, c = '0') ↔ magnitude m e * 10 ^ 20 ≤ 1 / 2) := by
  have hlt : (Decimal.fixed 20 m e).digits < 10 ^ (19 + 1) := by
    refine Nat.lt_of_le_of_lt (Decimal.fixed_digits_le (n := 10 ^ 19) ?_) (by decide)
    push_cast
    linarith [millionth_bounds.2]
  obtain ⟨fraction, hchars, -, hdigits, hzero⟩ := Decimal.exists_fraction hlt
  exact ⟨fraction, hchars, hdigits, hzero.trans Decimal.fixed_digits_eq_zero_iff⟩

/-- A number that is at most half of the twentieth place is written as zero. -/
lemma unsignedChars_of_le (h : magnitude m e * 10 ^ 20 ≤ 1 / 2) : unsignedChars m e = ['0'] := by
  have htiny : magnitude m e < millionth := by linarith [millionth_bounds.1]
  obtain ⟨fraction, hchars, -, hzero⟩ := exists_fixed_fraction htiny
  rw [unsignedChars, if_pos htiny, hchars, trim_of_forall_eq (hzero.2 h)]

/-- Any other number below one is written as a fraction. -/
lemma unsignedChars_of_lt_one (hpos : 0 < m) (h : 1 / 2 < magnitude m e * 10 ^ 20)
    (hlt : magnitude m e < 1) : ∃ fraction, IsFraction (unsignedChars m e) fraction := by
  rw [unsignedChars]
  split
  next htiny =>
    obtain ⟨fraction, hchars, hdigits, hzero⟩ := exists_fixed_fraction htiny
    have hsome : ∃ c ∈ fraction, c ≠ '0' := by simpa using mt hzero.1 (not_le.2 h)
    rw [hchars, trim_of_exists_ne hdigits hsome]
    obtain ⟨c, hc, hne⟩ := hsome
    exact ⟨dropTrailing '0' fraction, rfl, fun c hc => hdigits c (dropTrailing_subset _ _ hc),
      c, mem_dropTrailing hc hne, hne⟩
  next =>
    obtain ⟨n, rfl, hlt'⟩ := exists_of_magnitude_lt_one hpos hlt
    obtain ⟨k, hexponent, hdigits⟩ := Decimal.shortest_of_lt_one hpos hlt'
    obtain ⟨fraction, hchars, -, hall, hzero⟩ := Decimal.exists_fraction hdigits
    rw [← hexponent] at hchars
    refine ⟨fraction, hchars, hall, ?_⟩
    have hnonzero := Nat.ne_of_gt (Decimal.reaches_shortest hpos (-n)).pos
    simpa using mt hzero.1 hnonzero

/-- Every number that is more than half of the twentieth place is written as a numeral with another
digit than zeros. -/
lemma unsignedChars_of_lt (hpos : 0 < m) (h : 1 / 2 < magnitude m e * 10 ^ 20) :
    IsNumeral (unsignedChars m e) ∧ ∃ c ∈ unsignedChars m e, c.isDigit ∧ c ≠ '0' := by
  by_cases hlt : magnitude m e < 1
  · obtain ⟨fraction, hfraction⟩ := unsignedChars_of_lt_one hpos h hlt
    exact ⟨hfraction.isNumeral, hfraction.exists_mem⟩
  · rw [unsignedChars, if_neg (by linarith [millionth_bounds.2])]
    exact ⟨Decimal.isNumeral_chars _,
      Decimal.exists_mem_chars (Nat.ne_of_gt (Decimal.reaches_shortest hpos e).pos)⟩

end Unsigned

/-! ### The number of a dimension -/

section Numbers

variable {precision : Option Nat} {x : Float} {sign : Sign} {m : Nat} {e : Int} {hm : 0 < m}

lemma numberChars_of_zero (h : (roundTo precision x).toModel.unpack = .zero sign) :
    numberChars precision x = ['0'] := by
  rw [numberChars]
  refine if_pos ((float_beq_iff _ _).2 ?_)
  rw [h, unpack_zero]
  rfl

lemma numberChars_of_finite (h : (roundTo precision x).toModel.unpack = .finite sign m e hm) :
    numberChars precision x =
      if sign == .negative then '-' :: unsignedChars m e else unsignedChars m e := by
  have hne : ¬ (roundTo precision x == 0.0) = true := by
    rw [float_beq_iff, h, unpack_zero]
    cases sign <;> exact fun heq => nomatch heq
  rw [numberChars, if_neg hne, unsignedChars]
  by_cases htiny : magnitude m e < millionth
  · rw [if_pos ((abs_lt_millionth_iff h).2 htiny), if_pos htiny, tinyChars, Binary.ofFloat_eq, h]
    rfl
  · rw [if_neg (mt (abs_lt_millionth_iff h).1 htiny), if_neg htiny, floatChars,
      Binary.ofFloat_eq, h]
    rfl

/-- Without a finite number, a word is written. -/
lemma numberChars_of_not_isFinite (h : ¬ (roundTo precision x).isFinite) :
    numberChars precision x ∈ ["NaN".toList, "inf".toList, "-inf".toList] := by
  rw [numberChars, if_neg (mt isFinite_of_beq_zero h), if_neg (mt isFinite_of_abs_lt_millionth h),
    floatChars, Binary.ofFloat_eq]
  change ¬ (roundTo precision x).toModel.unpack.isFinite = true at h
  generalize (roundTo precision x).toModel.unpack = parts at h
  cases parts with
  | notANumber => exact List.mem_cons_self
  | infinity sign => cases sign <;> decide
  | zero | finite => exact absurd rfl h

end Numbers

namespace Dimension

/-- The value of a dimension as it is rounded for the output. -/
def rounded (style : Style) (d : Dimension) : Float :=
  roundTo style.precision d.value

/-- The number that is written: compressed output leaves out the zero before a point. -/
def numberPart (style : Style) (d : Dimension) : List Char :=
  if style.compress && 0.0 < d.rounded style && d.rounded style < 1.0 then
    (numberChars style.precision d.value).tail
  else
    numberChars style.precision d.value

/-- The unit that is written: compressed output leaves it out for a zero length. -/
def unitPart (style : Style) (d : Dimension) : String :=
  if style.compress && d.rounded style == 0.0 && d.units.isLength then ""
  else d.units.cssText style.strictUnits

/-- A text that is a number and behind it the unit of a dimension. -/
def Shows (style : Style) (d : Dimension) (t : String) : Prop :=
  ∃ number, IsSignedNumeral number ∧ t = String.ofList number ++ d.unitPart style

section Parts

variable {style : Style} {d : Dimension} {m : Nat} {e : Int} {hm : 0 < m}

lemma numberPart_of_not (h : ¬ (0.0 < d.rounded style ∧ d.rounded style < 1.0)) :
    d.numberPart style = numberChars style.precision d.value := by
  refine if_neg fun hcondition => h ?_
  simp only [Bool.and_eq_true, decide_eq_true_eq] at hcondition
  exact ⟨hcondition.1.2, hcondition.2⟩

lemma numberPart_of_negative (h : (d.rounded style).toModel.unpack = .finite .negative m e hm) :
    d.numberPart style = '-' :: unsignedChars m e := by
  rw [numberPart_of_not fun hbetween => nomatch (zero_lt_iff_sign h).1 hbetween.1]
  exact numberChars_of_finite h

lemma numberPart_of_positive (h : (d.rounded style).toModel.unpack = .finite .positive m e hm) :
    d.numberPart style =
      if style.compress ∧ magnitude m e < 1 then (unsignedChars m e).tail
      else unsignedChars m e := by
  have hchars : numberChars style.precision d.value = unsignedChars m e := numberChars_of_finite h
  have hzero : 0.0 < d.rounded style := (zero_lt_iff_sign h).2 rfl
  rw [numberPart, hchars]
  simp only [hzero, lt_one_iff_magnitude h, decide_true, Bool.and_true, Bool.and_eq_true,
    decide_eq_true_eq]

end Parts

/-- A dimension is written as its number and its unit, unless strict units refuse the unit. -/
lemma text_eq (style : Style) (d : Dimension) :
    d.text style.strictUnits style.compress style.precision =
      if style.strictUnits && !d.units.isSingular then .error (.multipleUnits d.units.text)
      else .ok (String.ofList (d.numberPart style) ++ d.unitPart style) := by
  rw [text]
  refine ite_congr rfl (fun _ => rfl) fun _ => ?_
  rw [unitPart]
  by_cases hzero : (style.compress && d.rounded style == 0.0 && d.units.isLength) = true
  · have hrounded : (d.rounded style == 0.0) = true := by
      simp only [Bool.and_eq_true] at hzero
      exact hzero.1.2
    rw [if_pos hzero, numberPart_of_not fun hbetween => not_lt_of_beq_zero hrounded hbetween.1,
      String.append_empty]
    exact if_pos hzero
  · rw [if_neg hzero]
    exact if_neg hzero

/-- If a dimension is printed, the text is its number and its unit. -/
lemma eq_of_css {queries : Queries} {style : Style} {info : Info} {d : Dimension} {t : String}
    (h : (Node.dimension info d).css queries style = .ok t) :
    t = String.ofList (d.numberPart style) ++ d.unitPart style := by
  change ((Node.dimensionPart d : Style → Rendering) style).text = .ok t at h
  unfold Node.dimensionPart at h
  dsimp only [Printer.styled] at h
  rw [text_eq] at h
  by_cases hstrict : (style.strictUnits && !d.units.isSingular) = true
  · rw [if_pos hstrict] at h
    cases h
  · rw [if_neg hstrict] at h
    change Except.ok (String.join [_]) = _ at h
    rw [← Except.ok.inj h, String.join_cons, String.join_nil, String.append_empty]

/-- What stands before the unit is all there is of the number. -/
lemma shows_iff_of_eq {style : Style} {d : Dimension} {number : List Char} {t : String}
    (ht : t = String.ofList number ++ d.unitPart style) :
    d.Shows style t ↔ IsSignedNumeral number := by
  constructor
  · rintro ⟨number', hnumber', heq⟩
    have hchars := congrArg String.toList (ht.symm.trans heq)
    rw [String.toList_append, String.toList_append, String.toList_ofList, String.toList_ofList]
      at hchars
    rwa [List.append_cancel_right hchars]
  · exact fun hnumber => ⟨number, hnumber, ht⟩

section Numeral

variable {style : Style} {d : Dimension} {m : Nat} {e : Int} {hm : 0 < m}

lemma isSignedNumeral_of_negative
    (h : (d.rounded style).toModel.unpack = .finite .negative m e hm) :
    IsSignedNumeral (d.numberPart style) ↔ ¬ (d.rounded style).abs ≤ 5e-21 := by
  rw [abs_le_half_place_iff h, numberPart_of_negative h, isSignedNumeral_minus_iff]
  by_cases hle : magnitude m e * 10 ^ 20 ≤ 1 / 2
  · refine iff_of_false ?_ (not_not.2 hle)
    rw [unsignedChars_of_le hle]
    rintro ⟨-, c, hc, -, hne⟩
    exact hne (List.mem_singleton.1 hc)
  · exact iff_of_true (unsignedChars_of_lt hm (not_le.1 hle)) hle

lemma isSignedNumeral_of_positive
    (h : (d.rounded style).toModel.unpack = .finite .positive m e hm) :
    IsSignedNumeral (d.numberPart style) ↔
      ¬ ((d.rounded style).abs ≤ 5e-21 ∧ style.compress) := by
  rw [abs_le_half_place_iff h, numberPart_of_positive h]
  by_cases hle : magnitude m e * 10 ^ 20 ≤ 1 / 2
  · have hone : magnitude m e < 1 := by linarith
    rw [unsignedChars_of_le hle]
    by_cases hcompress : style.compress = true
    · rw [if_pos ⟨hcompress, hone⟩]
      exact iff_of_false (fun hnil => hnil.ne_nil_and_forall.1 rfl) (not_not.2 ⟨hle, hcompress⟩)
    · rw [if_neg fun hboth => hcompress hboth.1]
      refine iff_of_true (.plain (.whole (List.cons_ne_nil _ _) (by simp))) ?_
      exact fun hboth => hcompress hboth.2
  · refine iff_of_true ?_ fun hboth => hle hboth.1
    split
    next hboth =>
      obtain ⟨fraction, hfraction⟩ := unsignedChars_of_lt_one hm (not_le.1 hle) hboth.2
      exact .plain hfraction.isNumeral_tail
    next => exact .plain (unsignedChars_of_lt hm (not_le.1 hle)).1

end Numeral

/-- The words that stand for no finite number are no numerals. -/
lemma not_isSignedNumeral_word {word : List Char}
    (h : word ∈ ["NaN".toList, "inf".toList, "-inf".toList]) : ¬ IsSignedNumeral word := by
  have hletter : ∃ c ∈ word, c = 'N' ∨ c = 'n' := by
    simp only [List.mem_cons, List.not_mem_nil, or_false] at h
    obtain rfl | rfl | rfl := h <;> simp
  intro hnumeral
  obtain ⟨c, hc, hcases⟩ := hletter
  have hchar := hnumeral.ne_nil_and_forall.2 c hc
  obtain rfl | rfl := hcases <;> revert hchar <;> decide

/-- The number of a dimension is written as a numeral, unless it is not finite after it was rounded,
or it is too small for twenty places, and is negative or loses its zero. -/
lemma isSignedNumeral_numberPart_iff (style : Style) (d : Dimension) :
    IsSignedNumeral (d.numberPart style) ↔ (d.rounded style).isFinite ∧
      ¬ ((d.rounded style).abs ≤ 5e-21 ∧
        (d.rounded style < 0.0 ∨ style.compress ∧ 0.0 < d.rounded style)) := by
  by_cases hfinite : (d.rounded style).isFinite = true
  · rw [and_iff_right hfinite]
    change (d.rounded style).toModel.unpack.isFinite = true at hfinite
    cases hparts : (d.rounded style).toModel.unpack with
    | notANumber | infinity =>
      rw [hparts] at hfinite
      cases hfinite
    | zero sign =>
      have hnone : ¬ 0.0 < d.rounded style ∧ ¬ d.rounded style < 0.0 := by
        rw [float_lt_iff, float_lt_iff, hparts]
        exact ⟨nofun, nofun⟩
      rw [numberPart_of_not fun hbetween => hnone.1 hbetween.1, numberChars_of_zero hparts]
      refine iff_of_true (.plain (.whole (List.cons_ne_nil _ _) (by simp))) ?_
      rintro ⟨-, hnegative | ⟨-, hpositive⟩⟩
      · exact hnone.2 hnegative
      · exact hnone.1 hpositive
    | finite sign m e hm =>
      cases sign with
      | negative =>
        have hnegative : d.rounded style < 0.0 := (lt_zero_iff_sign hparts).2 rfl
        rw [isSignedNumeral_of_negative hparts, and_iff_left (.inl hnegative)]
      | positive =>
        have hpositive : 0.0 < d.rounded style := (zero_lt_iff_sign hparts).2 rfl
        have hnegative : ¬ d.rounded style < 0.0 := fun h => nomatch (lt_zero_iff_sign hparts).1 h
        rw [isSignedNumeral_of_positive hparts, or_iff_right hnegative, and_iff_left hpositive]
  · have hbetween : ¬ (0.0 < d.rounded style ∧ d.rounded style < 1.0) := fun h =>
      hfinite (isFinite_of_between h.1 h.2)
    rw [numberPart_of_not hbetween]
    have hword := numberChars_of_not_isFinite hfinite
    exact iff_of_false (not_isSignedNumeral_word hword) fun h => hfinite h.1

/-- A dimension that is printed shows a number with its unit exactly if the rounded value is finite,
and does not vanish at the twentieth place with a sign, or with its zero left out. -/
theorem shows_iff_of_css {queries : Queries} {style : Style} {info : Info} {d : Dimension}
    {t : String} (h : (Node.dimension info d).css queries style = .ok t) :
    d.Shows style t ↔ (d.rounded style).isFinite ∧
      ¬ ((d.rounded style).abs ≤ 5e-21 ∧
        (d.rounded style < 0.0 ∨ style.compress ∧ 0.0 < d.rounded style)) := by
  rw [shows_iff_of_eq (eq_of_css h), isSignedNumeral_numberPart_iff]

/-- Just above half of the twentieth place, and compressed. -/
theorem shows_iff_of_css_lastPlace :
    (Node.dimension {} ⟨6e-21, .ofName "px"⟩).css [] { compress := true } =
        .ok ".00000000000000000001px" ∧
      Shows { compress := true } ⟨6e-21, .ofName "px"⟩ ".00000000000000000001px" := by
  have hcss : (Node.dimension {} ⟨6e-21, .ofName "px"⟩).css [] { compress := true } =
      .ok ".00000000000000000001px" := by
    decide +kernel
  exact ⟨hcss, (shows_iff_of_css hcss).2 (by decide +kernel)⟩

/-- Below the twentieth place a sign is left before a zero, or the zero is left out, and a large
number is not finite after it was rounded to eight places. -/
theorem not_shows_vanishing :
    ((Node.dimension {} ⟨-1e-21, .ofName "px"⟩).css [] {} = .ok "-0px" ∧
      ¬ Shows {} ⟨-1e-21, .ofName "px"⟩ "-0px") ∧
    ((Node.dimension {} ⟨1e-21, .ofName "px"⟩).css [] { compress := true } = .ok "px" ∧
      ¬ Shows { compress := true } ⟨1e-21, .ofName "px"⟩ "px") ∧
    ((Node.dimension {} ⟨1e308, .ofName "px"⟩).css [] { precision := some 8 } = .ok "infpx" ∧
      ¬ Shows { precision := some 8 } ⟨1e308, .ofName "px"⟩ "infpx") := by
  refine ⟨⟨by decide +kernel, ?_⟩, ⟨by decide +kernel, ?_⟩, ⟨by decide +kernel, ?_⟩⟩
  · have hparts : "-0px" = String.ofList ['-', '0'] ++ unitPart {} ⟨-1e-21, .ofName "px"⟩ := by
      decide +kernel
    rw [shows_iff_of_eq hparts, isSignedNumeral_minus_iff]
    simp
  · have hparts : "px" =
        String.ofList [] ++ unitPart { compress := true } ⟨1e-21, .ofName "px"⟩ := by
      decide +kernel
    rw [shows_iff_of_eq hparts]
    exact fun h => h.ne_nil_and_forall.1 rfl
  · have hparts : "infpx" =
        String.ofList "inf".toList ++ unitPart { precision := some 8 } ⟨1e308, .ofName "px"⟩ := by
      decide +kernel
    rw [shows_iff_of_eq hparts]
    exact not_isSignedNumeral_word (by simp)

end Dimension

end Cascade
