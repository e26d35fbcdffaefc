import Mathlib.Algebra.GroupWithZero.Nat
import Mathlib.Algebra.Ring.Int.Defs
import Mathlib.Data.List.DropRight
import Mathlib.Tactic.Lemma
import Cascade.Number

/-!
# Positional numerals

What is written for a number: a numeral is made of digits, or of a point with digits behind it and
perhaps some before it (`IsNumeral`).  It has no exponent.  A number may have a sign, but not if all
its digits are zeros (`IsSignedNumeral`).

The digits of a decimal number are laid out as a numeral (`Decimal.isNumeral_chars`).  That of a
number below one begins with a zero and a point (`Decimal.exists_fraction`), and is still one
without the zero.  Trailing zeros are dropped from such a numeral, and the point with them if it has
no other digits (`trim_of_exists_ne`, `trim_of_forall_eq`).

The digits that are chosen for a double other than zero are not zero (`Decimal.reaches_shortest`),
and stand behind the point if the double is below one (`Decimal.shortest_of_lt_one`).  Rounded to a
given place, a number is zero up to a half of it (`Decimal.roundHalfEven_eq_zero_iff`).
-/

namespace Cascade

/-! ### The forms of numerals -/

/-- A numeral without a sign: digits, or a point with digits behind it and perhaps before it. -/
inductive IsNumeral : List Char → Prop where
  | whole {digits : List Char} : digits ≠ [] → (∀ c ∈ digits, c.isDigit) → IsNumeral digits
  | point {whole fraction : List Char} : (∀ c ∈ whole, c.isDigit) → fraction ≠ [] →
    (∀ c ∈ fraction, c.isDigit) → IsNumeral (whole ++ '.' :: fraction)

/-- A numeral, or a minus sign and a numeral that does not stand for zero. -/
inductive IsSignedNumeral : List Char → Prop where
  | plain {cs : List Char} : IsNumeral cs → IsSignedNumeral cs
  | minus {cs : List Char} : IsNumeral cs → (∃ c ∈ cs, c.isDigit ∧ c ≠ '0') →
    IsSignedNumeral ('-' :: cs)

/-- There are only digits and points in a numeral, and there is one of them. -/
lemma IsNumeral.ne_nil_and_forall {cs : List Char} (h : IsNumeral cs) :
    cs ≠ [] ∧ ∀ c ∈ cs, c.isDigit ∨ c = '.' := by
  cases h with
  | whole hne hdigits => exact ⟨hne, fun c hc => .inl (hdigits c hc)⟩
  | point hwhole _ hfraction =>
    refine ⟨by simp, fun c hc => ?_⟩
    obtain hc | hc := List.mem_append.1 hc
    · exact .inl (hwhole c hc)
    · obtain rfl | hc := List.mem_cons.1 hc
      · exact .inr rfl
      · exact .inl (hfraction c hc)

/-- With a sign, there may be a minus as well. -/
lemma IsSignedNumeral.ne_nil_and_forall {cs : List Char} (h : IsSignedNumeral cs) :
    cs ≠ [] ∧ ∀ c ∈ cs, c.isDigit ∨ c = '.' ∨ c = '-' := by
  cases h with
  | plain h =>
    exact ⟨h.ne_nil_and_forall.1, fun c hc => (h.ne_nil_and_forall.2 c hc).imp_right .inl⟩
  | minus h _ =>
    refine ⟨List.cons_ne_nil _ _, List.forall_mem_cons.2 ⟨.inr (.inr rfl), fun c hc => ?_⟩⟩
    exact (h.ne_nil_and_forall.2 c hc).imp_right .inl

/-- Behind a minus sign there is a numeral that does not stand for zero. -/
lemma isSignedNumeral_minus_iff {cs : List Char} :
    IsSignedNumeral ('-' :: cs) ↔ IsNumeral cs ∧ ∃ c ∈ cs, c.isDigit ∧ c ≠ '0' := by
  refine ⟨fun h => ?_, fun h => .minus h.1 h.2⟩
  generalize hsigned : '-' :: cs = signed at h
  cases h with
  | plain h =>
    subst hsigned
    exact absurd (h.ne_nil_and_forall.2 '-' List.mem_cons_self) (by decide)
  | minus h hne =>
    obtain rfl := List.tail_eq_of_cons_eq hsigned
    exact ⟨h, hne⟩

/-! ### Dropping trailing zeros -/

/-- What is dropped comes from the end that is made of nothing else. -/
lemma dropTrailing_append_of_exists {c : Char} (before : List Char) {after : List Char}
    (h : ∃ d ∈ after, d ≠ c) :
    dropTrailing c (before ++ after) = before ++ dropTrailing c after := by
  have hsome : (after.reverse.dropWhile (· == c)).isEmpty = false := by
    simpa [List.isEmpty_eq_false_iff] using h
  rw [dropTrailing, List.reverse_append, List.dropWhile_append, hsome, if_neg Bool.false_ne_true,
    List.reverse_append, List.reverse_reverse, dropTrailing]

/-- An end that is made of nothing else is dropped. -/
lemma dropTrailing_append_of_forall {c : Char} (before : List Char) {after : List Char}
    (h : ∀ d ∈ after, d = c) : dropTrailing c (before ++ after) = dropTrailing c before := by
  have hall : ∀ d ∈ after.reverse, (d == c) = true := by simpa using h
  rw [dropTrailing, List.reverse_append, List.dropWhile_append_of_pos hall, dropTrailing]

/-- Nothing is dropped if the character does not occur. -/
lemma dropTrailing_of_notMem {c : Char} {cs : List Char} (h : c ∉ cs) : dropTrailing c cs = cs := by
  refine List.rdropWhile_eq_self_iff.2 fun hne hlast => h ?_
  rw [← beq_iff_eq.1 hlast]
  exact List.getLast_mem hne

/-- All other characters are kept. -/
lemma mem_dropTrailing {c d : Char} {cs : List Char} (hd : d ∈ cs) (hne : d ≠ c) :
    d ∈ dropTrailing c cs := by
  rw [← List.rdropWhile_append_rtakeWhile (p := (· == c)) (l := cs)] at hd
  obtain hd | hd := List.mem_append.1 hd
  · exact hd
  · have hdropped : (d == c) = true := List.mem_rtakeWhile_imp (p := (· == c)) hd
    exact absurd (beq_iff_eq.1 hdropped) hne

lemma dropTrailing_subset (c : Char) (cs : List Char) : dropTrailing c cs ⊆ cs :=
  (List.rdropWhile_prefix (p := (· == c)) (l := cs)).subset

/-- Trailing zeros are dropped up to the last other digit behind the point. -/
lemma trim_of_exists_ne {fraction : List Char} (hdigits : ∀ c ∈ fraction, c.isDigit)
    (h : ∃ c ∈ fraction, c ≠ '0') :
    dropTrailing '.' (dropTrailing '0' ('0' :: '.' :: fraction)) =
      '0' :: '.' :: dropTrailing '0' fraction := by
  obtain ⟨c, hc, hne⟩ := h
  have hkept : '.' ∉ dropTrailing '0' fraction := fun hpoint =>
    absurd (hdigits '.' (dropTrailing_subset _ _ hpoint)) (by decide)
  have hmem := mem_dropTrailing hc hne
  have hpoint : c ≠ '.' := fun heq => hkept (heq ▸ hmem)
  rw [show '0' :: '.' :: fraction = ['0', '.'] ++ fraction from rfl,
    dropTrailing_append_of_exists _ ⟨c, hc, hne⟩, dropTrailing_append_of_exists _ ⟨c, hmem, hpoint⟩,
    dropTrailing_of_notMem hkept]
  rfl

/-- Of zeros behind the point nothing is left, and neither is the point. -/
lemma trim_of_forall_eq {fraction : List Char} (h : ∀ c ∈ fraction, c = '0') :
    dropTrailing '.' (dropTrailing '0' ('0' :: '.' :: fraction)) = ['0'] := by
  rw [show '0' :: '.' :: fraction = ['0', '.'] ++ fraction from rfl,
    dropTrailing_append_of_forall _ h]
  decide

/-! ### Layout -/

namespace Decimal

lemma isDigit_of_mem_natChars {n : Nat} {c : Char} (h : c ∈ natChars n) : c.isDigit :=
  Nat.isDigit_of_mem_toDigits (by decide) (by decide) h

lemma isDigit_of_mem_replicate {n : Nat} {c : Char} (h : c ∈ List.replicate n '0') : c.isDigit := by
  rw [List.eq_of_mem_replicate h]
  decide

/-- A number with no digits but zeros is zero. -/
lemma forall_natChars_eq_iff {n : Nat} : (∀ c ∈ natChars n, c = '0') ↔ n = 0 := by
  constructor
  · intro h
    have hzeros : natChars n = List.replicate (natChars n).length '0' := List.eq_replicate_of_mem h
    rw [← Nat.ofDigitChars_ten_toDigits (n := n)]
    change Nat.ofDigitChars 10 (natChars n) 0 = 0
    rw [hzeros, Nat.ofDigitChars_replicate_zero, Nat.mul_zero]
  · rintro rfl
    simp [natChars]

/-- A number below a power of ten has no more digits than the exponent says. -/
lemma length_natChars_le {n k : Nat} (h : n < 10 ^ (k + 1)) : (natChars n).length ≤ k + 1 :=
  (Nat.length_toDigits_le_iff (by decide) (Nat.succ_pos k)).2 h

/-- Digits are laid out as a numeral. -/
lemma isNumeral_layout {digits : List Char} (hne : digits ≠ []) (hdigits : ∀ c ∈ digits, c.isDigit)
    (exponent : Int) : IsNumeral (layout digits exponent) := by
  cases exponent with
  | ofNat k =>
    refine .whole (by simp [layout, hne]) fun c hc => ?_
    obtain hc | hc := List.mem_append.1 hc
    · exact hdigits c hc
    · exact isDigit_of_mem_replicate hc
  | negSucc k =>
    rw [layout]
    split
    next hlength =>
      refine .point (fun c hc => hdigits c (List.mem_of_mem_take hc)) ?_
        fun c hc => hdigits c (List.mem_of_mem_drop hc)
      rw [Ne, List.drop_eq_nil_iff]
      omega
    next =>
      change IsNumeral (['0'] ++ '.' :: _)
      refine .point (by simp) (by simp [hne]) fun c hc => ?_
      obtain hc | hc := List.mem_append.1 hc
      · exact isDigit_of_mem_replicate hc
      · exact hdigits c hc

/-- No digit is lost by the layout. -/
lemma subset_layout (digits : List Char) (exponent : Int) : digits ⊆ layout digits exponent := by
  intro c hc
  cases exponent with
  | ofNat k => exact List.mem_append_left _ hc
  | negSucc k =>
    rw [layout]
    split
    · rw [← List.take_append_drop (digits.length - (k + 1)) digits] at hc
      simp only [List.mem_append, List.mem_cons] at hc ⊢
      exact hc.imp_right .inr
    · simp [hc]

/-- The text of a decimal number is a numeral. -/
theorem isNumeral_chars (d : Decimal) : IsNumeral d.chars :=
  isNumeral_layout Nat.toDigits_ne_nil (fun _ => isDigit_of_mem_natChars) d.exponent

/-- The text of a decimal number other than zero has another digit than zeros. -/
lemma exists_mem_chars {d : Decimal} (h : d.digits ≠ 0) : ∃ c ∈ d.chars, c.isDigit ∧ c ≠ '0' := by
  have hsome : ∃ c ∈ natChars d.digits, c ≠ '0' := by
    simpa using mt forall_natChars_eq_iff.1 h
  obtain ⟨c, hc, hne⟩ := hsome
  exact ⟨c, subset_layout _ _ hc, isDigit_of_mem_natChars hc, hne⟩

/-- A decimal number below one is written with a zero before the point. -/
theorem exists_fraction {digits k : Nat} (h : digits < 10 ^ (k + 1)) :
    ∃ fraction, chars ⟨digits, .negSucc k⟩ = '0' :: '.' :: fraction ∧ fraction ≠ [] ∧
      (∀ c ∈ fraction, c.isDigit) ∧ ((∀ c ∈ fraction, c = '0') ↔ digits = 0) := by
  have hlength := length_natChars_le h
  refine ⟨List.replicate (k + 1 - (natChars digits).length) '0' ++ natChars digits, ?_, ?_, ?_, ?_⟩
  · exact if_neg (Nat.not_lt.2 hlength)
  · exact List.append_ne_nil_of_right_ne_nil _ Nat.toDigits_ne_nil
  · intro c hc
    obtain hc | hc := List.mem_append.1 hc
    · exact isDigit_of_mem_replicate hc
    · exact isDigit_of_mem_natChars hc
  · rw [← forall_natChars_eq_iff]
    constructor
    · exact fun hzeros c hc => hzeros c (List.mem_append_right _ hc)
    · intro hzeros c hc
      obtain hc | hc := List.mem_append.1 hc
      · exact List.eq_of_mem_replicate hc
      · exact hzeros c hc

/-! ### The digits that are chosen -/

/-- A number is below the power of ten that its digits are counted by. -/
lemma lt_pow_length_natChars (n : Nat) : n < 10 ^ (natChars n).length :=
  (Nat.length_toDigits_le_iff (by decide) Nat.length_toDigits_pos).1 (Nat.le_refl _)

/-- A number other than zero is not below the power of ten with one digit less. -/
lemma pow_length_natChars_le {n : Nat} (h : 0 < n) : 10 ^ ((natChars n).length - 1) ≤ n := by
  by_contra hlt
  rw [Nat.not_le] at hlt
  cases hlength : (natChars n).length - 1 with
  | zero =>
    rw [hlength] at hlt
    omega
  | succ k =>
    have hle := length_natChars_le (hlength ▸ hlt)
    omega

namespace Interval

variable {i : Interval}

/-- A decimal number other than zero that is not above the interval, over the common
denominator. -/
structure Reaches (i : Interval) (d : Decimal) : Prop where
  pos : 0 < d.digits
  le : d.digits * (10 ^ d.exponent.toNat * i.denominator) ≤ i.high * 10 ^ (-d.exponent).toNat

lemma le_of_holds {factor n : Nat} (h : i.holds factor n) :
    i.low * factor ≤ n ∧ n ≤ i.high * factor := by
  unfold holds at h
  split at h <;> simp only [Bool.and_eq_true, decide_eq_true_eq] at h <;> omega

/-- A point of a grid that lies in the interval reaches it. -/
lemma reaches_of_holds (hlow : 0 < i.low) {n : Nat} {k : Int}
    (h : i.holds (10 ^ (-k).toNat) (n * (10 ^ k.toNat * i.denominator))) : i.Reaches ⟨n, k⟩ := by
  obtain ⟨hle, hle'⟩ := le_of_holds h
  refine ⟨Nat.pos_of_ne_zero ?_, hle'⟩
  rintro rfl
  have hscaled : 0 < i.low * 10 ^ (-k).toNat := Nat.mul_pos hlow (Nat.pow_pos (by decide))
  rw [Nat.zero_mul] at hle
  omega

lemma reaches_of_onGrid? (hlow : 0 < i.low) {k : Int} {d : Decimal} (h : i.onGrid? k = some d) :
    i.Reaches d := by
  unfold onGrid? at h
  dsimp only at h
  split at h
  next hits =>
    obtain ⟨hbelow, habove⟩ := Bool.and_eq_true_iff.1 hits
    split at h
    · exact Option.some.inj h ▸ reaches_of_holds hlow hbelow
    · exact Option.some.inj h ▸ reaches_of_holds hlow habove
  next =>
    split at h
    next hbelow => exact Option.some.inj h ▸ reaches_of_holds hlow hbelow
    next =>
      split at h
      next habove => exact Option.some.inj h ▸ reaches_of_holds hlow habove
      next => cases h

/-- The search for a grid ends with a number that reaches the interval, if the last grid is not
coarser than the value. -/
lemma reaches_firstGrid (hlow : 0 < i.low) (hvalue : i.value ≤ i.high) {k : Int} {fuel : Nat}
    (hdenominator : 0 < i.denominator)
    (hlast : 10 ^ (k - fuel).toNat * i.denominator ≤ i.value * 10 ^ (-(k - fuel)).toNat) :
    i.Reaches (i.firstGrid k fuel) := by
  induction fuel generalizing k with
  | zero =>
    rw [Int.natCast_zero, Int.sub_zero] at hlast
    have hstep : 0 < 10 ^ k.toNat * i.denominator :=
      Nat.mul_pos (Nat.pow_pos (by decide)) hdenominator
    refine ⟨Nat.div_pos hlast hstep, ?_⟩
    exact (Nat.div_mul_le_self _ _).trans (Nat.mul_le_mul_right _ hvalue)
  | succ fuel ih =>
    rw [firstGrid]
    cases hgrid : i.onGrid? k with
    | some d => exact reaches_of_onGrid? hlow hgrid
    | none =>
      refine ih ?_
      rwa [show k - 1 - (fuel : Int) = k - ((fuel + 1 : Nat) : Int) by omega]

/-- The value of the interval has its first digit at the place that is named, so a grid is not
coarser than the value if it begins at a later one. -/
lemma le_value_places (hvalue : 0 < i.value) (hdenominator : 0 < i.denominator) {n : Nat}
    (hn : 0 < n) :
    10 ^ (i.places - n).toNat * i.denominator ≤ i.value * 10 ^ (-(i.places - n)).toNat := by
  unfold places
  split
  next hle =>
    -- the whole part has a digit at each of its places
    generalize hlength : (natChars (i.value / i.denominator)).length = length
    have hdigits : 10 ^ (length - 1) ≤ i.value / i.denominator := by
      rw [← hlength]
      exact pow_length_natChars_le (Nat.div_pos hle hdenominator)
    by_cases hlast : length ≤ n
    · rw [show ((length : Int) - n).toNat = 0 by omega, Nat.pow_zero, Nat.one_mul]
      exact hle.trans (Nat.le_mul_of_pos_right _ (Nat.pow_pos (by decide)))
    · rw [show ((length : Int) - n).toNat = length - n by omega,
        show (-((length : Int) - n)).toNat = 0 by omega, Nat.pow_zero, Nat.mul_one]
      calc 10 ^ (length - n) * i.denominator
          ≤ 10 ^ (length - 1) * i.denominator :=
            Nat.mul_le_mul_right _ (Nat.pow_le_pow_right (by decide) (by omega))
        _ ≤ i.value / i.denominator * i.denominator := Nat.mul_le_mul_right _ hdigits
        _ ≤ i.value := Nat.div_mul_le_self _ _
  next hlt =>
    -- below one, the reciprocal has a digit for each zero behind the point
    generalize hlength : (natChars ((i.denominator - 1) / i.value)).length = length
    have hdigits : (i.denominator - 1) / i.value < 10 ^ length := by
      rw [← hlength]
      exact lt_pow_length_natChars _
    have hbound : i.denominator ≤ 10 ^ length * i.value := by
      have hreciprocal := (Nat.div_lt_iff_lt_mul hvalue).1 hdigits
      omega
    have hpos : 0 < length := hlength ▸ Nat.length_toDigits_pos
    rw [show (1 - (length : Int) - n).toNat = 0 by omega,
      show (-(1 - (length : Int) - n)).toNat = length + (n - 1) by omega, Nat.pow_zero, Nat.one_mul]
    calc i.denominator
        ≤ 10 ^ length * i.value := hbound
      _ = i.value * 10 ^ length := Nat.mul_comm _ _
      _ ≤ i.value * 10 ^ (length + (n - 1)) :=
          Nat.mul_le_mul_left _ (Nat.pow_le_pow_right (by decide) (by omega))

/-- The ends of the interval around a double other than zero. -/
lemma around_facts {significand : Nat} (hpos : 0 < significand) (exponent : Int) :
    0 < (around significand exponent).low ∧ 0 < (around significand exponent).value ∧
      (around significand exponent).value ≤ (around significand exponent).high ∧
      0 < (around significand exponent).denominator := by
  have hscale : 0 < Nat.pow 2 (exponent - 2).toNat := Nat.pow_pos (by decide)
  refine ⟨Nat.mul_pos ?_ hscale, Nat.mul_pos (by omega) hscale, Nat.mul_le_mul_right _ (by omega),
    Nat.pow_pos (by decide)⟩
  split <;> omega

/-- The interval around a double below one ends below one. -/
lemma around_high_lt {significand n : Nat} (h : significand < 2 ^ n) :
    (around significand (-n)).high < (around significand (-n)).denominator := by
  change (4 * significand + 2) * 2 ^ (-(n : Int) - 2).toNat < 2 ^ (-(-(n : Int) - 2)).toNat
  rw [show (-(n : Int) - 2).toNat = 0 by omega, show (-(-(n : Int) - 2)).toNat = n + 2 by omega,
    Nat.pow_add]
  omega

end Interval

/-- The digits of a double other than zero stand for a number that reaches its interval. -/
lemma reaches_shortest {significand : Nat} (hpos : 0 < significand) (exponent : Int) :
    (Interval.around significand exponent).Reaches (shortest significand exponent) := by
  obtain ⟨hlow, hvalue, hhigh, hdenominator⟩ := Interval.around_facts hpos exponent
  rw [shortest, if_neg (Nat.ne_of_gt hpos)]
  exact Interval.reaches_firstGrid hlow hhigh hdenominator
    (Interval.le_value_places hvalue hdenominator (by decide))

/-- A double below one has digits behind the point only. -/
lemma shortest_of_lt_one {significand n : Nat} (hpos : 0 < significand) (h : significand < 2 ^ n) :
    ∃ k, (shortest significand (-n)).exponent = .negSucc k ∧
      (shortest significand (-n)).digits < 10 ^ (k + 1) := by
  have hhigh := Interval.around_high_lt h
  obtain ⟨hdigits, hle⟩ := reaches_shortest hpos (-n)
  generalize shortest significand (-n) = d at hdigits hle
  obtain ⟨digits, exponent⟩ := d
  cases exponent with
  | ofNat k =>
    -- any other number is at least one
    have hone : (Interval.around significand (-n)).denominator ≤
        digits * (10 ^ k * (Interval.around significand (-n)).denominator) := by
      rw [← Nat.mul_assoc]
      exact Nat.le_mul_of_pos_left _ (Nat.mul_pos hdigits (Nat.pow_pos (by decide)))
    have hbelow : digits * (10 ^ k * (Interval.around significand (-n)).denominator) ≤
        (Interval.around significand (-n)).high * 1 := by simpa using hle
    omega
  | negSucc k =>
    refine ⟨k, rfl, ?_⟩
    have hscaled : digits * (Interval.around significand (-n)).denominator ≤
        (Interval.around significand (-n)).high * 10 ^ (k + 1) := by simpa using hle
    have hbound : (Interval.around significand (-n)).high * 10 ^ (k + 1) <
        10 ^ (k + 1) * (Interval.around significand (-n)).denominator := by
      rw [Nat.mul_comm]
      exact Nat.mul_lt_mul_of_pos_left hhigh (Nat.pow_pos (by decide))
    exact Nat.lt_of_mul_lt_mul_right (Nat.lt_of_le_of_lt hscaled hbound)

/-- Rounding gives zero up to a half. -/
lemma roundHalfEven_eq_zero_iff {num den : Nat} (hden : 0 < den) :
    roundHalfEven num den = 0 ↔ 2 * num ≤ den := by
  by_cases hlt : num < den
  · have hrounded : roundHalfEven num den = if 2 * num ≤ den then 0 else 1 := by
      rw [roundHalfEven, Nat.div_eq_of_lt hlt, Nat.mod_eq_of_lt hlt]
      split_ifs <;> omega
    rw [hrounded]
    simp
  · have hquotient : 0 < num / den := Nat.div_pos (by omega) hden
    refine iff_of_false (Nat.ne_of_gt (Nat.lt_of_lt_of_le hquotient ?_)) (by omega)
    unfold roundHalfEven
    dsimp only
    split_ifs <;> omega

/-- Rounding does not go beyond a whole number. -/
lemma roundHalfEven_le {num den n : Nat} (hden : 0 < den) (h : num ≤ n * den) :
    roundHalfEven num den ≤ n := by
  have hquotient : num / den ≤ n := Nat.div_le_of_le_mul (Nat.mul_comm n den ▸ h)
  unfold roundHalfEven
  dsimp only
  obtain hless | rfl := Nat.lt_or_eq_of_le hquotient
  · split_ifs <;> omega
  · have hrest : num % den = 0 := by
      have hsplit := Nat.div_add_mod num den
      rw [Nat.mul_comm] at hsplit
      omega
    rw [hrest, if_pos (by omega)]

end Decimal

end Cascade
