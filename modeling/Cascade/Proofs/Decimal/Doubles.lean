import Mathlib.Algebra.Field.Rat
import Mathlib.Algebra.Order.Field.Power
import Mathlib.Tactic.Linarith
import Mathlib.Tactic.Positivity
import Cascade.Proofs.Arithmetic.Scaling
import Cascade.Proofs.Comparison.Reversal
import Cascade.Proofs.Decimal.Positional

/-!
# Doubles as rational numbers

The digits of a double are chosen by exact arithmetic on its parts, while the program compares
doubles with each other.  Here the two meet.  The fields of the bits are the parts of the double
(`Binary.ofFloat_eq`), a significand and an exponent stand for a rational number (`magnitude`), and
doubles are ordered as these numbers are (`IsCanonical.compare_eq`).  There is no double between a
double and the one with the next significand (`IsCanonical.succ_le`), so that a comparison with one
double can decide what rounding does at a real number beside it (`abs_le_half_place_iff`).
-/

namespace Cascade

open Float.Model UnpackedFloat

/-! ### The bits of a double -/

lemma toNat_unpackMantissa (bits : BitVec Format.binary64.numBits) :
    (unpackMantissa bits).toNat = bits.toNat % 2 ^ 52 := by
  rw [unpackMantissa_def, BitVec.extractLsb'_toNat, Nat.shiftRight_zero]

lemma toNat_unpackExponent (bits : BitVec Format.binary64.numBits) :
    (unpackExponent bits).toNat = bits.toNat / 2 ^ 52 % 2 ^ 11 := by
  rw [unpackExponent_def, BitVec.extractLsb'_toNat, Nat.shiftRight_eq_div_pow]

lemma toNat_unpackSign (bits : BitVec Format.binary64.numBits) :
    (unpackSign bits).toNat = bits.toNat / 2 ^ 63 := by
  have hlt : bits.toNat < 2 ^ 64 := bits.isLt
  rw [unpackSign_def, BitVec.extractLsb'_toNat, Nat.shiftRight_eq_div_pow]
  exact Nat.mod_eq_of_lt (by change _ / 2 ^ 63 < 2; omega)

lemma ofBitVec_eq_negative_iff (sign : BitVec 1) :
    (Sign.ofBitVec sign == .negative) = (sign.toNat == 1) := by
  decide +revert

/-- The parts of a double, with what the sign is. -/
def Binary.ofUnpacked : UnpackedFloat → Binary
  | .notANumber => .nan
  | .infinity sign => .infinite (sign == .negative)
  | .zero sign => .finite (sign == .negative) 0 minExponent
  | .finite sign mantissa exponent _ => .finite (sign == .negative) mantissa exponent

namespace Binary

/-- The number with the given sign, biased exponent and fraction. -/
def ofFields (negative : Bool) (biased fraction : Nat) : Binary :=
  if biased = 2047 then
    if fraction = 0 then .infinite negative else .nan
  else if biased = 0 then
    .finite negative fraction minExponent
  else
    .finite negative (fraction + hidden) (Int.ofNat biased - 1075)

/-- The parts of a double come from the three fields of its bits. -/
lemma ofUnpacked_unpack (bits : BitVec Format.binary64.numBits) :
    ofUnpacked (UnpackedFloat.unpack .binary64 bits) =
      ofFields (Sign.ofBitVec (unpackSign bits) == .negative) (unpackExponent bits).toNat
        (unpackMantissa bits).toNat := by
  have hlargest : (unpackExponent bits).toNat = 2047 ↔ unpackExponent bits = -1#_ :=
    BitVec.toNat_inj (y := -1#11)
  have hleast : (unpackExponent bits).toNat = 0 ↔ unpackExponent bits = 0#_ :=
    BitVec.toNat_inj (y := 0#11)
  have hnone : (unpackMantissa bits).toNat = 0 ↔ unpackMantissa bits = 0#_ :=
    BitVec.toNat_inj (y := 0#52)
  rw [ofFields]
  simp only [hlargest, hleast, hnone]
  unfold UnpackedFloat.unpack
  dsimp only
  by_cases hinfinite : unpackExponent bits = -1#_
  · rw [if_pos hinfinite, if_pos hinfinite]
    split <;> rfl
  · rw [if_neg hinfinite, if_neg hinfinite]
    by_cases hzero : unpackExponent bits = 0#_
    · rw [if_pos hzero, if_pos hzero]
      split
      next hmantissa => rw [hmantissa]; rfl
      next => rw [ofUnpacked, hzero]; rfl
    · rw [if_neg hzero, if_neg hzero, ofUnpacked]
      have happend := toNat_implicit_append (unpackMantissa bits)
      exact congrArg₂ (finite _) (happend.trans (Nat.add_comm _ _)) rfl

/-- The bits of a double are read as its parts. -/
theorem ofFloat_eq (x : Float) : ofFloat x = ofUnpacked x.toModel.unpack := by
  rw [Float.Model.unpack, ofUnpacked_unpack, ofBitVec_eq_negative_iff, toNat_unpackSign,
    toNat_unpackExponent, toNat_unpackMantissa]
  rfl

end Binary

/-! ### The order of doubles -/

/-- The rational number that a significand and an exponent stand for. -/
def magnitude (mantissa : Nat) (exponent : Int) : ℚ :=
  mantissa * 2 ^ exponent

section Order

variable {m m' : Nat} {e e' : Int}

lemma magnitude_lt_iff_of_exponent_eq : magnitude m e < magnitude m' e ↔ m < m' := by
  rw [magnitude, magnitude, mul_lt_mul_iff_of_pos_right (by positivity), Nat.cast_lt]

/-- Of two doubles, the one with the larger exponent is larger, even than the next one after the
other. -/
lemma IsCanonical.succ_le_of_exponent_lt (h : IsCanonical m e) (h' : IsCanonical m' e')
    (hlt : e < e') : magnitude (m + 1) e ≤ magnitude m' e' := by
  have hfull : 2 ^ 52 ≤ m' := h'.full.resolve_right (by have := h.le; omega)
  have hmantissa : ((m + 1 : Nat) : ℚ) ≤ 2 ^ 53 := by exact_mod_cast h.lt
  have hmantissa' : (2 ^ 52 : ℚ) ≤ m' := by exact_mod_cast hfull
  calc magnitude (m + 1) e
      ≤ 2 ^ 53 * 2 ^ e := mul_le_mul_of_nonneg_right hmantissa (by positivity)
    _ = 2 ^ 52 * 2 ^ (e + 1) := by rw [zpow_add_one₀ (by norm_num)]; ring
    _ ≤ 2 ^ 52 * 2 ^ e' := by gcongr <;> [norm_num; omega]
    _ ≤ magnitude m' e' := mul_le_mul_of_nonneg_right hmantissa' (by positivity)

lemma magnitude_lt_succ : magnitude m e < magnitude (m + 1) e :=
  magnitude_lt_iff_of_exponent_eq.2 (Nat.lt_succ_self m)

/-- Doubles are ordered as the rational numbers they stand for. -/
theorem IsCanonical.compare_eq (h : IsCanonical m e) (h' : IsCanonical m' e') :
    (compare e e').then (compare m m') = compare (magnitude m e) (magnitude m' e') := by
  obtain hlt | rfl | hgt := lt_trichotomy e e'
  · have hmagnitude := magnitude_lt_succ.trans_le (h.succ_le_of_exponent_lt h' hlt)
    rw [compare_lt_iff_lt.2 hlt, compare_lt_iff_lt.2 hmagnitude]
    rfl
  · obtain hlt | rfl | hgt := lt_trichotomy m m'
    · rw [compare_lt_iff_lt.2 hlt, compare_lt_iff_lt.2 (magnitude_lt_iff_of_exponent_eq.2 hlt)]
      simp
    · simp
    · rw [compare_gt_iff_gt.2 hgt, compare_gt_iff_gt.2 (magnitude_lt_iff_of_exponent_eq.2 hgt)]
      simp
  · have hmagnitude := magnitude_lt_succ.trans_le (h'.succ_le_of_exponent_lt h hgt)
    rw [compare_gt_iff_gt.2 hgt, compare_gt_iff_gt.2 hmagnitude]
    rfl

/-- No double lies between a double and the next one. -/
lemma IsCanonical.succ_le (h : IsCanonical m e) (h' : IsCanonical m' e')
    (hlt : magnitude m e < magnitude m' e') : magnitude (m + 1) e ≤ magnitude m' e' := by
  obtain hlt' | rfl | hgt := lt_trichotomy e e'
  · exact h.succ_le_of_exponent_lt h' hlt'
  · exact not_lt.1 (mt magnitude_lt_iff_of_exponent_eq.1
      (not_lt.2 (magnitude_lt_iff_of_exponent_eq.1 hlt)))
  · have hmagnitude := magnitude_lt_succ.trans_le (h'.succ_le_of_exponent_lt h hgt)
    exact absurd hlt hmagnitude.not_gt

/-- What a number stands for, over the denominator that its exponent gives. -/
lemma magnitude_mul_pow : magnitude m e * 2 ^ (-e).toNat = m * 2 ^ e.toNat := by
  have hexponent : e + (-e).toNat = e.toNat := by omega
  rw [magnitude, mul_assoc, ← zpow_natCast, ← zpow_add₀ (by norm_num), hexponent, zpow_natCast]

/-- A number below one has a negative exponent that outweighs the significand. -/
lemma exists_of_magnitude_lt_one (hpos : 0 < m) (h : magnitude m e < 1) :
    ∃ n : Nat, e = -n ∧ m < 2 ^ n := by
  have hscaled := magnitude_mul_pow (m := m) (e := e)
  have hlt : m * 2 ^ e.toNat < 2 ^ (-e).toNat := by
    have hbound : magnitude m e * 2 ^ (-e).toNat < 2 ^ (-e).toNat :=
      mul_lt_of_lt_one_left (by positivity) h
    rw [hscaled] at hbound
    exact_mod_cast hbound
  by_cases hexponent : 0 ≤ e
  · have hone : 0 < m * 2 ^ e.toNat := Nat.mul_pos hpos (by positivity)
    rw [show (-e).toNat = 0 by omega, Nat.pow_zero] at hlt
    omega
  · refine ⟨(-e).toNat, by omega, ?_⟩
    rwa [show e.toNat = 0 by omega, Nat.pow_zero, Nat.mul_one] at hlt

end Order

/-! ### Comparison with a positive number -/

/-- Without the sign, the other two fields stand for the absolute value. -/
lemma unpack_packComponents_positive (bits : BitVec Format.binary64.numBits) :
    UnpackedFloat.unpack .binary64
        (packComponents .binary64 .positive (unpackExponent bits) (unpackMantissa bits)) =
      (UnpackedFloat.unpack .binary64 bits).abs := by
  have hsign : Sign.ofBitVec (unpackSign (packComponents .binary64 .positive (unpackExponent bits)
      (unpackMantissa bits))) = .positive := by
    rw [unpackSign_packComponents, Sign.ofBitVec_toBitVec]
  unfold UnpackedFloat.unpack
  dsimp only
  simp only [unpackExponent_packComponents, unpackMantissa_packComponents, hsign]
  split_ifs <;> rfl

/-- What is left of a double without the sign is a double. -/
lemma valid_packComponents_positive {bits : BitVec Format.binary64.numBits}
    (h : Format.binary64.Valid bits) : Format.binary64.Valid
      (packComponents .binary64 .positive (unpackExponent bits) (unpackMantissa bits)) := by
  constructor
  rw [unpackExponent_packComponents, unpackMantissa_packComponents]
  intro hexponent hmantissa
  rw [h.eq_packedNaN hexponent hmantissa]
  decide

/-- The absolute value of a double has the parts of the double, without the sign. -/
theorem unpack_abs (x : Float) : x.abs.toModel.unpack = x.toModel.unpack.abs := by
  change UnpackedFloat.unpack .binary64 (UnpackedFloat.pack .binary64 x.toModel.unpack.abs) = _
  rw [Float.Model.unpack, ← unpack_packComponents_positive,
    pack_unpack_of_valid (valid_packComponents_positive x.toModel.valid)]

/-- One double is at most another if the number it stands for is. -/
lemma float_le_iff (a b : Float) :
    a ≤ b ↔ (a.toModel.unpack.compare b.toModel.unpack).any (·.isLE) := by
  change decide (a.toModel ≤ b.toModel) = true ↔ _
  rw [decide_eq_true_eq]
  rfl

section Comparison

variable {x y : Float} {sign : Sign} {m m' : Nat} {e e' : Int} {hm : 0 < m} {hm' : 0 < m'}

/-- The magnitude of a double is compared with a positive number as rational numbers are. -/
lemma compare_abs (hx : x.toModel.unpack = .finite sign m e hm)
    (hy : y.toModel.unpack = .finite .positive m' e' hm') :
    x.toModel.unpack.abs.compare y.toModel.unpack =
      some (compare (magnitude m e) (magnitude m' e')) := by
  rw [← (isCanonical_of_unpack hx).compare_eq (isCanonical_of_unpack hy), hx, hy]
  rfl

lemma abs_lt_iff_magnitude (hx : x.toModel.unpack = .finite sign m e hm)
    (hy : y.toModel.unpack = .finite .positive m' e' hm') :
    x.abs < y ↔ magnitude m e < magnitude m' e' := by
  rw [float_lt_iff, unpack_abs, compare_abs hx hy, Option.some_inj, compare_lt_iff_lt]

lemma abs_le_iff_magnitude (hx : x.toModel.unpack = .finite sign m e hm)
    (hy : y.toModel.unpack = .finite .positive m' e' hm') :
    x.abs ≤ y ↔ magnitude m e ≤ magnitude m' e' := by
  rw [float_le_iff, unpack_abs, compare_abs hx hy, Option.any_some, Ordering.isLE_iff_ne_gt]
  exact compare_le_iff_le

lemma lt_iff_magnitude (hx : x.toModel.unpack = .finite .positive m e hm)
    (hy : y.toModel.unpack = .finite .positive m' e' hm') :
    x < y ↔ magnitude m e < magnitude m' e' := by
  have hcompare := compare_abs hx hy
  rw [hx] at hcompare
  rw [float_lt_iff, hx]
  exact hcompare ▸ Option.some_inj.trans compare_lt_iff_lt

end Comparison

/-! ### Bounds -/

/-- The double that is nearest to a millionth, as a rational number. -/
def millionth : ℚ :=
  magnitude 4722366482869645 (-72)

lemma millionth_bounds : 1 / 2 < millionth * 10 ^ 20 ∧ millionth * 10 ^ 20 ≤ 10 ^ 19 := by
  norm_num [millionth, magnitude]

lemma unpack_zero : (0.0 : Float).toModel.unpack = .zero .positive :=
  rfl

/-- A number that equals zero is not positive. -/
lemma not_lt_of_beq_zero {x : Float} (h : (x == 0.0) = true) : ¬ 0.0 < x := by
  rw [float_beq_iff] at h
  rw [float_lt_iff, unpackedFloat_compare_swap, h]
  exact nofun

section Bounds

variable {x : Float} {sign : Sign} {m : Nat} {e : Int} {hm : 0 < m}

lemma zero_lt_iff_sign (hx : x.toModel.unpack = .finite sign m e hm) :
    0.0 < x ↔ sign = .positive := by
  rw [float_lt_iff, hx, unpack_zero]
  cases sign <;> simp [UnpackedFloat.compare]

lemma lt_zero_iff_sign (hx : x.toModel.unpack = .finite sign m e hm) :
    x < 0.0 ↔ sign = .negative := by
  rw [float_lt_iff, hx, unpack_zero]
  cases sign <;> simp [UnpackedFloat.compare]

lemma lt_one_iff_magnitude (hx : x.toModel.unpack = .finite .positive m e hm) :
    x < 1.0 ↔ magnitude m e < 1 := by
  have hone : magnitude (2 ^ 52) (-52) = 1 := by norm_num [magnitude]
  rw [lt_iff_magnitude hx unpack_one, hone]

lemma abs_lt_millionth_iff (hx : x.toModel.unpack = .finite sign m e hm) :
    x.abs < 0.000001 ↔ magnitude m e < millionth :=
  abs_lt_iff_magnitude hx rfl

/-- The double that is written `5e-21` is the largest one that is not above half of the twentieth
decimal place. -/
lemma abs_le_half_place_iff (hx : x.toModel.unpack = .finite sign m e hm) :
    x.abs ≤ 5e-21 ↔ magnitude m e * 10 ^ 20 ≤ 1 / 2 := by
  have hplace : (5e-21 : Float).toModel.unpack =
    .finite .positive 6646139978924579 (-120) (by decide) := rfl
  rw [abs_le_iff_magnitude hx hplace]
  constructor
  · intro hle
    have hbound : magnitude 6646139978924579 (-120) * 10 ^ 20 ≤ 1 / 2 := by norm_num [magnitude]
    linarith
  · intro hle
    by_contra hlt
    -- the next double is above it
    have hnext := (isCanonical_of_unpack hplace).succ_le (isCanonical_of_unpack hx) (not_le.1 hlt)
    have hbound : 1 / 2 < magnitude (6646139978924579 + 1) (-120) * 10 ^ 20 := by
      norm_num [magnitude]
    linarith

lemma isFinite_of_beq_zero (h : (x == 0.0) = true) : x.isFinite := by
  rw [float_beq_iff, unpack_zero] at h
  change x.toModel.unpack.isFinite = true
  generalize x.toModel.unpack = parts at h
  cases parts with
  | notANumber => cases h
  | infinity sign => cases sign <;> cases h
  | zero | finite => rfl

lemma isFinite_of_abs_lt_millionth (h : x.abs < 0.000001) : x.isFinite := by
  rw [float_lt_iff, unpack_abs] at h
  change x.toModel.unpack.isFinite = true
  generalize x.toModel.unpack = parts at h
  cases parts with
  | notANumber | infinity => cases h
  | zero | finite => rfl

/-- A number between zero and one is finite. -/
lemma isFinite_of_between (hzero : 0.0 < x) (hone : x < 1.0) : x.isFinite := by
  rw [float_lt_iff, unpack_zero] at hzero
  rw [float_lt_iff, unpack_one] at hone
  change x.toModel.unpack.isFinite = true
  generalize x.toModel.unpack = parts at hzero hone
  cases parts with
  | notANumber => cases hzero
  | infinity sign =>
    cases sign with
    | positive => cases hone
    | negative => cases hzero
  | zero | finite => rfl

end Bounds

/-! ### Twenty decimal places -/

namespace Decimal

/-- The digits of a number to the given places, in rational arithmetic: those of a numerator over
the denominator that the exponent gives. -/
lemma scaled_le_iff {m n : Nat} {e : Int} {places : Nat} :
    m * 2 ^ e.toNat * 10 ^ places ≤ n * 2 ^ (-e).toNat ↔ magnitude m e * 10 ^ places ≤ n := by
  have hden : (0 : ℚ) < 2 ^ (-e).toNat := by positivity
  rw [← Nat.cast_le (α := ℚ)]
  push_cast
  rw [← magnitude_mul_pow, mul_right_comm, mul_le_mul_iff_of_pos_right hden]

/-- Nothing is left of a number that is at most half of the last place. -/
lemma fixed_digits_eq_zero_iff {m : Nat} {e : Int} {places : Nat} :
    (fixed places m e).digits = 0 ↔ magnitude m e * 10 ^ places ≤ 1 / 2 := by
  change roundHalfEven (m * 2 ^ e.toNat * 10 ^ places) (2 ^ (-e).toNat) = 0 ↔ _
  have hdouble : magnitude (2 * m) e * 10 ^ places = 2 * (magnitude m e * 10 ^ places) := by
    rw [magnitude, magnitude, Nat.cast_mul, Nat.cast_ofNat]
    ring
  have hscaled : 2 * m * 2 ^ e.toNat * 10 ^ places ≤ 1 * 2 ^ (-e).toNat ↔
      magnitude (2 * m) e * 10 ^ places ≤ (1 : Nat) := scaled_le_iff
  rw [Nat.one_mul, hdouble, Nat.cast_one] at hscaled
  rw [roundHalfEven_eq_zero_iff (by positivity), ← Nat.mul_assoc, ← Nat.mul_assoc, hscaled,
    le_div_iff₀' (by norm_num)]

lemma fixed_digits_le {m n : Nat} {e : Int} {places : Nat}
    (h : magnitude m e * 10 ^ places ≤ n) : (fixed places m e).digits ≤ n :=
  roundHalfEven_le (Nat.pow_pos (by decide)) (scaled_le_iff.2 h)

end Decimal

end Cascade
