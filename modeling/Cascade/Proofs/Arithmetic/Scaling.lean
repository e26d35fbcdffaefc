import Mathlib

/-!
# Scaling by one

A double that is multiplied by one, or divided by one, is the same double.  In either case the
result is computed as the significand times a power of two, with the exponent lowered by as much,
and is then rounded.  A significand that fits is rounded to itself (`round_scaled`), because a
double has the exponent that rounding aims at (`IsCanonical.targetExponent_eq`), and unpacking a
double and packing it again gives it back (`pack_unpack`).

What is known of packed doubles (`pack_unpack_of_valid`) is imported by no part of the library, only
by the whole.
-/

namespace Cascade

open Float.Model UnpackedFloat

/-! ### Doubles and their parts -/

/-- A significand with an exponent as they stand in a double: of full length, or with the least
exponent. -/
structure IsCanonical (mantissa : Nat) (exponent : Int) : Prop where
  pos : 0 < mantissa
  lt : mantissa < 2 ^ 53
  le : -1074 ≤ exponent
  full : 2 ^ 52 ≤ mantissa ∨ exponent = -1074

/-- The significand of a double of full length, with the one that is not stored. -/
lemma toNat_implicit_append (mantissa : BitVec 52) :
    (1#1 ++ mantissa).toNat = 2 ^ 52 + mantissa.toNat := by
  rw [BitVec.toNat_append, ← Nat.shiftLeft_add_eq_or_of_lt mantissa.isLt]
  rfl

/-- The parts of a finite double are canonical. -/
lemma isCanonical_of_unpack {bits : BitVec Format.binary64.numBits} {sign : Sign} {mantissa : Nat}
    {exponent : Int} {hpos : 0 < mantissa}
    (h : UnpackedFloat.unpack .binary64 bits = .finite sign mantissa exponent hpos) :
    IsCanonical mantissa exponent := by
  have hbias : (Format.binary64.exponentBias : Int) = 1023 := rfl
  have hlt : (unpackMantissa bits).toNat < 2 ^ 52 := (unpackMantissa bits).isLt
  unfold UnpackedFloat.unpack at h
  dsimp only at h
  split at h
  · split at h <;> cases h
  · split at h
    next hzero =>
      -- the least exponent, without the one that is not stored
      split at h
      · cases h
      · obtain ⟨-, rfl, rfl⟩ := UnpackedFloat.finite.inj h
        refine ⟨hpos, by omega, ?_, .inr ?_⟩ <;> rw [hzero, hbias] <;> simp
    next hnormal =>
      obtain ⟨-, rfl, rfl⟩ := UnpackedFloat.finite.inj h
      have happend := toNat_implicit_append (unpackMantissa bits)
      have hexponent : 0 < (unpackExponent bits).toNat := by
        refine Nat.pos_of_ne_zero fun hnone => hnormal (BitVec.toNat_inj.1 ?_)
        simpa using hnone
      refine ⟨hpos, by omega, ?_, .inl (by omega)⟩
      rw [hbias]
      simp only [Format.binary64]
      omega

/-- The length of a significand below the full one. -/
lemma log2_lt_of_lt {mantissa k : Nat} (hpos : 0 < mantissa) (hlt : mantissa < 2 ^ k) :
    mantissa.log2 < k :=
  (Nat.log2_lt (Nat.ne_of_gt hpos)).2 hlt

/-- The length of a full significand. -/
lemma log2_of_full {mantissa : Nat} (hle : 2 ^ 52 ≤ mantissa) (hlt : mantissa < 2 ^ 53) :
    mantissa.log2 = 52 := by
  have hne : mantissa ≠ 0 := by omega
  have hlower : 52 ≤ mantissa.log2 := (Nat.le_log2 hne).2 hle
  have hupper := log2_lt_of_lt (Nat.pos_of_ne_zero hne) hlt
  omega

/-- Unpacking a double and packing it again gives it back. -/
lemma pack_unpack (x : Float.Model) : Float.Model.pack x.unpack = x := by
  obtain ⟨bits, hvalid⟩ := x
  have hbits : UnpackedFloat.pack .binary64 (UnpackedFloat.unpack .binary64 bits.toBitVec) =
      bits.toBitVec := pack_unpack_of_valid hvalid
  unfold Float.Model.pack Float.Model.unpack
  simp only [hbits]

/-! ### Rounding a significand that fits -/

/-- A double has the exponent that rounding aims at. -/
lemma IsCanonical.targetExponent_eq {mantissa : Nat} {exponent : Int}
    (h : IsCanonical mantissa exponent) :
    Format.binary64.targetExponent (mantissa.log2 + 1 + exponent) = exponent := by
  have hleast : Format.binary64.minExponent = -1074 := rfl
  have hbits : (Format.binary64.mantissaBits : Int) = 53 := rfl
  have hlog := log2_lt_of_lt h.pos h.lt
  rw [Format.targetExponent, hleast, hbits]
  rcases h.full with hfull | hexponent
  · have hlog := log2_of_full hfull h.lt
    have hle := h.le
    omega
  · omega

/-- Shifting out zeros loses nothing. -/
lemma shiftRight_scaled (mantissa k : Nat) :
    (⟨mantissa * 2 ^ k, false, false⟩ : ExtendedMantissa) >>> k = ⟨mantissa, false, false⟩ := by
  have hrepeat : ∀ rest, Nat.repeat ExtendedMantissa.shiftRightOne k
      ⟨mantissa * 2 ^ (rest + k), false, false⟩ = ⟨mantissa * 2 ^ rest, false, false⟩ := by
    induction k with
    | zero => exact fun rest => rfl
    | succ k ih =>
      intro rest
      have hdouble : mantissa * 2 ^ (rest + 1) = 2 * (mantissa * 2 ^ rest) := by ring
      rw [Nat.repeat, show rest + (k + 1) = rest + 1 + k by omega, ih, hdouble,
        ExtendedMantissa.shiftRightOne]
      simp
  have hall := hrepeat 0
  rw [Nat.zero_add, Nat.pow_zero, Nat.mul_one] at hall
  exact hall

/-- Zeros behind a significand make it longer. -/
lemma log2_scaled {mantissa : Nat} (hpos : 0 < mantissa) (k : Nat) :
    (mantissa * 2 ^ k).log2 = mantissa.log2 + k := by
  induction k with
  | zero => simp
  | succ k ih =>
    have hne : mantissa * 2 ^ k ≠ 0 := Nat.mul_ne_zero (Nat.ne_of_gt hpos) (Nat.two_pow_pos k).ne'
    have hdouble : mantissa * 2 ^ (k + 1) = 2 * (mantissa * 2 ^ k) := by ring
    rw [hdouble, Nat.log2_two_mul hne, ih, Nat.add_assoc]

/-- A significand that fits is rounded to itself, however many zeros are written behind it. -/
lemma round_scaled {mantissa : Nat} {exponent : Int} (h : IsCanonical mantissa exponent)
    (sign : Sign) (k : Nat) :
    roundWithAccuracy .binary64 sign (mantissa * 2 ^ k) (exponent - k) .exact =
      .finite sign mantissa exponent h.pos := by
  have hshift : ∀ k : Nat,
      shiftToTargetExponent .binary64 (mantissa * 2 ^ k) (exponent - k) .exact =
        (⟨mantissa, false, false⟩, exponent) := by
    intro k
    have htotal : totalExponent (mantissa * 2 ^ k) (exponent - k) =
        mantissa.log2 + 1 + exponent := by
      rw [totalExponent, log2_scaled h.pos]
      push_cast
      ring
    have hamount : (exponent - (exponent - k)).toNat = k := by omega
    unfold shiftToTargetExponent shiftToExponent
    dsimp only
    rw [htotal, h.targetExponent_eq, hamount]
    refine Prod.ext (shiftRight_scaled mantissa k) ?_
    simp
  have hagain := hshift 0
  simp only [Nat.pow_zero, Nat.mul_one, Nat.cast_zero, Int.sub_zero] at hagain
  have hrounded : (⟨mantissa, false, false⟩ : ExtendedMantissa).roundedMantissa = mantissa := rfl
  unfold roundWithAccuracy
  rw [hshift k]
  dsimp only
  rw [hrounded, hagain]
  exact dif_neg (Nat.ne_of_gt h.pos)

/-! ### Products and quotients -/

/-- The parts of one. -/
lemma unpack_one : (1.0 : Float).toModel.unpack = .finite .positive (2 ^ 52) (-52) (by decide) :=
  rfl

/-- A double times one is the same double. -/
theorem float_mul_one (x : Float) : x * 1.0 = x := by
  have hproduct : UnpackedFloat.mul .binary64 x.toModel.unpack (1.0 : Float).toModel.unpack =
      x.toModel.unpack := by
    rw [unpack_one]
    cases hx : x.toModel.unpack with
    | notANumber => rfl
    | infinity s | zero s => cases s <;> rfl
    | finite s m e hpos =>
      have hsign : s * .positive = s := by cases s <;> rfl
      simp only [UnpackedFloat.mul, hsign]
      exact round_scaled (isCanonical_of_unpack hx) s 52
  show Float.ofModel (Float.Model.pack _) = x
  rw [hproduct, pack_unpack]

/-- Dividing a significand by one writes some zeros behind it. -/
lemma divCore_one {mantissa : Nat} {exponent : Int} (h : IsCanonical mantissa exponent) :
    ∃ k : Nat, divCore .binary64 mantissa exponent (2 ^ 52) (-52) =
      (mantissa * 2 ^ k, exponent - k, .exact) := by
  have hleast : Format.binary64.minExponent = -1074 := rfl
  have hbits : (Format.binary64.mantissaBits : Int) = 53 := rfl
  have hlog := log2_lt_of_lt h.pos h.lt
  have hle := h.le
  have hone : totalExponent (2 ^ 52) (-52) = 1 := rfl
  -- the exponent aimed at is not above that of the double, and is the lower one of the two
  obtain ⟨k, hk⟩ : ∃ k : Nat, min (exponent - -52) (Format.binary64.targetExponent
      (totalExponent mantissa exponent - totalExponent (2 ^ 52) (-52))) = exponent - k := by
    refine ⟨(exponent - min (exponent - -52) (Format.binary64.targetExponent
      (totalExponent mantissa exponent - totalExponent (2 ^ 52) (-52)))).toNat, ?_⟩
    rw [hone, totalExponent, Format.targetExponent, hleast, hbits]
    omega
  refine ⟨k, ?_⟩
  have hshift : (exponent - -52 - (exponent - k)).toNat = k + 52 := by omega
  have hscaled : mantissa <<< (k + 52) = mantissa * 2 ^ k * 2 ^ 52 := by
    rw [Nat.shiftLeft_eq]
    ring
  unfold divCore
  dsimp only
  rw [hk, hshift, hscaled, Nat.mul_div_cancel _ (Nat.two_pow_pos 52), Nat.mul_mod_left]
  rfl

/-- A double divided by one is the same double. -/
theorem float_div_one (x : Float) : x / 1.0 = x := by
  have hquotient : UnpackedFloat.div .binary64 x.toModel.unpack (1.0 : Float).toModel.unpack =
      x.toModel.unpack := by
    rw [unpack_one]
    cases hx : x.toModel.unpack with
    | notANumber => rfl
    | infinity s | zero s => cases s <;> rfl
    | finite s m e hpos =>
      have hsign : s / .positive = s := by cases s <;> rfl
      have hcanonical := isCanonical_of_unpack hx
      obtain ⟨k, hk⟩ := divCore_one hcanonical
      simp only [UnpackedFloat.div, hk, hsign]
      exact round_scaled hcanonical s k
  show Float.ofModel (Float.Model.pack _) = x
  rw [hquotient, pack_unpack]

end Cascade
