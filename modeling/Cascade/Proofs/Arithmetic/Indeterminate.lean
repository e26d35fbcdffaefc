import Mathlib.Data.List.Basic
import Cascade.Proofs.Comparison.Reversal
import Cascade.Proofs.Evaluation.Yield

/-!
# Indeterminate forms

Arithmetic on two numbers gives no number exactly for the indeterminate forms: the difference of
two equal infinities, the sum of two opposite ones, zero times infinity, and zero or infinity
divided by itself (`Operator.isNaN_apply`).  The factors between the units of a group are finite and
not zero, so that a conversion never makes or loses a number (`Dimension.isNaN_convert`).  What an
operation on dimensions gives is thereby a number unless an operand is none, or the numbers that the
operator is applied to are an indeterminate form (`Dimension.isNaN_operate`).
-/

namespace Cascade

/-- Whether an operator has no number to give for two numbers. -/
def Operator.isIndeterminate : Operator → Float → Float → Bool
  | .add, x, y => x.isInf && y.isInf && x != y
  | .sub, x, y => x.isInf && y.isInf && x == y
  | .mul, x, y => x == 0.0 && y.isInf || x.isInf && y == 0.0
  | .div, x, y | .dotDiv, x, y => x == 0.0 && y == 0.0 || x.isInf && y.isInf
  | .other _, _, _ => false

/-! ### Numbers -/

section Floats

open Float.Model UnpackedFloat

/-- Only a pattern with the largest exponent stands for no number. -/
lemma isNaN_unpack_packComponents {spec : Format} {sign : Sign}
    {exponent : BitVec spec.exponentBits} {mantissa : BitVec spec.mantissaBitsWithoutImplicit} :
    (UnpackedFloat.unpack spec (packComponents spec sign exponent mantissa)).isNaN = true ↔
      exponent = -1#_ ∧ mantissa ≠ 0#_ := by
  have hexponent : unpackExponent (packComponents spec sign exponent mantissa) = exponent :=
    unpackExponent_packComponents
  have hmantissa : unpackMantissa (packComponents spec sign exponent mantissa) = mantissa :=
    unpackMantissa_packComponents
  unfold UnpackedFloat.unpack
  dsimp only
  by_cases hlargest : exponent = -1#_
  · rw [if_pos (hexponent.trans hlargest)]
    by_cases hzero : mantissa = 0#_
    · rw [if_pos (hmantissa.trans hzero)]
      exact iff_of_false Bool.false_ne_true fun h => h.2 hzero
    · rw [if_neg fun h => hzero (hmantissa.symm.trans h)]
      exact iff_of_true rfl ⟨hlargest, hzero⟩
  · rw [if_neg fun h => hlargest (hexponent.symm.trans h)]
    refine iff_of_false ?_ fun h => hlargest h.1
    -- with any other exponent, all patterns stand for numbers
    by_cases hleast : unpackExponent (packComponents spec sign exponent mantissa) = 0#_
    · rw [if_pos hleast]
      by_cases hzero : unpackMantissa (packComponents spec sign exponent mantissa) = 0#_
      · rw [dif_pos hzero]
        exact Bool.false_ne_true
      · rw [dif_neg hzero]
        exact Bool.false_ne_true
    · rw [if_neg hleast]
      exact Bool.false_ne_true

/-- A finite number is packed as a number. -/
lemma isNaN_unpack_pack_finite (sign : Sign) (mantissa : Nat) (exponent : Int)
    (hpos : 0 < mantissa) : ¬ (pack (.finite sign mantissa exponent hpos)).unpack.isNaN := by
  change ¬ (UnpackedFloat.unpack .binary64 (UnpackedFloat.pack .binary64 _)).isNaN
  unfold UnpackedFloat.pack
  dsimp only
  split
  · -- a number that is too large becomes infinite
    exact fun h => (isNaN_unpack_packComponents.1 h).2 rfl
  · next hfits =>
    intro h
    split at h
    · -- the exponent of a normal number is below the largest one
      have hmost := congrArg BitVec.toNat (isNaN_unpack_packComponents.1 h).1
      rw [BitVec.toNat_ofNat, Nat.mod_eq_of_lt (by omega)] at hmost
      change _ = 2 ^ 11 - 1 at hmost
      omega
    · exact absurd (isNaN_unpack_packComponents.1 h).1 (by decide)

/-- Packing keeps what is no number, and makes nothing else one. -/
lemma isNaN_unpack_pack (x : UnpackedFloat) : (pack x).unpack.isNaN = x.isNaN := by
  cases x with
  | notANumber => decide
  | infinity s | zero s => cases s <;> decide
  | finite s m e hm => exact Bool.eq_false_iff.2 (isNaN_unpack_pack_finite s m e hm)

/-- Rounding gives a number. -/
lemma isNaN_roundWithAccuracy (sign : Sign) (mantissa : Nat) (exponent : Int)
    (accuracy : Accuracy) :
    (roundWithAccuracy .binary64 sign mantissa exponent accuracy).isNaN = false := by
  -- either way, the result is zero or finite
  unfold roundWithAccuracy
  exact (apply_dite UnpackedFloat.isNaN _ _ _).trans (ite_self false)

/-- A signed significand with an exponent is a number. -/
lemma isNaN_normalize (mantissa exponent : Int) (sign : Sign) :
    (UnpackedFloat.normalize .binary64 mantissa exponent sign).isNaN = false := by
  unfold UnpackedFloat.normalize
  split
  · exact isNaN_roundWithAccuracy ..
  · rfl
  · exact isNaN_roundWithAccuracy ..

/-- A sum is no number if a side is none, or for opposite infinities. -/
lemma unpackedFloat_isNaN_add (x y : UnpackedFloat) :
    (add .binary64 x y).isNaN = (x.isNaN || y.isNaN || (x.isInf && y.isInf && !x.beq y)) := by
  cases x with
  | infinity s =>
    cases y with
    | infinity s' => cases s <;> cases s' <;> rfl
    | _ => rfl
  | notANumber => rfl
  | zero s =>
    cases y with
    | zero s' => cases s <;> cases s' <;> rfl
    | _ => rfl
  | finite =>
    cases y with
    | finite => exact isNaN_normalize ..
    | _ => rfl

/-- A difference is no number if a side is none, or for equal infinities. -/
lemma unpackedFloat_isNaN_sub (x y : UnpackedFloat) :
    (sub .binary64 x y).isNaN = (x.isNaN || y.isNaN || (x.isInf && y.isInf && x.beq y)) := by
  cases x with
  | infinity s =>
    cases y with
    | infinity s' => cases s <;> cases s' <;> rfl
    | _ => rfl
  | notANumber => rfl
  | zero s =>
    cases y with
    | zero s' => cases s <;> cases s' <;> rfl
    | _ => rfl
  | finite =>
    cases y with
    | finite => exact isNaN_normalize ..
    | _ => rfl

/-- A product is no number if a side is none, or for zero and an infinity. -/
lemma unpackedFloat_isNaN_mul (x y : UnpackedFloat) :
    (mul .binary64 x y).isNaN = (x.isNaN || y.isNaN ||
      (x.beq (.zero .positive) && y.isInf || x.isInf && y.beq (.zero .positive))) := by
  cases x with
  | infinity s => cases s <;> rcases y with (_ | _) | _ | _ | (_ | _) <;> rfl
  | notANumber => rfl
  | zero s => rcases y with (_ | _) | _ | _ | (_ | _) <;> rfl
  | finite s =>
    cases y with
    | finite s' => cases s <;> exact isNaN_roundWithAccuracy ..
    | _ => cases s <;> rfl

/-- A quotient is no number if a side is none, for two zeros, or for two infinities. -/
lemma unpackedFloat_isNaN_div (x y : UnpackedFloat) :
    (div .binary64 x y).isNaN = (x.isNaN || y.isNaN ||
      (x.beq (.zero .positive) && y.beq (.zero .positive) || x.isInf && y.isInf)) := by
  cases x with
  | infinity s => cases s <;> rcases y with (_ | _) | _ | _ | (_ | _) <;> rfl
  | notANumber => rfl
  | zero s => rcases y with (_ | _) | _ | _ | (_ | _) <;> rfl
  | finite s =>
    cases y with
    | finite s' => cases s <;> exact isNaN_roundWithAccuracy ..
    | _ => cases s <;> rfl

end Floats

/-- Arithmetic gives no number if there is none on either side, and for the indeterminate
forms. -/
theorem Operator.isNaN_apply (operator : Operator) {x y z : Float}
    (h : operator.apply x y = .ok z) :
    z.isNaN = (x.isNaN || y.isNaN || operator.isIndeterminate x y) := by
  cases operator with
  | add =>
    rw [← Except.ok.inj h]
    exact (isNaN_unpack_pack _).trans (unpackedFloat_isNaN_add _ _)
  | sub =>
    rw [← Except.ok.inj h]
    exact (isNaN_unpack_pack _).trans (unpackedFloat_isNaN_sub _ _)
  | mul =>
    rw [← Except.ok.inj h]
    exact (isNaN_unpack_pack _).trans (unpackedFloat_isNaN_mul _ _)
  | div | dotDiv =>
    rw [← Except.ok.inj h]
    exact (isNaN_unpack_pack _).trans (unpackedFloat_isNaN_div _ _)
  | other text => cases h

/-! ### Conversions -/

/-- A number that can be scaled by, up or down. -/
def IsScale (f : Float) : Prop :=
  f.isNaN = false ∧ f.isInf = false ∧ (f == 0.0) = false

instance (f : Float) : Decidable (IsScale f) :=
  inferInstanceAs (Decidable (_ ∧ _ ∧ _))

/-- Scaling up makes and loses no number. -/
lemma IsScale.isNaN_mul {f : Float} (h : IsScale f) (x : Float) : (x * f).isNaN = x.isNaN := by
  rw [Operator.isNaN_apply .mul rfl, Operator.isIndeterminate, h.1, h.2.1, h.2.2]
  simp only [Bool.and_false, Bool.or_false]

/-- Scaling down makes and loses no number. -/
lemma IsScale.isNaN_div {f : Float} (h : IsScale f) (x : Float) : (x / f).isNaN = x.isNaN := by
  rw [Operator.isNaN_apply .div rfl, Operator.isIndeterminate, h.1, h.2.1, h.2.2]
  simp only [Bool.and_false, Bool.or_false]

namespace UnitGroup

/-- The factors of a group stand in finite ratios that are not zero. -/
lemma isScale_of_mem (g : UnitGroup) :
    ∀ p ∈ g.table, ∀ q ∈ g.table, IsScale (p.2 / q.2) := by
  cases g <;> decide +kernel

/-- The factor of a unit stands in the table. -/
lemma mem_of_factor {g : UnitGroup} {x : String} {f : Float} (h : g.factor x = some f) :
    (x, f) ∈ g.table := by
  obtain ⟨before, after, htable, -⟩ := List.lookup_eq_some_iff.1 h
  rw [htable]
  exact List.mem_append_right before List.mem_cons_self

/-- The factor from one unit of a group to another is finite and not zero. -/
lemma isScale_div {g : UnitGroup} {x y : String} {f t : Float} (hf : g.factor x = some f)
    (ht : g.factor y = some t) : IsScale (f / t) :=
  g.isScale_of_mem (x, f) (mem_of_factor hf) (y, t) (mem_of_factor ht)

end UnitGroup

namespace Units

/-- Replacing the names of one side of the line makes and loses no number. -/
lemma isNaN_rescale {factor : String → Option Float} {t : Float}
    (hscale : ∀ x f, factor x = some f → IsScale (f / t)) (below : Bool) (value : Float)
    (names : List String) : (rescale factor t below value names).isNaN = value.isNaN := by
  induction names generalizing value with
  | nil => rfl
  | cons x rest ih =>
    rw [rescale, ih]
    cases hx : factor x with
    | none => rfl
    | some f =>
      cases below with
      | false => exact (hscale x f hx).isNaN_mul value
      | true => exact (hscale x f hx).isNaN_div value

/-- Converting the units of a group makes and loses no number. -/
lemma isNaN_convertGroup (g : UnitGroup) (target : String) (value : Float) (u : Units) :
    (convertGroup g.factor target value u).1.isNaN = value.isNaN := by
  unfold convertGroup
  cases ht : g.factor target with
  | none => rfl
  | some t =>
    have hscale : ∀ x f, g.factor x = some f → IsScale (f / t) :=
      fun x f hf => UnitGroup.isScale_div hf ht
    exact (isNaN_rescale hscale true _ _).trans (isNaN_rescale hscale false value _)

/-- Converting the units of some groups makes and loses no number. -/
lemma isNaN_convertGroups (c : Conversion) (value : Float) (u : Units) :
    (convertGroups UnitGroup.factor value u c).1.isNaN = value.isNaN := by
  induction c generalizing value u with
  | nil => rfl
  | cons entry rest ih => exact (ih _ _).trans (isNaN_convertGroup entry.1 entry.2 value u)

end Units

namespace Dimension

/-- A conversion makes and loses no number. -/
theorem isNaN_convert (c : Conversion) (d : Dimension) :
    (d.convert c).value.isNaN = d.value.isNaN :=
  Units.isNaN_convertGroups c d.value d.units

/-! ### Operations on dimensions -/

/-- The number on the right of an operator.  For a sum or a difference of two dimensions with units,
the second is in the units of the first. -/
def operand (operator : Operator) (a b : Dimension) : Float :=
  match operator with
  | .add | .sub =>
    if a.units.isEmpty || b.units.isEmpty then b.value else (b.convert a.units.used).value
  | _ => b.value

/-- Whether an operator has no number to give for two dimensions. -/
def isIndeterminate (operator : Operator) (a b : Dimension) : Bool :=
  operator.isIndeterminate a.value (operand operator a b)

/-- The right side of an operator is a number if the second dimension is. -/
lemma isNaN_operand (operator : Operator) (a b : Dimension) :
    (operand operator a b).isNaN = b.value.isNaN := by
  unfold operand
  split
  · split
    · rfl
    · exact isNaN_convert _ b
  · split
    · rfl
    · exact isNaN_convert _ b
  · rfl

/-- A sum or a difference applies the operator to the first value and the operand. -/
lemma apply_operand_of_addLike {strict : Bool} {operator : Operator} {a b d : Dimension}
    (hoperator : operator = .add ∨ operator = .sub) (h : addLike strict operator a b = .ok d) :
    operator.apply a.value (operand operator a b) = .ok d.value := by
  have hoperand : operand operator a b =
      if a.units.isEmpty || b.units.isEmpty then b.value else (b.convert a.units.used).value := by
    rcases hoperator with rfl | rfl <;> rfl
  rw [hoperand]
  unfold addLike at h
  split at h
  · next ha =>
    obtain ⟨value, hvalue, hd⟩ := except_bind_eq_ok_iff.1 h
    rw [ha, Bool.true_or, if_pos rfl, hvalue, ← Except.ok.inj hd]
  · next ha =>
    split at h
    · next hb =>
      obtain ⟨value, hvalue, hd⟩ := except_bind_eq_ok_iff.1 h
      rw [hb, Bool.or_true, if_pos rfl, hvalue, ← Except.ok.inj hd]
    · next hb =>
      dsimp only at h
      split at h
      · cases h
      · obtain ⟨value, hvalue, hd⟩ := except_bind_eq_ok_iff.1 h
        rw [if_neg (by simp [ha, hb]), hvalue, ← Except.ok.inj hd]

/-- An operation applies the operator to the first value and the operand. -/
lemma apply_operand_of_operate {strict : Bool} {operator : Operator} {a b d : Dimension}
    (h : operate strict operator a b = .ok d) :
    operator.apply a.value (operand operator a b) = .ok d.value := by
  cases operator with
  | add => exact apply_operand_of_addLike (.inl rfl) h
  | sub => exact apply_operand_of_addLike (.inr rfl) h
  | mul | div | dotDiv =>
    rw [← Except.ok.inj h]
    rfl
  | other text => cases h

/-- What an operation gives is a number, unless one of the dimensions is none or the operation is an
indeterminate form. -/
theorem isNaN_operate {strict : Bool} {operator : Operator} {a b d : Dimension}
    (h : operate strict operator a b = .ok d) :
    d.value.isNaN = (a.value.isNaN || b.value.isNaN || isIndeterminate operator a b) := by
  rw [operator.isNaN_apply (apply_operand_of_operate h), isNaN_operand]
  rfl

end Dimension

end Cascade
