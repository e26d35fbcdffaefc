import Mathlib.Algebra.BigOperators.Field
import Mathlib.Algebra.Field.Rat
import Cascade.Proofs.Units.Conversion

/-!
# Quantities in exact arithmetic

The rule of conversion is stated over any numbers, so it can be read in a field, with a factor
other than zero for every convertible unit (`UnitGroup.exactly`).  A value with a unit then stands
for a quantity: the value times the factors of the units, raised to their exponents
(`Units.quantity`).

A name that is replaced scales the value by the quotient of two factors, up if it stands above the
line and down if it stands below (`Units.rescale_above`, `Units.rescale_below`), and weighs as much
less itself (`Units.stretch_mul_weight`).  So one group after the other leaves the quantity as it is
(`Units.quantity_convertGroup`, `Units.quantity_convertGroups`), and so does cancelling.

Since no factor is zero, the value is known from the quantity and the unit
(`Units.value_eq_of_quantity_eq`), and what holds of units after two conversions holds of values as
well (`Units.convertWith_convertWith`, `Units.convertWith_of_settled`).
-/

namespace Cascade

namespace UnitGroup

/-- The units of all groups. -/
def convertible : Finset String :=
  (all.flatMap fun g => g.table.map Prod.fst).toFinset

/-- The convertible units are those of some group. -/
lemma mem_convertible_iff {x : String} : x ∈ convertible ↔ ∃ g : UnitGroup, x ∈ g.units := by
  simp only [convertible, List.mem_toFinset, List.mem_flatMap, units]
  constructor
  · rintro ⟨g, -, hx⟩
    exact ⟨g, hx⟩
  · rintro ⟨g, hx⟩
    refine ⟨g, ?_, hx⟩
    cases g <;> decide

variable {K : Type}

/-- The tables of the groups with other factors: a unit has one in the group it belongs to. -/
def exactly (factor : String → K) (g : UnitGroup) (x : String) : Option K :=
  if x ∈ g.units then some (factor x) else none

/-- The units that have a factor are those of the group. -/
lemma isSome_exactly_iff {factor : String → K} {g : UnitGroup} {x : String} :
    (exactly factor g x).isSome ↔ x ∈ g.units := by
  unfold exactly
  split
  next hx => exact iff_of_true rfl hx
  next hx => exact iff_of_false Bool.false_ne_true hx

end UnitGroup

namespace Units

open UnitGroup

/-! ### Units do not depend on the numbers -/

section AnyNumbers

variable {α β : Type} [Mul α] [Div α] [Mul β] [Div β]

/-- The units after a conversion do not depend on the values, nor on the factors. -/
lemma units_convertGroups_eq (factor : UnitGroup → String → Option α)
    (factor' : UnitGroup → String → Option β)
    (hfactor : ∀ g x, (factor g x).isSome = (factor' g x).isSome) (value : α) (value' : β)
    (u : Units) (c : Conversion) :
    (convertGroups factor value u c).2 = (convertGroups factor' value' u c).2 := by
  induction c generalizing value value' u with
  | nil => rfl
  | cons entry rest ih =>
    obtain ⟨g, t⟩ := entry
    have hgroup : (convertGroup (factor g) t value u).2 =
        (convertGroup (factor' g) t value' u).2 := by
      have ht := hfactor g t
      unfold convertGroup
      cases hfirst : factor g t <;> cases hsecond : factor' g t <;> simp [hfirst, hsecond] at ht
      · rfl
      · simp only [hfactor g]
    calc (convertGroups factor value u ((g, t) :: rest)).2
        = (convertGroups factor (convertGroup (factor g) t value u).1
            (convertGroup (factor g) t value u).2 rest).2 := rfl
      _ = (convertGroups factor' (convertGroup (factor' g) t value' u).1
            (convertGroup (factor' g) t value' u).2 rest).2 := by rw [hgroup]; exact ih _ _ _

end AnyNumbers

variable {K : Type} [Field K] {factor : String → K}

/-! ### The factor of a unit -/

/-- The product of the factors of all convertible units, raised to their exponents. -/
def scale (factor : String → K) (u : Units) : K :=
  ∏ x ∈ convertible, factor x ^ u.exponent x

/-- What a value with a unit stands for: the value times the factor of its unit. -/
def quantity (factor : String → K) (d : K × Units) : K :=
  d.1 * d.2.scale factor

/-- The factor of any name; a name that does not convert counts as one. -/
def weight (factor : String → K) (x : String) : K :=
  if x ∈ convertible then factor x else 1

/-- A unit weighs its factor. -/
lemma weight_of_mem {g : UnitGroup} {x : String} (hx : x ∈ g.units) :
    weight factor x = factor x :=
  if_pos (mem_convertible_iff.2 ⟨g, hx⟩)

/-- The weights of some names, collected by name. -/
lemma prod_map_weight (l : List String) :
    (l.map (weight factor)).prod = ∏ x ∈ convertible, factor x ^ l.count x := by
  induction l with
  | nil => simp
  | cons a l ih =>
    have hfirst : ∏ x ∈ convertible, factor x ^ (if a = x then 1 else 0) = weight factor a := by
      simp only [pow_ite, pow_one, pow_zero, Finset.prod_ite_eq, weight]
    calc ((a :: l).map (weight factor)).prod
        = (∏ x ∈ convertible, factor x ^ l.count x) *
            ∏ x ∈ convertible, factor x ^ (if a = x then 1 else 0) := by
          rw [List.map_cons, List.prod_cons, ih, hfirst, mul_comm]
      _ = ∏ x ∈ convertible, factor x ^ (a :: l).count x := by
          rw [← Finset.prod_mul_distrib]
          refine Finset.prod_congr rfl fun x _ => ?_
          rw [← pow_add, List.count_cons]
          simp only [beq_iff_eq]

/-- The factor of a unit is known from its exponents. -/
lemma scale_congr {u v : Units} (h : ∀ x, u.exponent x = v.exponent x) :
    u.scale factor = v.scale factor :=
  Finset.prod_congr rfl fun x _ => by rw [h x]

/-! ### What a conversion does to the value -/

/-- What one name scales the value by when it is replaced by a unit of factor `target`. -/
def stretch (factor : String → Option K) (target : K) (a : String) : K :=
  (factor a).elim 1 (· / target)

/-- The names above the line scale the value up. -/
lemma rescale_above (look : String → Option K) (target value : K) (l : List String) :
    rescale look target false value l = value * (l.map (stretch look target)).prod := by
  induction l generalizing value with
  | nil => rw [rescale, List.map_nil, List.prod_nil, mul_one]
  | cons a rest ih =>
    rw [rescale, ih, List.map_cons, List.prod_cons, ← mul_assoc, stretch]
    cases look a with
    | none => rw [Option.elim_none, mul_one]
    | some f => rfl

/-- The names below the line scale the value down. -/
lemma rescale_below (look : String → Option K) (target value : K) (l : List String) :
    rescale look target true value l = value / (l.map (stretch look target)).prod := by
  induction l generalizing value with
  | nil => rw [rescale, List.map_nil, List.prod_nil, div_one]
  | cons a rest ih =>
    rw [rescale, ih, List.map_cons, List.prod_cons, ← div_div, stretch]
    cases look a with
    | none => rw [Option.elim_none, div_one]
    | some f => rfl

variable {c c' : Conversion} {g : UnitGroup} {t : String}

/-- A conversion, on units. -/
lemma convertedBy_convertWith (hc : (c.map Prod.fst).Nodup) (value : K) (u : Units) :
    ConvertedBy c u (convertWith (exactly factor) c value u).2 :=
  (convertedBy_convertGroups isSome_exactly_iff hc value u).cancel

/-- A conversion keeps the backup name. -/
lemma backup_convertWith (c : Conversion) (value : K) (u : Units) :
    (convertWith (exactly factor) c value u).2.backup = u.backup :=
  backup_convertGroups c value u

/-! ### Factors other than zero -/

section Exact

variable (hfactor : ∀ x ∈ convertible, factor x ≠ 0)

include hfactor

/-- The factor of a unit is the quotient of the weights above the line by those below it. -/
lemma scale_eq (u : Units) :
    u.scale factor = (u.numerator.toList.map (weight factor)).prod /
      (u.denominator.toList.map (weight factor)).prod := by
  rw [prod_map_weight, prod_map_weight, ← Finset.prod_div_distrib]
  refine Finset.prod_congr rfl fun x hx => ?_
  rw [exponent, zpow_sub₀ (hfactor x hx), zpow_natCast, zpow_natCast]

/-- The factor of a unit is not zero. -/
lemma scale_ne_zero (u : Units) : u.scale factor ≠ 0 :=
  Finset.prod_ne_zero_iff.2 fun x hx => zpow_ne_zero _ (hfactor x hx)

/-- A value is known from the quantity and the unit. -/
lemma value_eq_of_quantity_eq {v w : K} {u r : Units}
    (hexponent : ∀ x, u.exponent x = r.exponent x)
    (hquantity : quantity factor (v, u) = quantity factor (w, r)) : v = w := by
  unfold quantity at hquantity
  rw [scale_congr hexponent] at hquantity
  exact mul_right_cancel₀ (scale_ne_zero hfactor r) hquantity

/-- A name and the one that replaces it differ in weight by what the value is scaled by. -/
lemma stretch_mul_weight (ht : t ∈ g.units) (a : String) :
    stretch (exactly factor g) (factor t) a *
        weight factor (if (exactly factor g a).isSome then t else a) = weight factor a := by
  have htarget : factor t ≠ 0 := hfactor t (mem_convertible_iff.2 ⟨g, ht⟩)
  by_cases ha : a ∈ g.units
  · have hlook : exactly factor g a = some (factor a) := if_pos ha
    rw [stretch, hlook, Option.elim_some, Option.isSome_some, if_pos rfl, weight_of_mem ht,
      weight_of_mem ha, div_mul_cancel₀ _ htarget]
  · have hlook : exactly factor g a = Option.none := if_neg ha
    rw [stretch, hlook, Option.elim_none, one_mul, Option.isSome_none, if_neg Bool.false_ne_true]

/-- The names of one side of the line and those that replace them. -/
lemma prod_stretch_mul_weight (ht : t ∈ g.units) (a : Atoms) :
    (a.toList.map (stretch (exactly factor g) (factor t))).prod *
        ((a.map fun x => if (exactly factor g x).isSome then t else x).toList.map
          (weight factor)).prod = (a.toList.map (weight factor)).prod := by
  have hsorted : ∀ l : List String, ((Atoms.ofList l).toList.map (weight factor)).prod =
      (l.map (weight factor)).prod := fun l => ((Atoms.perm_ofList l).map _).prod_eq
  rw [Atoms.map, hsorted, List.map_map, ← List.prod_map_mul]
  exact congrArg List.prod (List.map_congr_left fun x _ => stretch_mul_weight hfactor ht x)

/-- Converting one group keeps the quantity. -/
lemma quantity_convertGroup (g : UnitGroup) (t : String) (value : K) (u : Units) :
    quantity factor (convertGroup (exactly factor g) t value u) = quantity factor (value, u) := by
  by_cases ht : t ∈ g.units
  · have htarget : exactly factor g t = some (factor t) := if_pos ht
    simp only [quantity, convertGroup, htarget, scale_eq hfactor, mapAtoms, rescale_above,
      rescale_below]
    rw [div_mul_div_comm, mul_assoc, prod_stretch_mul_weight hfactor ht,
      prod_stretch_mul_weight hfactor ht, mul_div_assoc]
  · have htarget : exactly factor g t = Option.none := if_neg ht
    simp only [convertGroup, htarget]

/-- Converting one group after the other keeps the quantity. -/
lemma quantity_convertGroups (c : Conversion) (value : K) (u : Units) :
    quantity factor (convertGroups (exactly factor) value u c) = quantity factor (value, u) := by
  induction c generalizing value u with
  | nil => rfl
  | cons entry rest ih =>
    obtain ⟨g, t⟩ := entry
    exact (ih _ _).trans (quantity_convertGroup hfactor g t value u)

/-- A conversion keeps the quantity. -/
lemma quantity_convertWith (c : Conversion) (value : K) (u : Units) :
    quantity factor (convertWith (exactly factor) c value u) = quantity factor (value, u) := by
  have hcancel : quantity factor (convertWith (exactly factor) c value u) =
      quantity factor (convertGroups (exactly factor) value u c) := by
    unfold quantity convertWith
    rw [scale_congr (exponent_cancel _)]
  rw [hcancel, quantity_convertGroups hfactor]

/-! ### One conversion after another -/

/-- The outcome of a conversion is known from its quantity, exponents and backup name. -/
lemma convertWith_eq {value : K} {u : Units} {d : K × Units} (hd : d.2.IsReduced)
    (hquantity : quantity factor (value, u) = quantity factor d)
    (hexponent : ∀ x, (convertWith (exactly factor) c value u).2.exponent x = d.2.exponent x)
    (hbackup : u.backup = d.2.backup) : convertWith (exactly factor) c value u = d := by
  refine Prod.ext ?_ ?_
  · refine value_eq_of_quantity_eq hfactor hexponent ?_
    exact (quantity_convertWith hfactor c value u).trans hquantity
  · exact (isReduced_cancel _).eq_of_exponent_eq hd hexponent
      ((backup_convertWith c value u).trans hbackup)

/-- A conversion overrules an earlier one of no more groups, also on values. -/
lemma convertWith_convertWith (hc : (c.map Prod.fst).Nodup) (hc' : (c'.map Prod.fst).Nodup)
    (hgroups : ∀ g t, c.Converts g t → ∃ t', c'.Converts g t') (value : K) (u : Units) :
    convertWith (exactly factor) c' (convertWith (exactly factor) c value u).1
        (convertWith (exactly factor) c value u).2 =
      convertWith (exactly factor) c' value u := by
  refine convertWith_eq hfactor (isReduced_cancel _) ?_ ?_ ?_
  · exact (quantity_convertWith hfactor c value u).trans
      (quantity_convertWith hfactor c' value u).symm
  · have hfirst : ConvertedBy c u (convertWith (exactly factor) c value u).2 :=
      convertedBy_convertWith hc value u
    exact (hfirst.trans (convertedBy_convertWith hc' _ _) hgroups).exponent_eq
      (convertedBy_convertWith hc' value u)
  · rw [backup_convertWith, backup_convertWith]

/-- A conversion to the units that a value has already only cancels. -/
lemma convertWith_of_settled (hc : (c.map Prod.fst).Nodup) (value : K) {u : Units}
    (hu : ∀ g t, c.Converts g t → ∀ x ∈ g.units, x ≠ t → u.exponent x = 0) :
    convertWith (exactly factor) c value u = (value, u.cancel) := by
  have hsettled : ConvertedBy c u u := by
    refine ⟨fun g t ht => ?_, fun g t x ht hx hne => hu g t ht x hx hne, fun _ _ => rfl⟩
    exact (Finset.sum_eq_single_of_mem t ht.2 fun x hx hne => hu g t ht x hx hne).symm
  refine convertWith_eq hfactor (isReduced_cancel u) ?_ ?_ rfl
  · exact congrArg (value * ·) (scale_congr fun x => (exponent_cancel u x).symm)
  · exact (convertedBy_convertWith hc value u).exponent_eq hsettled.cancel

end Exact

/-- Read in any field, with factors other than zero for the convertible units, a conversion keeps
the quantity: the value times the factors of all convertible units, raised to their exponents, is
the same before and after, whatever the targets are.  The unit is the one that the program
computes with its own numbers and factors.

So the way over another unit of a group does not matter, and a value whose only unit of a group is
`t₁`, but for what cancels, comes back from any other unit of the group, with its unit cancelled. -/
theorem convertWith_keeps_quantity (hfactor : ∀ x ∈ convertible, factor x ≠ 0) (value : K)
    (u : Units) :
    (∀ c : Conversion, quantity factor (convertWith (exactly factor) c value u) =
      quantity factor (value, u)) ∧
    (∀ (c : Conversion) (number : Float), (convertWith (exactly factor) c value u).2 =
      (Dimension.convert c ⟨number, u⟩).units) ∧
    ∀ (g : UnitGroup) (t₁ t₂ : String), t₁ ∈ g.units → t₂ ∈ g.units →
      (convertWith (exactly factor) (.ofName t₁)
          (convertWith (exactly factor) (.ofName t₂) value u).1
          (convertWith (exactly factor) (.ofName t₂) value u).2 =
        convertWith (exactly factor) (.ofName t₁) value u) ∧
      ((∀ x ∈ g.units, x ≠ t₁ → u.exponent x = 0) →
        convertWith (exactly factor) (.ofName t₁)
            (convertWith (exactly factor) (.ofName t₂) value u).1
            (convertWith (exactly factor) (.ofName t₂) value u).2 =
          (value, u.cancel)) := by
  refine ⟨fun c => quantity_convertWith hfactor c value u, fun c number => ?_, ?_⟩
  · have hlook : ∀ g x, (exactly factor g x).isSome = (UnitGroup.factor g x).isSome :=
      fun g x => Bool.eq_iff_iff.2 (isSome_exactly_iff.trans isSome_factor_iff.symm)
    exact congrArg cancel (units_convertGroups_eq _ _ hlook value number u c)
  · intro g t₁ t₂ ht₁ ht₂
    have hgroups : ∀ h t, (Conversion.ofName t₂).Converts h t →
        ∃ t', (Conversion.ofName t₁).Converts h t' := by
      intro h t ht
      obtain ⟨-, hmem⟩ := Conversion.converts_ofName.1 ht
      cases eq_of_mem_units ht₂ hmem
      exact ⟨t₁, Conversion.converts_ofName.2 ⟨rfl, ht₁⟩⟩
    have hover := convertWith_convertWith hfactor (Conversion.nodup_ofName t₂)
      (Conversion.nodup_ofName t₁) hgroups value u
    refine ⟨hover, fun hu => hover.trans ?_⟩
    refine convertWith_of_settled hfactor (Conversion.nodup_ofName t₁) value ?_
    intro h t ht x hx hne
    obtain ⟨rfl, hmem⟩ := Conversion.converts_ofName.1 ht
    cases eq_of_mem_units ht₁ hmem
    exact hu x hx hne

/-- The factors of the tables as exact fractions, with the decimals of pi that the tables use. -/
def decimalFactor (x : String) : ℚ :=
  match x with
  | "m" | "s" | "turn" => 1
  | "cm" => 1 / 100
  | "mm" | "ms" => 1 / 1000
  | "in" => 254 / 10000
  | "px" => 254 / 10000 / 96
  | "pt" => 254 / 10000 / 72
  | "pc" => 254 / 10000 / 72 * 12
  | "rad" => 1 / (2 * (3141592653589793 / 1000000000000000))
  | "deg" => 1 / 360
  | "grad" => 1 / 400
  | _ => 0

/-- Square inches per millisecond, with a length on both sides of the line that cancels. -/
def inchRate : Units :=
  .ofParts ["in", "px", "in"] ["px", "ms"] ""

/-- Three square inches per millisecond are the same quantity in pixels and seconds, and come back
from points as they were. -/
theorem convertWith_keeps_quantity_inchRate :
    ((∀ x ∈ convertible, decimalFactor x ≠ 0) ∧ "in" ∈ UnitGroup.length.units ∧
        "pt" ∈ UnitGroup.length.units ∧
        ∀ x ∈ UnitGroup.length.units, x ≠ "in" → inchRate.exponent x = 0) ∧
      quantity decimalFactor (convertWith (exactly decimalFactor) .canonical 3 inchRate) =
        quantity decimalFactor (3, inchRate) ∧
      convertWith (exactly decimalFactor) (.ofName "in")
          (convertWith (exactly decimalFactor) (.ofName "pt") 3 inchRate).1
          (convertWith (exactly decimalFactor) (.ofName "pt") 3 inchRate).2 =
        (3, inchRate.cancel) := by
  have hfactor : ∀ x ∈ convertible, decimalFactor x ≠ 0 := by decide +kernel
  have hin : "in" ∈ UnitGroup.length.units := by decide
  have hpt : "pt" ∈ UnitGroup.length.units := by decide
  have honly : ∀ x ∈ UnitGroup.length.units, x ≠ "in" → inchRate.exponent x = 0 := by decide
  obtain ⟨hquantity, -, hback⟩ := convertWith_keeps_quantity hfactor 3 inchRate
  exact ⟨⟨hfactor, hin, hpt, honly⟩, hquantity .canonical,
    (hback .length "in" "pt" hin hpt).2 honly⟩

end Units

end Cascade
