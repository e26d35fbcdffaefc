import Mathlib.Data.List.Count
import Mathlib.Tactic.Lemma
import Cascade.Units.Basic

/-!
# Units as signed exponents

A unit is read through `Units.exponent`: how often each name stands above the line less how often
it stands below.  Products add exponents, quotients subtract them, and cancelling keeps them
(`Units.exponent_multiply`, `Units.exponent_divide`, `Units.exponent_cancel`).

A reduced unit (`Units.IsReduced`) is known from its exponents and its backup name alone
(`Units.IsReduced.eq_of_exponent_eq`): on each side of the line the exponents say how often every
name occurs, and an ordered list is known from the number of occurrences.  All three operations
give reduced units, so that the laws of integers become equations between units.
-/

namespace Cascade

/-! ### Ordered products -/

namespace Atoms

/-- An ordered product is known from the number of occurrences of each name. -/
theorem eq_of_count_eq {a b : Atoms} (h : ∀ x, a.toList.count x = b.toList.count x) : a = b := by
  have hlists : a.toList = b.toList :=
    (List.perm_iff_count.2 h).eq_of_pairwise (fun _ _ _ _ => String.le_antisymm) a.ordered b.ordered
  cases a
  cases b
  cases hlists
  rfl

/-- Ordering a list keeps its names. -/
lemma perm_ofList (names : List String) : (ofList names).toList.Perm names := by
  induction names with
  | nil => exact .refl _
  | cons a rest ih =>
    have hrest : (ofList rest).toList.Perm rest := ih
    exact List.perm_middle.trans (((List.filter_append_perm _ _).trans hrest).cons a)

/-- Ordering does not change how often a name occurs. -/
@[simp] lemma count_ofList (names : List String) (x : String) :
    (ofList names).toList.count x = names.count x :=
  (perm_ofList names).count_eq x

/-- A product has the occurrences of both factors. -/
@[simp] lemma count_append (a b : Atoms) (x : String) :
    (a.append b).toList.count x = a.toList.count x + b.toList.count x := by
  rw [append, count_ofList, List.count_append]

/-- Occurrences are taken away one for one, as long as there are some. -/
@[simp] lemma count_subtract (a b : Atoms) (x : String) :
    (a.subtract b).toList.count x = a.toList.count x - b.toList.count x := by
  rw [subtract, count_ofList, ← List.diff_eq_foldl, List.count_diff]

end Atoms

/-! ### Reduced units -/

namespace Units

/-- A unit in lowest terms: both products are in alphabetical order, and no name stands on both
sides of the line. -/
structure IsReduced (u : Units) : Prop where
  numerator_ordered : u.numerator.toList.Pairwise (· ≤ ·)
  denominator_ordered : u.denominator.toList.Pairwise (· ≤ ·)
  disjoint : u.numerator.toList.Disjoint u.denominator.toList

namespace IsReduced

variable {u v : Units}

/-- A name of a reduced unit is missing above the line or below it. -/
lemma count_eq_zero (h : u.IsReduced) (x : String) :
    u.numerator.toList.count x = 0 ∨ u.denominator.toList.count x = 0 := by
  by_cases hx : x ∈ u.numerator.toList
  · exact .inr (List.count_eq_zero.2 (h.disjoint hx))
  · exact .inl (List.count_eq_zero.2 hx)

/-- A reduced unit is known from its exponents and its backup name. -/
theorem eq_of_exponent_eq (hu : u.IsReduced) (hv : v.IsReduced)
    (hexponent : ∀ x, u.exponent x = v.exponent x) (hbackup : u.backup = v.backup) : u = v := by
  -- one of the two counts is zero, so the exponent is one count or the other with a sign
  have hcounts : ∀ x, u.numerator.toList.count x = v.numerator.toList.count x ∧
      u.denominator.toList.count x = v.denominator.toList.count x := by
    intro x
    have hx := hexponent x
    have hzero := hu.count_eq_zero x
    have hzero' := hv.count_eq_zero x
    unfold exponent at hx
    omega
  have hnumerator : u.numerator = v.numerator := Atoms.eq_of_count_eq fun x => (hcounts x).1
  have hdenominator : u.denominator = v.denominator := Atoms.eq_of_count_eq fun x => (hcounts x).2
  cases u
  cases v
  cases hnumerator
  cases hdenominator
  cases hbackup
  rfl

end IsReduced

/-! ### Cancelling, products and quotients -/

/-- Names that cancel each other do not count. -/
@[simp] lemma exponent_cancel (u : Units) (x : String) : u.cancel.exponent x = u.exponent x := by
  simp only [exponent, cancel, Atoms.count_subtract]
  omega

/-- Cancelling leaves no name on both sides of the line. -/
lemma isReduced_cancel (u : Units) : u.cancel.IsReduced where
  numerator_ordered := u.cancel.numerator.ordered
  denominator_ordered := u.cancel.denominator.ordered
  disjoint := by
    intro x habove hbelow
    have habove := List.count_pos_iff.2 habove
    have hbelow := List.count_pos_iff.2 hbelow
    simp only [cancel, Atoms.count_subtract] at habove hbelow
    omega

/-- A product adds exponents. -/
@[simp] lemma exponent_multiply (u v : Units) (x : String) :
    (u.multiply v).exponent x = u.exponent x + v.exponent x := by
  rw [multiply, exponent_cancel]
  simp only [exponent, Atoms.count_append]
  omega

/-- A quotient subtracts exponents. -/
@[simp] lemma exponent_divide (u v : Units) (x : String) :
    (u.divide v).exponent x = u.exponent x - v.exponent x := by
  rw [divide, exponent_cancel]
  simp only [exponent, Atoms.count_append]
  omega

/-- Products are reduced. -/
lemma isReduced_multiply (u v : Units) : (u.multiply v).IsReduced :=
  isReduced_cancel _

/-- Quotients are reduced. -/
lemma isReduced_divide (u v : Units) : (u.divide v).IsReduced :=
  isReduced_cancel _

/-- Another backup name does not matter for being reduced. -/
lemma IsReduced.setBackup {u : Units} (h : u.IsReduced) (name : String) :
    { u with backup := name }.IsReduced :=
  ⟨h.numerator_ordered, h.denominator_ordered, h.disjoint⟩

/-- A second cancelling finds nothing. -/
lemma cancel_cancel (u : Units) : u.cancel.cancel = u.cancel :=
  (isReduced_cancel _).eq_of_exponent_eq (isReduced_cancel u) (exponent_cancel _) rfl

/-- The factors of a product may be exchanged, but for the backup name. -/
lemma multiply_comm (u v : Units) :
    v.multiply u = { u.multiply v with backup := v.backup } := by
  refine (isReduced_multiply v u).eq_of_exponent_eq ((isReduced_multiply u v).setBackup _) ?_ rfl
  intro x
  calc (v.multiply u).exponent x
      = v.exponent x + u.exponent x := exponent_multiply v u x
    _ = u.exponent x + v.exponent x := Int.add_comm _ _
    _ = (u.multiply v).exponent x := (exponent_multiply u v x).symm

/-- A product of three units does not depend on where it begins. -/
lemma multiply_assoc (u v w : Units) :
    (u.multiply v).multiply w = u.multiply (v.multiply w) := by
  refine (isReduced_multiply _ w).eq_of_exponent_eq (isReduced_multiply u _) ?_ rfl
  intro x
  simp only [exponent_multiply, Int.add_assoc]

/-- Dividing by a factor undoes the product, up to what cancels. -/
lemma divide_multiply (u v : Units) : (u.multiply v).divide v = u.cancel := by
  refine (isReduced_divide _ v).eq_of_exponent_eq (isReduced_cancel u) ?_ rfl
  intro x
  rw [exponent_divide, exponent_multiply, exponent_cancel, Int.add_sub_cancel]

/-- Units are multiplied and divided by adding and subtracting the exponents of all names, whatever
names stand on either side of the line and however often.  The results are reduced and keep the
backup name of the first unit.  So cancelling twice is cancelling once, products are commutative
but for the backup name, and associative, and dividing by a factor undoes a product. -/
theorem arithmetic_of_exponents (u v : Units) :
    (∀ x, (u.multiply v).exponent x = u.exponent x + v.exponent x) ∧
    (∀ x, (u.divide v).exponent x = u.exponent x - v.exponent x) ∧
    (∀ x, u.cancel.exponent x = u.exponent x) ∧
    ((u.multiply v).IsReduced ∧ (u.multiply v).backup = u.backup) ∧
    ((u.divide v).IsReduced ∧ (u.divide v).backup = u.backup) ∧
    (u.cancel.IsReduced ∧ u.cancel.backup = u.backup) ∧
    u.cancel.cancel = u.cancel ∧
    v.multiply u = { u.multiply v with backup := v.backup } ∧
    (∀ w, (u.multiply v).multiply w = u.multiply (v.multiply w)) ∧
    (u.multiply v).divide v = u.cancel := by
  refine ⟨exponent_multiply u v, exponent_divide u v, exponent_cancel u, ⟨?_, rfl⟩, ⟨?_, rfl⟩,
    ⟨?_, rfl⟩, cancel_cancel u, multiply_comm u v, multiply_assoc u v, divide_multiply u v⟩
  · exact isReduced_multiply u v
  · exact isReduced_divide u v
  · exact isReduced_cancel u

end Units

end Cascade
