import Cascade.Proofs.Units.Conversion

/-!
# Strict sums

Under strict units a sum or difference compares texts: the second dimension is converted to the
units of the first, and then both units have to be written in the same way.  The text of a unit
says what stands above and below the line as long as no name is empty or contains one of the signs
between the names (`Units.eq_of_text_eq`): splitting the text at the slashes and its first part at
the stars gives the names back.

A conversion brings in names of the tables only, and those are plain, so that the converted unit is
known from its text as well (`Dimension.hasPlainNames_convert`).  Since conversions conserve the
dimension in each group and all names of no group, units that are written in the same way after the
conversion had the same signature before it (`Units.SameSignature`).
-/

namespace Cascade

/-- A name that can be read back from the text of a unit: it is not empty and contains none of the
signs between the names. -/
def IsPlainName (name : String) : Prop :=
  name ≠ "" ∧ '*' ∉ name.toList ∧ '/' ∉ name.toList

instance (name : String) : Decidable (IsPlainName name) :=
  inferInstanceAs (Decidable (_ ∧ _))

/-- The units of the groups have plain names. -/
lemma UnitGroup.isPlainName_of_mem {g : UnitGroup} {x : String} (hx : x ∈ g.units) :
    IsPlainName x := by
  have hall : ∀ g : UnitGroup, ∀ y ∈ g.units, IsPlainName y := by
    intro g
    cases g <;> decide
  exact hall g x hx

namespace Units

/-- Every name above and below the line is plain. -/
def HasPlainNames (u : Units) : Prop :=
  ∀ x ∈ u.numerator.toList ++ u.denominator.toList, IsPlainName x

instance (u : Units) : Decidable u.HasPlainNames :=
  inferInstanceAs (Decidable (∀ x ∈ _, _))

/-! ### Reading the text of a unit -/

/-- The characters of a product of names. -/
def productChars (names : List String) : List Char :=
  ['*'].intercalate (names.map String.toList)

/-- Names that are written after a sign each, behind a first text, are the texts with the sign
between them. -/
lemma append_flatMap_eq_intercalate (sign : Char) (first : List Char) (rest : List (List Char)) :
    first ++ rest.flatMap (sign :: ·) = [sign].intercalate (first :: rest) := by
  induction rest generalizing first with
  | nil => simp
  | cons next rest ih =>
    rw [List.intercalate_cons_cons, ← ih next]
    simp

/-- A product starts with its first name. -/
lemma productChars_cons (name : String) (rest : List String) :
    productChars (name :: rest) =
      name.toList ++ (rest.map String.toList).flatMap ('*' :: ·) :=
  (append_flatMap_eq_intercalate '*' name.toList (rest.map String.toList)).symm

/-- The text of a unit: products with slashes between them. -/
lemma toList_text (u : Units) :
    u.text.toList =
      ['/'].intercalate (productChars u.numerator.toList ::
        u.denominator.toList.map String.toList) := by
  rw [← append_flatMap_eq_intercalate, text, String.toList_append, String.toList_intercalate,
    String.toList_join, List.flatMap_map, List.flatMap_map]
  simp [productChars]

/-- No slash stands in a product of plain names. -/
lemma slash_notMem_productChars {names : List String} (h : ∀ x ∈ names, IsPlainName x) :
    '/' ∉ productChars names := by
  cases names with
  | nil => exact List.not_mem_nil
  | cons name rest =>
    rw [productChars_cons, List.mem_append, not_or]
    refine ⟨(h name List.mem_cons_self).2.2, fun hslash => ?_⟩
    obtain ⟨chars, hchars, hslash⟩ := List.mem_flatMap.1 hslash
    obtain ⟨x, hx, rfl⟩ := List.mem_map.1 hchars
    rcases List.mem_cons.1 hslash with hsign | hslash
    · exact absurd hsign (by decide)
    · exact (h x (List.mem_cons_of_mem _ hx)).2.2 hslash

/-- A product of plain names is empty only if it has no names. -/
lemma productChars_eq_nil_iff {names : List String} (h : ∀ x ∈ names, IsPlainName x) :
    productChars names = [] ↔ names = [] := by
  cases names with
  | nil => exact iff_of_true rfl rfl
  | cons name rest =>
    have hname : name.toList ≠ [] := fun hnil =>
      (h name List.mem_cons_self).1 (String.toList_eq_nil_iff.1 hnil)
    refine iff_of_false (fun hnil => hname ?_) (List.cons_ne_nil _ _)
    rw [productChars_cons] at hnil
    exact (List.append_eq_nil_iff.1 hnil).1

/-- Splitting at the stars gives the names of a product back. -/
lemma splitOn_productChars {names : List String} (h : ∀ x ∈ names, IsPlainName x)
    (hne : names ≠ []) : (productChars names).splitOn '*' = names.map String.toList := by
  refine List.splitOn_intercalate '*' (fun chars hchars => ?_) (by simpa using hne)
  obtain ⟨x, hx, rfl⟩ := List.mem_map.1 hchars
  exact (h x hx).2.1

/-- Names are known from their characters. -/
lemma map_toList_injective : Function.Injective (List.map String.toList) :=
  List.map_injective_iff.2 fun _ _ => String.toList_injective

/-- A product of plain names is known from its characters. -/
lemma eq_of_productChars_eq {names names' : List String} (h : ∀ x ∈ names, IsPlainName x)
    (h' : ∀ x ∈ names', IsPlainName x) (heq : productChars names = productChars names') :
    names = names' := by
  by_cases hne : names = []
  · have hnil := (productChars_eq_nil_iff h).2 hne
    rw [heq, productChars_eq_nil_iff h'] at hnil
    rw [hne, hnil]
  · have hne' : names' ≠ [] := by
      rwa [ne_eq, ← productChars_eq_nil_iff h', ← heq, productChars_eq_nil_iff h]
    refine map_toList_injective ?_
    rw [← splitOn_productChars h hne, ← splitOn_productChars h' hne', heq]

/-- Splitting at the slashes gives what stands above the line and each name below it. -/
lemma HasPlainNames.splitOn_text {u : Units} (h : u.HasPlainNames) :
    u.text.toList.splitOn '/' =
      productChars u.numerator.toList :: u.denominator.toList.map String.toList := by
  rw [toList_text]
  refine List.splitOn_intercalate '/' (fun chars hchars => ?_) (List.cons_ne_nil _ _)
  rcases List.mem_cons.1 hchars with rfl | hchars
  · exact slash_notMem_productChars fun x hx => h x (List.mem_append_left _ hx)
  · obtain ⟨x, hx, rfl⟩ := List.mem_map.1 hchars
    exact (h x (List.mem_append_right _ hx)).2.2

/-- Units with plain names that are written in the same way have the same names above and below
the line. -/
theorem eq_of_text_eq {u v : Units} (hu : u.HasPlainNames) (hv : v.HasPlainNames)
    (h : u.text = v.text) :
    u.numerator.toList = v.numerator.toList ∧ u.denominator.toList = v.denominator.toList := by
  have hparts := hu.splitOn_text
  rw [h, hv.splitOn_text] at hparts
  obtain ⟨habove, hbelow⟩ := List.cons.inj hparts
  refine ⟨?_, map_toList_injective hbelow.symm⟩
  exact eq_of_productChars_eq (fun x hx => hu x (List.mem_append_left _ hx))
    (fun x hx => hv x (List.mem_append_left _ hx)) habove.symm

/-! ### Signatures -/

/-- Two units measure the same kind of quantity: they have the same dimension in each group, and
the same exponent of every name of no group. -/
structure SameSignature (u v : Units) : Prop where
  dimension_eq : ∀ g, u.dimension g = v.dimension g
  exponent_eq : ∀ x, (∀ g, x ∉ UnitGroup.units g) → u.exponent x = v.exponent x

/-- The signature of a unit stays when it is converted. -/
lemma ConvertedBy.sameSignature {c : Conversion} {u r : Units} (h : ConvertedBy c u r) :
    SameSignature r u where
  dimension_eq := h.dimension_eq
  exponent_eq x hx := h.kept x fun g _ _ => hx g

/-- The exponents of a unit are known from its names. -/
lemma exponent_eq_of_toList_eq {u v : Units} (habove : u.numerator.toList = v.numerator.toList)
    (hbelow : u.denominator.toList = v.denominator.toList) (x : String) :
    u.exponent x = v.exponent x := by
  rw [exponent, exponent, habove, hbelow]

/-- A name of a reduced unit has an exponent. -/
lemma IsReduced.exponent_ne_zero {u : Units} (h : u.IsReduced) {x : String}
    (hx : x ∈ u.numerator.toList ++ u.denominator.toList) : u.exponent x ≠ 0 := by
  have hzero := h.count_eq_zero x
  have hcount : 0 < u.numerator.toList.count x ∨ 0 < u.denominator.toList.count x :=
    (List.mem_append.1 hx).imp List.count_pos_iff.2 List.count_pos_iff.2
  unfold exponent
  omega

/-- What has an exponent is a name of the unit. -/
lemma mem_of_exponent_ne_zero {u : Units} {x : String} (hx : u.exponent x ≠ 0) :
    x ∈ u.numerator.toList ++ u.denominator.toList := by
  by_contra hmem
  rw [List.mem_append, not_or] at hmem
  refine hx ?_
  rw [exponent, List.count_eq_zero.2 hmem.1, List.count_eq_zero.2 hmem.2]
  rfl

/-- The units that are used give each group at most one target. -/
lemma nodup_used (u : Units) : (u.used.map Prod.fst).Nodup := by
  have hsub : (u.used.map Prod.fst).Sublist UnitGroup.all := by
    unfold used
    induction UnitGroup.all with
    | nil => exact .slnil
    | cons g rest ih =>
      rw [List.filterMap_cons]
      split
      · exact ih.cons g
      · rename_i entry hentry
        obtain ⟨atom, -, rfl⟩ := Option.map_eq_some_iff.1 hentry
        exact ih.cons_cons g
  exact hsub.nodup (by decide)

end Units

namespace Dimension

/-- A conversion leaves names that were there and brings in units of the groups, so plain names
stay plain. -/
lemma hasPlainNames_convert {c : Conversion} (hc : (c.map Prod.fst).Nodup) {d : Dimension}
    (h : d.units.HasPlainNames) : (d.convert c).units.HasPlainNames := by
  intro x hx
  by_cases hgroup : ∃ g, x ∈ UnitGroup.units g
  · obtain ⟨g, hxg⟩ := hgroup
    exact UnitGroup.isPlainName_of_mem hxg
  · have hkept : (d.convert c).units.exponent x = d.units.exponent x :=
      (convertedBy_convert hc d).kept x fun g _ _ hxg => hgroup ⟨g, hxg⟩
    have hexponent := (isReduced_convert c d).exponent_ne_zero hx
    rw [hkept] at hexponent
    exact h x (Units.mem_of_exponent_ne_zero hexponent)

/-- What a strict sum of two dimensions with units has checked. -/
lemma text_convert_of_addLike {operator : Operator} {a b d : Dimension}
    (ha : a.units.isEmpty = false) (hb : b.units.isEmpty = false)
    (h : addLike true operator a b = .ok d) :
    (b.convert a.units.used).units.text = a.units.text := by
  by_contra hne
  rw [addLike, if_neg (by simp [ha]), if_neg (by simp [hb])] at h
  simp [hne] at h

/-- Strict sums and differences are sound: if two dimensions with units of plain names are added or
subtracted, their units have the same signature, however many names stand above and below the
line. -/
theorem sameSignature_of_operate_strict {a b d : Dimension} {operator : Operator}
    (hoperator : operator = .add ∨ operator = .sub)
    (hplain : a.units.HasPlainNames) (hplain' : b.units.HasPlainNames)
    (ha : a.units.isEmpty = false) (hb : b.units.isEmpty = false)
    (h : operate true operator a b = .ok d) : Units.SameSignature a.units b.units := by
  have hsum : addLike true operator a b = .ok d := by
    rcases hoperator with rfl | rfl
    · exact h
    · exact h
  have hnodup := Units.nodup_used a.units
  have hconverted := (convertedBy_convert hnodup b).sameSignature
  obtain ⟨habove, hbelow⟩ := Units.eq_of_text_eq (hasPlainNames_convert hnodup hplain') hplain
    (text_convert_of_addLike ha hb hsum)
  -- the unit of the first is that of the converted second, name by name
  have hexponent : ∀ x, a.units.exponent x = (b.convert a.units.used).units.exponent x :=
    fun x => (Units.exponent_eq_of_toList_eq habove hbelow x).symm
  constructor
  · intro g
    calc a.units.dimension g
        = (b.convert a.units.used).units.dimension g :=
          Finset.sum_congr rfl fun x _ => hexponent x
      _ = b.units.dimension g := hconverted.dimension_eq g
  · intro x hx
    calc a.units.exponent x
        = (b.convert a.units.used).units.exponent x := hexponent x
      _ = b.units.exponent x := hconverted.exponent_eq x hx

/-- A rate over the square of a duration, in metric units. -/
def metricRate : Dimension :=
  ⟨3.0, .ofParts ["em", "cm"] ["s", "s"] ""⟩

/-- A rate with lengths on both sides of the line and durations in two units. -/
def mixedRate : Dimension :=
  ⟨8.0, .ofParts ["em", "in", "px"] ["ms", "mm", "s"] ""⟩

/-- The difference of the two rates is admitted: two lengths above the line and one below are one,
and two durations below the line are two. -/
theorem sameSignature_metricRate_mixedRate :
    (metricRate.units.HasPlainNames ∧ mixedRate.units.HasPlainNames ∧
      metricRate.units.isEmpty = false ∧ mixedRate.units.isEmpty = false ∧
      ∃ d, operate true .sub metricRate mixedRate = .ok d) ∧
    Units.SameSignature metricRate.units mixedRate.units := by
  have hplain : metricRate.units.HasPlainNames := by decide +kernel
  have hplain' : mixedRate.units.HasPlainNames := by decide +kernel
  have htext : (mixedRate.convert metricRate.units.used).units.text = metricRate.units.text := by
    decide +kernel
  have hdifference : operate true .sub metricRate mixedRate =
      .ok ⟨metricRate.value - (mixedRate.convert metricRate.units.used).value,
        metricRate.units⟩ := by
    rw [operate, addLike, if_neg (by decide), if_neg (by decide)]
    exact if_neg fun hdiffer => hdiffer.2 htext
  exact ⟨⟨hplain, hplain', rfl, rfl, _, hdifference⟩,
    sameSignature_of_operate_strict (.inr rfl) hplain hplain' rfl rfl hdifference⟩

end Dimension

end Cascade
