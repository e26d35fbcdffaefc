import Mathlib.Algebra.BigOperators.Group.Finset.Basic
import Mathlib.Algebra.Order.BigOperators.Group.Finset
import Mathlib.Algebra.Group.Action.Defs
import Cascade.Proofs.Arithmetic.Indeterminate
import Cascade.Proofs.Arithmetic.Scaling
import Cascade.Proofs.Units.Signature

/-!
# Sums of dimensions of one unit

Before two dimensions are added, the second one is converted to the units that the first one uses:
of each group the first that occurs.  If no group has two units in the unit of both, this changes
nothing: every name is replaced by itself, and the value is scaled by one
(`Dimension.convert_used_of_isUniform`).

Otherwise a unit of the group is lost in the conversion, and this is seen in the text of the unit,
whatever the other names look like: the lost name stands among the words between the signs of the
text less often than before (`Units.count_words_text`).  So strict units refuse the sum.
-/

namespace Cascade

/-! ### Units with one unit of each group -/

namespace Units

/-- The names of a unit, above and below the line. -/
def names (u : Units) : List String :=
  u.numerator.toList ++ u.denominator.toList

/-- No two units of one group occur in a unit. -/
def IsUniform (u : Units) : Prop :=
  ∀ g : UnitGroup, ∀ x ∈ u.names, ∀ y ∈ u.names, x ∈ g.units → y ∈ g.units → x = y

instance (u : Units) : Decidable u.IsUniform :=
  decidable_of_iff
    (∀ g ∈ UnitGroup.all, ∀ x ∈ u.names, ∀ y ∈ u.names, x ∈ g.units → y ∈ g.units → x = y)
    ⟨fun h g => h g (UnitGroup.mem_all g), fun h g _ => h g⟩

/-- The units that are used are names of the unit, each of its group. -/
lemma of_mem_used {u : Units} {g : UnitGroup} {t : String} (h : (g, t) ∈ u.used) :
    t ∈ u.names ∧ t ∈ g.units := by
  obtain ⟨g', -, hfound⟩ := List.mem_filterMap.1 h
  obtain ⟨t', hfind, heq⟩ := Option.map_eq_some_iff.1 hfound
  obtain ⟨rfl, rfl⟩ := Prod.mk.inj heq
  have hsome : (g'.factor t').isSome := by simpa using List.find?_some hfind
  exact ⟨List.mem_of_find?_eq_some hfind, UnitGroup.isSome_factor_iff.1 hsome⟩

/-- A group with a unit among the names is converted to the units that are used. -/
lemma exists_converts_used {u : Units} {g : UnitGroup} {x : String} (hx : x ∈ u.names)
    (hg : x ∈ g.units) : ∃ t, u.used.Converts g t := by
  have hsome : (u.names.find? fun atom => (g.factor atom).isSome).isSome :=
    List.find?_isSome.2 ⟨x, hx, UnitGroup.isSome_factor_iff.2 hg⟩
  obtain ⟨t, ht⟩ := Option.isSome_iff_exists.1 hsome
  have hused : (g, t) ∈ u.used :=
    List.mem_filterMap.2 ⟨g, UnitGroup.mem_all g, congrArg (Option.map _) ht⟩
  exact ⟨t, hused, (of_mem_used hused).2⟩

/-- A reduced unit has nothing to cancel. -/
lemma IsReduced.cancel_eq {u : Units} (h : u.IsReduced) : u.cancel = u :=
  (isReduced_cancel u).eq_of_exponent_eq h (exponent_cancel u) rfl

end Units

/-! ### Conversions that change nothing -/

/-- Replacing every name by itself changes nothing. -/
lemma Atoms.map_eq_self {f : String → String} {a : Atoms} (h : ∀ x ∈ a.toList, f x = x) :
    a.map f = a := by
  refine Atoms.eq_of_count_eq fun x => ?_
  rw [Atoms.map, Atoms.count_ofList, List.map_congr_left h, List.map_id']

/-- The factor of a unit over itself is one. -/
lemma UnitGroup.div_self_of_factor {g : UnitGroup} {x : String} {f : Float}
    (h : g.factor x = some f) : f / f = 1.0 := by
  have hall : ∀ p ∈ g.table, p.2 / p.2 = 1.0 := by cases g <;> decide +kernel
  exact hall (x, f) (mem_of_factor h)

namespace Units

/-- A value is not scaled where every name with a factor has that of the target. -/
lemma rescale_eq_self {factor : String → Option Float} {t : Float} (ht : t / t = 1.0)
    (below : Bool) (value : Float) {names : List String}
    (h : ∀ x ∈ names, ∀ f, factor x = some f → f = t) :
    rescale factor t below value names = value := by
  induction names with
  | nil => rfl
  | cons x rest ih =>
    obtain ⟨hx, hrest⟩ := List.forall_mem_cons.1 h
    rw [rescale]
    cases hfactor : factor x with
    | none => exact ih hrest
    | some f =>
      have hscaled : (if below then value / (f / t) else value * (f / t)) = value := by
        rw [hx f hfactor, ht, float_mul_one, float_div_one, ite_self]
      dsimp only
      rw [hscaled]
      exact ih hrest

/-- Converting a group changes nothing if its target is the only one of its units that occurs. -/
lemma convertGroup_eq_self {g : UnitGroup} {t : String} (ht : t ∈ g.units) {u : Units}
    (h : ∀ x ∈ u.names, x ∈ g.units → x = t) (value : Float) :
    convertGroup g.factor t value u = (value, u) := by
  obtain ⟨f, hf⟩ := Option.isSome_iff_exists.1 (UnitGroup.isSome_factor_iff.2 ht)
  have hone := UnitGroup.div_self_of_factor hf
  have hfactor : ∀ x ∈ u.names, ∀ f', g.factor x = some f' → f' = f := by
    intro x hx f' hf'
    have hxt := h x hx (UnitGroup.isSome_factor_iff.1 (Option.isSome_of_eq_some hf'))
    rw [hxt, hf] at hf'
    exact (Option.some.inj hf').symm
  have hname : ∀ x ∈ u.names, (if (g.factor x).isSome then t else x) = x := by
    intro x hx
    split
    next hsome => exact (h x hx (UnitGroup.isSome_factor_iff.1 hsome)).symm
    next => rfl
  have habove : ∀ {x}, x ∈ u.numerator.toList → x ∈ u.names := List.mem_append_left _
  have hbelow : ∀ {x}, x ∈ u.denominator.toList → x ∈ u.names := List.mem_append_right _
  have hatoms : u.mapAtoms (fun _ atom => if (g.factor atom).isSome then t else atom) = u := by
    rw [mapAtoms, Atoms.map_eq_self fun x hx => hname x (habove hx),
      Atoms.map_eq_self fun x hx => hname x (hbelow hx)]
  unfold convertGroup
  rw [hf]
  dsimp only
  rw [hatoms, rescale_eq_self hone false value fun x hx => hfactor x (habove hx),
    rescale_eq_self hone true value fun x hx => hfactor x (hbelow hx)]

/-- Converting to targets that are the only units of their groups changes nothing. -/
lemma convertGroups_eq_self {u : Units} {c : Conversion}
    (h : ∀ g t, (g, t) ∈ c → t ∈ g.units ∧ ∀ x ∈ u.names, x ∈ g.units → x = t) (value : Float) :
    convertGroups UnitGroup.factor value u c = (value, u) := by
  induction c with
  | nil => rfl
  | cons entry rest ih =>
    obtain ⟨g, t⟩ := entry
    obtain ⟨ht, honly⟩ := h g t List.mem_cons_self
    rw [convertGroups, convertGroup_eq_self ht honly]
    exact ih fun g' t' hmem => h g' t' (List.mem_cons_of_mem _ hmem)

end Units

/-- A dimension in a uniform unit is converted to itself by the units that it uses: nothing is
renamed and nothing is rescaled. -/
theorem Dimension.convert_used_of_isUniform {d : Dimension} (hreduced : d.units.IsReduced)
    (huniform : d.units.IsUniform) : d.convert d.units.used = d := by
  have hgroups : Units.convertGroups UnitGroup.factor d.value d.units d.units.used =
      (d.value, d.units) := by
    refine Units.convertGroups_eq_self (fun g t hmem => ?_) d.value
    obtain ⟨hname, ht⟩ := Units.of_mem_used hmem
    exact ⟨ht, fun x hx hxg => huniform g x hx t hname hxg ht⟩
  unfold Dimension.convert Units.convertWith
  rw [hgroups]
  dsimp only
  rw [hreduced.cancel_eq]

/-! ### Words of a text -/

namespace Units

/-- Whether a character stands between the names of a unit. -/
def isSign (c : Char) : Bool :=
  c == '*' || c == '/'

/-- What stands between the signs of a text. -/
def words (text : List Char) : List (List Char) :=
  text.splitOnP isSign

/-- The words of texts that are written after a sign each. -/
lemma words_append_flatMap {sign : Char} (hsign : isSign sign) (first : List Char)
    (rest : List (List Char)) :
    words (first ++ rest.flatMap (sign :: ·)) = words first ++ rest.flatMap words := by
  induction rest generalizing first with
  | nil => simp
  | cons next rest ih =>
    rw [List.flatMap_cons, List.flatMap_cons, List.cons_append, ← ih next]
    exact List.splitOnP_append_cons first _ hsign

/-- The words of the text of a unit are those of its names, but for empty ones. -/
lemma count_words_text (u : Units) {word : List Char} (hword : word ≠ []) :
    (words u.text.toList).count word =
      (u.names.flatMap fun name => words name.toList).count word := by
  have hproduct : (words (productChars u.numerator.toList)).count word =
      (u.numerator.toList.flatMap fun name => words name.toList).count word := by
    cases u.numerator.toList with
    | nil =>
      have hempty : words (productChars []) = [[]] := rfl
      rw [hempty, List.count_singleton]
      simpa using hword
    | cons name rest =>
      rw [productChars_cons, words_append_flatMap rfl, List.flatMap_map, List.flatMap_cons]
  rw [toList_text, ← append_flatMap_eq_intercalate, words_append_flatMap rfl, List.flatMap_map,
    List.count_append, hproduct, names, List.flatMap_append, List.count_append]

/-- A plain name is the only word in it. -/
lemma words_of_isPlainName {name : String} (h : IsPlainName name) :
    words name.toList = [name.toList] := by
  refine List.splitOnP_eq_singleton fun c hc => ?_
  have hstar : c ≠ '*' := fun heq => h.2.1 (heq ▸ hc)
  have hslash : c ≠ '/' := fun heq => h.2.2 (heq ▸ hc)
  simp [isSign, hstar, hslash]

/-- How often a name occurs in a reduced unit. -/
lemma IsReduced.count_names {u : Units} (h : u.IsReduced) (x : String) :
    u.names.count x = (u.exponent x).natAbs := by
  have hzero := h.count_eq_zero x
  rw [names, List.count_append, exponent]
  omega

/-- How often a word stands in the text of a reduced unit, from the exponents. -/
lemma IsReduced.count_words_text {u : Units} (h : u.IsReduced) {word : List Char}
    (hword : word ≠ []) {s : Finset String} (hs : u.names.toFinset ⊆ s) :
    (words u.text.toList).count word =
      ∑ name ∈ s, (u.exponent name).natAbs * (words name.toList).count word := by
  rw [Units.count_words_text u hword, List.count_flatMap, Finset.sum_list_map_count]
  simp only [h.count_names, smul_eq_mul, Function.comp_apply]
  refine Finset.sum_subset hs fun name _ hname => ?_
  have hexponent : (u.exponent name).natAbs = 0 := by
    rw [← h.count_names, List.count_eq_zero]
    simpa using hname
  rw [hexponent, Nat.zero_mul]

/-- A unit of a group that a conversion takes away is missed in the text: the name is a word of its
own, and no other name that the conversion changes has it as a word. -/
lemma ConvertedBy.text_ne {c : Conversion} {u r : Units} (h : ConvertedBy c u r)
    (hu : u.IsReduced) (hr : r.IsReduced) {g : UnitGroup} {t x : String} (ht : c.Converts g t)
    (hx : x ∈ u.names) (hxg : x ∈ g.units) (hne : x ≠ t) : r.text ≠ u.text := by
  have hplain := UnitGroup.isPlainName_of_mem hxg
  have hword : x.toList ≠ [] := fun hnil => hplain.1 (String.toList_eq_nil_iff.1 hnil)
  have hlost : r.exponent x = 0 := h.other g t x ht hxg hne
  have hpos : 0 < (u.exponent x).natAbs := Int.natAbs_pos.2 (hu.exponent_ne_zero hx)
  have hown : (words x.toList).count x.toList = 1 := by
    rw [words_of_isPlainName hplain, List.count_singleton_self]
  have hfewer : (words r.text.toList).count x.toList < (words u.text.toList).count x.toList := by
    have hnames : u.names.toFinset ⊆ u.names.toFinset ∪ r.names.toFinset :=
      Finset.subset_union_left
    rw [hu.count_words_text hword hnames, hr.count_words_text hword Finset.subset_union_right]
    refine Finset.sum_lt_sum (fun name _ => ?_) ⟨x, ?_, ?_⟩
    · by_cases hgroup : ∃ g t, c.Converts g t ∧ name ∈ UnitGroup.units g
      · obtain ⟨g', t', -, hname⟩ := hgroup
        rw [words_of_isPlainName (UnitGroup.isPlainName_of_mem hname)]
        by_cases heq : name = x
        · rw [heq, hlost, Int.natAbs_zero, Nat.zero_mul]
          exact Nat.zero_le _
        · have hother : [name.toList].count x.toList = 0 :=
            List.count_eq_zero.2 fun hmem =>
              heq (String.toList_injective (List.mem_singleton.1 hmem).symm)
          rw [hother]
          exact Nat.le_refl _
      · rw [h.kept name fun g t ht hname => hgroup ⟨g, t, ht, hname⟩]
    · exact Finset.mem_union_left _ (List.mem_toFinset.2 hx)
    · rw [hlost, hown]
      simpa using hpos
  intro htext
  rw [htext] at hfewer
  exact Nat.lt_irrefl _ hfewer

/-- A unit that is written as before after a conversion to the units that it uses is uniform. -/
lemma isUniform_of_text_eq {u r : Units} (h : ConvertedBy u.used u r) (hu : u.IsReduced)
    (hr : r.IsReduced) (htext : r.text = u.text) : u.IsUniform := by
  have htarget : ∀ {g t x}, u.used.Converts g t → x ∈ u.names → x ∈ UnitGroup.units g → x = t := by
    intro g t x ht hx hxg
    by_contra hne
    exact h.text_ne hu hr ht hx hxg hne htext
  intro g x hx y hy hxg hyg
  obtain ⟨t, ht⟩ := exists_converts_used hx hxg
  rw [htarget ht hx hxg, htarget ht hy hyg]

end Units

/-! ### Adding and subtracting -/

namespace Dimension

/-- Sums and differences are the operations that add. -/
lemma operate_eq_addLike {operator : Operator} (h : operator = .add ∨ operator = .sub)
    (strict : Bool) (a b : Dimension) :
    operate strict operator a b = addLike strict operator a b := by
  rcases h with rfl | rfl
  · rw [operate]
  · rw [operate]

/-- Dimensions of one uniform unit are added as their values are. -/
lemma addLike_of_isUniform {u : Units} (hreduced : u.IsReduced) (hempty : u.isEmpty = false)
    (huniform : u.IsUniform) (strict : Bool) (operator : Operator) (x y : Float) :
    addLike strict operator ⟨x, u⟩ ⟨y, u⟩ = (operator.apply x y).map (⟨·, u⟩) := by
  have hsame : (⟨y, u⟩ : Dimension).convert u.used = ⟨y, u⟩ :=
    convert_used_of_isUniform (d := ⟨y, u⟩) hreduced huniform
  rw [addLike, if_neg (by simp [hempty]), if_neg (by simp [hempty])]
  dsimp only
  rw [hsame, if_neg fun hdiffer => hdiffer.2 rfl]
  cases operator.apply x y with
  | error e => rfl
  | ok value => rfl

/-- Dimensions of one reduced unit are added without a conversion exactly if no two units of one
group occur in it.  This holds of the unit of the converted second dimension, and of the strict
sums and differences: they succeed, in the same unit, for uniform units only.  Where the unit is
uniform, the second dimension is not changed at all, not even in its value. -/
theorem convert_used_eq_iff_isUniform (u : Units) (hreduced : u.IsReduced)
    (hempty : u.isEmpty = false) (x y : Float) :
    (((⟨y, u⟩ : Dimension).convert u.used).units = u ↔ u.IsUniform) ∧
    (∀ operator, operator = .add ∨ operator = .sub →
      ((∃ d, operate true operator ⟨x, u⟩ ⟨y, u⟩ = .ok d ∧ d.units = u) ↔ u.IsUniform)) ∧
    (u.IsUniform → (⟨y, u⟩ : Dimension).convert u.used = ⟨y, u⟩ ∧ ∀ strict,
      operate strict .add ⟨x, u⟩ ⟨y, u⟩ = .ok ⟨x + y, u⟩ ∧
      operate strict .sub ⟨x, u⟩ ⟨y, u⟩ = .ok ⟨x - y, u⟩) := by
  have hconverted : Units.ConvertedBy u.used u ((⟨y, u⟩ : Dimension).convert u.used).units :=
    convertedBy_convert (Units.nodup_used u) ⟨y, u⟩
  have huniform : ((⟨y, u⟩ : Dimension).convert u.used).units.text = u.text → u.IsUniform :=
    Units.isUniform_of_text_eq hconverted hreduced (isReduced_convert u.used ⟨y, u⟩)
  have hsame : u.IsUniform → (⟨y, u⟩ : Dimension).convert u.used = ⟨y, u⟩ :=
    convert_used_of_isUniform (d := ⟨y, u⟩) hreduced
  have hsum := addLike_of_isUniform hreduced hempty
  refine ⟨⟨fun h => huniform (by rw [h]), fun h => by rw [hsame h]⟩, ?_, fun h => ⟨hsame h, ?_⟩⟩
  · intro operator hoperator
    rw [operate_eq_addLike hoperator]
    constructor
    · rintro ⟨d, hd, -⟩
      exact huniform (text_convert_of_addLike (a := ⟨x, u⟩) (b := ⟨y, u⟩) hempty hempty hd)
    · intro h
      rw [hsum h]
      rcases hoperator with rfl | rfl
      · exact ⟨⟨x + y, u⟩, rfl, rfl⟩
      · exact ⟨⟨x - y, u⟩, rfl, rfl⟩
  · intro strict
    rw [operate_eq_addLike (.inl rfl), operate_eq_addLike (.inr rfl), hsum h, hsum h]
    exact ⟨rfl, rfl⟩

/-- The unit of a flow: an area over a duration. -/
def flow : Units :=
  .ofParts ["px", "px", "em"] ["s"] ""

/-- A flow in one unit of length and one of time is added as it is. -/
theorem convert_used_eq_iff_isUniform_flow :
    flow.IsReduced ∧ flow.isEmpty = false ∧ flow.IsUniform ∧
      operate true .sub ⟨3.0, flow⟩ ⟨1.0, flow⟩ = .ok ⟨3.0 - 1.0, flow⟩ := by
  have hreduced : flow.IsReduced :=
    ⟨flow.numerator.ordered, flow.denominator.ordered, List.disjoint_left.2 (by decide +kernel)⟩
  have huniform : flow.IsUniform := by decide +kernel
  exact ⟨hreduced, rfl, huniform,
    (((convert_used_eq_iff_isUniform flow hreduced rfl 3.0 1.0).2.2 huniform).2 true).2⟩

/-- The unit of the product of a centimetre and a millimetre. -/
def mixedArea : Units :=
  .ofParts ["cm", "mm"] [] ""

/-- Two areas of the same mixed unit are not added: the second one is converted to square
centimetres first, and then strict units refuse the sum.  Without strict units a tenth of the second
value is added, in the unit of the first. -/
theorem incompatible_mixedArea :
    mixedArea.IsReduced ∧ mixedArea.isEmpty = false ∧
    ((⟨1.0, mixedArea⟩ : Dimension).convert mixedArea.used).units = .ofParts ["cm", "cm"] [] "" ∧
    operate true .add ⟨1.0, mixedArea⟩ ⟨1.0, mixedArea⟩ =
      .error (.incompatibleUnits "cm*mm" "cm*cm") ∧
    operate false .add ⟨1.0, mixedArea⟩ ⟨1.0, mixedArea⟩ = .ok ⟨1.1, mixedArea⟩ := by
  have hreduced : mixedArea.IsReduced :=
    ⟨mixedArea.numerator.ordered, mixedArea.denominator.ordered,
      List.disjoint_left.2 (by decide +kernel)⟩
  have hconvert : (⟨1.0, mixedArea⟩ : Dimension).convert mixedArea.used =
      ⟨0.1, .ofParts ["cm", "cm"] [] ""⟩ := by decide +kernel
  have htext : mixedArea.text = "cm*mm" := by decide +kernel
  have htext' : (.ofParts ["cm", "cm"] [] "" : Units).text = "cm*cm" := by decide +kernel
  have hsum : (1.0 : Float) + 0.1 = 1.1 := by decide +kernel
  refine ⟨hreduced, rfl, by rw [hconvert], ?_, ?_⟩
  · rw [operate, addLike, if_neg (by decide), if_neg (by decide)]
    dsimp only
    rw [hconvert, htext, htext', if_pos ⟨rfl, by decide⟩]
  · rw [operate, addLike, if_neg (by decide), if_neg (by decide)]
    dsimp only
    rw [hconvert, if_neg (by simp), ← hsum]
    rfl

end Dimension

end Cascade
