import Mathlib.Algebra.BigOperators.Ring.Finset
import Cascade.Dimension
import Cascade.Proofs.Units.Exponents

/-!
# Conversion of units

Converting a unit renames all units of a group to one target, group by group, and cancels at the
end.  Seen through exponents (`Units.ConvertedBy`), the target of a group collects the exponents of
all units of that group, the other units of the group lose theirs, and everything else keeps its
exponent.  One renaming is of this form (`Units.convertedBy_convertGroup`), and renamings of
different groups do not disturb each other, since no unit belongs to two groups
(`Units.ConvertedBy.cons`).

The sum of the exponents of each group, its dimension, is thereby conserved
(`Units.ConvertedBy.dimension_eq`), so that a conversion overrules earlier conversions of the same
groups.
-/

namespace Cascade

namespace UnitGroup

/-- The units of a group. -/
def units (g : UnitGroup) : Finset String :=
  (g.table.map Prod.fst).toFinset

/-- The units of a group are those that have a factor. -/
lemma isSome_factor_iff {g : UnitGroup} {x : String} : (g.factor x).isSome ↔ x ∈ g.units := by
  rw [factor, List.lookup_isSome_iff, units, List.mem_toFinset, List.mem_map]
  simp only [beq_iff_eq, eq_comm (a := x)]

/-- No unit belongs to two groups. -/
lemma eq_of_mem_units {g h : UnitGroup} {x : String} (hg : x ∈ g.units) (hh : x ∈ h.units) :
    g = h := by
  cases g <;> cases h <;> simp [units, table] at hg hh <;> grind

/-- There are no groups besides those in the list. -/
lemma mem_all (g : UnitGroup) : g ∈ all := by
  cases g <;> decide

end UnitGroup

namespace Conversion

/-- A conversion gives a group a target that is one of its units. -/
def Converts (c : Conversion) (g : UnitGroup) (t : String) : Prop :=
  (g, t) ∈ c ∧ t ∈ g.units

end Conversion

namespace Units

/-- The dimension of a unit in a group: the sum of the exponents of its units. -/
def dimension (u : Units) (g : UnitGroup) : Int :=
  ∑ x ∈ g.units, u.exponent x

/-- The exponents after a conversion.  The target of a converted group has the exponents of all
units of the group, no other unit of it is left, and names of no converted group stay. -/
structure ConvertedBy (c : Conversion) (u r : Units) : Prop where
  target : ∀ g t, c.Converts g t → r.exponent t = u.dimension g
  other : ∀ g t x, c.Converts g t → x ∈ g.units → x ≠ t → r.exponent x = 0
  kept : ∀ x, (∀ g t, c.Converts g t → x ∉ g.units) → r.exponent x = u.exponent x

namespace ConvertedBy

variable {c : Conversion} {u v r : Units} {g : UnitGroup} {t : String}

/-- A conversion keeps the dimension in every group. -/
lemma dimension_eq (h : ConvertedBy c u r) (g : UnitGroup) : r.dimension g = u.dimension g := by
  by_cases hg : ∃ t, c.Converts g t
  · obtain ⟨t, ht⟩ := hg
    calc r.dimension g
        = r.exponent t :=
          Finset.sum_eq_single_of_mem t ht.2 fun x hx hne => h.other g t x ht hx hne
      _ = u.dimension g := h.target g t ht
  · refine Finset.sum_congr rfl fun x hx => h.kept x fun g' t ht hx' => hg ?_
    exact ⟨t, UnitGroup.eq_of_mem_units hx' hx ▸ ht⟩

/-- A conversion of further groups after that of one group. -/
lemma cons (hgroup : ConvertedBy [(g, t)] u v) (hrest : ConvertedBy c v r)
    (hnew : g ∉ c.map Prod.fst) : ConvertedBy ((g, t) :: c) u r := by
  -- what the further groups are converted to is not touched by the first, and conversely
  have hapart : ∀ {h t' x}, c.Converts h t' → x ∈ h.units → x ∉ g.units := by
    intro h t' x ht' hx hxg
    cases UnitGroup.eq_of_mem_units hx hxg
    exact hnew (List.mem_map_of_mem ht'.1)
  have hfirst : ∀ {x}, x ∈ g.units → r.exponent x = v.exponent x :=
    fun hx => hrest.kept _ fun h t' ht' hx' => hapart ht' hx' hx
  refine ⟨fun h t' ht' => ?_, fun h t' x ht' hx hne => ?_, fun x hx => ?_⟩
  · rcases List.mem_cons.1 ht'.1 with heq | hmem
    · cases heq
      rw [hfirst ht'.2]
      exact hgroup.target g t ⟨List.mem_singleton_self _, ht'.2⟩
    · rw [hrest.target h t' ⟨hmem, ht'.2⟩, hgroup.dimension_eq]
  · rcases List.mem_cons.1 ht'.1 with heq | hmem
    · cases heq
      rw [hfirst hx]
      exact hgroup.other g t x ⟨List.mem_singleton_self _, ht'.2⟩ hx hne
    · exact hrest.other h t' x ⟨hmem, ht'.2⟩ hx hne
  · have hkept : v.exponent x = u.exponent x := by
      refine hgroup.kept x fun h t' ht' => hx h t' ⟨?_, ht'.2⟩
      rw [List.mem_singleton.1 ht'.1]
      exact List.mem_cons_self
    rw [← hkept]
    exact hrest.kept x fun h t' ht' => hx h t' ⟨List.mem_cons_of_mem _ ht'.1, ht'.2⟩

/-- A conversion overrules an earlier one of no more groups. -/
lemma trans {c' : Conversion} (h : ConvertedBy c u v) (h' : ConvertedBy c' v r)
    (hgroups : ∀ g t, c.Converts g t → ∃ t', c'.Converts g t') : ConvertedBy c' u r := by
  refine ⟨fun g t ht => ?_, h'.other, fun x hx => ?_⟩
  · rw [h'.target g t ht, h.dimension_eq]
  · rw [h'.kept x hx]
    refine h.kept x fun g t ht => ?_
    obtain ⟨t', ht'⟩ := hgroups g t ht
    exact hx g t' ht'

/-- The exponents after a conversion are known from those before. -/
lemma exponent_eq {r' : Units} (h : ConvertedBy c u r) (h' : ConvertedBy c u r') (x : String) :
    r.exponent x = r'.exponent x := by
  by_cases hx : ∃ g t, c.Converts g t ∧ x ∈ g.units
  · obtain ⟨g, t, ht, hx⟩ := hx
    by_cases hxt : x = t
    · rw [hxt, h.target g t ht, h'.target g t ht]
    · rw [h.other g t x ht hx hxt, h'.other g t x ht hx hxt]
  · have hfree : ∀ g t, c.Converts g t → x ∉ g.units := fun g t ht hxg => hx ⟨g, t, ht, hxg⟩
    rw [h.kept x hfree, h'.kept x hfree]

/-- Cancelling does not matter for the exponents. -/
lemma cancel (h : ConvertedBy c u r) : ConvertedBy c u r.cancel := by
  refine ⟨fun g t ht => ?_, fun g t x ht hx hne => ?_, fun x hx => ?_⟩ <;> rw [exponent_cancel]
  · exact h.target g t ht
  · exact h.other g t x ht hx hne
  · exact h.kept x hx

end ConvertedBy

/-! ### Renaming the units of a group -/

/-- Renaming the members of a set to one of them gives that one the occurrences of all. -/
lemma count_map_rename {s : Finset String} {p : String → Bool} (hp : ∀ a, p a = true ↔ a ∈ s)
    {t : String} (ht : t ∈ s) (l : List String) (x : String) :
    (l.map fun a => if p a then t else a).count x =
      if x = t then ∑ y ∈ s, l.count y else if x ∈ s then 0 else l.count x := by
  induction l with
  | nil => simp
  | cons a l ih =>
    have hsum : ∑ y ∈ s, (a :: l).count y = ∑ y ∈ s, l.count y + if a ∈ s then 1 else 0 := by
      simp [List.count_cons, Finset.sum_add_distrib]
    rw [List.map_cons, List.count_cons, ih, hsum, List.count_cons]
    by_cases ha : a ∈ s
    · grind
    · grind

/-- The exponents after renaming the members of a set to one of them. -/
lemma exponent_rename {s : Finset String} {p : String → Bool} (hp : ∀ a, p a = true ↔ a ∈ s)
    {t : String} (ht : t ∈ s) (u : Units) (x : String) :
    (u.mapAtoms fun _ a => if p a then t else a).exponent x =
      if x = t then ∑ y ∈ s, u.exponent y else if x ∈ s then 0 else u.exponent x := by
  simp only [exponent, mapAtoms, Atoms.map, Atoms.count_ofList, count_map_rename hp ht]
  split_ifs
  · rw [Finset.sum_sub_distrib, Nat.cast_sum, Nat.cast_sum]
  · rfl
  · rfl

section Convert

variable {α : Type} [Mul α] [Div α] {factor : UnitGroup → String → Option α}

/-- Converting one group. -/
lemma convertedBy_convertGroup (hfactor : ∀ {g x}, (factor g x).isSome ↔ x ∈ g.units)
    (g : UnitGroup) (t : String) (value : α) (u : Units) :
    ConvertedBy [(g, t)] u (convertGroup (factor g) t value u).2 := by
  have hentry : ∀ {h t'}, Conversion.Converts [(g, t)] h t' → h = g ∧ t' = t :=
    fun ht' => Prod.mk.inj (List.mem_singleton.1 ht'.1)
  unfold convertGroup
  cases ht : factor g t with
  | none =>
    -- the target is not of the group, so nothing is converted
    have houtside : ∀ {h t'}, ¬ Conversion.Converts [(g, t)] h t' := by
      intro h t' ht'
      obtain ⟨rfl, rfl⟩ := hentry ht'
      have hsome := hfactor.2 ht'.2
      simp [ht] at hsome
    exact ⟨fun _ _ h => absurd h houtside, fun _ _ _ h => absurd h houtside, fun _ _ => rfl⟩
  | some f =>
    have hmem : t ∈ g.units := hfactor.1 (by rw [ht]; rfl)
    have hexponent := exponent_rename (fun a => hfactor (g := g) (x := a)) hmem u
    refine ⟨fun h t' ht' => ?_, fun h t' x ht' hx hne => ?_, fun x hx => ?_⟩
    · obtain ⟨rfl, rfl⟩ := hentry ht'
      rw [hexponent, if_pos rfl, dimension]
    · obtain ⟨rfl, rfl⟩ := hentry ht'
      rw [hexponent, if_neg hne, if_pos hx]
    · have hxg : x ∉ g.units := hx g t ⟨List.mem_singleton_self _, hmem⟩
      have hxt : x ≠ t := fun hxt => hxg (hxt ▸ hmem)
      rw [hexponent, if_neg hxt, if_neg hxg]

/-- Converting one group after the other. -/
lemma convertedBy_convertGroups (hfactor : ∀ {g x}, (factor g x).isSome ↔ x ∈ g.units)
    {c : Conversion} (hc : (c.map Prod.fst).Nodup) (value : α) (u : Units) :
    ConvertedBy c u (convertGroups factor value u c).2 := by
  induction c generalizing value u with
  | nil =>
    have hempty : ∀ {g t}, ¬ Conversion.Converts [] g t := fun h => List.not_mem_nil h.1
    exact ⟨fun _ _ h => absurd h hempty, fun _ _ _ h => absurd h hempty, fun _ _ => rfl⟩
  | cons entry rest ih =>
    obtain ⟨g, t⟩ := entry
    obtain ⟨hnew, hrest⟩ := List.nodup_cons.1 hc
    exact (convertedBy_convertGroup hfactor g t value u).cons (ih hrest _ _) hnew

/-- Renaming keeps the backup name. -/
lemma backup_convertGroups (c : Conversion) (value : α) (u : Units) :
    (convertGroups factor value u c).2.backup = u.backup := by
  induction c generalizing value u with
  | nil => rfl
  | cons entry rest ih =>
    obtain ⟨g, t⟩ := entry
    have hgroup : (convertGroup (factor g) t value u).2.backup = u.backup := by
      unfold convertGroup
      cases factor g t <;> rfl
    exact (ih _ _).trans hgroup

end Convert

end Units

/-! ### Conversions with one target for each group -/

namespace Conversion

/-- Setting a target gives no group a second one. -/
lemma nodup_set {c : Conversion} (hc : (c.map Prod.fst).Nodup) (g : UnitGroup) (t : String) :
    ((c.set g t).map Prod.fst).Nodup := by
  unfold set
  split
  · have hkeys : (c.map fun entry => if entry.1 == g then (g, t) else entry).map Prod.fst =
        c.map Prod.fst := by
      rw [List.map_map]
      refine List.map_congr_left fun entry _ => ?_
      by_cases hentry : entry.1 = g <;> simp [hentry]
    rwa [hkeys]
  · rename_i hnew
    rw [List.map_append, List.nodup_append]
    refine ⟨hc, List.nodup_singleton g, fun a ha b hb => ?_⟩
    rintro rfl
    cases List.mem_singleton.1 hb
    obtain ⟨entry, hentry, rfl⟩ := List.mem_map.1 ha
    exact hnew (List.any_eq_true.2 ⟨entry, hentry, beq_self_eq_true _⟩)

/-- The conversion to one unit has a target for the groups of the unit, one each. -/
lemma nodup_ofName (t : String) : ((ofName t).map Prod.fst).Nodup := by
  have hkeys : (ofName t).map Prod.fst =
      UnitGroup.all.filter fun group => (group.factor t).isSome := by
    simp [ofName, Function.comp_def]
  rw [hkeys]
  exact List.Nodup.filter _ (by decide)

/-- The conversion to one unit converts the groups of the unit to it. -/
lemma converts_ofName {t t' : String} {g : UnitGroup} :
    (ofName t).Converts g t' ↔ t' = t ∧ t ∈ g.units := by
  have hall := UnitGroup.mem_all g
  simp only [Converts, ofName, List.mem_map, List.mem_filter, UnitGroup.isSome_factor_iff,
    Prod.mk.injEq]
  constructor
  · rintro ⟨⟨h, ⟨_, ht⟩, rfl, rfl⟩, _⟩
    exact ⟨rfl, ht⟩
  · rintro ⟨rfl, ht⟩
    exact ⟨⟨g, ⟨hall, ht⟩, rfl, rfl⟩, ht⟩

end Conversion

namespace Dimension

/-- A conversion, on units. -/
lemma convertedBy_convert {c : Conversion} (hc : (c.map Prod.fst).Nodup) (d : Dimension) :
    Units.ConvertedBy c d.units (d.convert c).units :=
  (Units.convertedBy_convertGroups UnitGroup.isSome_factor_iff hc d.value d.units).cancel

/-- Converted units are reduced. -/
lemma isReduced_convert (c : Conversion) (d : Dimension) : (d.convert c).units.IsReduced :=
  Units.isReduced_cancel _

/-- A conversion keeps the backup name. -/
lemma backup_convert (c : Conversion) (d : Dimension) :
    (d.convert c).units.backup = d.units.backup :=
  Units.backup_convertGroups c d.value d.units

/-- A conversion overrules an earlier one of no more groups. -/
theorem units_convert_convert {c c' : Conversion} (hc : (c.map Prod.fst).Nodup)
    (hc' : (c'.map Prod.fst).Nodup)
    (hgroups : ∀ g t, c.Converts g t → ∃ t', c'.Converts g t') (d : Dimension) :
    ((d.convert c).convert c').units = (d.convert c').units := by
  have hboth : Units.ConvertedBy c' d.units ((d.convert c).convert c').units :=
    (convertedBy_convert hc d).trans (convertedBy_convert hc' _) hgroups
  refine (isReduced_convert c' _).eq_of_exponent_eq (isReduced_convert c' d) ?_ ?_
  · exact hboth.exponent_eq (convertedBy_convert hc' d)
  · rw [backup_convert, backup_convert, backup_convert]

/-- Converting a dimension conserves its dimension.  The target of each group that is converted
collects the exponents of all units of the group, its other units vanish, names of other groups and
of no group keep their exponents, and targets outside their group are ignored.  The unit is reduced
and keeps its backup name.  So a conversion to one unit of a group overrules a conversion to
another one, and a second unification changes no unit.

Every conversion that comes from one name (`Conversion.nodup_ofName`) or from targets set one after
the other (`Conversion.nodup_set`) has at most one target for each group. -/
theorem convert_conserves (d : Dimension) (c : Conversion) (hc : (c.map Prod.fst).Nodup) :
    Units.ConvertedBy c d.units (d.convert c).units ∧
    (d.convert c).units.IsReduced ∧
    (d.convert c).units.backup = d.units.backup ∧
    (∀ g t₁ t₂, t₁ ∈ UnitGroup.units g → t₂ ∈ UnitGroup.units g →
      ((d.convert (.ofName t₁)).convert (.ofName t₂)).units = (d.convert (.ofName t₂)).units) ∧
    d.unify.unify.units = d.unify.units := by
  refine ⟨convertedBy_convert hc d, isReduced_convert c d, backup_convert c d, ?_, ?_⟩
  · intro g t₁ t₂ ht₁ ht₂
    refine units_convert_convert (Conversion.nodup_ofName t₁) (Conversion.nodup_ofName t₂) ?_ d
    intro h t ht
    obtain ⟨-, hmem⟩ := Conversion.converts_ofName.1 ht
    cases UnitGroup.eq_of_mem_units ht₁ hmem
    exact ⟨t₂, Conversion.converts_ofName.2 ⟨rfl, ht₂⟩⟩
  · have hcanonical : (Conversion.canonical.map Prod.fst).Nodup := by decide
    exact units_convert_convert hcanonical hcanonical (fun g t ht => ⟨t, ht⟩) d

/-- A speed with lengths on both sides of the line, durations below it, and a name of no group. -/
def mixedSpeed : Dimension :=
  ⟨6.0, .ofParts ["em", "in", "cm", "px"] ["ms", "mm", "s"] ""⟩

/-- Lengths in millimetres, durations in seconds, and a target for angles that is a length. -/
def mixedTargets : Conversion :=
  ((Conversion.set [] .duration "s").set .angle "px").set .length "mm"

/-- Three lengths above the line and one below are two, and two durations below the line are two;
the name of no group stays.  Converting to inches first does not change the unit in centimetres. -/
theorem convert_conserves_mixedSpeed :
    ((mixedTargets.map Prod.fst).Nodup ∧ "in" ∈ UnitGroup.length.units ∧
        "cm" ∈ UnitGroup.length.units) ∧
      (mixedSpeed.convert mixedTargets).units.exponent "mm" = 2 ∧
      (mixedSpeed.convert mixedTargets).units.exponent "px" = 0 ∧
      (mixedSpeed.convert mixedTargets).units.exponent "s" = -2 ∧
      (mixedSpeed.convert mixedTargets).units.exponent "em" = 1 ∧
      (mixedSpeed.convert mixedTargets).units.backup = "em" ∧
      ((mixedSpeed.convert (.ofName "in")).convert (.ofName "cm")).units =
        (mixedSpeed.convert (.ofName "cm")).units := by
  have hempty : (([] : Conversion).map Prod.fst).Nodup := List.nodup_nil
  have hnodup : (mixedTargets.map Prod.fst).Nodup :=
    Conversion.nodup_set (Conversion.nodup_set (Conversion.nodup_set hempty _ _) _ _) _ _
  have hin : "in" ∈ UnitGroup.length.units := by decide
  have hcm : "cm" ∈ UnitGroup.length.units := by decide
  have hlength : mixedTargets.Converts .length "mm" := ⟨by decide, by decide⟩
  have hduration : mixedTargets.Converts .duration "s" := ⟨by decide, by decide⟩
  obtain ⟨hconverted, -, hbackup, hagain, -⟩ := convert_conserves mixedSpeed mixedTargets hnodup
  refine ⟨⟨hnodup, hin, hcm⟩, ?_, ?_, ?_, ?_, hbackup, hagain .length "in" "cm" hin hcm⟩
  · exact (hconverted.target _ _ hlength).trans (by decide)
  · exact hconverted.other _ _ _ hlength (by decide) (by decide)
  · exact (hconverted.target _ _ hduration).trans (by decide)
  · refine (hconverted.kept "em" fun g t _ => ?_).trans (by decide)
    cases g <;> decide

end Dimension

end Cascade
