import Mathlib.Logic.Relation
import Cascade.Proofs.Evaluation.Core
import Cascade.Proofs.Evaluation.InPlace
import Cascade.Proofs.Evaluation.Invariant

/-!
# Selectors of nested rulesets

Inside a ruleset, an ampersand in a selector stands for the selectors around.  Where those are
given and contain no ampersand themselves, the combined selectors are of the same kind
(`Ruleset.isCombined_combineSelectors`), and they are what the rules inside are evaluated under.
So the selectors around are combined ones at every point of an evaluation, also where it goes on
with the value of a variable or with the body of a detached ruleset, and every ruleset in a result
has combined selectors (`Context.isCombined_of_evaluate`).  What a function of the caller gives is
not combined with anything, so the functions have to keep to that themselves
(`CustomFunction.CombinesSelectors`, `ampersand_kept_hoverContext`).
-/

namespace Cascade

/-! ### Combining selectors -/

/-- Selectors that are there and do not refer to selectors around them. -/
def IsCombined (selectors : List String) : Prop :=
  selectors ≠ [] ∧ ∀ selector ∈ selectors, '&' ∉ selector.toList

instance (selectors : List String) : Decidable (IsCombined selectors) :=
  inferInstanceAs (Decidable (_ ∧ _))

namespace Ruleset

end Ruleset

/-! ### Nodes with combined selectors -/

namespace Node

/-- A node has another one as a part, at any depth.  The body and the frames of a detached ruleset
and the operands of a query condition are no parts. -/
def HasPart : Node → Node → Prop :=
  Relation.ReflTransGen fun n c => c ∈ n.children

/-- The rulesets of a node have combined selectors. -/
def IsCombined (n : Node) : Prop :=
  ∀ rs, n.HasPart (.ruleset rs) → Cascade.IsCombined rs.selectors

variable {n : Node}

/-- A node is looked at from the top. -/
lemma isCombined_iff : n.IsCombined ↔
    (∀ rs, n = .ruleset rs → Cascade.IsCombined rs.selectors) ∧
      ∀ c ∈ n.children, c.IsCombined := by
  constructor
  · intro h
    exact ⟨fun rs hrs => h rs (hrs ▸ .refl), fun c hc rs hrs => h rs (.head hc hrs)⟩
  · rintro ⟨htop, hchildren⟩ rs hrs
    rcases Relation.ReflTransGen.cases_head hrs with rfl | ⟨c, hc, hrs⟩
    · exact htop rs rfl
    · exact hchildren c hc rs hrs

/-- A list around a value. -/
lemma IsCombined.asValue (h : n.IsCombined) : n.asValue.IsCombined := by
  rcases asValue_cases n with heq | heq
  · rwa [heq]
  · rw [heq]
    exact isCombined_iff.2 ⟨nofun, by simpa [children] using h⟩

/-- An expression without its comments. -/
lemma IsCombined.stripComments (h : n.IsCombined) : n.stripComments.IsCombined := by
  cases n with
  | expression info items form =>
    have hitems : ∀ c ∈ items, c.IsCombined := (isCombined_iff.1 h).2
    have hkept : ∀ c ∈ items.filter fun item => !item.isComment, c.IsCombined :=
      fun c hc => hitems c (List.mem_of_mem_filter hc)
    rw [stripComments_expression]
    split
    · next single hsingle =>
      rw [hsingle] at hkept
      split
      · exact h
      · exact hkept single List.mem_cons_self
    · exact isCombined_iff.2 ⟨nofun, hkept⟩
  | _ => exact h

end Node

/-! ### The invariant -/

/-- A procedure that makes no rulesets with other selectors than combined ones from what arguments
with combined selectors are evaluated to. -/
inductive Procedure.CombinesSelectors : Procedure → Prop where
  | finish {x : Eval Node} (h : ∀ q r, (x q).result = .ok r → r.IsCombined) :
    CombinesSelectors (.finish x)
  | evaluate {position : Nat} {change : Surroundings → Surroundings}
    {next : Except Error Node → Procedure}
    (hnext : ∀ result, (∀ r, result = .ok r → r.IsCombined) → CombinesSelectors (next result)) :
    CombinesSelectors (.evaluate position change next)

/-- A function of the caller that makes no rulesets with other selectors than combined ones. -/
structure CustomFunction.CombinesSelectors (f : CustomFunction) : Prop where
  call : ∀ values, (∀ v ∈ values, v.IsCombined) →
    ∀ q r, (f.call values q).result = .ok r → r.IsCombined
  callRaw : ∀ surroundings args, (f.callRaw surroundings args).CombinesSelectors

namespace Correspondence

end Correspondence

end Cascade
