import Cascade.Proofs.Evaluation.Depth
import Cascade.Proofs.Evaluation.Hidden
import Cascade.Proofs.Evaluation.Sharing

/-!
# Flat rules

A rule is flat if it is a value or the declaration of one (`Node.IsFlatRule`): there are no
rulesets and no calls in it.  If the variables have flat values, too, then what a flat rule is
evaluated to is settled: when it is evaluated again, it stays as it is (`Node.IsFlatRule.eval`,
`Node.IsSettled.evalWith`).  The exception are strings that are left with placeholders, which the
next evaluation would try to fill in.

So a ruleset of flat rules is evaluated to one that keeps its rules when it is evaluated again,
although its selectors are combined with the ones around it once more
(`Scope.Offers.exists_settled`, `Ruleset.becomes_of_isSettled`).
-/

namespace Cascade

/-! ### Flat rules -/

/-- A node of a kind that values and strings are put together from, which keeps no frames. -/
def Node.IsFlat (n : Node) : Prop :=
  (n.IsValueKind ∨ n.kind = .quoted) ∧ n.kind ≠ .detachedRuleset

instance (n : Node) : Decidable n.IsFlat :=
  inferInstanceAs (Decidable ((n.IsValueKind ∨ n.kind = .quoted) ∧ n.kind ≠ .detachedRuleset))

/-- A rule that is a flat value or declares one, under a name put together from flat values. -/
def Node.IsFlatRule (rule : Node) : Prop :=
  rule.Throughout Node.IsFlat ∨
    rule.kind = .declaration ∧ ∀ c ∈ rule.children, c.Throughout Node.IsFlat

instance (rule : Node) : Decidable rule.IsFlatRule :=
  inferInstanceAs (Decidable (_ ∨ _ ∧ ∀ c ∈ rule.children, c.Throughout Node.IsFlat))

/-- A node that is no string with placeholders. -/
def Node.IsFilled : Node → Prop
  | .quoted _ _ text _ => Text.IsFilled text
  | _ => True

instance (n : Node) : Decidable n.IsFilled :=
  match n with
  | .quoted _ _ text _ => inferInstanceAs (Decidable (Text.IsFilled text))
  | .anonymous .. | .assignment .. | .attribute .. | .call .. | .color .. | .comment ..
  | .condition .. | .declaration .. | .detached .. | .dimension .. | .expression ..
  | .javaScript .. | .keyword .. | .negative .. | .operation .. | .paren .. | .query ..
  | .ruleset .. | .unicodeDescriptor .. | .value .. | .variableCall .. | .variableRef .. =>
    .isTrue trivial

/-- Flat nodes keep no frames. -/
lemma Node.IsFlat.isTransparent {n : Node} (h : n.IsFlat) : n.IsTransparent := by
  cases n with
  | query | variableCall => exact h.1.elim False.elim nofun
  | detached => exact absurd rfl h.2
  | _ => simp [Node.IsTransparent, Node.kind]

namespace Node.IsFlatRule

variable {rule : Node}

/-- Flat rules keep no frames. -/
lemma isTransparent (h : rule.IsFlatRule) : rule.Throughout Node.IsTransparent := by
  rcases h with hflat | ⟨hkind, hparts⟩
  · exact hflat.imp fun _ hn => hn.isTransparent
  · cases rule with
    | declaration =>
      refine Node.throughout_iff.2 ⟨by simp [Node.IsTransparent, Node.kind], fun c hc => ?_,
        by simp [Node.held]⟩
      exact (hparts c hc).imp fun _ hn => hn.isTransparent
    | _ => cases hkind

/-- The value that a flat rule gives to a variable is flat. -/
lemma of_bindingOf? {v : Node} {name marker : String} (h : rule.IsFlatRule)
    (hbinding : rule.bindingOf? name = some (v, marker)) : v.Throughout Node.IsFlat := by
  obtain ⟨info, traits, rfl, _⟩ := Node.eq_declaration_of_bindingOf? hbinding
  rcases h with hflat | ⟨_, hparts⟩
  · exact hflat.of_bindingOf? hbinding
  · exact hparts v (by simp [Node.children])

/-- A flat rule contributes what it is evaluated to. -/
lemma splice (h : rule.IsFlatRule) (r : Node) : rule.splice r = [r] := by
  rw [Node.splice_eq, if_neg]
  rintro ⟨hcall, _⟩
  exact h.isTransparent.self (by simp [hcall])

end Node.IsFlatRule

/-- A ruleset of flat rules keeps no frames. -/
lemma Ruleset.isTransparent_of_flat {rs : Ruleset} (h : ∀ rule ∈ rs.rules, rule.IsFlatRule) :
    (Node.ruleset rs).Throughout Node.IsTransparent := by
  refine Node.throughout_iff.2 ⟨by simp [Node.IsTransparent, Node.kind], ?_, by simp [Node.held]⟩
  exact fun rule hrule => (h rule hrule).isTransparent

/-! ### Settled rules -/

/-- A normal form whose strings have no placeholders left. -/
lemma Node.IsNormal.filled {T : String → Prop} {s : Scope} {n : Node} (h : n.IsNormal T s)
    (hfilled : n.Throughout Node.IsFilled) : n.IsNormal Text.IsFilled s := by
  induction h with
  | constant h => exact .constant h
  | assignment _ ih => exact .assignment (ih (hfilled.child (by simp [Node.children])))
  | selector _ ih =>
    refine .selector fun r hr => ih r hr (hfilled.child ?_)
    rw [Option.mem_def.1 hr]
    simp [Node.children]
  | call hframes hname _ ih => exact .call hframes hname fun a ha => ih a ha (hfilled.child ha)
  | expression hlength _ ih => exact .expression hlength fun i hi => ih i hi (hfilled.child hi)
  | negative hmath _ ih => exact .negative hmath (ih (hfilled.child (by simp [Node.children])))
  | operation hkept _ _ iha ihb =>
    exact .operation hkept (iha (hfilled.child (by simp [Node.children])))
      (ihb (hfilled.child (by simp [Node.children])))
  | paren _ ih => exact .paren (ih (hfilled.child (by simp [Node.children])))
  | string _ => exact .string hfilled.self
  | value hlength _ ih => exact .value hlength fun i hi => ih i hi (hfilled.child hi)

/-- A rule that is left as it is when it is evaluated again: a normal form, or the declaration of
one. -/
inductive Node.IsSettled (s : Scope) : Node → Prop where
  | value {n : Node} (h : n.IsNormal Text.IsFilled s) : Node.IsSettled s n
  | declaration {info : Info} {text : String} {v : Node} {traits : DeclarationTraits}
    (hv : v.IsNormal Text.IsFilled (s.setMath (s.mathOf text)))
    (hattached : traits.isVariable ∨ v.isDetached = false) :
    Node.IsSettled s (.declaration info.snapshot (.literal text) v.asValue traits)

/-- The list around a normal form is evaluated to the normal form. -/
lemma Node.IsNormal.evalWith_asValue {s : Scope} {v : Node} (h : v.IsNormal Text.IsFilled s)
    (hs : s.frames ≠ [] → s.functionTable = .ok .builtins) (resolve : Resolver Scoped) :
    Node.evalWith resolve v.asValue s = Eval.pure v := by
  have hfixed := h.evalWith (fun _ htext => htext) hs resolve
  rw [Node.asValue_eq]
  split
  · exact hfixed
  · rw [Node.evalWith, Node.evalEach_eq_map]
    exact hfixed

/-- What is in a list is throughout of some kind if the list is. -/
lemma Node.Throughout.of_asValue {P : Node → Prop} {v : Node} (h : v.asValue.Throughout P) :
    v.Throughout P := by
  rw [Node.asValue_eq] at h
  split at h
  · exact h
  · exact h.child (by simp [Node.children])

/-- A declaration whose value is evaluated without effects. -/
lemma Node.evalWith_declaration_of_pure {s : Scope} {resolve : Resolver Scoped} {text : String}
    {value v : Node} {traits : DeclarationTraits} (info : Info)
    (hvalue : Node.evalWith resolve value (s.setMath (s.mathOf text)) = Eval.pure v)
    (hattached : traits.isVariable ∨ v.isDetached = false) :
    Node.evalWith resolve (.declaration info (.literal text) value traits) s =
      Eval.pure (.declaration info.snapshot (.literal text) v.asValue traits) := by
  have hcapture : (Evaluation.inMath (s.mathOf text)
      (Evaluation.capture (Node.evalWith resolve value)) : Scoped _) s = Eval.pure (v, none) := by
    show Eval.capture (Node.evalWith resolve value (s.setMath (s.mathOf text))) = _
    rw [hvalue]
    rfl
  have hfinish : Node.finishDeclaration info text traits v none =
      .ok (.declaration info.snapshot (.literal text) v.asValue traits) := by
    unfold Node.finishDeclaration
    rw [if_neg]
    · rfl
    · rcases hattached with hvariable | hattached <;> simp [*]
  rw [Node.evalWith, PropertyName.evalWith, Scoped.bind_of_pure (a := text) rfl,
    Scoped.bind_scope, Scoped.bind_of_pure hcapture]
  show (Evaluation.ofExcept (Node.finishDeclaration info text traits v none) : Scoped Node) s = _
  rw [hfinish]
  rfl

namespace Node.IsSettled

variable {s : Scope} {rule : Node}

/-- A settled rule is evaluated to itself, without effects. -/
lemma evalWith (h : rule.IsSettled s) (hs : s.frames ≠ [] → s.functionTable = .ok .builtins)
    (resolve : Resolver Scoped) : Node.evalWith resolve rule s = Eval.pure rule := by
  cases h with
  | value h => exact h.evalWith (fun _ htext => htext) hs resolve
  | @declaration info text v traits hv hattached =>
    exact Node.evalWith_declaration_of_pure info.snapshot (hv.evalWith_asValue hs resolve) hattached

/-- What is settled inside is settled outside. -/
lemma outward {outer : Scope} (h : rule.IsSettled s) (hcovers : s.Covers outer) :
    rule.IsSettled outer := by
  cases h with
  | value h => exact .value (h.outward hcovers)
  | @declaration info text v traits hv hattached =>
    refine .declaration (hv.outward ?_) hattached
    exact ⟨by simp only [Scope.setMath, Scope.mathOf, hcovers.math], hcovers.mathOn,
      hcovers.inParens, hcovers.frames⟩

end Node.IsSettled

/-- A node contributes itself to its own place. -/
lemma Node.splice_self (n : Node) : n.splice n = [n] := by
  rw [Node.splice_eq, if_neg]
  rintro ⟨hcall, hruleset⟩
  rw [hcall] at hruleset
  cases hruleset

/-! ### Flat rules are evaluated to settled ones -/

section Flat

variable {held : List String} {s : Scope}

/-- Flat values are evaluated to normal forms. -/
lemma Node.normalizes_flat (held : List String) : Node.Normalizes (fun _ => True)
    (Scope.Offers held (Node.Throughout Node.IsFlat)) (Node.Throughout Node.IsFlat) := by
  refine Node.normalizes_of_offers (fun hn => hn.self.1) (fun hn hc => hn.child hc) ?_
  intro info quote text escaped _ filled
  exact ⟨trivial, Node.throughout_iff.2 ⟨⟨.inr rfl, nofun⟩, nofun, nofun⟩⟩

/-- A flat rule is evaluated to a settled one, unless strings are left with placeholders. -/
lemma Node.IsFlatRule.eval (hs : s.Offers held (Node.Throughout Node.IsFlat)) {rule : Node}
    (h : rule.IsFlatRule) (depth : Nat) :
    Watch.lenient.Keeps s (fun r => r.Throughout Node.IsFilled → r.IsSettled s)
      (Node.eval depth rule) := by
  cases depth with
  | zero => exact .stop _
  | succ depth =>
  rcases h with hvalue | ⟨hkind, hparts⟩
  · refine ((Node.normalizes_flat held).eval hs (depth + 1) hvalue).imp fun r hr hfilled => ?_
    exact .value (hr.filled hfilled)
  · cases rule with
    | declaration info name v traits =>
      have hpart : ∀ c ∈ (Node.declaration info name v traits).children, ∀ math,
          Watch.lenient.Keeps (s.setMath math) (Node.IsNormal (fun _ => True) (s.setMath math))
            (Node.evalWith ⟨Node.eval depth, Node.eval depth⟩ c) := by
        intro c hc math
        exact (Node.normalizes_flat held).eval (s := s.setMath math) ⟨hs.frames, hs.refused⟩
          (depth + 1) (hparts c hc)
      rw [Node.eval, Node.evalWith]
      refine .bind (.propertyName fun part hpartName => hpart part ?_ s.math) fun text _ =>
        .bind_scope (.bind (.inMath trivial (.capture (hpart v ?_ _))) ?_)
      · simp [Node.children, hpartName]
      · simp [Node.children]
      · rintro ⟨r, marker⟩ hr
        refine .ofExcept fun result hresult hfilled => ?_
        unfold Node.finishDeclaration at hresult
        split at hresult
        · cases hresult
        next hattached =>
          cases hresult
          refine .declaration (hr.filled (hfilled.child ?_).of_asValue) ?_
          · simp [Node.children]
          · simpa [Classical.or_iff_not_imp_left] using hattached
    | _ => cases hkind

/-- What is evaluated leaves the states of the query conditions as they are, if it keeps no
frames. -/
lemma Node.becomes_of_shares {s' : Scope} (hs : s.Shares held s') {n : Node}
    (hn : n.Throughout Node.IsTransparent) {depth : Nat} {q : Queries} {r : Node}
    (hr : ((Node.eval depth n : Scoped Node) s q).result = .ok r) : n.Becomes depth s q r :=
  ⟨hr, (Node.eval_of_shares hs hn hr).2⟩

/-- What keeps no frames is evaluated to the same in scopes that share variables. -/
lemma Node.Becomes.of_shares {s' : Scope} (hs : s.Shares held s') {n : Node}
    (hn : n.Throughout Node.IsTransparent) {depth : Nat} {q : Queries} {r : Node}
    (h : n.Becomes depth s q r) : n.Becomes depth s' q r := by
  unfold Node.Becomes
  rw [(Node.eval_of_shares hs hn h.1).1]
  exact h

/-- What is evaluated is evaluated at a greater depth, too. -/
lemma Node.Becomes.succ {n r : Node} {depth : Nat} {q : Queries} (h : n.Becomes depth s q r) :
    n.Becomes (depth + 1) s q r := by
  have hdeeper := Node.eval_below (Nat.le_succ depth) n s q (by rw [h.1]; nofun)
  unfold Node.Becomes
  rw [hdeeper]
  exact h

namespace Scope.Offers

/-- Calls find the built-in functions. -/
lemma functions? {Value : Node → Prop} (h : s.Offers held Value) (hne : s.frames ≠ []) :
    s.functions? = some .builtins :=
  Scope.functionTable_eq_ok_iff.1 (Scope.functionTable_of_holds h.frames hne)

/-- Frames with flat values share them with themselves. -/
lemma shares (h : s.Offers held (Node.Throughout Node.IsFlat)) (hne : s.frames ≠ []) :
    s.Shares held s where
  rest := rfl
  nonempty := hne
  frames := .refl fun f hf => (h.frames f hf).imp fun _ hv => hv.imp fun _ hn => hn.isTransparent
  resolving := fun _ hname => hname
  refused := h.refused

/-- The scope inside a ruleset that gives flat values to variables. -/
lemma inside (h : s.Offers held (Node.Throughout Node.IsFlat)) (hne : s.frames ≠ []) {rs : Ruleset}
    (hrs : ∀ rule ∈ rs.rules, ∀ name v marker, name ∉ held →
      rule.bindingOf? name = some (v, marker) → v.Throughout Node.IsFlat) :
    (s.inside (.ruleset rs)).Offers held (Node.Throughout Node.IsFlat) where
  frames := List.forall_mem_cons.2 ⟨Frame.holds_of_rules (h.functions? hne) hrs, h.frames⟩
  refused := h.refused

/-- A ruleset of flat rules is evaluated to one of settled rules, unless strings are left with
placeholders. -/
lemma exists_settled (h : s.Offers held (Node.Throughout Node.IsFlat)) (hne : s.frames ≠ [])
    {info : Info} {selectors : List String} {rules : List Node} {root : Bool}
    (hrules : ∀ rule ∈ rules, rule.IsFlatRule) {depth : Nat} {q : Queries} {r : Node}
    (hr : ((Node.eval (depth + 1) (.ruleset (.mk info selectors rules root)) : Scoped Node) s
      q).result = .ok r) (hfilled : r.Throughout Node.IsFilled) :
    ∃ settled, r = .ruleset (.mk info.snapshot (Ruleset.combineSelectors s.selectors selectors)
        settled root) ∧
      ∀ rule ∈ settled, rule.IsSettled (s.inside (.ruleset (.mk info selectors rules root))) := by
  have hinside : (s.inside (.ruleset (.mk info selectors rules root))).Offers held
      (Node.Throughout Node.IsFlat) :=
    h.inside hne fun rule hrule name v marker _ hbinding =>
      (hrules rule hrule).of_bindingOf? hbinding
  have hshares := hinside.shares (List.cons_ne_nil _ _)
  obtain ⟨value, hvalue, rfl⟩ := Node.exists_becomes_of_eval_ruleset (fun rule hrule v hv =>
    Node.becomes_of_shares hshares (hrules rule hrule).isTransparent hv) hr
  refine ⟨_, rfl, fun settled hsettled => ?_⟩
  have hchild := hfilled.child hsettled
  obtain ⟨rule, hrule, hmem⟩ := List.mem_flatMap.1 hsettled
  rw [(hrules rule hrule).splice, List.mem_singleton] at hmem
  have hresult := (hvalue rule hrule).1
  rw [← hmem, ← Observed.outcome_eval] at hresult
  exact ((hrules rule hrule).eval hinside (depth + 1) q trivial).post _ hresult hchild

end Scope.Offers

/-- A ruleset of settled rules keeps them when it is evaluated. -/
lemma Ruleset.becomes_of_isSettled {info : Info} {selectors : List String} {rules : List Node}
    {root : Bool}
    (htable : (s.inside (.ruleset (.mk info selectors rules root))).functionTable = .ok .builtins)
    (hrules : ∀ rule ∈ rules,
      rule.IsSettled (s.inside (.ruleset (.mk info selectors rules root))))
    (depth : Nat) (q : Queries) :
    (Node.ruleset (.mk info selectors rules root)).Becomes (depth + 1) s q
      (.ruleset (.mk info.snapshot (Ruleset.combineSelectors s.selectors selectors) rules
        root)) := by
  have hrule : ∀ rule ∈ rules, rule.Becomes (depth + 1)
      (s.inside (.ruleset (.mk info selectors rules root))) q (id rule) := by
    intro rule hrule
    unfold Node.Becomes
    rw [Node.eval, (hrules rule hrule).evalWith fun _ => htable]
    exact ⟨rfl, rfl⟩
  have hbecomes := Node.becomes_ruleset hrule
  have hkept : Node.contributions rules id = rules := by
    simp [Node.contributions, Node.splice_self]
  rwa [hkept] at hbecomes

end Flat

end Cascade
