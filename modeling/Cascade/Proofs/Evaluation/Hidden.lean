import Cascade.Proofs.Evaluation.Hoisting
import Cascade.Proofs.Printing.Blocks

/-!
# Hidden rules

A rule that is hidden is not printed, so a ruleset prints the same without it
(`Context.evaluate_without_hidden`).  The rule may stand anywhere in the ruleset, also inside nested
rulesets (`Ruleset.Replaces`).

Whether a rule is printed is decided when it has been evaluated.  Most nodes are evaluated to nodes
with the same infos (`Node.keepsInfo`).  A call of a detached ruleset is not: the rules that were
called take its place, with their own infos, so hiding the call does not hide them
(`hidden_call_printed`).
-/

namespace Cascade

/-- A ruleset and the same ruleset with some rules replaced by others.  The rules are among its own,
or they stand in a nested ruleset.  The scopes are that of the ruleset and that in which the rules
are evaluated. -/
inductive Ruleset.Replaces (old new : List Node) : Scope → Ruleset → Ruleset → Scope → Prop where
  | here {s : Scope} {info : Info} {selectors : List String} {root : Bool}
    (before after : List Node) :
    Replaces old new s (.mk info selectors (before ++ old ++ after) root)
      (.mk info selectors (before ++ new ++ after) root)
      (s.inside (.ruleset (.mk info selectors (before ++ old ++ after) root)))
  | inside {s t : Scope} {info : Info} {selectors : List String} {root : Bool}
    {child child' : Ruleset} (before after : List Node)
    (h : Replaces old new
      (s.inside (.ruleset (.mk info selectors (before ++ [.ruleset child] ++ after) root)))
      child child' t) :
    Replaces old new s (.mk info selectors (before ++ [.ruleset child] ++ after) root)
      (.mk info selectors (before ++ [.ruleset child'] ++ after) root) t

/-! ### Rules that contribute nothing -/

namespace Node

variable {style : Style} {n : Node}

/-- A rule that is not shown gives no blocks. -/
lemma bareBlocks_of_not_isShown (h : n.isShown = false) : n.bareBlocks style = [] := by
  have hrendered : ¬ n.isRendered style := by
    intro hrendered
    rw [isShown_of_isRendered hrendered] at h
    cases h
  rw [bareBlocks, if_neg hrendered]
  cases n with
  | ruleset rs => rw [innerBlocks, h, if_neg Bool.false_ne_true]
  | _ => rfl

variable {ρ : Type} [Printer ρ] {cell : QueryId → ρ}

/-- A ruleset contributes its blocks with the items printed, unless it is hidden. -/
lemma itemPart_ruleset (rs : Ruleset) : (Node.ruleset rs).itemPart cell style =
    if (Node.ruleset rs).isShown then .nested (rs.itemBlocks cell style) else .hidden :=
  rfl

/-- A rule that gives no blocks contributes nothing. -/
lemma isVoid_itemPart (h : n.bareBlocks style = []) : (n.itemPart cell style).isVoid := by
  rcases em (∃ rs, n = .ruleset rs) with ⟨rs, rfl⟩ | hn
  · rw [bareBlocks, isRendered_ruleset, if_neg Bool.false_ne_true, innerBlocks] at h
    rw [itemPart_ruleset]
    split at h
    next hshown =>
      have hblocks := rs.related_itemBlocks cell style
      rw [h] at hblocks
      rw [if_pos hshown, List.forall₂_nil_right_iff.1 hblocks]
      rfl
    next hhidden =>
      rw [if_neg hhidden]
      rfl
  · have hrendered : n.isRendered style = false := by
      by_contra hrendered
      rw [bareBlocks, if_pos (Bool.not_eq_false _ ▸ hrendered)] at h
      cases h
    have hnested : Printer.Simulation.nestedBlocks cell style n = none := by
      cases n with
      | ruleset rs => exact absurd ⟨rs, rfl⟩ hn
      | _ => rfl
    rw [itemPart, hnested]
    unfold Part.ofRule
    simp only [hrendered, Bool.false_eq_true, if_false, ite_self]
    rfl

end Node

/-- Two rulesets that print the same wherever they stand. -/
structure Ruleset.PrintsAs (style : Style) (rs rs' : Ruleset) : Prop where
  shown : (Node.ruleset rs').isShown = (Node.ruleset rs).isShown
  blocks : ∀ {ρ : Type} [Printer ρ] (cell : QueryId → ρ),
    rs'.itemBlocks cell style = rs.itemBlocks cell style

/-- Rulesets that print the same contribute the same. -/
lemma Ruleset.PrintsAs.itemPart_eq {style : Style} {rs rs' : Ruleset} (h : rs.PrintsAs style rs')
    {ρ : Type} [Printer ρ] (cell : QueryId → ρ) :
    (Node.ruleset rs').itemPart cell style = (Node.ruleset rs).itemPart cell style := by
  rw [Node.itemPart_ruleset, Node.itemPart_ruleset, h.shown, h.blocks]

/-- Rulesets that print the same have the same rendering. -/
lemma Ruleset.PrintsAs.render_eq {style : Style} {rs rs' : Ruleset} (h : rs.PrintsAs style rs')
    (queries : Queries) :
    (Node.ruleset rs').render queries style = (Node.ruleset rs).render queries style := by
  unfold Node.render Node.print
  rw [Node.write, Node.write]
  have hstyled : ∀ f : Style → Style → Rendering, Printer.styled f style = f style style :=
    fun _ => rfl
  rw [hstyled, hstyled, h.blocks]

/-! ### Infos that are kept -/

namespace Node

/-- Whether a node is evaluated to a node with its infos, if it is evaluated at all. -/
def keepsInfo : Node → Bool
  | .call .. | .condition .. | .expression .. | .negative .. | .operation .. | .value ..
  | .variableRef .. | .variableCall .. => false
  | _ => true

/-- A string keeps its infos however often its placeholders are filled in. -/
lemma info_of_eval_quoted {depth : Nat} {s : Scope} {q : Queries} {info : Info} {quote : Char}
    {text : String} {escaped : Bool} {r : Node}
    (h : ((Node.eval depth (.quoted info quote text escaped) : Scoped Node) s q).result = .ok r) :
    r.info = info.snapshot := by
  induction depth generalizing text q with
  | zero => cases h
  | succ depth ih =>
    rw [Node.eval, Node.evalWith, Resolver.string] at h
    obtain ⟨texts, _, h⟩ := Scoped.exists_of_bind_eq_ok h
    dsimp only at h
    split at h
    · cases h
      rfl
    · exact ih h

/-- A declaration keeps its infos. -/
lemma info_of_finishDeclaration {info : Info} {name : String} {traits : DeclarationTraits}
    {value r : Node} {marker : Option String}
    (h : finishDeclaration info name traits value marker = .ok r) : r.info = info.snapshot := by
  unfold finishDeclaration at h
  split at h
  · cases h
  · cases h
    rfl

/-- A node of most kinds is evaluated to a node with its infos. -/
lemma info_of_eval {depth : Nat} {s : Scope} {q : Queries} {n r : Node} (hn : n.keepsInfo)
    (h : ((Node.eval depth n : Scoped Node) s q).result = .ok r) :
    r.info = n.info.snapshot := by
  cases depth with
  | zero => cases h
  | succ depth =>
    cases n with
    | quoted => exact info_of_eval_quoted h
    | anonymous | color | comment | dimension | keyword | unicodeDescriptor =>
      cases h
      rfl
    | assignment | detached | paren | query =>
      rw [Node.eval, Node.evalWith] at h
      obtain ⟨_, _, h⟩ := Scoped.exists_of_bind_eq_ok h
      cases h
      rfl
    | «attribute» _ _ _ v _ =>
      cases v with
      | none =>
        cases h
        rfl
      | some v =>
        rw [Node.eval, Node.evalWith] at h
        obtain ⟨_, _, h⟩ := Scoped.exists_of_bind_eq_ok h
        cases h
        rfl
    | javaScript =>
      rw [Node.eval, Node.evalWith] at h
      obtain ⟨_, _, h⟩ := Scoped.exists_of_bind_eq_ok h
      cases h
    | declaration info name v traits =>
      rw [Node.eval, Node.evalWith] at h
      obtain ⟨_, _, h⟩ := Scoped.exists_of_bind_eq_ok h
      obtain ⟨_, _, h⟩ := Scoped.exists_of_bind_eq_ok h
      obtain ⟨⟨_, _⟩, _, h⟩ := Scoped.exists_of_bind_eq_ok h
      exact info_of_finishDeclaration (Scoped.of_ofExcept h)
    | ruleset rs =>
      obtain ⟨info, selectors, rules, root⟩ := rs
      rw [Node.eval, Node.evalWith, Ruleset.evalWith] at h
      obtain ⟨_, _, h⟩ := Scoped.exists_of_bind_eq_ok h
      obtain ⟨_, _, h⟩ := Scoped.exists_of_bind_eq_ok h
      cases h
      rfl
    | _ => cases hn

/-- A node that keeps its infos stays hidden, and nothing else takes its place. -/
lemma bareBlocks_of_eval {depth : Nat} {s : Scope} {q : Queries} {style : Style} {rule r : Node}
    (hrule : rule.keepsInfo) (hhidden : rule.isShown = false)
    (h : ((Node.eval depth rule : Scoped Node) s q).result = .ok r) :
    ∀ n ∈ rule.splice r, n.bareBlocks style = [] := by
  have hsplice : rule.splice r = [r] := by
    cases rule with
    | variableCall => cases hrule
    | _ => rfl
  have hshown : r.isShown = false := by
    rw [← hhidden, isShown, isShown, info_of_eval hrule h]
    rfl
  rw [hsplice, List.forall_mem_singleton]
  exact bareBlocks_of_not_isShown hshown

end Node

/-! ### Rules that stand for others -/

namespace Node

/-- A node is evaluated to another one in a scope, and the states of the query conditions are left
as they are. -/
def Becomes (depth : Nat) (s : Scope) (q : Queries) (n r : Node) : Prop :=
  ((Node.eval depth n : Scoped Node) s q).result = .ok r ∧
    ((Node.eval depth n : Scoped Node) s q).queries = q

/-- What some rules contribute that were evaluated to the given values. -/
def contributions (rules : List Node) (value : Node → Node) : List Node :=
  rules.flatMap fun rule => rule.splice (value rule)

/-- Rules that contribute the same to the blocks of their ruleset. -/
structure PrintAlike (style : Style) (rules rules' : List Node) : Prop where
  parts : ∀ {ρ : Type} [Printer ρ] (cell : QueryId → ρ),
    ((rules'.map (itemPart cell style)).filter fun part => !part.isVoid) =
      (rules.map (itemPart cell style)).filter fun part => !part.isVoid

/-- Rules that may stand for others in a scope: they declare the same variables, and if the others
are evaluated, so are they, and they contribute the same. -/
structure StandFor (style : Style) (depth : Nat) (s : Scope) (q : Queries) (old new : List Node) :
    Prop where
  bindings : new.filter isBinding = old.filter isBinding
  values : ∀ s', s.SameCore s' → ∀ value : Node → Node,
    (∀ rule ∈ old, ((Node.eval depth rule : Scoped Node) s q).result = .ok (value rule)) →
    ∃ value' : Node → Node, (∀ rule ∈ new, rule.Becomes depth s' q (value' rule)) ∧
      PrintAlike style (contributions old value) (contributions new value')

/-- A node is evaluated to one node at most. -/
lemma Becomes.unique {depth : Nat} {s : Scope} {q : Queries} {n r r' : Node}
    (h : n.Becomes depth s q r) (h' : n.Becomes depth s q r') : r = r' :=
  Except.ok.inj (h.1.symm.trans h'.1)

/-- A ruleset whose rules leave the states of the query conditions as they are is evaluated to the
contributions of its rules. -/
lemma becomes_ruleset {depth : Nat} {s : Scope} {q : Queries} {info : Info}
    {selectors : List String} {rules : List Node} {root : Bool} {value : Node → Node}
    (h : ∀ rule ∈ rules, rule.Becomes (depth + 1)
      (s.inside (.ruleset (.mk info selectors rules root))) q (value rule)) :
    (Node.ruleset (.mk info selectors rules root)).Becomes (depth + 1) s q
      (.ruleset (.mk info.snapshot (Ruleset.combineSelectors s.selectors selectors)
        (contributions rules value) root)) :=
  Node.eval_ruleset_of_forall (fun rule hrule => (h rule hrule).2)
    fun rule hrule => (h rule hrule).1

/-- If such a ruleset is evaluated, its rules are. -/
lemma exists_becomes_of_eval_ruleset {depth : Nat} {s : Scope} {q : Queries} {info : Info}
    {selectors : List String} {rules : List Node} {root : Bool} {r : Node}
    (hrules : ∀ rule ∈ rules, ∀ v, ((Node.eval (depth + 1) rule : Scoped Node)
        (s.inside (.ruleset (.mk info selectors rules root))) q).result = .ok v →
      rule.Becomes (depth + 1) (s.inside (.ruleset (.mk info selectors rules root))) q v)
    (hr : ((Node.eval (depth + 1) (.ruleset (.mk info selectors rules root)) : Scoped Node) s
      q).result = .ok r) :
    ∃ value : Node → Node, (∀ rule ∈ rules, rule.Becomes (depth + 1)
        (s.inside (.ruleset (.mk info selectors rules root))) q (value rule)) ∧
      r = .ruleset (.mk info.snapshot (Ruleset.combineSelectors s.selectors selectors)
        (contributions rules value) root) := by
  choose! value hvalue using (Node.exists_eval_ruleset_iff fun rule hrule v hv =>
    (hrules rule hrule v hv).2).1 ⟨r, hr⟩
  have hbecomes := fun rule hrule => hrules rule hrule _ (hvalue rule hrule)
  exact ⟨value, hbecomes, Except.ok.inj (hr.symm.trans (becomes_ruleset hbecomes).1)⟩

/-- What some rules and others contribute. -/
lemma contributions_append (rules others : List Node) (value : Node → Node) :
    contributions (rules ++ others) value =
      contributions rules value ++ contributions others value :=
  List.flatMap_append

/-- What one rule contributes. -/
lemma contributions_singleton (rule : Node) (value : Node → Node) :
    contributions [rule] value = rule.splice (value rule) :=
  List.flatMap_singleton ..

namespace PrintAlike

variable {style : Style} {rules rules' : List Node}

/-- Rules with the same cores contribute the same. -/
lemma of_core_eq (h : rules'.map Node.core = rules.map Node.core) :
    PrintAlike style rules rules' where
  parts cell := by rw [map_itemPart_of_core_eq style h]

/-- Rules that contribute the same one after the other. -/
lemma append {others others' : List Node} (h : PrintAlike style rules rules')
    (hothers : PrintAlike style others others') :
    PrintAlike style (rules ++ others) (rules' ++ others') where
  parts cell := by
    rw [List.map_append, List.map_append, List.filter_append, List.filter_append, h.parts,
      hothers.parts]

/-- Rules that contribute the same, one by one. -/
lemma contributions {value value' : Node → Node}
    (h : ∀ rule ∈ rules, PrintAlike style (rule.splice (value rule)) (rule.splice (value' rule))) :
    PrintAlike style (Node.contributions rules value) (Node.contributions rules value') := by
  induction rules with
  | nil => exact .of_core_eq rfl
  | cons rule rest ih =>
    obtain ⟨hrule, hrest⟩ := List.forall_mem_cons.1 h
    exact .append hrule (ih hrest)

/-- Rules that give no blocks may be left out. -/
lemma nil (h : ∀ n ∈ rules, n.bareBlocks style = []) : PrintAlike style rules [] where
  parts cell := by
    symm
    rw [List.map_nil, List.filter_nil, List.filter_eq_nil_iff]
    intro part hpart
    obtain ⟨n, hn, rfl⟩ := List.mem_map.1 hpart
    rw [isVoid_itemPart (h n hn)]
    exact Bool.false_ne_true

/-- One declaration of a variable may stand for another one. -/
lemma bindings {rule rule' : Node} (h : rule.isBinding) (h' : rule'.isBinding) :
    PrintAlike style [rule] [rule'] where
  parts cell := by
    simp [isVoid_itemPart_of_isBinding style h, isVoid_itemPart_of_isBinding style h']

/-- Rules that contribute the same under the same selectors print the same. -/
lemma printsAs (h : PrintAlike style rules rules') (info : Info) (selectors : List String)
    (root : Bool) :
    Ruleset.PrintsAs style (.mk info selectors rules root) (.mk info selectors rules' root) where
  shown := rfl
  blocks cell := by
    rw [Ruleset.itemBlocks, Ruleset.itemBlocks, itemParts_eq_map, itemParts_eq_map]
    exact Block.arrange_of_filter_eq selectors (h.parts cell)

end PrintAlike

/-- Rules with some of them replaced are evaluated and contribute the same, if the rules around
contribute the same, one by one, and so do the new ones, all together. -/
lemma exists_becomes_of_replaced {style : Style} {depth : Nat} {s : Scope} {q : Queries}
    {before old new after : List Node} {value replaced : Node → Node}
    (haround : ∀ rule, rule ∈ before ∨ rule ∈ after → ∃ v, rule.Becomes depth s q v ∧
      PrintAlike style (rule.splice (value rule)) (rule.splice v))
    (hnew : ∀ rule ∈ new, rule.Becomes depth s q (replaced rule))
    (halike : PrintAlike style (contributions old value) (contributions new replaced)) :
    ∃ value' : Node → Node,
      (∀ rule ∈ before ++ new ++ after, rule.Becomes depth s q (value' rule)) ∧
      PrintAlike style (contributions (before ++ old ++ after) value)
        (contributions (before ++ new ++ after) value') := by
  have hall : ∀ rule ∈ before ++ new ++ after, ∃ v, rule.Becomes depth s q v := by
    intro rule hrule
    rw [List.mem_append, List.mem_append] at hrule
    rcases hrule with (hbefore | hrule) | hafter
    · exact (haround rule (.inl hbefore)).imp fun _ h => h.1
    · exact ⟨_, hnew rule hrule⟩
    · exact (haround rule (.inr hafter)).imp fun _ h => h.1
  choose! value' hvalue' using hall
  have hside : ∀ rule, rule ∈ before ∨ rule ∈ after →
      PrintAlike style (rule.splice (value rule)) (rule.splice (value' rule)) := by
    intro rule hrule
    obtain ⟨v, hv, hsame⟩ := haround rule hrule
    have hmem : rule ∈ before ++ new ++ after := by
      rw [List.mem_append, List.mem_append]
      exact hrule.imp_left .inl
    rwa [(hvalue' rule hmem).unique hv]
  have hreplaced : contributions new value' = contributions new replaced := by
    refine List.flatMap_congr fun rule hrule => ?_
    rw [(hvalue' rule (by simp [hrule])).unique (hnew rule hrule)]
  refine ⟨value', hvalue', ?_⟩
  rw [contributions_append, contributions_append, contributions_append, contributions_append,
    hreplaced]
  exact .append (.append (.contributions fun rule hrule => hside rule (.inl hrule)) halike)
    (.contributions fun rule hrule => hside rule (.inr hrule))

end Node

/-- A ruleset that may stand for another one: if the other one is evaluated, so is this one, and
they print the same. -/
def Ruleset.StandsFor (style : Style) (depth : Nat) (s : Scope) (q : Queries) (rs rs' : Ruleset) :
    Prop :=
  ∀ s', s.SameCore s' → ∀ r,
    ((Node.eval depth (.ruleset rs) : Scoped Node) s q).result = .ok r →
    ∃ e e', r = .ruleset e ∧ (Node.ruleset rs').Becomes depth s' q (.ruleset e') ∧
      e.PrintsAs style e'

/-- A node that is evaluated is evaluated in frames with the same cores, to a node with the same
core. -/
lemma Scope.SameCore.exists_becomes {s s' : Scope} (hs : s.SameCore s') {depth : Nat} {q : Queries}
    {n r : Node} (hn : n.Throughout Node.IsStateless)
    (h : ((Node.eval depth n : Scoped Node) s q).result = .ok r) :
    ∃ r', n.Becomes depth s' q r' ∧ r'.core = r.core := by
  obtain ⟨_, hstates, halike⟩ := Node.eval_of_core_eq hs rfl hn depth q
  rw [h] at halike
  cases hresult : ((Node.eval depth n : Scoped Node) s' q).result with
  | error halt =>
    rw [hresult] at halike
    cases halike
  | ok r' =>
    rw [hresult] at halike
    cases halike with
    | ok hcore => exact ⟨r', ⟨hresult, hstates⟩, hcore⟩

section StandFor

variable {style : Style} {depth : Nat} {s t : Scope} {q : Queries} {old new : List Node}
  {rs rs' : Ruleset}

/-- A rule may be left out if nothing of what it is evaluated to gives blocks. -/
lemma Node.StandFor.nil {rule : Node} (hrule : rule.isBinding = false)
    (hsilent : ∀ v, ((Node.eval depth rule : Scoped Node) s q).result = .ok v →
      ∀ n ∈ rule.splice v, n.bareBlocks style = []) :
    Node.StandFor style depth s q [rule] [] where
  bindings := by simp [hrule]
  values s' _ value hvalue := by
    refine ⟨value, nofun, .nil ?_⟩
    rw [Node.contributions_singleton]
    exact hsilent _ (hvalue rule (List.mem_singleton_self rule))

/-- The infos of a call do not matter, as the rules that are called take its place. -/
lemma Node.StandFor.variableCall (info info' : Info) (name : String) :
    Node.StandFor style depth s q [.variableCall info name] [.variableCall info' name] where
  bindings := rfl
  values s' hs value hvalue := by
    have hstateless : (Node.variableCall info name).Throughout Node.IsStateless :=
      Node.throughout_iff.2 ⟨⟨trivial, nofun⟩, nofun, nofun⟩
    obtain ⟨v, hv, hcore⟩ := hs.exists_becomes hstateless
      (hvalue _ (List.mem_singleton_self _))
    refine ⟨fun _ => v, List.forall_mem_singleton.2 ?_, .of_core_eq ?_⟩
    · cases depth with
      | zero => exact hv
      | succ depth => exact hv
    · have hsplice : (Node.variableCall info' name).splice v =
          (Node.variableCall info name).splice v := by
        rw [Node.splice_eq, Node.splice_eq]
        rfl
      rw [Node.contributions_singleton, Node.contributions_singleton, hsplice]
      exact Node.map_core_splice _ hcore

/-- A ruleset stands for another one among rules. -/
lemma Ruleset.StandsFor.rule (h : Ruleset.StandsFor style depth s q rs rs') :
    Node.StandFor style depth s q [.ruleset rs] [.ruleset rs'] where
  bindings := rfl
  values s' hs value hvalue := by
    obtain ⟨e, e', he, hbecomes, hprints⟩ := h s' hs _ (hvalue _ (List.mem_singleton_self _))
    refine ⟨fun _ => .ruleset e', List.forall_mem_singleton.2 hbecomes, ⟨fun cell => ?_⟩⟩
    rw [Node.contributions_singleton, Node.contributions_singleton, he]
    show [Node.itemPart cell style (.ruleset e')].filter _ =
      [Node.itemPart cell style (.ruleset e)].filter _
    rw [hprints.itemPart_eq]

/-- A ruleset in which some rules are replaced by others that may stand for them.  The rules around
them are evaluated alike, because the same variables are declared. -/
lemma Node.StandFor.ruleset {info : Info} {selectors : List String}
    {before after rules rules' : List Node} {root : Bool} (hold : rules = before ++ old ++ after)
    (hnew : rules' = before ++ new ++ after)
    (hrules : (Node.ruleset (.mk info selectors rules root)).Throughout Node.IsStateless)
    (h : Node.StandFor style (depth + 1) (s.inside (.ruleset (.mk info selectors rules root))) q
      old new) :
    Ruleset.StandsFor style (depth + 1) s q (.mk info selectors rules root)
      (.mk info selectors rules' root) := by
  intro s' hs r hr
  have hinside : (s.inside (.ruleset (.mk info selectors rules root))).SameCore
      (s'.inside (.ruleset (.mk info selectors rules' root))) := by
    refine hs.inside_of_bindings hrules ?_
    simp only [hold, hnew, List.filter_append, h.bindings]
  have hrule : ∀ rule ∈ rules, rule.Throughout Node.IsStateless := fun rule h => hrules.child h
  obtain ⟨value, hvalue, rfl⟩ := Node.exists_becomes_of_eval_ruleset (fun rule h v hv =>
    ⟨hv, (Node.eval_of_core_eq hinside rfl (hrule rule h) (depth + 1) q).1⟩) hr
  -- the other rules are evaluated in both rulesets, to nodes with the same cores
  have haround : ∀ rule, rule ∈ before ∨ rule ∈ after → ∃ v, rule.Becomes (depth + 1)
      (s'.inside (.ruleset (.mk info selectors rules' root))) q v ∧
        PrintAlike style (rule.splice (value rule)) (rule.splice v) := by
    intro rule hside
    have hmem : rule ∈ rules := by
      rw [hold, List.mem_append, List.mem_append]
      exact hside.imp_left .inl
    obtain ⟨v, hv, hcore⟩ := hinside.exists_becomes (hrule rule hmem) (hvalue rule hmem).1
    exact ⟨v, hv, .of_core_eq (map_core_splice rule hcore)⟩
  obtain ⟨replaced, hreplaced, halike⟩ := h.values _ hinside value fun rule hrule =>
    (hvalue rule (by simp [hold, hrule])).1
  obtain ⟨value', hvalue', hprint⟩ := exists_becomes_of_replaced haround hreplaced halike
  rw [← hnew] at hvalue' hprint
  rw [← hold] at hprint
  have hbecomes := Node.becomes_ruleset hvalue'
  have hselectors : s'.selectors = s.selectors := by
    rw [hs.rest]
    rfl
  rw [hselectors] at hbecomes
  exact ⟨_, _, rfl, hbecomes, hprint.printsAs _ _ _⟩

/-- A ruleset in which some rules are replaced stands for the ruleset, if they stand for the rules
where these are evaluated. -/
lemma Ruleset.Replaces.standsFor (h : Ruleset.Replaces old new s rs rs' t)
    (hrs : (Node.ruleset rs).Throughout Node.IsStateless)
    (hrules : Node.StandFor style (depth + 1) t q old new) :
    Ruleset.StandsFor style (depth + 1) s q rs rs' := by
  induction h with
  | here before after => exact hrules.ruleset rfl rfl hrs
  | @inside _ _ _ _ _ child _ before after _ ih =>
    have hchild : .ruleset child ∈ before ++ [.ruleset child] ++ after := by simp
    exact (ih (hrs.child hchild) hrules).rule.ruleset rfl rfl hrs

end StandFor

namespace Context

/-- If what two nodes are evaluated to prints the same, the renderings are the same. -/
lemma exists_evaluate_of_becomes {c : Context} {depth : Nat} {n n' : Node} {e e' : Ruleset}
    (h : n.Becomes depth c.scope c.queries (.ruleset e))
    (h' : n'.Becomes depth c.scope c.queries (.ruleset e')) (hprints : e.PrintsAs c.style e') :
    ∃ r', (c.evaluate depth n').1 = .ok r' ∧
      (c.evaluate depth n').2.render r' = (c.evaluate depth n).2.render (.ruleset e) := by
  rw [Context.evaluate_eq, Context.evaluate_eq]
  refine ⟨.ruleset e', h'.1, ?_⟩
  rw [Context.render_eq, Context.render_eq]
  show Node.render (Outcome.queries _) c.style _ = Node.render (Outcome.queries _) c.style _
  rw [h.2, h'.2]
  exact hprints.render_eq c.queries

/-- A ruleset that stands for another one is evaluated and rendered like it. -/
lemma exists_evaluate_of_standsFor {c : Context} {depth : Nat} {rs rs' : Ruleset} {r : Node}
    (hframes : ∀ f ∈ c.frames, f.Fits FunctionTable.IsNative Node.IsStateless)
    (hrs : (Node.ruleset rs).Throughout Node.IsStateless)
    (h : Ruleset.StandsFor c.style depth c.scope c.queries rs rs')
    (hr : (c.evaluate depth (.ruleset rs)).1 = .ok r) :
    ∃ r', (c.evaluate depth (.ruleset rs')).1 = .ok r' ∧
      (c.evaluate depth (.ruleset rs')).2.render r' =
        (c.evaluate depth (.ruleset rs)).2.render r := by
  have hscope : c.scope.SameCore c.scope := ⟨rfl, rfl, .ofNative hframes⟩
  have hstates := (Node.eval_of_core_eq hscope rfl hrs depth c.queries).1
  rw [Context.evaluate_eq] at hr
  obtain ⟨e, e', rfl, hbecomes, hprints⟩ := h c.scope hscope r hr
  exact exists_evaluate_of_becomes ⟨hr, hstates⟩ hbecomes hprints

/-- Hidden rules contribute nothing, unless they are calls.  If a ruleset is evaluated, it is
evaluated without a hidden rule, too, and prints the same, provided that the rule keeps its infos or
that nothing of what it is evaluated to is printed.  A call does not keep its infos: with any other
infos, hidden or not, the ruleset prints the same. -/
theorem evaluate_without_hidden (c : Context) (depth : Nat) {rs : Ruleset} {r : Node}
    (hframes : ∀ f ∈ c.frames, f.Fits FunctionTable.IsNative Node.IsStateless)
    (hrs : (Node.ruleset rs).Throughout Node.IsStateless)
    (hr : (c.evaluate depth (.ruleset rs)).1 = .ok r) :
    (∀ rule rs' t, Ruleset.Replaces [rule] [] c.scope rs rs' t → rule.isBinding = false →
      rule.isShown = false →
      (rule.keepsInfo ∨ ∀ v, ((Node.eval depth rule : Scoped Node) t c.queries).result = .ok v →
        ∀ n ∈ rule.splice v, n.bareBlocks c.style = []) →
      ∃ r', (c.evaluate depth (.ruleset rs')).1 = .ok r' ∧
        (c.evaluate depth (.ruleset rs')).2.render r' =
          (c.evaluate depth (.ruleset rs)).2.render r) ∧
    ∀ info info' name rs' t,
      Ruleset.Replaces [.variableCall info name] [.variableCall info' name] c.scope rs rs' t →
      ∃ r', (c.evaluate depth (.ruleset rs')).1 = .ok r' ∧
        (c.evaluate depth (.ruleset rs')).2.render r' =
          (c.evaluate depth (.ruleset rs)).2.render r := by
  cases depth with
  | zero => cases hr
  | succ depth =>
    refine ⟨fun rule rs' t hreplaces hrule hhidden hkept => ?_,
      fun info info' name rs' t hreplaces => ?_⟩
    · refine exists_evaluate_of_standsFor hframes hrs (hreplaces.standsFor hrs ?_) hr
      refine .nil hrule fun v hv => ?_
      rcases hkept with hkeeps | hsilent
      · exact Node.bareBlocks_of_eval hkeeps hhidden hv
      · exact hsilent v hv
    · exact exists_evaluate_of_standsFor hframes hrs
        (hreplaces.standsFor hrs (.variableCall info info' name)) hr

end Context

/-- The infos of a hidden node. -/
def hiddenInfo : Info :=
  { visibility := { blocks := some 1 } }

/-- A hidden declaration. -/
def hiddenColor : Node :=
  .declaration hiddenInfo (.literal "color") (.keyword {} "red") {}

/-- A hidden call of a detached ruleset. -/
def hiddenCall : Node :=
  .variableCall hiddenInfo "@d"

/-- A detached ruleset in a variable, and a ruleset with some rules. -/
def callingRules (inner : List Node) : Ruleset :=
  let body := .ofRules [] [.declaration {} (.literal "width") (.keyword {} "auto") {}]
  .ofRules [] [.declaration {} (.literal "@d") (.detached {} (some body) none)
    { isVariable := true }, .ruleset (.ofRules ["p"] inner)]

/-- The rules replaced in the inner ruleset. -/
lemma callingRules_replaces (s : Scope) (before old new after : List Node) :
    ∃ t, Ruleset.Replaces old new s (callingRules (before ++ old ++ after))
      (callingRules (before ++ new ++ after)) t :=
  ⟨_, .inside [_] [] (.here before after)⟩

/-- The frames of a context with nothing but the built-in functions. -/
lemma bareContext_fits :
    ∀ f ∈ bareContext.frames, f.Fits FunctionTable.IsNative Node.IsStateless := by
  intro f hf
  rw [List.mem_singleton.1 hf]
  constructor <;> decide

/-- The hidden declaration in the inner ruleset may be left out, and the call may as well be
shown. -/
theorem evaluate_without_hiddenColor :
    ∃ r, (bareContext.evaluate 3 (.ruleset (callingRules [hiddenCall, hiddenColor]))).1 = .ok r ∧
      (∃ r', (bareContext.evaluate 3 (.ruleset (callingRules [hiddenCall]))).1 = .ok r' ∧
        (bareContext.evaluate 3 (.ruleset (callingRules [hiddenCall]))).2.render r' =
          (bareContext.evaluate 3
            (.ruleset (callingRules [hiddenCall, hiddenColor]))).2.render r) ∧
      ∃ r', (bareContext.evaluate 3
          (.ruleset (callingRules [.variableCall {} "@d", hiddenColor]))).1 = .ok r' ∧
        (bareContext.evaluate 3
            (.ruleset (callingRules [.variableCall {} "@d", hiddenColor]))).2.render r' =
          (bareContext.evaluate 3
            (.ruleset (callingRules [hiddenCall, hiddenColor]))).2.render r := by
  have hok : (bareContext.evaluate 3
      (.ruleset (callingRules [hiddenCall, hiddenColor]))).1.isOk = true := by decide +kernel
  cases hr : (bareContext.evaluate 3 (.ruleset (callingRules [hiddenCall, hiddenColor]))).1 with
  | error halt => simp [hr, Except.isOk, Except.toBool] at hok
  | ok r =>
    obtain ⟨homitted, hcall⟩ :=
      bareContext.evaluate_without_hidden 3 bareContext_fits (by decide) hr
    obtain ⟨t, hcolor⟩ := callingRules_replaces bareContext.scope [hiddenCall] [hiddenColor] [] []
    obtain ⟨t', hshown⟩ := callingRules_replaces bareContext.scope [] [hiddenCall]
      [.variableCall {} "@d"] [hiddenColor]
    exact ⟨r, rfl, homitted _ _ t hcolor rfl rfl (.inl rfl), hcall _ _ _ _ t' hshown⟩

/-- What a hidden call calls is printed.  Without the call nothing is. -/
theorem hidden_call_printed :
    ¬ ∀ (c : Context) (depth : Nat) (rule : Node) (t : Scope) (rs rs' : Ruleset),
      (∀ f ∈ c.frames, f.Fits FunctionTable.IsNative Node.IsStateless) →
      (Node.ruleset rs).Throughout Node.IsStateless →
      Ruleset.Replaces [rule] [] c.scope rs rs' t →
      rule.isBinding = false → rule.isShown = false →
      ∀ r r', (c.evaluate depth (.ruleset rs)).1 = .ok r →
        (c.evaluate depth (.ruleset rs')).1 = .ok r' →
        ((c.evaluate depth (.ruleset rs')).2.render r').text =
          ((c.evaluate depth (.ruleset rs)).2.render r).text := by
  intro h
  obtain ⟨t, hreplaces⟩ := callingRules_replaces bareContext.scope [] [hiddenCall] [] []
  have hcalled : ((bareContext.evaluate 3 (.ruleset (callingRules [hiddenCall]))).1.toOption.bind
      fun r => ((bareContext.evaluate 3 (.ruleset (callingRules [hiddenCall]))).2.render
        r).text.toOption) = some "p \x7b\n  width: auto;\n\x7d" := by
    decide +kernel
  have hempty : ((bareContext.evaluate 3 (.ruleset (callingRules []))).1.toOption.bind
      fun r => ((bareContext.evaluate 3 (.ruleset (callingRules []))).2.render r).text.toOption) =
        some "" := by
    decide +kernel
  obtain ⟨r, hr, htext⟩ := Context.exists_of_printed hcalled
  obtain ⟨r', hr', htext'⟩ := Context.exists_of_printed hempty
  have hsame := h bareContext 3 hiddenCall t (callingRules [hiddenCall]) (callingRules [])
    bareContext_fits (by decide) hreplaces rfl rfl r r' hr hr'
  rw [hsame, htext] at htext'
  exact absurd htext' (by decide)

end Cascade
