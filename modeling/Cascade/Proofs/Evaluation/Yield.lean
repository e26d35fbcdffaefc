import Cascade.Eval.Evaluate
import Cascade.Proofs.Tree.Children

/-!
# What evaluating a node can yield

A node is evaluated by putting a new node together from the results of its parts.
`Node.Yields` lists once and for all what this new node can be; conditions of queries are left
out, since their results live in the query states.  A property of results is an invariant of
evaluation as soon as it passes from the parts to what they yield.
-/

namespace Cascade

/-- What functions and arithmetic make of results. -/
inductive Node.Calculates (Result : Node → Prop) (scope : Scope) : Node → Node → Prop where
  /-- A built-in function on evaluated arguments. -/
  | function {info : Info} {name : String} {args values : List Node} {asCalc : Bool} {r : Node}
    (function : Builtin) (hvalues : ∀ v ∈ values, ∃ a, Result a ∧ v = a.stripComments)
    (hr : function.call values = .ok r) :
    Node.Calculates Result scope (.call info name args asCalc) r
  /-- A minus sign that is carried out. -/
  | negated {info : Info} {v v' r : Node} (hmath : scope.isMathOn) (hv : Result v')
    (hr : Node.operate scope {} .mul false Node.minusOne v' = .ok r) :
    Node.Calculates Result scope (.negative info v) r
  | operation {info : Info} {operator : Operator} {left right a b r : Node} {spaced : Bool}
    (ha : Result a) (hb : Result b) (hr : Node.operate scope info operator spaced a b = .ok r) :
    Node.Calculates Result scope (.operation info operator left right spaced) r

/-- What evaluating a node in a scope can put together from results. -/
inductive Node.Yields (Result : Node → Prop) (scope : Scope) : Node → Node → Prop where
  | calculated {n r : Node} (h : Node.Calculates Result scope n r) : Node.Yields Result scope n r
  | anonymous {info : Info} {text : String} {mapLines rulesetLike : Bool} :
    Node.Yields Result scope (.anonymous info text mapLines rulesetLike)
      (.anonymous info.snapshot text mapLines rulesetLike)
  | assignment {info : Info} {key : String} {v v' : Node} (hv : Result v') :
    Node.Yields Result scope (.assignment info key v) (.assignment info.snapshot key v')
  | selector {info : Info} {key : String} {operator flag : Option String} {v v' : Option Node}
    (hv : ∀ r, v' = some r → Result r) :
    Node.Yields Result scope (.attribute info key operator v flag)
      (.attribute info.snapshot key operator v' flag)
  /-- A call that is kept. -/
  | call {info : Info} {name : String} {args args' : List Node} {asCalc : Bool}
    (hargs : ∀ r ∈ args', Result r) :
    Node.Yields Result scope (.call info name args asCalc) (.call info.snapshot name args' asCalc)
  /-- A conditional without the branch that is taken. -/
  | nothing {info : Info} {name : String} {args : List Node} {asCalc : Bool} :
    Node.Yields Result scope (.call info name args asCalc) (.anonymous {} "" false false)
  | color {info : Info} {color : Color} :
    Node.Yields Result scope (.color info color) (.color info.snapshot color)
  | comment {info : Info} {text : String} {isLine : Bool} {debug : Option DebugInfo} :
    Node.Yields Result scope (.comment info text isLine debug)
      (.comment info.snapshot text isLine debug)
  | truth {info : Info} {relation : Relation} {left right : Node} {negate : Bool} (holds : Bool) :
    Node.Yields Result scope (.condition info relation left right negate) (.ofBool holds)
  | declaration {info : Info} {name : PropertyName} {v v' : Node} {traits : DeclarationTraits}
    {text important : String} (hname : ∀ t, name = .literal t → text = t) (hv : Result v') :
    Node.Yields Result scope (.declaration info name v traits)
      (.declaration info.snapshot (.literal text) v'.asValue
        { name.traits traits with important })
  | detached {info : Info} {body : Option Ruleset} {frames : Option (List Frame)} :
    Node.Yields Result scope (.detached info body frames)
      (.detached info.snapshot body (some (frames.getD scope.frames)))
  | dimension {info : Info} {dimension : Dimension} :
    Node.Yields Result scope (.dimension info dimension) (.dimension info.snapshot dimension)
  | expression {info : Info} {items items' : List Node} {form form' : ExpressionForm}
    (hitems : ∀ r ∈ items', Result r) :
    Node.Yields Result scope (.expression info items form)
      (.expression info.snapshot items' form')
  /-- Parentheses that are kept around the result of an expression. -/
  | parenthesized {info : Info} {items : List Node} {form : ExpressionForm} {r : Node}
    (hr : Result r) : Node.Yields Result scope (.expression info items form) (.paren {} r)
  | keyword {info : Info} {text : String} :
    Node.Yields Result scope (.keyword info text) (.keyword info.snapshot text)
  | negative {info : Info} {v v' : Node} (hv : Result v') :
    Node.Yields Result scope (.negative info v) (.negative info.snapshot v')
  | paren {info : Info} {v v' : Node} (hv : Result v') :
    Node.Yields Result scope (.paren info v) (.paren info.snapshot v')
  | quoted {info : Info} {quote : Char} {text : String} {escaped : Bool} :
    Node.Yields Result scope (.quoted info quote text escaped)
      (.quoted info.snapshot quote text escaped)
  | ruleset {info : Info} {selectors : List String} {rules rules' : List Node} {root : Bool}
    (hrules : ∀ r ∈ rules', Result r) :
    Node.Yields Result scope (.ruleset (.mk info selectors rules root))
      (.ruleset (.mk info.snapshot (Ruleset.combineSelectors scope.selectors selectors) rules'
        root))
  | unicodeDescriptor {info : Info} {text : String} :
    Node.Yields Result scope (.unicodeDescriptor info text) (.unicodeDescriptor info.snapshot text)
  | value {info : Info} {items items' : List Node} (hitems : ∀ r ∈ items', Result r) :
    Node.Yields Result scope (.value info items) (.value info.snapshot items')

/-- More results can be calculated from. -/
lemma Node.Calculates.imp {Result Result' : Node → Prop} {scope : Scope} {n r : Node}
    (h : Node.Calculates Result scope n r) (himp : ∀ v, Result v → Result' v) :
    Node.Calculates Result' scope n r := by
  cases h with
  | function function hvalues hr =>
    refine .function function (fun v hv => ?_) hr
    obtain ⟨a, ha, hstrip⟩ := hvalues v hv
    exact ⟨a, himp a ha, hstrip⟩
  | negated hmath hv hr => exact .negated hmath (himp _ hv) hr
  | operation ha hb hr => exact .operation (himp _ ha) (himp _ hb) hr

/-- More results can be put together. -/
lemma Node.Yields.imp {Result Result' : Node → Prop} {scope : Scope} {n r : Node}
    (h : Node.Yields Result scope n r) (himp : ∀ v, Result v → Result' v) :
    Node.Yields Result' scope n r := by
  cases h with
  | calculated h => exact .calculated (h.imp himp)
  | assignment hv => exact .assignment (himp _ hv)
  | parenthesized hr => exact .parenthesized (himp _ hr)
  | negative hv => exact .negative (himp _ hv)
  | paren hv => exact .paren (himp _ hv)
  | selector hv => exact .selector fun r hr => himp r (hv r hr)
  | call hargs => exact .call fun r hr => himp r (hargs r hr)
  | expression hitems => exact .expression fun r hr => himp r (hitems r hr)
  | ruleset hrules => exact .ruleset fun r hr => himp r (hrules r hr)
  | value hitems => exact .value fun r hr => himp r (hitems r hr)
  | declaration hname hv => exact .declaration hname (himp _ hv)
  | truth holds => exact .truth holds
  | anonymous => exact .anonymous
  | nothing => exact .nothing
  | color => exact .color
  | comment => exact .comment
  | detached => exact .detached
  | dimension => exact .dimension
  | keyword => exact .keyword
  | quoted => exact .quoted
  | unicodeDescriptor => exact .unicodeDescriptor

/-! ### Arithmetic and functions

What an operation or a function can give is a number, a colour, a keyword, or the operation on
its operands as they are. -/

/-- A computation in two steps succeeds if both steps do. -/
lemma except_bind_eq_ok_iff {ε α β : Type} {x : Except ε α} {f : α → Except ε β} {b : β} :
    (x >>= f) = .ok b ↔ ∃ a, x = .ok a ∧ f a = .ok b := by
  cases x with
  | error e => simp [bind, Except.bind]
  | ok a => simp [bind, Except.bind]

/-- Only numbers and colours are changed to be of one kind. -/
lemma Node.eq_of_promote_eq_operation {a b b' : Node} {info : Info} {operator : Operator}
    {l r : Node} {spaced : Bool}
    (h : Node.promote a b = (.operation info operator l r spaced, b')) :
    a = .operation info operator l r spaced ∧ b = b' := by
  unfold Node.promote at h
  split at h <;> simp_all

/-- An operation that is carried out gives a number, a colour, or an operation on a division
that was held back. -/
lemma Node.compute_cases {scope : Scope} {info : Info} {operator : Operator} {spaced : Bool}
    {a b r : Node} (h : Node.compute scope info operator spaced a b = .ok r) :
    (∃ i : Info, ∃ d, r = .dimension i.snapshot d) ∨ (∃ i : Info, ∃ c, r = .color i.snapshot c) ∨
      (∃ i x y s, a = .operation i .div x y s) ∧ scope.math = .parensDivision ∧
        r = .operation info.snapshot operator a b spaced := by
  unfold Node.compute at h
  split at h
  · obtain ⟨d, _, hr⟩ := except_bind_eq_ok_iff.1 h
    exact .inl ⟨_, d, (Except.ok.inj hr).symm⟩
  · obtain ⟨c, _, hr⟩ := except_bind_eq_ok_iff.1 h
    exact .inr (.inl ⟨_, c, (Except.ok.inj hr).symm⟩)
  · next hpromote =>
    obtain ⟨rfl, rfl⟩ := Node.eq_of_promote_eq_operation hpromote
    split at h
    next hmath => exact .inr (.inr ⟨⟨_, _, _, _, rfl⟩, hmath, (Except.ok.inj h).symm⟩)
    · cases h
  · cases h

/-- An operation gives a number, a colour, or itself on its operands. -/
lemma Node.operate_cases {scope : Scope} {info : Info} {operator : Operator} {spaced : Bool}
    {a b r : Node} (h : Node.operate scope info operator spaced a b = .ok r) :
    (∃ i : Info, ∃ d, r = .dimension i.snapshot d) ∨ (∃ i : Info, ∃ c, r = .color i.snapshot c) ∨
      r = .operation info.snapshot operator a b spaced := by
  unfold Node.operate at h
  split at h
  · rcases Node.compute_cases h with hd | hc | ⟨_, _, hr⟩
    · exact .inl hd
    · exact .inr (.inl hc)
    · exact .inr (.inr hr)
  · exact .inr (.inr (Except.ok.inj h).symm)

/-- A minus sign that is carried out gives a number or a colour. -/
lemma Node.operate_minusOne_cases {scope : Scope} {a r : Node} (hmath : scope.isMathOn)
    (h : Node.operate scope {} .mul false Node.minusOne a = .ok r) :
    (∃ i : Info, ∃ d, r = .dimension i.snapshot d) ∨ ∃ i : Info, ∃ c, r = .color i.snapshot c := by
  have hcomputes : scope.computes .mul := by simp [Scope.computes, hmath]
  rw [Node.operate, if_pos hcomputes] at h
  rcases Node.compute_cases h with hd | hc | ⟨⟨_, _, _, _, hdiv⟩, _⟩
  · exact .inl hd
  · exact .inr hc
  · simp [Node.minusOne] at hdiv

/-- A change of a colour gives a colour. -/
lemma Builtin.adjustColor_cases {function : Builtin} {change : Rgba → Float → Rgba}
    {values : List Node} {r : Node} (h : function.adjustColor change values = .ok r) :
    ∃ i : Info, ∃ c, r = .color i.snapshot c := by
  obtain ⟨color, _, h⟩ := except_bind_eq_ok_iff.1 h
  obtain ⟨amount, _, h⟩ := except_bind_eq_ok_iff.1 h
  exact ⟨{}, _, (Except.ok.inj h).symm⟩

/-- A built-in function gives a number, a colour, or a keyword. -/
lemma Builtin.call_cases {function : Builtin} {values : List Node} {r : Node}
    (h : function.call values = .ok r) :
    (∃ i : Info, ∃ d, r = .dimension i.snapshot d) ∨
      (∃ i : Info, ∃ c, r = .color i.snapshot c) ∨
        ∃ i : Info, ∃ t, r = .keyword i.snapshot t := by
  unfold Builtin.call at h
  cases function with
  | unit =>
    obtain ⟨dimension, _, h⟩ := except_bind_eq_ok_iff.1 h
    obtain ⟨name, _, h⟩ := except_bind_eq_ok_iff.1 h
    obtain ⟨result, _, h⟩ := except_bind_eq_ok_iff.1 h
    exact .inl ⟨{}, result, (Except.ok.inj h).symm⟩
  | convert =>
    obtain ⟨dimension, _, h⟩ := except_bind_eq_ok_iff.1 h
    obtain ⟨arg, _, h⟩ := except_bind_eq_ok_iff.1 h
    obtain ⟨target, _, h⟩ := except_bind_eq_ok_iff.1 h
    exact .inl ⟨{}, _, (Except.ok.inj h).symm⟩
  | percentage =>
    obtain ⟨dimension, _, h⟩ := except_bind_eq_ok_iff.1 h
    obtain ⟨result, _, h⟩ := except_bind_eq_ok_iff.1 h
    exact .inl ⟨{}, result, (Except.ok.inj h).symm⟩
  | lighten | darken | fade => exact .inr (.inl (Builtin.adjustColor_cases h))
  | boolean =>
    obtain ⟨condition, _, h⟩ := except_bind_eq_ok_iff.1 h
    exact .inr (.inr ⟨{}, _, (Except.ok.inj h).symm⟩)
  | cond => cases h

/-- The forms of what is calculated. -/
inductive Node.Calculated (Result : Node → Prop) : Node → Prop where
  | dimension (info : Info) (dimension : Dimension) :
    Node.Calculated Result (.dimension info dimension)
  | color (info : Info) (color : Color) : Node.Calculated Result (.color info color)
  | keyword (info : Info) (text : String) : Node.Calculated Result (.keyword info text)
  /-- An operation that is kept. -/
  | operation {info : Info} {operator : Operator} {a b : Node} {spaced : Bool} (ha : Result a)
    (hb : Result b) : Node.Calculated Result (.operation info operator a b spaced)

/-- Functions and arithmetic give numbers, colours, keywords, or the operation as it is. -/
lemma Node.Calculates.calculated {Result : Node → Prop} {scope : Scope} {n r : Node}
    (h : Node.Calculates Result scope n r) : Node.Calculated Result r := by
  cases h with
  | function function _ hr =>
    rcases Builtin.call_cases hr with ⟨i, d, rfl⟩ | ⟨i, c, rfl⟩ | ⟨i, t, rfl⟩
    · exact .dimension _ d
    · exact .color _ c
    · exact .keyword _ t
  | negated hmath _ hr =>
    rcases Node.operate_minusOne_cases hmath hr with ⟨i, d, rfl⟩ | ⟨i, c, rfl⟩
    · exact .dimension _ d
    · exact .color _ c
  | operation ha hb hr =>
    rcases Node.operate_cases hr with ⟨i, d, rfl⟩ | ⟨i, c, rfl⟩ | rfl
    · exact .dimension _ d
    · exact .color _ c
    · exact .operation ha hb

/-- A list around a result. -/
lemma Node.asValue_cases (v : Node) : v.asValue = v ∨ v.asValue = .value {} [v] := by
  unfold Node.asValue
  split
  · exact .inl rfl
  · exact .inr rfl

/-- The parts of what is put together are results, or lists around results. -/
lemma Node.Yields.mem_children {Result : Node → Prop} {scope : Scope} {n r c : Node}
    (h : Node.Yields Result scope n r) (hc : c ∈ r.children) :
    Result c ∨ ∃ v, Result v ∧ c = v.asValue := by
  cases h with
  | assignment hv | parenthesized hv | negative hv | paren hv =>
    rw [List.mem_singleton.1 hc]
    exact .inl hv
  | selector hv => exact .inl (hv c (Option.mem_toList.1 hc))
  | call hitems | expression hitems | ruleset hitems | value hitems => exact .inl (hitems c hc)
  | declaration _ hv => exact .inr ⟨_, hv, List.mem_singleton.1 hc⟩
  | calculated h =>
    cases h.calculated with
    | dimension | color | keyword => simp [Node.children] at hc
    | operation ha hb =>
      simp only [Node.children, List.mem_cons, List.not_mem_nil, or_false] at hc
      rcases hc with rfl | rfl
      · exact .inl ha
      · exact .inl hb
  | anonymous | nothing | color | comment | truth | detached | dimension | keyword | quoted
  | unicodeDescriptor =>
    simp [Node.children, Node.ofBool] at hc

end Cascade
